import Overseer.Proofs.CommandLine.Options
import Overseer.Proofs.Duration.Brimming

/-!
Command lines that end the program. Words are refused for many reasons, but reading them breaks off
for one only: a length of time that brims, given to one of the two switches that take one. Such a
value ends the program wherever it is first looked at.
-/
namespace Overseer.CommandLine

open Duration (Brims)

variable {σ : Type}

def Switch.Breaks (s : Switch σ) (text message : String) : Prop :=
  ∃ draft, s.apply draft text = .error (.aborted message)

/-- Only switches that need a value break, and they have no letter. -/
def Grammar.Robust (g : Grammar σ) : Prop :=
  ∀ s ∈ g.switches, ∀ text message, s.Breaks text message → s.takes = .value ∧ s.short = none

/-- The text stands in the words as the value of a switch. -/
def Offered (long text : String) (words : List String) : Prop :=
  optionWord long text ∈ words ∨ ["--" ++ long, text] <:+: words

theorem Offered.append {long text : String} {words : List String} (before : List String)
    (offered : Offered long text words) : Offered long text (before ++ words) :=
  offered.imp (List.mem_append_right before) fun infix_ =>
    infix_.trans (List.suffix_append before words).isInfix

theorem append_of_splitAtEquals {cs name value : List Char}
    (parted : splitAtEquals cs = (name, some value)) : cs = name ++ '=' :: value := by
  unfold splitAtEquals at parted
  split at parted
  next => cases parted
  next c rest eq =>
    obtain ⟨rfl, same⟩ := Prod.mk.inj parted
    obtain rfl := Option.some.inj same
    have first := List.head?_dropWhile_not (fun c => decide (c ≠ '=')) cs
    rw [eq] at first
    obtain rfl : c = '=' := by simpa using first
    exact (eq ▸ List.takeWhile_append_dropWhile).symm

theorem eq_of_splitAtEquals {cs name : List Char} (parted : splitAtEquals cs = (name, none)) :
    name = cs := by
  unfold splitAtEquals at parted
  split at parted
  next => exact (Prod.mk.inj parted).1.symm
  next => cases parted

/-- How a word with a long switch in it is spelled. -/
theorem word_of_form {word name : String} {value : Option String}
    (shape : form word = .long name value) :
    word = value.elim ("--" ++ name) (optionWord name) := by
  unfold form at shape
  split at shape
  case h_2 cs _ chars =>
    dsimp only at shape
    cases parted : splitAtEquals cs with
    | mk front back =>
      rw [parted] at shape
      obtain ⟨rfl, rfl⟩ := Form.long.inj shape
      cases back with
      | some v =>
        rw [append_of_splitAtEquals parted] at chars
        rw [← String.toList_inj, chars]
        simp [optionWord]
      | none =>
        rw [← eq_of_splitAtEquals parted] at chars
        rw [← String.toList_inj, chars]
        simp
  all_goals cases shape

theorem form_ne_cluster_nil (word : String) : form word ≠ .cluster [] := by
  unfold form
  split
  case h_4 letters _ more chars =>
    rintro ⟨⟩
    exact more rfl
  all_goals rintro ⟨⟩

variable {g : Grammar σ} {p p' : Progress σ} {s : Switch σ} {value : Option String}
  {message : String} {word : String} {words : List String}

namespace Progress

structure Idle (p : Progress σ) : Prop where
  pending : p.pending = none
  awaiting : p.awaiting = false

structure Awaits (p : Progress σ) (s : Switch σ) : Prop where
  pending : p.pending = some ⟨s, none⟩
  awaiting : p.awaiting = true

theorem react_eq_ok (done : p.react s value = .ok p') :
    p'.pending = p.pending ∧ p'.awaiting = p.awaiting := by
  unfold react at done
  dsimp only at done
  split at done
  · cases done
  · split at done
    · cases done
    · obtain ⟨draft, _, same⟩ := Except.bind_eq_ok_iff.mp done
      cases same
      exact ⟨rfl, rfl⟩

theorem react_aborted (broken : p.react s value = .error (.aborted message)) :
    ∃ text, s.Breaks text message ∧ (value = some text ∨ value = none ∧ s.takes ≠ .value) := by
  unfold react at broken
  dsimp only at broken
  split at broken
  next => cases broken
  next text given =>
    split at broken
    next => cases broken
    next =>
      obtain broken | ⟨_, _, ⟨⟩⟩ := Except.bind_eq_error_iff.mp broken
      refine ⟨text, ⟨_, broken⟩, ?_⟩
      split at given
      · exact .inl (congrArg some (Option.some.inj given))
      · exact .inr ⟨rfl, by simp [*]⟩
      · exact .inr ⟨rfl, by simp [*]⟩
      · cases given

theorem resolve_eq_ok (done : p.resolve = .ok p') : p'.Idle := by
  unfold resolve at done
  split at done
  next none =>
    obtain rfl := Except.ok.inj done
    exact ⟨none, rfl⟩
  next =>
    obtain ⟨pending, awaiting⟩ := react_eq_ok done
    exact ⟨pending, awaiting⟩

theorem Idle.resolve_ne (idle : p.Idle) : p.resolve ≠ .error (.aborted message) := by
  unfold resolve
  rw [idle.pending]
  rintro ⟨⟩

theorem decline_aborted {α : Type} {r : Refusal} :
    (p.decline r : Outcome α) = .error (.aborted message) ↔
      p.resolve = .error (.aborted message) := by
  unfold decline
  split
  next m broken => simp [broken]
  next other =>
    exact iff_of_false (by rintro ⟨⟩) fun broken => other _ broken

theorem decline_ne_ok {α : Type} {r : Refusal} {a : α} : (p.decline r : Outcome α) ≠ .ok a := by
  unfold decline
  split <;> rintro ⟨⟩

theorem give_aborted (broken : p.give s value = .error (.aborted message)) :
    p.resolve = .error (.aborted message) ∨
      ∃ text, s.Breaks text message ∧ (value = some text ∨ value = none ∧ s.takes ≠ .value) := by
  obtain first | ⟨_, _, later⟩ := Except.bind_eq_error_iff.mp broken
  · exact .inl first
  · exact .inr (react_aborted later)

theorem give_of_resolve (broken : p.resolve = .error (.aborted message)) :
    p.give s value = .error (.aborted message) := by
  rw [give, broken]
  rfl

theorem await_of_resolve (broken : p.resolve = .error (.aborted message)) :
    p.await s = .error (.aborted message) := by
  rw [await, broken]
  rfl

theorem give_eq_ok (done : p.give s value = .ok p') : p'.Idle := by
  obtain ⟨q, resolved, reacted⟩ := Except.bind_eq_ok_iff.mp done
  have idle := resolve_eq_ok resolved
  obtain ⟨pending, awaiting⟩ := react_eq_ok reacted
  exact ⟨pending.trans idle.pending, awaiting.trans idle.awaiting⟩

theorem await_aborted (broken : p.await s = .error (.aborted message)) :
    p.resolve = .error (.aborted message) := by
  obtain first | ⟨_, _, ⟨⟩⟩ := Except.bind_eq_error_iff.mp broken
  exact first

theorem await_eq_ok (done : p.await s = .ok p') : p'.Awaits s := by
  obtain ⟨_, _, same⟩ := Except.bind_eq_ok_iff.mp done
  cases same
  exact ⟨rfl, rfl⟩

end Progress

namespace Grammar

theorem readProgram_aborted (broken : readProgram p words = .error (.aborted message)) :
    p.resolve = .error (.aborted message) := by
  obtain first | ⟨_, _, ⟨⟩⟩ := Except.bind_eq_error_iff.mp broken
  exact first

theorem readProgram_eq_ok (done : readProgram p words = .ok p') : p'.Idle := by
  obtain ⟨q, resolved, same⟩ := Except.bind_eq_ok_iff.mp done
  have idle := Progress.resolve_eq_ok resolved
  cases same
  exact ⟨idle.pending, idle.awaiting⟩

theorem readTrailing_aborted (broken : g.readTrailing p words = .error (.aborted message)) :
    p.resolve = .error (.aborted message) := by
  unfold readTrailing at broken
  repeat' split at broken
  · cases broken
  · exact readProgram_aborted broken
  · exact Progress.decline_aborted.mp broken
  · exact Progress.decline_aborted.mp broken

theorem readTrailing_eq_ok (done : g.readTrailing p words = .ok p') : p' = p ∨ p'.Idle := by
  unfold readTrailing at done
  repeat' split at done
  · exact .inl (Except.ok.inj done).symm
  · exact .inr (readProgram_eq_ok done)
  · exact absurd done Progress.decline_ne_ok
  · exact absurd done Progress.decline_ne_ok

theorem mem_of_long? {name : String} (found : g.long? name = some s) :
    s ∈ g.switches ∧ s.long = name :=
  ⟨List.mem_of_find?_eq_some found, by simpa using List.find?_some found⟩

theorem mem_of_short? {c : Char} (found : g.short? c = some s) :
    s ∈ g.switches ∧ s.short ≠ none := by
  refine ⟨List.mem_of_find?_eq_some found, fun none => ?_⟩
  have short := List.find?_some found
  simp [none] at short

theorem readLong_aborted {name : String} (robust : g.Robust)
    (broken : g.readLong p name value = .error (.aborted message)) :
    p.resolve = .error (.aborted message) ∨
      ∃ s ∈ g.switches, ∃ text, s.long = name ∧ value = some text ∧ s.Breaks text message := by
  unfold readLong at broken
  split at broken
  next => exact .inl (Progress.decline_aborted.mp broken)
  next s found =>
    obtain ⟨member, named⟩ := mem_of_long? found
    have given {value : Option String} (broken : p.give s value = .error (.aborted message)) :
        p.resolve = .error (.aborted message) ∨
          ∃ text, value = some text ∧ s.Breaks text message := by
      obtain first | ⟨text, breaks, given | ⟨_, other⟩⟩ := Progress.give_aborted broken
      · exact .inl first
      · exact .inr ⟨text, given, breaks⟩
      · exact absurd (robust s member text message breaks).1 other
    split at broken
    · exact .inl (Progress.decline_aborted.mp broken)
    · exact (given broken).imp_right fun ⟨_, without, _⟩ => nomatch without
    · exact (given broken).imp_right fun ⟨text, offered, breaks⟩ =>
        ⟨s, member, text, named, offered, breaks⟩
    · exact .inl (Progress.await_aborted broken)

theorem readLong_eq_ok {name : String} (done : g.readLong p name value = .ok p') :
    p'.Idle ∨ ∃ s ∈ g.switches, s.long = name ∧ value = none ∧ p'.Awaits s := by
  unfold readLong at done
  split at done
  next => exact absurd done Progress.decline_ne_ok
  next s found =>
    obtain ⟨member, named⟩ := mem_of_long? found
    split at done
    · exact absurd done Progress.decline_ne_ok
    · exact .inl (Progress.give_eq_ok done)
    · exact .inl (Progress.give_eq_ok done)
    · exact .inr ⟨s, member, named, rfl, Progress.await_eq_ok done⟩

theorem readCluster_aborted {letters : List Char} (robust : g.Robust)
    (broken : g.readCluster p letters = .error (.aborted message)) :
    p.resolve = .error (.aborted message) := by
  induction letters generalizing p with
  | nil => cases broken
  | cons c cs ih =>
    unfold readCluster at broken
    split at broken
    next => exact Progress.decline_aborted.mp broken
    next s found =>
      obtain ⟨member, lettered⟩ := mem_of_short? found
      have given {value : Option String} (broken : p.give s value = .error (.aborted message)) :
          p.resolve = .error (.aborted message) := by
        obtain first | ⟨text, breaks, _⟩ := Progress.give_aborted broken
        · exact first
        · exact absurd (robust s member text message breaks).2 lettered
      split at broken
      · obtain broken | ⟨q, done, later⟩ := Except.bind_eq_error_iff.mp broken
        · exact given broken
        · exact absurd (ih later) (Progress.give_eq_ok done).resolve_ne
      · exact Progress.await_aborted broken
      · exact given broken
      · exact given broken

theorem readCluster_eq_ok {letters : List Char} (done : g.readCluster p letters = .ok p') :
    letters = [] ∧ p' = p ∨ p'.Idle ∨ ∃ s ∈ g.switches, s.short ≠ none ∧ p'.Awaits s := by
  induction letters generalizing p with
  | nil => exact .inl ⟨rfl, (Except.ok.inj done).symm⟩
  | cons c cs ih =>
    unfold readCluster at done
    split at done
    next => exact absurd done Progress.decline_ne_ok
    next s found =>
      obtain ⟨member, lettered⟩ := mem_of_short? found
      split at done
      · obtain ⟨q, given, later⟩ := Except.bind_eq_ok_iff.mp done
        obtain ⟨_, rfl⟩ | rest := ih later
        · exact .inr (.inl (Progress.give_eq_ok given))
        · exact .inr rest
      · exact .inr (.inr ⟨s, member, lettered, Progress.await_eq_ok done⟩)
      · exact .inr (.inl (Progress.give_eq_ok done))
      · exact .inr (.inl (Progress.give_eq_ok done))

/-- Reads words up to the end or a subcommand, and decides on the last switch. -/
def readEnd (g : Grammar σ) (p : Progress σ) (words : List String) : Outcome (Progress σ) :=
  g.readWords p words >>= fun read => read.1.resolve

inductive Takes (g : Grammar σ) (p : Progress σ) (word : String) : Progress σ → Prop where
  | done {p' : Progress σ} (idle : p'.Idle) : Takes g p word p'
  | awaits {p' : Progress σ} {s : Switch σ} (member : s ∈ g.switches)
      (spelled : s.short = none → word = "--" ++ s.long) (awaits : p'.Awaits s) : Takes g p word p'
  | supplied (awaiting : p.awaiting = true) : Takes g p word (p.supply word)

/-- Where all other words are taken at once, reading breaks off only at what was pending before. -/
theorem resolve_of_last {last : Outcome (Progress σ)} {sub : Option Subcommand}
    (broken : (last >>= fun q => Except.ok (q, sub)) >>= (fun read => read.1.resolve) =
      .error (.aborted message))
    (held : last = .error (.aborted message) → p.resolve = .error (.aborted message))
    (taken : ∀ q, last = .ok q → q = p ∨ q.Idle) : p.resolve = .error (.aborted message) := by
  obtain broken | ⟨⟨q, _⟩, read, later⟩ := Except.bind_eq_error_iff.mp broken
  · obtain broken | ⟨_, _, ⟨⟩⟩ := Except.bind_eq_error_iff.mp broken
    exact held broken
  · obtain ⟨q', done, same⟩ := Except.bind_eq_ok_iff.mp read
    cases same
    obtain rfl | idle := taken q done
    · exact later
    · exact absurd later idle.resolve_ne

/-- Reading breaks off at a value that is pending, in this word or in the words after it. -/
theorem readEnd_cons_aborted (robust : g.Robust)
    (broken : g.readEnd p (word :: words) = .error (.aborted message)) :
    p.resolve = .error (.aborted message) ∨
      (∃ s ∈ g.switches, ∃ text, word = optionWord s.long text ∧ s.Breaks text message) ∨
      ∃ p', g.Takes p word p' ∧ g.readEnd p' words = .error (.aborted message) := by
  unfold readEnd readWords at broken
  split at broken
  next => exact .inl broken
  next =>
    split at broken
    next shape =>
      exact .inl (resolve_of_last broken readTrailing_aborted fun q => readTrailing_eq_ok)
    next name value shape =>
      rw [bind_assoc] at broken
      obtain broken | ⟨q, read, later⟩ := Except.bind_eq_error_iff.mp broken
      · obtain held | ⟨s, member, text, named, given, breaks⟩ := readLong_aborted robust broken
        · exact .inl held
        · refine .inr (.inl ⟨s, member, text, ?_, breaks⟩)
          rw [word_of_form shape, given, named]
          rfl
      · refine .inr (.inr ⟨q, ?_, later⟩)
        obtain idle | ⟨s, member, named, bare, awaits⟩ := readLong_eq_ok read
        · exact .done idle
        · refine .awaits member (fun _ => ?_) awaits
          rw [word_of_form shape, bare, named]
          rfl
    next letters shape =>
      rw [bind_assoc] at broken
      obtain broken | ⟨q, read, later⟩ := Except.bind_eq_error_iff.mp broken
      · exact .inl (readCluster_aborted robust broken)
      · refine .inr (.inr ⟨q, ?_, later⟩)
        obtain ⟨rfl, _⟩ | idle | ⟨s, member, lettered, awaits⟩ := readCluster_eq_ok read
        · exact absurd shape (form_ne_cluster_nil word)
        · exact .done idle
        · exact .awaits member (fun bare => absurd bare lettered) awaits
    next =>
      split at broken
      next awaiting => exact .inr (.inr ⟨_, .supplied awaiting, broken⟩)
      next =>
        split at broken
        next =>
          exact .inl (resolve_of_last broken readProgram_aborted fun q read =>
            .inr (readProgram_eq_ok read))
        next =>
          obtain broken | ⟨_, declined, _⟩ := Except.bind_eq_error_iff.mp broken
          · exact .inl (Progress.decline_aborted.mp broken)
          · exact absurd declined Progress.decline_ne_ok

/-- A value at which reading breaks off: one that is pending, one that the next word gives to the
switch that is pending, or one in the words. -/
inductive Blames (g : Grammar σ) (message : String) (p : Progress σ) (words : List String) :
    Prop where
  | held {s : Switch σ} {text : String} (pending : p.pending = some ⟨s, some text⟩)
      (breaks : s.Breaks text message)
  | next {s : Switch σ} {value : Option String} {text : String} (awaiting : p.awaiting = true)
      (pending : p.pending = some ⟨s, value⟩) (front : words.head? = some text)
      (breaks : s.Breaks text message)
  | offered {s : Switch σ} {text : String} (member : s ∈ g.switches)
      (offered : Offered s.long text words) (breaks : s.Breaks text message)

theorem Robust.resolve_aborted (robust : g.Robust)
    (known : ∀ q ∈ p.pending, q.switch ∈ g.switches)
    (broken : p.resolve = .error (.aborted message)) :
    ∃ s text, p.pending = some ⟨s, some text⟩ ∧ s.Breaks text message := by
  unfold Progress.resolve at broken
  split at broken
  next => cases broken
  next s value pending =>
    obtain ⟨text, breaks, rfl | ⟨_, other⟩⟩ := Progress.react_aborted broken
    · exact ⟨s, text, pending, breaks⟩
    · exact absurd (robust s (known _ pending) text message breaks).1 other

theorem blames_of_readEnd (robust : g.Robust) (known : ∀ q ∈ p.pending, q.switch ∈ g.switches)
    (broken : g.readEnd p words = .error (.aborted message)) : g.Blames message p words := by
  induction words generalizing p with
  | nil =>
    obtain ⟨s, text, pending, breaks⟩ := robust.resolve_aborted known broken
    exact .held pending breaks
  | cons word words ih =>
    obtain broken | ⟨s, member, text, rfl, breaks⟩ | ⟨p', takes, broken⟩ :=
      readEnd_cons_aborted robust broken
    · obtain ⟨s, text, pending, breaks⟩ := robust.resolve_aborted known broken
      exact .held pending breaks
    · exact .offered member (.inl List.mem_cons_self) breaks
    · have later {s : Switch σ} {text : String} (offered : Offered s.long text words) :
          Offered s.long text (word :: words) := offered.append [word]
      -- Whatever is blamed in the words after this one was in these words already, unless it is
      -- the value that this word waits for or the one that it supplies.
      cases takes with
      | done idle =>
        cases ih (by simp [idle.pending]) broken with
        | held pending => simp [idle.pending] at pending
        | next _ pending => simp [idle.pending] at pending
        | offered member offered breaks => exact .offered member (later offered) breaks
      | @awaits _ s member spelled awaits =>
        cases ih (by simp [awaits.pending, member]) broken with
        | held pending => simp [awaits.pending] at pending
        | @next s' _ text _ pending front breaks =>
          cases awaits.pending.symm.trans pending
          obtain ⟨rest, rfl⟩ := List.head?_eq_some_iff.mp front
          refine .offered member (.inr ⟨[], rest, ?_⟩) breaks
          rw [spelled (robust s member text message breaks).2]
          rfl
        | offered member offered breaks => exact .offered member (later offered) breaks
      | supplied awaiting =>
        have known' : ∀ q ∈ (p.supply word).pending, q.switch ∈ g.switches := by
          intro q among
          obtain ⟨q', pending, rfl⟩ := Option.map_eq_some_iff.mp among
          exact known q' pending
        cases ih known' broken with
        | held supplied breaks =>
          obtain ⟨⟨s, value⟩, pending, same⟩ := Option.map_eq_some_iff.mp supplied
          cases same
          exact .next awaiting pending rfl breaks
        | next awaiting => cases awaiting
        | offered member offered breaks => exact .offered member (later offered) breaks

theorem readLong_of_resolve {name : String} (broken : p.resolve = .error (.aborted message)) :
    g.readLong p name value = .error (.aborted message) := by
  unfold readLong
  repeat' split
  · exact Progress.decline_aborted.mpr broken
  · exact Progress.decline_aborted.mpr broken
  · exact Progress.give_of_resolve broken
  · exact Progress.give_of_resolve broken
  · exact Progress.await_of_resolve broken

theorem readCluster_of_resolve {letters : List Char} (some : letters ≠ [])
    (broken : p.resolve = .error (.aborted message)) :
    g.readCluster p letters = .error (.aborted message) := by
  obtain ⟨c, cs, rfl⟩ := List.exists_cons_of_ne_nil some
  unfold readCluster
  repeat' split
  · exact Progress.decline_aborted.mpr broken
  · rw [Progress.give_of_resolve broken]
    rfl
  · exact Progress.await_of_resolve broken
  · exact Progress.give_of_resolve broken
  · exact Progress.give_of_resolve broken

theorem readProgram_of_resolve (broken : p.resolve = .error (.aborted message)) :
    readProgram p words = .error (.aborted message) := by
  rw [readProgram, broken]
  rfl

/-- Once a value is pending at which reading breaks off, nothing that comes after it matters. -/
theorem readEnd_of_resolve (alone : g.subcommands = []) (resting : p.awaiting = false)
    (broken : p.resolve = .error (.aborted message)) :
    g.readEnd p words = .error (.aborted message) := by
  cases words with
  | nil => exact broken
  | cons word words =>
    unfold readEnd readWords
    rw [alone, resting]
    simp only [List.contains_nil, Bool.and_false, Bool.false_eq_true, if_false]
    split
    next =>
      unfold readTrailing
      repeat' split
      · exact broken
      · rw [readProgram_of_resolve broken]
        rfl
      · rw [Progress.decline_aborted.mpr broken]
        rfl
      · rw [Progress.decline_aborted.mpr broken]
        rfl
    next =>
      rw [readLong_of_resolve broken]
      rfl
    next letters shape =>
      have some : letters ≠ [] := fun none => form_ne_cluster_nil word (none ▸ shape)
      rw [readCluster_of_resolve some broken]
      rfl
    next =>
      split
      · rw [readProgram_of_resolve broken]
        rfl
      · rw [Progress.decline_aborted.mpr broken]
        rfl

inductive Gives (long text : String) : List String → Prop where
  | together : Gives long text [optionWord long text]
  | apart : Gives long text ["--" ++ long, text]

theorem form_longWord {name : String} (plain : '=' ∉ name.toList) (named : name ≠ "") :
    form ("--" ++ name) = .long name none := by
  have other : ∀ c ∈ name.toList, decide (c ≠ '=') = true := by
    intro c there
    exact decide_eq_true fun same => plain (same ▸ there)
  have parted : splitAtEquals name.toList = (name.toList, none) := by
    unfold splitAtEquals
    rw [List.dropWhile_eq_nil_iff.mpr other]
  have chars : ("--" ++ name).toList = '-' :: '-' :: name.toList := by simp
  obtain ⟨c, cs, eq⟩ := List.exists_cons_of_ne_nil (mt String.toList_eq_nil_iff.mp named)
  rw [eq] at chars parted
  unfold form
  rw [chars]
  simp only [parted, Option.map_none]
  rw [← eq, String.ofList_toList]

theorem readEnd_long {name : String} (alone : g.subcommands = [])
    (shape : form word = .long name value) (p : Progress σ) (words : List String) :
    g.readEnd p (word :: words) = g.readLong p name value >>= fun p => g.readEnd p words := by
  unfold readEnd
  rw [readWords, alone, shape]
  simp only [List.contains_nil, Bool.and_false, Bool.false_eq_true, if_false, bind_assoc]

theorem readEnd_plain (alone : g.subcommands = []) (awaiting : p.awaiting = true)
    (shape : form word = .plain) (words : List String) :
    g.readEnd p (word :: words) = g.readEnd (p.supply word) words := by
  unfold readEnd
  rw [readWords, alone, shape, awaiting]
  rfl

/-- The first value breaks off reading if it breaks its switch. -/
theorem readEnd_of_gives {draft : σ} {long text : String} {given rest : List String}
    (alone : g.subcommands = []) (known : g.long? long = some s) (takes : s.takes = .value)
    (plain : '=' ∉ long.toList) (named : long ≠ "") (undashed : text.toList.head? ≠ some '-')
    (broken : s.apply draft text = .error (.aborted message)) (gives : Gives long text given) :
    g.readEnd { draft } (given ++ rest) = .error (.aborted message) := by
  have reacts (p : Progress σ) (same : p.draft = draft) (fresh : p.seen = []) :
      p.react s (some text) = .error (.aborted message) := by
    simp [Progress.react, same, fresh, broken, bind, Except.bind]
  cases gives with
  | together =>
    have read : g.readLong { draft } long (some text) = .error (.aborted message) := by
      simp only [readLong, known, takes]
      exact reacts _ rfl rfl
    rw [List.singleton_append, readEnd_long alone (form_optionWord long plain text), read]
    rfl
  | apart =>
    have read : g.readLong { draft } long none =
        .ok { draft, pending := some ⟨s, none⟩, awaiting := true } := by
      simp only [readLong, known, takes]
      rfl
    rw [List.cons_append, readEnd_long alone (form_longWord plain named), read]
    change g.readEnd _ (text :: rest) = _
    rw [readEnd_plain alone rfl (form_plain undashed)]
    exact readEnd_of_resolve alone rfl (reacts _ rfl rfl)

end Grammar

end Overseer.CommandLine
