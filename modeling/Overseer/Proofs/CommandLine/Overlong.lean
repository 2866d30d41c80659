import Overseer.Proofs.CommandLine.Aborts

/-!
The commands of the program and the lengths of time that they are given. `run` takes one with
`--stop-timeout` and `child` with `--lifetime`; nothing else that is said to either, or in front of
them, ends the program while it is read.
-/
namespace Overseer.CommandLine

open Duration (Brims)

variable {σ : Type} {g : Grammar σ} {s : Switch σ} {text message : String} {words : List String}

theorem readDuration_aborted_iff :
    readDuration text = .error (.aborted message) ↔
      Brims text ∧ message = DurationError.overflow.message := by
  rw [← Duration.ofText_eq_overflow_iff]
  unfold readDuration
  split
  next d whole => exact iff_of_false (by rintro ⟨⟩) (by simp [whole])
  next broken =>
    rw [and_iff_right broken]
    exact ⟨fun same => by cases same; rfl, by rintro rfl; rfl⟩
  next e other refused =>
    refine iff_of_false (by rintro ⟨⟩) fun ⟨broken, _⟩ => ?_
    rw [refused] at broken
    exact other (Except.error.inj broken)

theorem readPath_ne_aborted (display text : String) :
    readPath display text ≠ .error (.aborted message) := by
  unfold readPath
  split <;> rintro ⟨⟩

theorem readVariable_ne_aborted (text : String) :
    readVariable text ≠ .error (.aborted message) := by
  unfold readVariable
  split <;> rintro ⟨⟩

theorem readNumber_ne_aborted (greatest : Nat) (text : String) :
    readNumber greatest text ≠ .error (.aborted message) := by
  unfold readNumber
  repeat' split
  all_goals rintro ⟨⟩

theorem not_breaks_common {s : Switch (Draft σ)} (member : s ∈ commonSwitches) :
    ¬s.Breaks text message := by
  simp only [commonSwitches, List.mem_cons, List.not_mem_nil, or_false] at member
  rintro ⟨draft, broken⟩
  rcases member with rfl | rfl | rfl
  · cases broken
  · exact Except.bind_ne_error (readPath_ne_aborted _ _) (fun _ => by rintro ⟨⟩) broken
  · cases broken

/-- What a switch hands on to the command's own part of the draft. -/
theorem apply_of_breaks {long valueName : String} {short : Option Char}
    {apply : String → σ → String → Outcome σ}
    (breaks : (valueSwitch long short valueName apply).Breaks text message) :
    ∃ display d, apply display d text = .error (.aborted message) := by
  obtain ⟨draft, broken⟩ := breaks
  obtain first | ⟨_, _, ⟨⟩⟩ := Except.bind_eq_error_iff.mp broken
  exact ⟨_, _, first⟩

/-- The switch breaks as a length of time that it is given cannot be read. -/
structure TakesDuration (s : Switch σ) (long text message : String) : Prop where
  long : s.long = long
  takes : s.takes = .value
  short : s.short = none
  read : readDuration text = .error (.aborted message)

theorem takesDuration_of_bind {α : Type} {f : Duration → Outcome α} {long : String}
    (named : s.long = long)
    (takes : s.takes = .value) (short : s.short = none)
    (later : ∀ d, f d ≠ .error (.aborted message))
    (broken : readDuration text >>= f = .error (.aborted message)) :
    TakesDuration s long text message := by
  obtain first | ⟨d, _, last⟩ := Except.bind_eq_error_iff.mp broken
  · exact ⟨named, takes, short, first⟩
  · exact absurd last (later d)

theorem breaks_run {s : Switch (Draft RunDraft)} (member : s ∈ runGrammar.switches)
    (breaks : s.Breaks text message) : TakesDuration s "stop-timeout" text message := by
  obtain common | own := List.mem_append.mp member
  · exact absurd breaks (not_breaks_common common)
  simp only [List.mem_cons, List.not_mem_nil, or_false] at own
  rcases own with rfl | rfl | rfl | rfl
  · obtain ⟨display, d, broken⟩ := apply_of_breaks breaks
    exact absurd broken (Except.bind_ne_error (readPath_ne_aborted _ _) fun _ => by rintro ⟨⟩)
  · obtain ⟨draft, broken⟩ := breaks
    have spared (d : RunDraft) : (readVariable text >>= fun v =>
        Except.ok { d with env := d.env ++ [v] }) ≠ .error (.aborted message) :=
      Except.bind_ne_error (readVariable_ne_aborted text) fun _ => by rintro ⟨⟩
    exact absurd broken (Except.bind_ne_error (spared _) fun _ => by rintro ⟨⟩)
  · obtain ⟨draft, ⟨⟩⟩ := breaks
  · obtain ⟨display, d, broken⟩ := apply_of_breaks breaks
    refine takesDuration_of_bind rfl rfl rfl (fun _ => ?_) broken
    rintro ⟨⟩

theorem breaks_child {s : Switch (Draft ChildDraft)} (member : s ∈ childGrammar.switches)
    (breaks : s.Breaks text message) : TakesDuration s "lifetime" text message := by
  obtain common | own := List.mem_append.mp member
  · exact absurd breaks (not_breaks_common common)
  simp only [List.mem_cons, List.not_mem_nil, or_false] at own
  rcases own with rfl | rfl | rfl | rfl | rfl
  · obtain ⟨display, d, broken⟩ := apply_of_breaks breaks
    exact absurd broken (Except.bind_ne_error (readNumber_ne_aborted _ _) fun _ => by rintro ⟨⟩)
  · obtain ⟨display, d, ⟨⟩⟩ := apply_of_breaks breaks
  · obtain ⟨draft, ⟨⟩⟩ := breaks
  · obtain ⟨display, d, broken⟩ := apply_of_breaks breaks
    exact absurd broken (Except.bind_ne_error (readNumber_ne_aborted _ _) fun _ => by rintro ⟨⟩)
  · obtain ⟨display, d, broken⟩ := apply_of_breaks breaks
    refine takesDuration_of_bind rfl rfl rfl (fun _ => ?_) broken
    rintro ⟨⟩

theorem not_breaks_root {s : Switch (Draft Unit)} (member : s ∈ rootGrammar.switches) :
    ¬s.Breaks text message := by
  obtain common | own := List.mem_append.mp member
  · exact not_breaks_common common
  · obtain rfl := List.mem_singleton.mp own
    rintro ⟨draft, ⟨⟩⟩

theorem robust_of_takesDuration {long : String}
    (only : ∀ s ∈ g.switches, ∀ text message, s.Breaks text message →
      TakesDuration s long text message) : g.Robust :=
  fun s member text message breaks =>
    ⟨(only s member text message breaks).takes, (only s member text message breaks).short⟩

theorem robust_of_not_breaks
    (none : ∀ s ∈ g.switches, ∀ text message, ¬s.Breaks text message) : g.Robust :=
  fun s member text message breaks => absurd breaks (none s member text message)

/-- From the beginning, only a value in the words can be to blame. -/
theorem exists_offered {draft : σ} (robust : g.Robust)
    (broken : g.readEnd { draft } words = .error (.aborted message)) :
    ∃ s ∈ g.switches, ∃ text, Offered s.long text words ∧ s.Breaks text message := by
  cases Grammar.blames_of_readEnd robust (by simp) broken with
  | held pending => cases pending
  | next awaiting => cases awaiting
  | @offered s text member offered breaks => exact ⟨s, member, text, offered, breaks⟩

theorem readAll_aborted {g : Grammar (Draft σ)} {d : σ} {long : String}
    (only : ∀ s ∈ g.switches, ∀ text message, s.Breaks text message →
      TakesDuration s long text message)
    (broken : readAll g d words = .error (.aborted message)) :
    ∃ text, Offered long text words ∧ readDuration text = .error (.aborted message) := by
  obtain ⟨s, member, text, offered, breaks⟩ :=
    exists_offered (robust_of_takesDuration only) broken
  have given := only s member text message breaks
  exact ⟨text, given.long ▸ offered, given.read⟩

theorem readRun_aborted (broken : readRun words = .error (.aborted message)) :
    ∃ text, Offered "stop-timeout" text words ∧ readDuration text = .error (.aborted message) := by
  obtain first | ⟨p, _, later⟩ := Except.bind_eq_error_iff.mp broken
  · exact readAll_aborted (fun _ member _ _ => breaks_run member) first
  · dsimp only at later
    split at later <;> cases later

theorem fallBack_ne_aborted {lookup : String → Option String} {name : String} {given : Bool}
    {take : ChildDraft → String → Outcome ChildDraft}
    (spared : ∀ d text, take d text ≠ .error (.aborted message)) (d : ChildDraft) :
    fallBack lookup name given take d ≠ .error (.aborted message) := by
  unfold fallBack
  repeat' split
  · rintro ⟨⟩
  · rintro ⟨⟩
  · exact spared _ _

theorem readChild_aborted {lookup : String → Option String}
    (broken : readChild lookup words = .error (.aborted message)) :
    ∃ text, Offered "lifetime" text words ∧ readDuration text = .error (.aborted message) := by
  obtain first | ⟨p, _, later⟩ := Except.bind_eq_error_iff.mp broken
  · exact readAll_aborted (fun _ member _ _ => breaks_child member) first
  · refine absurd later (Except.bind_ne_error (fallBack_ne_aborted (fun d text => ?_) _) fun own =>
      Except.bind_ne_error (fallBack_ne_aborted (fun d text => ?_) _) fun own => ?_)
    · exact Except.bind_ne_error (readNumber_ne_aborted _ _) fun _ => by rintro ⟨⟩
    · rintro ⟨⟩
    · rintro ⟨⟩

/-- A subcommand and what comes after it are the last of the words. -/
theorem words_of_readWords {p p' : Progress σ} {name : String} {rest : List String}
    (read : g.readWords p words = .ok (p', some (name, rest))) :
    ∃ before, words = before ++ name :: rest := by
  induction words generalizing p with
  | nil => cases read
  | cons word words ih =>
    have later {q : Progress σ} (read : g.readWords q words = .ok (p', some (name, rest))) :
        ∃ before, word :: words = before ++ name :: rest := by
      obtain ⟨before, rfl⟩ := ih read
      exact ⟨word :: before, rfl⟩
    unfold Grammar.readWords at read
    repeat' split at read
    · cases read
      exact ⟨[], rfl⟩
    · obtain ⟨_, _, ⟨⟩⟩ := Except.bind_eq_ok_iff.mp read
    · obtain ⟨_, _, read⟩ := Except.bind_eq_ok_iff.mp read
      exact later read
    · obtain ⟨_, _, read⟩ := Except.bind_eq_ok_iff.mp read
      exact later read
    · exact later read
    · obtain ⟨_, _, ⟨⟩⟩ := Except.bind_eq_ok_iff.mp read
    · exact absurd read Progress.decline_ne_ok

theorem readEnd_root_ne_aborted (words : List String) (message : String) :
    rootGrammar.readEnd { draft := { own := () } } words ≠ .error (.aborted message) := by
  intro broken
  have none : ∀ s ∈ rootGrammar.switches, ∀ text message, ¬s.Breaks text message :=
    fun s member text message => not_breaks_root member
  obtain ⟨s, member, text, _, breaks⟩ := exists_offered (robust_of_not_breaks none) broken
  exact none s member text message breaks

/-- What the words offer to the command that they name, for the switch of it that takes a length of
time. -/
def OffersDuration (text : String) (words : List String) : Prop :=
  ∃ before rest,
    words = before ++ "run" :: rest ∧ Offered "stop-timeout" text rest ∨
    words = before ++ "child" :: rest ∧ Offered "lifetime" text rest

theorem readAction_aborted {lookup : String → Option String} {name : String}
    (before : List String) (broken : readAction lookup name words = .error (.aborted message)) :
    ∃ text, OffersDuration text (before ++ name :: words) ∧
      readDuration text = .error (.aborted message) := by
  unfold readAction at broken
  split at broken
  next named =>
    obtain first | ⟨_, _, ⟨⟩⟩ := Except.bind_eq_error_iff.mp broken
    obtain ⟨text, offered, read⟩ := readRun_aborted first
    exact ⟨text, ⟨before, words, .inl ⟨named ▸ rfl, offered⟩⟩, read⟩
  split at broken
  next named =>
    obtain first | ⟨_, _, ⟨⟩⟩ := Except.bind_eq_error_iff.mp broken
    obtain ⟨text, offered, read⟩ := readChild_aborted first
    exact ⟨text, ⟨before, words, .inr ⟨named ▸ rfl, offered⟩⟩, read⟩
  split at broken
  next =>
    obtain first | ⟨_, _, ⟨⟩⟩ := Except.bind_eq_error_iff.mp broken
    have none : ∀ s ∈ diagramGrammar.switches, ∀ text message, ¬s.Breaks text message :=
      fun s member text message => not_breaks_common member
    obtain ⟨s, member, text, _, breaks⟩ := exists_offered (robust_of_not_breaks none) first
    exact absurd breaks (none s member text message)
  next => cases broken

/-- Reading ends the program only at a length of time that brims. -/
theorem brims_of_read {lookup : String → Option String}
    (broken : read lookup words = .error (.aborted message)) :
    message = DurationError.overflow.message ∧
      ∃ text, Brims text ∧ OffersDuration text words := by
  have resolved {p : Progress (Draft Unit)} {sub : Option Grammar.Subcommand}
      (read : rootGrammar.readWords { draft := { own := () } } words = .ok (p, sub)) :
      p.resolve ≠ .error (.aborted message) := by
    intro failed
    refine readEnd_root_ne_aborted words message ?_
    rw [Grammar.readEnd, read]
    exact failed
  obtain first | ⟨⟨p, sub⟩, read, later⟩ := Except.bind_eq_error_iff.mp broken
  · refine absurd ?_ (readEnd_root_ne_aborted words message)
    rw [Grammar.readEnd, first]
    rfl
  cases sub with
  | none =>
    obtain first | ⟨q, _, ⟨⟩⟩ := Except.bind_eq_error_iff.mp later
    exact absurd first (resolved read)
  | some sub =>
    obtain ⟨name, rest⟩ := sub
    obtain ⟨before, rfl⟩ := words_of_readWords read
    obtain acting | ⟨_, _, last⟩ := Except.bind_eq_error_iff.mp later
    · obtain ⟨text, offered, refused⟩ := readAction_aborted before acting
      obtain ⟨brims, same⟩ := readDuration_aborted_iff.mp refused
      exact ⟨same, text, brims, offered⟩
    · obtain first | ⟨_, _, ⟨⟩⟩ := Except.bind_eq_error_iff.mp last
      exact absurd first (resolved read)

theorem readDuration_of_brims (brims : Brims text) :
    readDuration text = .error (.aborted DurationError.overflow.message) :=
  readDuration_aborted_iff.mpr ⟨brims, rfl⟩

theorem readAction_run_of_brims {given rest : List String} (lookup : String → Option String)
    (brims : Brims text) (gives : Grammar.Gives "stop-timeout" text given) :
    readAction lookup "run" (given ++ rest) =
      .error (.aborted DurationError.overflow.message) := by
  have ended : readAll runGrammar {} (given ++ rest) =
      .error (.aborted DurationError.overflow.message) := by
    refine Grammar.readEnd_of_gives rfl rfl rfl (by decide) (by decide) brims.undashed ?_ gives
    simp only [valueSwitch, readDuration_of_brims brims]
    rfl
  change (readRun (given ++ rest) >>= _) = _
  rw [readRun, ended]
  rfl

theorem readAction_child_of_brims {given rest : List String} (lookup : String → Option String)
    (brims : Brims text) (gives : Grammar.Gives "lifetime" text given) :
    readAction lookup "child" (given ++ rest) =
      .error (.aborted DurationError.overflow.message) := by
  have ended : readAll childGrammar {} (given ++ rest) =
      .error (.aborted DurationError.overflow.message) := by
    refine Grammar.readEnd_of_gives rfl rfl rfl (by decide) (by decide) brims.undashed ?_ gives
    simp only [valueSwitch, readDuration_of_brims brims]
    rfl
  change (readChild lookup (given ++ rest) >>= _) = _
  rw [readChild, ended]
  rfl

theorem read_of_readAction {lookup : String → Option String} {name : String}
    (known : name ∈ rootGrammar.subcommands)
    (broken : readAction lookup name words = .error (.aborted message)) :
    read lookup (name :: words) = .error (.aborted message) := by
  have command : (!false && rootGrammar.subcommands.contains name) = true := by simpa using known
  have first : rootGrammar.readWords { draft := { own := () } } (name :: words) =
      .ok ({ draft := { own := () } }, some (name, words)) := by
    rw [Grammar.readWords]
    exact if_pos command
  rw [read, first]
  change (readAction lookup name words >>= _) = _
  rw [broken]
  rfl

/-- The only lengths of time that end the program are the sums to which nanoseconds, at most a
second of them, are added last and make 2⁶⁴ seconds exactly. A command line is read to the end or
refused, unless such a length is offered to `run` or `child`, and it ends the program if that length
is the first thing that they are told, whatever comes after it. -/
theorem read_breaks_off_at_brims (lookup : String → Option String) (words : List String) :
    (∀ text, Duration.ofText text = .error .overflow ↔ Brims text) ∧
    ((∃ i, read lookup words = .ok i) ∨ (∃ r, read lookup words = .error (.refused r)) ∨
      read lookup words = .error (.aborted DurationError.overflow.message) ∧
        ∃ text, Brims text ∧ OffersDuration text words) ∧
    (∀ text given rest, Brims text →
      words = "run" :: (given ++ rest) ∧ Grammar.Gives "stop-timeout" text given ∨
        words = "child" :: (given ++ rest) ∧ Grammar.Gives "lifetime" text given →
      read lookup words = .error (.aborted DurationError.overflow.message)) := by
  refine ⟨fun text => Duration.ofText_eq_overflow_iff, ?_, ?_⟩
  · match outcome : read lookup words with
    | .ok i => exact .inl ⟨i, rfl⟩
    | .error (.refused r) => exact .inr (.inl ⟨r, rfl⟩)
    | .error (.aborted message) =>
      obtain ⟨rfl, offered⟩ := brims_of_read outcome
      exact .inr (.inr ⟨rfl, offered⟩)
  · rintro text given rest brims (⟨rfl, gives⟩ | ⟨rfl, gives⟩)
    · exact read_of_readAction (by decide) (readAction_run_of_brims lookup brims gives)
    · exact read_of_readAction (by decide) (readAction_child_of_brims lookup brims gives)

theorem read_breaks_off_at_last_second :
    Brims "18446744073709551615s 1000000000ns" ∧
    read (fun _ => none) ["child", "--lifetime=18446744073709551615s 1000000000ns", "--help"] =
      .error (.aborted "overflow in Duration::new") := by
  obtain ⟨sums, -, always⟩ := read_breaks_off_at_brims (fun _ => none)
    ["child", "--lifetime=18446744073709551615s 1000000000ns", "--help"]
  have brims : Brims "18446744073709551615s 1000000000ns" := (sums _).mp (by decide +kernel)
  exact ⟨brims, always _ _ ["--help"] brims (.inr ⟨rfl, .together⟩)⟩

/-- One second more than there is room for ends the program, if nanoseconds make it up. -/
theorem run_aborts :
    ¬∀ (lookup : String → Option String) (words : List String),
      (∃ i, read lookup words = .ok i) ∨ ∃ r, read lookup words = .error (.refused r) := by
  intro ends
  have broken : read (fun _ => none)
      ["run", "--stop-timeout", "18446744073709551615s 1000000000ns", "x"] =
      .error (.aborted "overflow in Duration::new") := by decide +kernel
  obtain ⟨i, done⟩ | ⟨r, refused⟩ := ends _ _
  · cases broken.symm.trans done
  · cases broken.symm.trans refused

end Overseer.CommandLine
