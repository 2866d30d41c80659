import Overseer.CommandLine.Invocation
import Overseer.Proofs.Duration.Addition

/-!
Options of `run`, each complete in one word: what a word is read as, what it changes in the draft,
and so what any list of them does.
-/
namespace Overseer.CommandLine

theorem splitAtEquals_of_not_mem {name : List Char} (plain : '=' ∉ name) (value : List Char) :
    splitAtEquals (name ++ '=' :: value) = (name, some value) := by
  have before : ∀ c ∈ name, decide (c ≠ '=') = true := by
    intro c there
    exact decide_eq_true fun same => plain (same ▸ there)
  unfold splitAtEquals
  rw [List.dropWhile_append_of_pos before, List.takeWhile_append_of_pos before]
  simp

def optionWord (name value : String) : String :=
  "--" ++ name ++ "=" ++ value

theorem form_optionWord (name : String) (plain : '=' ∉ name.toList) (value : String) :
    form (optionWord name value) = .long name (some value) := by
  have chars : (optionWord name value).toList =
      '-' :: '-' :: (name.toList ++ '=' :: value.toList) := by
    simp [optionWord]
  have parted := splitAtEquals_of_not_mem plain value.toList
  obtain ⟨c, cs, eq⟩ : ∃ c cs, name.toList ++ '=' :: value.toList = c :: cs :=
    List.exists_cons_of_ne_nil (by simp)
  rw [eq] at chars parted
  unfold form
  rw [chars]
  simp only [parted, Option.map_some, String.ofList_toList]

theorem form_plain {word : String} (undashed : word.toList.head? ≠ some '-') :
    form word = .plain := by
  unfold form
  cases chars : word.toList with
  | nil => rfl
  | cons c cs =>
    rw [chars] at undashed
    have other : c ≠ '-' := fun same => undashed (congrArg some same)
    split <;> simp_all

theorem readVariable_pair {name : String} (named : name ≠ "") (plain : '=' ∉ name.toList)
    (value : String) : readVariable (name ++ "=" ++ value) = .ok (name, value) := by
  have chars : (name ++ "=" ++ value).toList = name.toList ++ '=' :: value.toList := by simp
  have parted := splitAtEquals_of_not_mem plain value.toList
  obtain ⟨c, cs, eq⟩ : ∃ c cs, name.toList = c :: cs :=
    List.exists_cons_of_ne_nil (by simpa using named)
  unfold readVariable
  rw [chars, parted, eq]
  simp only [← eq, String.ofList_toList]

/-- An option of `run` that can be given: a path and a variable have names, and a number of seconds
fits into 64 bits. -/
inductive Given where
  | workdir (path : String) (named : path ≠ "")
  | env (name value : String) (named : name ≠ "") (plain : '=' ∉ name.toList)
  | captureStderr
  | stopTimeout (seconds : Nat) (fits : seconds ≤ greatest64)

namespace Given

def long : Given → String
  | .workdir _ _ => "workdir"
  | .env _ _ _ _ => "env"
  | .captureStderr => "capture-stderr"
  | .stopTimeout _ _ => "stop-timeout"

def value? : Given → Option String
  | .workdir path _ => some path
  | .env name value _ _ => some (name ++ "=" ++ value)
  | .captureStderr => none
  | .stopTimeout seconds _ => some (toString seconds ++ "s")

def word (g : Given) : String :=
  match g.value? with
  | some value => optionWord g.long value
  | none => "--" ++ g.long

def take (d : RunDraft) : Given → RunDraft
  | .workdir path _ => { d with workdir := some path }
  | .env name value _ _ => { d with env := d.env ++ [(name, value)] }
  | .captureStderr => { d with captureStderr := true }
  | .stopTimeout seconds fits => { d with stopTimeout := .ofSeconds seconds fits }

theorem form_word (g : Given) : form g.word = .long g.long g.value? := by
  cases g with
  | workdir path => exact form_optionWord "workdir" (by decide) path
  | env name value => exact form_optionWord "env" (by decide) (name ++ "=" ++ value)
  | captureStderr => decide
  | stopTimeout seconds => exact form_optionWord "stop-timeout" (by decide) _

end Given

def Progress.between (d : RunDraft) (seen : List String) : Progress (Draft RunDraft) :=
  { draft := { own := d }, seen }

theorem react_between {d d' : RunDraft} {seen : List String} {s : Switch (Draft RunDraft)}
    {value : Option String} {text : String}
    (given : value = some text ∨ value = none ∧ s.takes = .nothing ∧ text = "")
    (fresh : s.repeats = true ∨ s.long ∉ seen)
    (applied : s.apply { own := d } text = .ok { own := d' }) :
    (Progress.between d seen).react s value = .ok (.between d' (s.long :: seen)) := by
  have again : (!s.repeats && seen.contains s.long) = false := by
    rcases fresh with repeats | unseen
    · simp [repeats]
    · simp [unseen]
  have done : (if !s.repeats && seen.contains s.long then refuse (.repeated s.display)
      else do
        let draft ← s.apply { own := d } text
        .ok { Progress.between d seen with draft, seen := s.long :: seen }) =
      (.ok (.between d' (s.long :: seen)) : Outcome (Progress (Draft RunDraft))) := by
    rw [again, applied]
    rfl
  rcases given with rfl | ⟨rfl, takes, rfl⟩
  · exact done
  · unfold Progress.react
    rw [takes]
    exact done

/-- An option that is complete in its word is taken at once. -/
theorem readWords_option {d d' : RunDraft} {seen words : List String} {word name text : String}
    {value : Option String} {s : Switch (Draft RunDraft)} (shape : form word = .long name value)
    (known : runGrammar.long? name = some s)
    (given : s.takes = .value ∧ value = some text ∨ s.takes = .nothing ∧ value = none ∧ text = "")
    (fresh : s.repeats = true ∨ s.long ∉ seen)
    (applied : s.apply { own := d } text = .ok { own := d' }) :
    runGrammar.readWords (.between d seen) (word :: words) =
      runGrammar.readWords (.between d' (s.long :: seen)) words := by
  have read : runGrammar.readLong (.between d seen) name value =
      .ok (.between d' (s.long :: seen)) := by
    unfold Grammar.readLong
    rcases given with ⟨takes, rfl⟩ | ⟨takes, rfl, rfl⟩
    · simp only [known, takes]
      exact react_between (.inl rfl) fresh applied
    · simp only [known, takes]
      exact react_between (.inr ⟨rfl, takes, rfl⟩) fresh applied
  have running : (!(Progress.between d seen).awaiting && runGrammar.subcommands.contains word) =
      false := rfl
  rw [Grammar.readWords, running, shape]
  change (do runGrammar.readWords (← runGrammar.readLong (.between d seen) name value) words) = _
  rw [read]
  rfl

theorem valueSwitch_apply {long valueName text : String} {short : Option Char} {d d' : RunDraft}
    {apply : String → RunDraft → String → Outcome RunDraft}
    (applied : apply ("--" ++ long ++ " <" ++ valueName ++ ">") d text = .ok d') :
    (valueSwitch long short valueName apply).apply { own := d } text = .ok { own := d' } := by
  simp only [valueSwitch, applied]
  rfl

theorem readWords_given (d : RunDraft) (seen : List String) (g : Given) (words : List String)
    (fresh : g.long = "env" ∨ g.long ∉ seen) :
    runGrammar.readWords (.between d seen) (g.word :: words) =
      runGrammar.readWords (.between (g.take d) (g.long :: seen)) words := by
  have shape := g.form_word
  cases g with
  | workdir path named =>
    have unseen := fresh.resolve_left (by simp [Given.long])
    have read (display : String) : readPath display path = .ok path :=
      if_neg (by simpa using named)
    refine readWords_option shape rfl (.inl ⟨rfl, rfl⟩) (.inr unseen) (valueSwitch_apply ?_)
    simp only [read]
    rfl
  | env name value named plain =>
    have read := readVariable_pair named plain value
    refine readWords_option shape rfl (.inl ⟨rfl, rfl⟩) (.inl rfl) ?_
    simp only [envSwitch, valueSwitch, read]
    rfl
  | captureStderr =>
    have unseen := fresh.resolve_left (by simp [Given.long])
    exact readWords_option shape rfl (.inr ⟨rfl, rfl, rfl⟩) (.inr unseen) rfl
  | stopTimeout seconds fits =>
    have unseen := fresh.resolve_left (by simp [Given.long])
    have read : readDuration (toString seconds ++ "s") = .ok (.ofSeconds seconds fits) := by
      rw [readDuration, Duration.ofText_of_digits_s (Text.digits_toString seconds) fits]
    refine readWords_option shape rfl (.inl ⟨rfl, rfl⟩) (.inr unseen) (valueSwitch_apply ?_)
    simp only [read]
    rfl

/-- Options are taken in their order, as long as none comes again that may come only once. -/
theorem readWords_givens (d : RunDraft) (seen : List String) {gs : List Given}
    (rest : List String) (once : gs.Pairwise fun a b => a.long = b.long → a.long = "env")
    (fresh : ∀ g ∈ gs, g.long = "env" ∨ g.long ∉ seen) :
    ∃ seen', runGrammar.readWords (.between d seen) (gs.map Given.word ++ rest) =
      runGrammar.readWords (.between (gs.foldl Given.take d) seen') rest := by
  induction gs generalizing d seen with
  | nil => exact ⟨seen, rfl⟩
  | cons g gs ih =>
    have ⟨alone, later⟩ := List.pairwise_cons.1 once
    have unseen : ∀ h ∈ gs, h.long = "env" ∨ h.long ∉ g.long :: seen := by
      intro h there
      by_cases same : g.long = h.long
      · exact .inl (same ▸ alone h there same)
      · refine (fresh h (List.mem_cons_of_mem g there)).imp_right fun unseen member => ?_
        exact (List.mem_cons.1 member).elim (fun equal => same equal.symm) unseen
    obtain ⟨seen', read⟩ := ih (g.take d) (g.long :: seen) later unseen
    refine ⟨seen', ?_⟩
    rw [List.map_cons, List.cons_append,
      readWords_given d seen g _ (fresh g List.mem_cons_self), read, List.foldl_cons]

end Overseer.CommandLine
