import Overseer.Proofs.Arguments.RoundTrip
import Overseer.Proofs.Settings.Overrides

/-!
Settings that are built step by step. A step writes one slot: the arguments, a variable, or whether
standard error is captured. What is last written to a slot counts, so that steps that write
different slots may change places.
-/
namespace Overseer.Settings

inductive Slot where
  | arguments
  | env (name : String)
  | captureStderr
  deriving DecidableEq, Repr

def Step.slot : Step → Slot
  | .arguments _ | .args _ => .arguments
  | .env name _ => .env name
  | .captureStderr _ => .captureStderr

/-- What the step says is so. A list of arguments is the one that the program is given. -/
def Shows (s : Settings) : Step → Prop
  | .arguments value => s.arguments = value
  | .args values => s.arguments = Arguments.join values ∧ s.argv = values
  | .env name value => s.environment.get? name = some value
  | .captureStderr value => s.captureStderr = value

def Bare (s : Settings) : Slot → Prop
  | .arguments => s.arguments = "" ∧ s.argv = []
  | .env name => s.environment.get? name = none
  | .captureStderr => s.captureStderr = false

/-- What steps make of a directory and a program. -/
structure Built (directory program : String) (steps : List Step) (s : Settings) : Prop where
  workingDirectory : s.workingDirectory = directory
  program : s.program = program
  /-- The last step that writes a slot decides. -/
  last : ∀ earlier t later, steps = earlier ++ t :: later → (∀ u ∈ later, u.slot ≠ t.slot) →
    s.Shows t
  bare : ∀ slot, (∀ t ∈ steps, t.slot ≠ slot) → s.Bare slot

def Agrees (s s' : Settings) : Slot → Prop
  | .arguments => s.arguments = s'.arguments
  | .env name => s.environment.get? name = s'.environment.get? name
  | .captureStderr => s.captureStderr = s'.captureStderr

variable {s s' s'' : Settings} {slot : Slot} {steps others : List Step}

theorem Agrees.refl (s : Settings) (slot : Slot) : s.Agrees s slot := by
  cases slot <;> rfl

theorem Agrees.trans (first : s.Agrees s' slot) (second : s'.Agrees s'' slot) :
    s.Agrees s'' slot := by
  cases slot <;> exact Eq.trans first second

theorem Agrees.symm (agrees : s.Agrees s' slot) : s'.Agrees s slot := by
  cases slot <;> exact Eq.symm agrees

theorem Agrees.shows {t : Step} (agrees : s.Agrees s' t.slot) (shows : s'.Shows t) : s.Shows t := by
  cases t with
  | arguments | env | captureStderr => exact Eq.trans agrees shows
  | args values =>
    have same : s.arguments = s'.arguments := agrees
    rwa [Shows, argv, same]

theorem Agrees.bare (agrees : s.Agrees s' slot) (bare : s'.Bare slot) : s.Bare slot := by
  cases slot with
  | env | captureStderr => exact Eq.trans agrees bare
  | arguments =>
    have same : s.arguments = s'.arguments := agrees
    rwa [Bare, argv, same]

/-- Settings are the same that have the same in every slot. -/
theorem eq_of_agrees (directory : s.workingDirectory = s'.workingDirectory)
    (program : s.program = s'.program) (agrees : ∀ slot, s.Agrees s' slot) : s = s' := by
  have arguments : s.arguments = s'.arguments := agrees .arguments
  have environment := Environment.ext_get? fun name => agrees (.env name)
  have flag : s.captureStderr = s'.captureStderr := agrees .captureStderr
  cases s
  cases s'
  rw [Settings.mk.injEq]
  exact ⟨directory, program, arguments, environment, flag⟩

theorem shows_apply (s : Settings) (t : Step) : (s.apply t).Shows t := by
  cases t with
  | arguments | captureStderr => rfl
  | args values => exact ⟨rfl, Arguments.group_join values⟩
  | env name value => exact (Environment.get?_insert _ _ _ _).trans (if_pos rfl)

/-- A step leaves the other slots alone. -/
theorem apply_agrees_of_ne (s : Settings) {t : Step} (other : t.slot ≠ slot) :
    (s.apply t).Agrees s slot := by
  cases t with
  | arguments | args =>
    cases slot with
    | arguments => exact absurd rfl other
    | env | captureStderr => rfl
  | captureStderr =>
    cases slot with
    | captureStderr => exact absurd rfl other
    | arguments | env => rfl
  | env name value =>
    cases slot with
    | arguments | captureStderr => rfl
    | env key =>
      have different : key ≠ name := fun same => other (same ▸ rfl)
      exact (Environment.get?_insert _ _ _ _).trans (if_neg different)

theorem Agrees.step (agrees : s.Agrees s' slot) (t : Step) :
    (s.apply t).Agrees (s'.apply t) slot := by
  by_cases here : t.slot = slot
  · subst here
    cases t with
    | arguments | args | captureStderr => rfl
    | env name value =>
      exact (shows_apply s (.env name value)).trans (shows_apply s' (.env name value)).symm
  · exact ((apply_agrees_of_ne s here).trans agrees).trans (apply_agrees_of_ne s' here).symm

theorem foldl_fixed (s : Settings) (steps : List Step) :
    (steps.foldl apply s).workingDirectory = s.workingDirectory ∧
      (steps.foldl apply s).program = s.program := by
  induction steps generalizing s with
  | nil => exact ⟨rfl, rfl⟩
  | cons t steps ih =>
    obtain ⟨directory, program⟩ := ih (s.apply t)
    cases t <;> exact ⟨directory, program⟩

/-- Only the steps that write a slot matter for it. -/
theorem Agrees.foldl_filter (agrees : s.Agrees s' slot) (steps : List Step) :
    (steps.foldl apply s).Agrees ((steps.filter fun t => t.slot = slot).foldl apply s') slot := by
  induction steps generalizing s s' with
  | nil => exact agrees
  | cons t steps ih =>
    by_cases here : t.slot = slot
    · rw [List.filter_cons_of_pos (by simpa using here)]
      exact ih (agrees.step t)
    · rw [List.filter_cons_of_neg (by simpa using here)]
      exact ih ((apply_agrees_of_ne s here).trans agrees)

theorem foldl_agrees_of_unwritten (s : Settings) (unwritten : ∀ t ∈ steps, t.slot ≠ slot) :
    (steps.foldl apply s).Agrees s slot := by
  have agrees := (Agrees.refl s slot).foldl_filter steps
  rwa [List.filter_eq_nil_iff.mpr (by simpa using unwritten)] at agrees

theorem getLast?_history (s : Settings) (steps : List Step) :
    (s.history steps).getLast? = some (steps.foldl apply s) := by
  induction steps generalizing s with
  | nil => rfl
  | cons t steps ih =>
    rw [history, List.getLast?_cons, ih]
    rfl

theorem built_foldl (directory program : String) (steps : List Step) :
    Built directory program steps
      (steps.foldl apply { workingDirectory := directory, program }) where
  workingDirectory := (foldl_fixed _ steps).1
  program := (foldl_fixed _ steps).2
  last := by
    rintro earlier t later rfl others
    rw [List.foldl_append, List.foldl_cons]
    exact (foldl_agrees_of_unwritten _ others).shows (shows_apply _ t)
  bare slot unwritten := by
    refine (foldl_agrees_of_unwritten _ unwritten).bare ?_
    cases slot with
    | env | captureStderr => rfl
    | arguments => exact ⟨rfl, Arguments.group_join []⟩

/-- The settings after the last step hold what was last written to each slot. Where steps change
places so that those on the same slot stay in order, the settings and the command are the same; its
variables are in the order of the bytes of their names, none of them twice. -/
theorem steps_last_win (directory program : String) (steps : List Step) :
    let start : Settings := { workingDirectory := directory, program }
    ∃ s, (start.history steps).getLast? = some s ∧ Built directory program steps s ∧
      (∀ others : List Step, (∀ slot, (others.filter fun t => t.slot = slot) =
          steps.filter fun t => t.slot = slot) →
        ∃ s', (start.history others).getLast? = some s' ∧ s' = s ∧ s'.command = s.command) ∧
      s.command.arguments = s.argv ∧
      (∀ name, s.command.environment.lookup name = s.environment.get? name) ∧
      s.command.environment.Pairwise fun a b =>
        bytesBefore (Utf8.encode a.1) (Utf8.encode b.1) := by
  intro start
  refine ⟨_, getLast?_history start steps, built_foldl directory program steps,
    fun others ordered => ?_, rfl, fun name => rfl, (steps.foldl apply start).environment.ascending⟩
  have same : others.foldl apply start = steps.foldl apply start := by
    obtain ⟨directory', program'⟩ := foldl_fixed start others
    obtain ⟨directory, program⟩ := foldl_fixed start steps
    refine eq_of_agrees (directory'.trans directory.symm) (program'.trans program.symm) ?_
    intro slot
    have written := (Agrees.refl start slot).foldl_filter others
    rw [ordered slot] at written
    exact written.trans ((Agrees.refl start slot).foldl_filter steps).symm
  exact ⟨_, getLast?_history start others, same, congrArg command same⟩

/-- The arguments come later and the flag earlier, among writes to two variables. -/
theorem steps_last_win_reordered :
    let start : Settings := { workingDirectory := "d", program := "p" }
    let steps : List Step := [.args ["a b", ""], .env "B" "1", .env "A" "1", .captureStderr true,
      .env "B" "2"]
    let others : List Step := [.env "B" "1", .captureStderr true, .env "B" "2", .args ["a b", ""],
      .env "A" "1"]
    (∀ slot, (others.filter fun t => t.slot = slot) = steps.filter fun t => t.slot = slot) ∧
      ∃ s, (start.history steps).getLast? = some s ∧ (start.history others).getLast? = some s ∧
        s.command.arguments = ["a b", ""] ∧ s.environment.get? "B" = some "2" ∧
        s.environment.get? "C" = none ∧ s.captureStderr = true := by
  intro start steps others
  have ordered (slot : Slot) :
      (others.filter fun t => t.slot = slot) = steps.filter fun t => t.slot = slot := by
    cases slot with
    | arguments | captureStderr => rfl
    | env name =>
      by_cases first : "A" = name
      · subst first
        decide
      · by_cases second : "B" = name
        · subst second
          decide
        · simp [others, steps, Step.slot, first, second]
  obtain ⟨s, last, built, same, arguments, _⟩ := steps_last_win "d" "p" steps
  obtain ⟨_, last', rfl, _⟩ := same others ordered
  have argv := built.last [] (.args ["a b", ""]) _ rfl (by decide)
  exact ⟨ordered, _, last, last', arguments.trans argv.2,
    built.last [.args ["a b", ""], .env "B" "1", .env "A" "1", .captureStderr true]
      (.env "B" "2") [] rfl (by decide),
    built.bare (.env "C") (by decide),
    built.last [.args ["a b", ""], .env "B" "1", .env "A" "1"] (.captureStderr true)
      [.env "B" "2"] rfl (by decide)⟩

end Overseer.Settings
