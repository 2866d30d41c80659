import Overseer.Parent
import Overseer.Proofs.Text.Numerals

/-!
Which id of a parent is found: the one that is given, or the one that the variable names, or none.
-/
namespace Overseer.Parent

/-- White space around it aside, the value is a process id: digits, and perhaps a plus sign. -/
def Names (value : String) (pid : UInt32) : Prop :=
  ∃ core, Text.Stripped value core ∧ Text.Unsigned pid.toNat core.toList

structure Resolved (explicit : Option UInt32) (lookup : String → Option String)
    (r : Resolution) : Prop where
  /-- The variable is not even asked for. -/
  given : ∀ pid, explicit = some pid → r = ⟨some pid, none, []⟩
  asked : explicit = none → r.lookedUp = some parentVariable
  named : explicit = none →
    ∀ pid, r.pid = some pid ↔ ∃ value, lookup parentVariable = some value ∧ Names value pid
  silent : explicit = none → lookup parentVariable = none → r.warnings = []
  /-- What is no id is shown as it is. -/
  warned : explicit = none → ∀ value, lookup parentVariable = some value →
    if r.pid.isSome then r.warnings = []
    else ∃ w, r.warnings = [w] ∧ w.message = "ignoring unparseable parent process id" ∧
      w.fields.lookup "var" = some parentVariable ∧
        w.fields.lookup "value" = some (Text.quote value)

theorem names_iff {value : String} {pid : UInt32} :
    Names value pid ↔
      Text.parseNatural greatest32 (Text.trimBlank value) = .ok pid.toNat := by
  have bound : pid.toNat ≤ greatest32 := Nat.le_sub_one_of_lt pid.toNat_lt
  rw [Text.parseNatural_eq_ok_iff, and_iff_left bound]
  constructor
  · rintro ⟨core, stripped, unsigned⟩
    exact Text.stripped_iff.mp stripped ▸ unsigned
  · exact fun unsigned => ⟨_, Text.stripped_trimBlank value, unsigned⟩

/-- A number that is read has its place among the ids. -/
theorem exists_names_of_ok {value : String} {n : Nat}
    (read : Text.parseNatural greatest32 (Text.trimBlank value) = .ok n) :
    n.toUInt32.toNat = n ∧ Names value n.toUInt32 := by
  have bound : n ≤ greatest32 := (Text.parseNatural_eq_ok_iff.mp read).2
  have same : n.toUInt32.toNat = n := Nat.mod_eq_of_lt (Nat.lt_of_le_sub_one (by decide) bound)
  exact ⟨same, names_iff.mpr (same.symm ▸ read)⟩

theorem Names.unique {value : String} {pid other : UInt32} (one : Names value pid)
    (two : Names value other) : pid = other := by
  have same := (names_iff.mp one).symm.trans (names_iff.mp two)
  exact UInt32.toNat_inj.mp (Except.ok.inj same)

theorem Names.of_unsigned {value : String} {pid : UInt32}
    (unsigned : Text.Unsigned pid.toNat value.toList) : Names value pid :=
  ⟨value, Text.stripped_self unsigned.not_blank, unsigned⟩

/-- What begins with a minus sign names none, be it zero. -/
theorem not_names_of_minus {value : String} (minus : value.toList.head? = some '-') (pid : UInt32) :
    ¬Names value pid :=
  fun ⟨_, stripped, unsigned⟩ => unsigned.no_minus (stripped.head minus (by decide))

/-- The variable is unset, or it names an id, or it does not and there is a warning. -/
theorem resolve_none_cases (lookup : String → Option String) :
    lookup parentVariable = none ∧ resolve none lookup = ⟨none, some parentVariable, []⟩ ∨
    (∃ value pid, lookup parentVariable = some value ∧ Names value pid ∧
      resolve none lookup = ⟨some pid, some parentVariable, []⟩) ∨
    ∃ value e, lookup parentVariable = some value ∧ (∀ pid, ¬Names value pid) ∧
      resolve none lookup = ⟨none, some parentVariable, [.unreadableParent value e]⟩ := by
  unfold resolve
  dsimp only
  split
  next unset => exact .inl ⟨unset, rfl⟩
  next value present =>
    split
    next n read => exact .inr (.inl ⟨value, _, present, (exists_names_of_ok read).2, rfl⟩)
    next e refused =>
      refine .inr (.inr ⟨value, e, present, fun pid names => ?_, rfl⟩)
      cases refused.symm.trans (names_iff.mp names)

theorem resolved_resolve (explicit : Option UInt32) (lookup : String → Option String) :
    Resolved explicit lookup (resolve explicit lookup) := by
  cases explicit with
  | some pid =>
    refine ⟨fun other same => ?_, nofun, nofun, nofun, nofun⟩
    rw [← Option.some.inj same]
    rfl
  | none =>
    rcases resolve_none_cases lookup with
      ⟨unset, r⟩ | ⟨value, pid, present, names, r⟩ | ⟨value, e, present, other, r⟩ <;> rw [r]
    · refine ⟨nofun, fun _ => rfl, fun _ pid => ?_, fun _ _ => rfl, fun _ value present => ?_⟩
      · exact iff_of_false nofun fun ⟨_, present, _⟩ => nomatch unset.symm.trans present
      · cases unset.symm.trans present
    · refine ⟨nofun, fun _ => rfl, fun _ other => ⟨?_, ?_⟩, fun _ _ => rfl, fun _ _ _ => rfl⟩
      · rintro ⟨⟩
        exact ⟨value, present, names⟩
      · rintro ⟨value', present', names'⟩
        obtain rfl := Option.some.inj (present.symm.trans present')
        exact congrArg some (names.unique names')
    · refine ⟨nofun, fun _ => rfl, fun _ pid => ?_, fun _ unset => ?_, fun _ value' present' => ?_⟩
      · refine iff_of_false nofun ?_
        rintro ⟨value', present', names⟩
        obtain rfl := Option.some.inj (present.symm.trans present')
        exact other pid names
      · cases present.symm.trans unset
      · obtain rfl := Option.some.inj (present.symm.trans present')
        exact ⟨_, rfl, rfl, rfl, rfl⟩

end Overseer.Parent
