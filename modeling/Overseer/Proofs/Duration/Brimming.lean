import Overseer.Proofs.Duration.Sums

/-!
When reading a length of time ends the program. All that can be wrong with the characters of a text
is reported, and so is every sum that is too long but one: that to which nanoseconds, no more than
a second has, are added last and make it exactly one second too many.
-/
namespace Overseer.Duration

open TimeUnit (Scale)

/-- Terms fit one after the other until nanoseconds make exactly 2⁶⁴ seconds. -/
def Brims (text : String) : Prop :=
  ∃ terms rest parts n, Begins terms text.toList rest ∧
    (parts ++ [Scale.nanoseconds n]).map .ok <+: terms.flatMap Term.parts ∧ FitFrom 0 parts ∧
    0 < n ∧ n ≤ nanosPerSecond ∧ sum parts + n = limit

theorem firstDigit?_ne_overflow (start offset : Nat) (cs : List Char) :
    firstDigit? start offset cs ≠ .error .overflow := by
  induction cs generalizing offset with
  | nil => rintro ⟨⟩
  | cons c cs ih =>
    unfold firstDigit?
    repeat' split
    · rintro ⟨⟩
    · exact ih _
    · rintro ⟨⟩

theorem wholePart_ne_overflow (n offset : Nat) (cs : List Char) :
    wholePart n offset cs ≠ .error .overflow := by
  induction cs generalizing n offset with
  | nil => rintro ⟨⟩
  | cons c cs ih =>
    unfold wholePart
    repeat' split
    · exact Except.bind_ne_error (checked_ne_overflow _) fun n => ih n _
    · exact ih _ _
    · rintro ⟨⟩
    · rintro ⟨⟩

theorem fractionPart_ne_overflow (f : Fraction) (mark offset : Nat) (cs : List Char) :
    fractionPart f mark offset cs ≠ .error .overflow := by
  induction cs generalizing f mark offset with
  | nil =>
    unfold fractionPart
    split <;> rintro ⟨⟩
  | cons c cs ih =>
    unfold fractionPart
    repeat' split
    · refine Except.bind_ne_error (checked_ne_overflow _) fun _ => ?_
      exact Except.bind_ne_error (checked_ne_overflow _) fun _ => ih _ _ _
    · exact ih _ _ _
    all_goals rintro ⟨⟩

theorem unitName_ne_overflow (offset : Nat) (cs : List Char) :
    unitName offset cs ≠ .error .overflow := by
  induction cs generalizing offset with
  | nil => rintro ⟨⟩
  | cons c cs ih =>
    unfold unitName
    repeat' split
    · rintro ⟨⟩
    · exact Except.bind_ne_error (ih _) fun _ => by rintro ⟨⟩
    · rintro ⟨⟩

theorem readTerm_ne_overflow (digit : Nat) (at_ : Cursor) :
    readTerm digit at_ ≠ .error .overflow := by
  refine Except.bind_ne_error (wholePart_ne_overflow _ _ _) fun ⟨whole, after⟩ => ?_
  dsimp only
  split
  · refine Except.bind_ne_error (fractionPart_ne_overflow _ _ _ _) fun fraction => ?_
    exact Except.bind_ne_error (unitName_ne_overflow _ _) fun _ => by rintro ⟨⟩
  · exact Except.bind_ne_error (unitName_ne_overflow _ _) fun _ => by rintro ⟨⟩

/-- Where reading is broken off, it is because of terms that the text begins with. -/
theorem begins_of_readOn {d : Duration} {offset steps : Nat} {text : List Char}
    (broken : readOn d offset text steps = .error .overflow) :
    ∃ terms rest, Begins terms text rest ∧ d.addTerms terms = .error .overflow := by
  induction steps generalizing d offset text with
  | zero =>
    obtain first | ⟨found, _, later⟩ := Except.bind_eq_error_iff.mp broken
    · exact absurd first (firstDigit?_ne_overflow _ _ _)
    · cases found <;> cases later
  | succ steps ih =>
    obtain first | ⟨found, first, later⟩ := Except.bind_eq_error_iff.mp broken
    · exact absurd first (firstDigit?_ne_overflow _ _ _)
    · cases found with
      | none => cases later
      | some found =>
        obtain ⟨gap, c, rfl, blank, digit⟩ := firstDigit?_eq_some first
        simp only [readTerms_succ] at later
        obtain unread | ⟨⟨t, after⟩, read, adding⟩ := Except.bind_eq_error_iff.mp later
        · exact absurd unread (readTerm_ne_overflow _ _)
        · obtain ⟨text, spelled, spells, ends⟩ := exists_spells digit read
          rw [spelled, ← List.append_assoc]
          obtain last | ⟨e, added, more⟩ := Except.bind_eq_error_iff.mp adding
          · refine ⟨[t], after.rest, .cons blank spells ends (.nil _), ?_⟩
            rw [addTerms_cons, last]
            rfl
          · obtain ⟨terms, rest, begins, overflows⟩ := ih more
            have some : terms ≠ [] := by
              rintro rfl
              cases overflows
            obtain ⟨t', terms, rfl⟩ := List.exists_cons_of_ne_nil some
            refine ⟨t :: t' :: terms, rest, .cons blank spells ends
              ((shortened_afterUnit after).begun begins), ?_⟩
            rw [addTerms_cons, added]
            exact overflows

theorem overflow_not_mem (terms : List Term) : .error .overflow ∉ terms.flatMap Term.parts := by
  intro there
  obtain ⟨t, _, among⟩ := List.mem_flatMap.mp there
  exact overflow_not_mem_parts t among

/-- The letters of a unit stand at the end of its term. -/
theorem Spells.unit_suffix {t : Term} {text : List Char} (spells : Spells t text) :
    t.unit.toList <:+ text ∧ Letters t.unit.toList := by
  cases spells with
  | whole _ letters =>
    rw [String.toList_ofList]
    exact ⟨List.suffix_append _ _, letters⟩
  | fraction _ _ letters =>
    rw [String.toList_ofList]
    exact ⟨List.suffix_append _ _, letters⟩

theorem exists_letter_of_brims {text : String} (brims : Brims text) :
    ∃ c ∈ text.toList, isUnitLetter c = true := by
  obtain ⟨terms, rest, parts, n, begins, front, _⟩ := brims
  generalize text.toList = cs at begins
  cases begins with
  | nil => simp at front
  | @cons t terms gap text later _ blank spells ends more =>
    have known : t.unit ≠ "" := by
      intro unknown
      have refused : t.parts = [.error (.unitNeeded t.whole)] := by
        rw [Term.parts, unknown]
        rfl
      rw [List.flatMap_cons, refused] at front
      cases parts <;> simp at front
    obtain ⟨suffix, letters⟩ := spells.unit_suffix
    obtain ⟨c, member⟩ := List.exists_mem_of_ne_nil _ (mt String.toList_eq_nil_iff.mp known)
    exact ⟨c, by simp [suffix.subset member], letters c member⟩

/-- Reading a text breaks off just if it brims. -/
theorem ofText_eq_overflow_iff {text : String} :
    ofText text = .error .overflow ↔ Brims text := by
  constructor
  · intro broken
    unfold ofText at broken
    split at broken
    · split at broken <;> cases broken
    · have first : ∃ read, firstDigit? 0 0 text.toList = .ok (some read) := by
        obtain failed | ⟨found, read, later⟩ := Except.bind_eq_error_iff.mp broken
        · exact absurd failed (firstDigit?_ne_overflow _ _ _)
        · cases found with
          | none => cases later
          | some found => exact ⟨found, read⟩
      obtain ⟨_, first⟩ := first
      rw [ofTerms_of_first first] at broken
      obtain ⟨terms, rest, begins, overflows⟩ := begins_of_readOn broken
      rw [addTerms_eq] at overflows
      obtain ⟨parts, n, front, fits, some, second, whole⟩ :=
        (addParts_eq_overflow_iff (overflow_not_mem terms)).mp overflows
      rw [total_zero] at fits whole
      rw [Nat.zero_add] at whole
      exact ⟨terms, rest, parts, n, begins, front, fits, some, second, whole⟩
  · intro brims
    obtain ⟨c, there, letter⟩ := exists_letter_of_brims brims
    obtain ⟨terms, rest, parts, n, begins, front, fits, some, second, whole⟩ := brims
    have overflows : zero.addTerms terms = .error .overflow := by
      rw [addTerms_eq, addParts_eq_overflow_iff (overflow_not_mem terms), total_zero]
      exact ⟨parts, n, front, fits, some, second, by rwa [Nat.zero_add]⟩
    obtain ⟨t, terms, rfl⟩ : ∃ t terms', terms = t :: terms' := by
      refine List.exists_cons_of_ne_nil ?_
      rintro rfl
      cases overflows
    obtain ⟨_, first⟩ := begins.exists_firstDigit?
    obtain ⟨offset, rest', steps, _, read⟩ := readOn_begins begins (Nat.lt_succ_self _) 0
    rw [ofText_of_letter there letter, ofTerms_of_first first, read, overflows]
    rfl

/-- A text that begins with a term has white space or a digit in front. -/
theorem Begins.exists_cons {t : Term} {terms : List Term} {text rest : List Char}
    (begins : Begins (t :: terms) text rest) :
    ∃ c cs, text = c :: cs ∧ (Text.isBlank c = true ∨ '0' ≤ c ∧ c ≤ '9') := by
  cases begins with
  | @cons _ _ gap _ _ _ blank spells =>
    cases gap with
    | nil =>
      obtain ⟨c, n, tail, rfl, digit⟩ := spells.exists_cons
      exact ⟨c, _, rfl, .inr (ascii_of_digit? digit).1⟩
    | cons c gap => exact ⟨c, _, rfl, .inl (blank c List.mem_cons_self)⟩

theorem Brims.undashed {text : String} (brims : Brims text) : text.toList.head? ≠ some '-' := by
  obtain ⟨terms, rest, parts, n, begins, front, _⟩ := brims
  cases terms with
  | nil => simp at front
  | cons t terms =>
    obtain ⟨c, cs, eq, first⟩ := begins.exists_cons
    rw [eq]
    rintro ⟨⟩
    revert first
    decide

end Overseer.Duration
