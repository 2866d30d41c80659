import Mathlib.Data.List.TakeWhile
import Overseer.Text.Blank
import Overseer.Text.Integer

/-!
What a number in text stands for, and what is left of a text without the white space around it. Of
the texts that spell a number, a reader takes those whose number is in its range.
-/
namespace Overseer.Text

/-- One or more ASCII digits of this value. Zeros in front add nothing to it. -/
structure Digits (n : Nat) (cs : List Char) : Prop where
  nonempty : cs ≠ []
  ascii : ∀ c ∈ cs, '0' ≤ c ∧ c ≤ '9'
  value : Nat.ofDigitChars 10 cs 0 = n

-- Not left to `∀ c ∈ cs`, for which an instance may go through all characters.
instance (n : Nat) (cs : List Char) : Decidable (Digits n cs) :=
  decidable_of_iff
    (cs ≠ [] ∧ (cs.all fun c => '0' ≤ c ∧ c ≤ '9') = true ∧ Nat.ofDigitChars 10 cs 0 = n)
    ⟨fun ⟨filled, ascii, value⟩ => ⟨filled, by simpa using ascii, value⟩,
      fun is => ⟨is.nonempty, by simpa using is.ascii, is.value⟩⟩

def Unsigned (n : Nat) (cs : List Char) : Prop :=
  ∃ digits, Digits n digits ∧ (cs = digits ∨ cs = '+' :: digits)

def Signed (i : Int) (cs : List Char) : Prop :=
  ∃ n : Nat, Unsigned n cs ∧ i = n ∨ (∃ digits, Digits n digits ∧ cs = '-' :: digits) ∧ i = -n

structure InBits (bits : Nat) (i : Int) : Prop where
  least : -(Nat.pow 2 (bits - 1) : Nat) ≤ i
  below : i < (Nat.pow 2 (bits - 1) : Nat)

/-- What is left of a text without the white space around it. -/
structure Stripped (s core : String) : Prop where
  around : ∃ before after, s.toList = before ++ core.toList ++ after ∧
    ∀ c ∈ before ++ after, isBlank c = true
  first : ∀ c ∈ core.toList.head?, isBlank c = false
  last : ∀ c ∈ core.toList.getLast?, isBlank c = false

variable {greatest value n : Nat} {beyond : IntegerError} {cs : List Char} {s core : String}

theorem digit?_of_ascii {c : Char} (ascii : '0' ≤ c ∧ c ≤ '9') :
    digit? c = some (c.toNat - '0'.toNat) := if_pos ascii

theorem digit?_eq_none {c : Char} (other : ¬('0' ≤ c ∧ c ≤ '9')) : digit? c = none := if_neg other

theorem le_ofDigitChars (value : Nat) (cs : List Char) : value ≤ Nat.ofDigitChars 10 cs value := by
  rw [Nat.ofDigitChars_eq_ofDigitChars_zero]
  exact Nat.le_trans (Nat.le_mul_of_pos_left value (Nat.pow_pos (by decide))) (Nat.le_add_right _ _)

/-- A number is shown by digits that stand for it. -/
theorem digits_toString (n : Nat) : Digits n (toString n).toList := by
  have shown : (toString n).toList = Nat.toDigits 10 n := Nat.toList_repr
  rw [shown]
  refine ⟨Nat.toDigits_ne_nil, fun c member => ?_, Nat.ofDigitChars_ten_toDigits⟩
  have digit := Nat.isDigit_of_mem_toDigits (by decide) (by decide) member
  simpa [Char.isDigit, Char.le_def] using digit

/-- A value that leaves the range does not come back. -/
theorem appendDigits_eq_ok_iff (fits : value ≤ greatest) :
    appendDigits greatest beyond value cs = .ok n ↔
      (∀ c ∈ cs, '0' ≤ c ∧ c ≤ '9') ∧ Nat.ofDigitChars 10 cs value = n ∧ n ≤ greatest := by
  induction cs generalizing value with
  | nil =>
    constructor
    · rintro ⟨⟩
      exact ⟨fun _ member => absurd member List.not_mem_nil, rfl, fits⟩
    · rintro ⟨_, rfl, _⟩
      rfl
  | cons c cs ih =>
    by_cases ascii : '0' ≤ c ∧ c ≤ '9'
    · rw [appendDigits, digit?_of_ascii ascii, Nat.ofDigitChars_cons, Nat.mul_comm 10]
      dsimp only
      split
      next more =>
        rw [ih more, List.forall_mem_cons, and_iff_right ascii]
      next less =>
        refine iff_of_false (by rintro ⟨⟩) ?_
        rintro ⟨_, rfl, bound⟩
        exact less (Nat.le_trans (le_ofDigitChars _ cs) bound)
    · rw [appendDigits, digit?_eq_none ascii]
      exact iff_of_false (by rintro ⟨⟩) fun ⟨all, _⟩ => ascii (all c List.mem_cons_self)

theorem magnitude_eq_ok_iff :
    magnitude greatest beyond cs = .ok n ↔ Digits n cs ∧ n ≤ greatest := by
  cases cs with
  | nil => exact iff_of_false (by rintro ⟨⟩) fun ⟨digits, _⟩ => digits.nonempty rfl
  | cons c cs =>
    rw [magnitude, appendDigits_eq_ok_iff (Nat.zero_le greatest)]
    · exact ⟨fun ⟨ascii, value, bound⟩ => ⟨⟨List.cons_ne_nil c cs, ascii, value⟩, bound⟩,
        fun ⟨digits, bound⟩ => ⟨digits.ascii, digits.value, bound⟩⟩
    · exact List.cons_ne_nil c cs

theorem Digits.not_sign {sign : Char} (digits : Digits n (sign :: cs)) :
    sign ≠ '+' ∧ sign ≠ '-' := by
  have ascii := digits.ascii sign List.mem_cons_self
  exact ⟨by rintro rfl; revert ascii; decide, by rintro rfl; revert ascii; decide⟩

@[simp] theorem not_unsigned_nil : ¬Unsigned n [] := by
  rintro ⟨_, digits, rfl | eq⟩
  · exact digits.nonempty rfl
  · cases eq

theorem unsigned_plus_iff : Unsigned n ('+' :: cs) ↔ Digits n cs := by
  refine ⟨?_, fun digits => ⟨cs, digits, .inr rfl⟩⟩
  rintro ⟨digits, spelled, rfl | eq⟩
  · exact absurd rfl spelled.not_sign.1
  · exact (List.cons.inj eq).2 ▸ spelled

theorem unsigned_iff_of_no_plus (bare : ∀ rest, cs ≠ '+' :: rest) :
    Unsigned n cs ↔ Digits n cs := by
  refine ⟨?_, fun digits => ⟨cs, digits, .inl rfl⟩⟩
  rintro ⟨digits, spelled, rfl | eq⟩
  · exact spelled
  · exact absurd eq (bare digits)

theorem parseNatural_eq_ok_iff :
    parseNatural greatest s = .ok n ↔ Unsigned n s.toList ∧ n ≤ greatest := by
  unfold parseNatural
  split
  next none => simp [none]
  next cs plus => rw [magnitude_eq_ok_iff, plus, unsigned_plus_iff]
  next nonempty bare => rw [magnitude_eq_ok_iff, unsigned_iff_of_no_plus bare]

theorem signed_minus_iff {i : Int} :
    Signed i ('-' :: cs) ↔ ∃ n : Nat, Digits n cs ∧ i = -n := by
  constructor
  · rintro ⟨n, ⟨unsigned, rfl⟩ | ⟨⟨digits, spelled, eq⟩, rfl⟩⟩
    · rw [unsigned_iff_of_no_plus (by simp)] at unsigned
      exact absurd rfl unsigned.not_sign.2
    · exact ⟨n, (List.cons.inj eq).2 ▸ spelled, rfl⟩
  · rintro ⟨n, digits, rfl⟩
    exact ⟨n, .inr ⟨⟨cs, digits, rfl⟩, rfl⟩⟩

theorem signed_iff_of_no_minus {i : Int} (bare : ∀ rest, cs ≠ '-' :: rest) :
    Signed i cs ↔ ∃ n : Nat, Unsigned n cs ∧ i = n := by
  constructor
  · rintro ⟨n, unsigned | ⟨⟨digits, _, eq⟩, _⟩⟩
    · exact ⟨n, unsigned⟩
    · exact absurd eq (bare digits)
  · rintro ⟨n, unsigned⟩
    exact ⟨n, .inl unsigned⟩

/-- A magnitude is in its range where the number made of it is in the range of the bits. -/
theorem magnitude_map_eq_ok_iff {bits : Nat} {i : Int} {f : Nat → Int}
    (fits : ∀ n, n ≤ greatest ↔ InBits bits (f n)) :
    (magnitude greatest beyond cs).map f = .ok i ↔
      (∃ n : Nat, Digits n cs ∧ i = f n) ∧ InBits bits i := by
  constructor
  · intro mapped
    cases read : magnitude greatest beyond cs with
    | error e =>
      rw [read] at mapped
      cases mapped
    | ok n =>
      rw [read] at mapped
      obtain rfl := Except.ok.inj mapped
      obtain ⟨digits, bound⟩ := magnitude_eq_ok_iff.mp read
      exact ⟨⟨n, digits, rfl⟩, (fits n).mp bound⟩
  · rintro ⟨⟨n, digits, rfl⟩, inBits⟩
    rw [magnitude_eq_ok_iff.mpr ⟨digits, (fits n).mpr inBits⟩]
    rfl

theorem le_iff_inBits_ofNat (bits n : Nat) :
    n ≤ Nat.pow 2 (bits - 1) - 1 ↔ InBits bits (Int.ofNat n) := by
  have positive : 0 < Nat.pow 2 (bits - 1) := Nat.pow_pos (by decide)
  rw [Int.ofNat_eq_natCast]
  exact ⟨fun bound => ⟨by omega, by omega⟩, fun ⟨_, below⟩ => by omega⟩

theorem le_iff_inBits_neg (bits n : Nat) :
    n ≤ Nat.pow 2 (bits - 1) ↔ InBits bits (-Int.ofNat n) := by
  have positive : 0 < Nat.pow 2 (bits - 1) := Nat.pow_pos (by decide)
  rw [Int.ofNat_eq_natCast]
  exact ⟨fun bound => ⟨by omega, by omega⟩, fun ⟨least, _⟩ => by omega⟩

theorem parseSigned_eq_ok_iff {bits : Nat} {i : Int} :
    parseSigned bits s = .ok i ↔ Signed i s.toList ∧ InBits bits i := by
  unfold parseSigned
  split
  next none => simp [none, Signed]
  next cs plus =>
    rw [magnitude_map_eq_ok_iff (le_iff_inBits_ofNat bits), plus, signed_iff_of_no_minus (by simp)]
    simp only [unsigned_plus_iff, Int.ofNat_eq_natCast]
  next cs minus =>
    rw [magnitude_map_eq_ok_iff (le_iff_inBits_neg bits), minus, signed_minus_iff]
    simp only [Int.ofNat_eq_natCast]
  next nonempty noPlus noMinus =>
    rw [magnitude_map_eq_ok_iff (le_iff_inBits_ofNat bits), signed_iff_of_no_minus noMinus]
    simp only [unsigned_iff_of_no_plus noPlus, Int.ofNat_eq_natCast]

theorem dropWhile_eq_iff {p : Char → Bool} {kept : List Char} :
    cs.dropWhile p = kept ↔
      (∃ front, cs = front ++ kept ∧ ∀ c ∈ front, p c = true) ∧ ∀ c ∈ kept.head?, p c = false := by
  constructor
  · rintro rfl
    refine ⟨⟨cs.takeWhile p, List.takeWhile_append_dropWhile.symm,
      fun c member => List.mem_takeWhile_imp member⟩, fun c first => ?_⟩
    have other := List.head?_dropWhile_not p cs
    rwa [Option.mem_def.mp first] at other
  · rintro ⟨⟨front, rfl, all⟩, first⟩
    rw [List.dropWhile_append_of_pos all]
    cases kept with
    | nil => rfl
    | cons c kept => exact List.dropWhile_cons_of_neg (by simp [first c rfl])

theorem trimEnd_eq_iff {p : Char → Bool} {kept : List Char} :
    trimEnd p cs = kept ↔
      (∃ tail, cs = kept ++ tail ∧ ∀ c ∈ tail, p c = true) ∧ ∀ c ∈ kept.getLast?, p c = false := by
  rw [trimEnd, List.reverse_eq_iff, dropWhile_eq_iff, List.head?_reverse]
  refine and_congr_left fun _ => ⟨?_, ?_⟩
  · rintro ⟨front, eq, all⟩
    refine ⟨front.reverse, ?_, by simpa using all⟩
    rw [← List.reverse_reverse cs, eq, List.reverse_append, List.reverse_reverse]
  · rintro ⟨tail, rfl, all⟩
    exact ⟨tail.reverse, List.reverse_append, by simpa using all⟩

theorem stripped_trimBlank (s : String) : Stripped s (trimBlank s) := by
  obtain ⟨⟨before, whole, blank⟩, first⟩ :=
    dropWhile_eq_iff.mp (Eq.refl (s.toList.dropWhile isBlank))
  obtain ⟨⟨after, rest, blank'⟩, last⟩ :=
    trimEnd_eq_iff.mp (Eq.refl (trimEnd isBlank (s.toList.dropWhile isBlank)))
  have core : (trimBlank s).toList = trimEnd isBlank (s.toList.dropWhile isBlank) :=
    String.toList_ofList
  refine ⟨⟨before, after, ?_, ?_⟩, fun c member => first c ?_, ?_⟩
  · rw [core, List.append_assoc, ← rest, ← whole]
  · exact fun c member => (List.mem_append.mp member).elim (blank c) (blank' c)
  · rw [core] at member
    rw [rest, List.head?_append, Option.mem_def.mp member]
    rfl
  · rwa [core]

/-- There is one way to take the white space off. -/
theorem stripped_iff : Stripped s core ↔ core = trimBlank s := by
  constructor
  · rintro ⟨⟨before, after, whole, blank⟩, first, last⟩
    obtain ⟨blankBefore, blankAfter⟩ := List.forall_mem_append.mp blank
    rw [trimBlank, ← String.toList_inj, String.toList_ofList]
    rw [List.append_assoc] at whole
    cases kept : core.toList with
    | nil =>
      -- all of it is white space, whatever side it is counted to
      have none : s.toList.dropWhile isBlank = [] :=
        List.dropWhile_eq_nil_iff.mpr (by simpa [whole, kept] using blank)
      rw [none]
      rfl
    | cons c cs =>
      rw [kept] at whole first last
      have front : s.toList.dropWhile isBlank = c :: cs ++ after :=
        dropWhile_eq_iff.mpr ⟨⟨before, whole, blankBefore⟩, first⟩
      rw [front]
      exact (trimEnd_eq_iff.mpr ⟨⟨after, rfl, blankAfter⟩, last⟩).symm
  · rintro rfl
    exact stripped_trimBlank s

theorem stripped_self (black : ∀ c ∈ s.toList, isBlank c = false) : Stripped s s where
  around := ⟨[], [], (List.append_nil _).symm, fun _ member => absurd member List.not_mem_nil⟩
  first c member := black c (List.mem_of_mem_head? member)
  last c member := black c (List.mem_of_getLast? member)

theorem isBlank_of_ascii {c : Char} (ascii : '0' ≤ c ∧ c ≤ '9') : isBlank c = false := by
  have least : 48 ≤ c.toNat := UInt32.le_iff_toNat_le.mp (Char.le_def.mp ascii.1)
  have greatest : c.toNat ≤ 57 := UInt32.le_iff_toNat_le.mp (Char.le_def.mp ascii.2)
  simp only [isBlank, Bool.or_eq_false_iff, Bool.and_eq_false_iff, decide_eq_false_iff_not,
    beq_eq_false_iff_ne]
  omega

/-- There is no white space in a number. -/
theorem Unsigned.not_blank (unsigned : Unsigned n cs) : ∀ c ∈ cs, isBlank c = false := by
  obtain ⟨digits, spelled, rfl | rfl⟩ := unsigned
  · exact fun c member => isBlank_of_ascii (spelled.ascii c member)
  · exact List.forall_mem_cons.mpr
      ⟨by decide, fun c member => isBlank_of_ascii (spelled.ascii c member)⟩

theorem Unsigned.no_minus (unsigned : Unsigned n cs) : cs.head? ≠ some '-' := by
  obtain ⟨digits, spelled, rfl | rfl⟩ := unsigned
  · cases cs with
    | nil => exact nofun
    | cons c cs => exact fun first => spelled.not_sign.2 (Option.some.inj first)
  · exact fun first => absurd (Option.some.inj first) (by decide)

/-- What begins with no white space keeps its first character. -/
theorem Stripped.head {c : Char} (stripped : Stripped s core) (first : s.toList.head? = some c)
    (black : isBlank c = false) : core.toList.head? = some c := by
  obtain ⟨⟨before, after, whole, blank⟩, _, _⟩ := stripped
  rw [whole] at first
  cases before with
  | cons d before =>
    obtain rfl : d = c := Option.some.inj first
    simp [black] at blank
  | nil =>
    cases kept : core.toList with
    | cons d rest => simpa [kept] using first
    | nil =>
      have member : c ∈ after := List.mem_of_mem_head? (by simpa [kept] using first)
      simp [blank c (by simpa using member)] at black

end Overseer.Text
