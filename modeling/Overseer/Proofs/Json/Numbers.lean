import Mathlib.Algebra.Group.Int.Defs
import Overseer.Json.Reader
import Overseer.Json.Writer

/-!
A number that is written out is read as it was written, if what comes after it cannot be taken for
more of it. An integer of 64 bits that is written out is that integer.
-/
namespace Overseer.Json

/-- What comes after a number does not go on with it. -/
def EndsNumber (rest : List Char) : Prop :=
  ∀ c ∈ rest.head?, isDigit c = false ∧ c ≠ '.' ∧ c ≠ 'e' ∧ c ≠ 'E'

namespace Number

/-- The digits of a number are digits, there are some wherever there must be, and a zero at the
beginning stands alone. -/
structure WellFormed (n : Number) : Prop where
  whole : ∀ c ∈ n.whole, isDigit c
  nonempty : n.whole ≠ []
  canonical : n.whole.head? = some '0' → n.whole = ['0']
  fraction : ∀ c ∈ n.fraction, isDigit c
  exponent : ∀ e ∈ n.exponent, e.2 ≠ [] ∧ ∀ c ∈ e.2, isDigit c

def fractionText (n : Number) : List Char :=
  if n.fraction.isEmpty then [] else '.' :: n.fraction

def exponentText (n : Number) : List Char :=
  match n.exponent with
  | none => []
  | some (downward, digits) => 'e' :: (if downward then '-' :: digits else digits)

theorem write_eq (n : Number) :
    n.write = (if n.negative then ['-'] else []) ++ n.whole ++ n.fractionText ++ n.exponentText :=
  rfl

end Number

theorem ne_of_isDigit {c other : Char} (digit : isDigit c) (no : isDigit other = false) :
    c ≠ other := by
  rintro rfl
  rw [no] at digit
  cases digit

theorem readDigits_append {digits rest : List Char} (all : ∀ c ∈ digits, isDigit c)
    (nonempty : digits ≠ []) (ends : ∀ c ∈ rest.head?, isDigit c = false) :
    readDigits (digits ++ rest) = .ok (digits, rest) := by
  have none : rest.takeWhile isDigit = [] ∧ rest.dropWhile isDigit = rest := by
    cases rest with
    | nil => exact ⟨rfl, rfl⟩
    | cons c cs => simp [List.takeWhile, List.dropWhile, ends c rfl]
  unfold readDigits
  rw [List.takeWhile_append_of_pos all, List.dropWhile_append_of_pos all, none.1, none.2,
    List.append_nil]
  cases digits with
  | nil => exact absurd rfl nonempty
  | cons c cs => rfl

theorem readExponent_written (n : Number) {downward : Bool} {digits rest : List Char}
    (all : ∀ c ∈ digits, isDigit c) (nonempty : digits ≠ []) (ends : EndsNumber rest) :
    readExponent n ((if downward then '-' :: digits else digits) ++ rest) =
      .ok ({ n with exponent := some (downward, digits) }, rest) := by
  have read := readDigits_append all nonempty fun c head => (ends c head).1
  cases downward with
  | true => simp [readExponent, read, Except.map]
  | false =>
    obtain ⟨c, cs, rfl⟩ := List.exists_cons_of_ne_nil nonempty
    have digit : isDigit c := all c (by simp)
    have plus : c ≠ '+' := ne_of_isDigit digit rfl
    have minus : c ≠ '-' := ne_of_isDigit digit rfl
    simp only [Bool.false_eq_true, if_false, readExponent, List.cons_append] at read ⊢
    split
    · next same => exact absurd (List.cons.inj same).1 plus
    · next same => exact absurd (List.cons.inj same).1 minus
    · rw [read]
      rfl

theorem readScale_of_ends (n : Number) {rest : List Char} (ends : EndsNumber rest) :
    readScale n rest = .ok (n, rest) := by
  unfold readScale
  split
  · exact absurd rfl (ends _ rfl).2.2.1
  · exact absurd rfl (ends _ rfl).2.2.2
  · rfl

/-- What the reader finds after the digits of a number: its exponent, and then the rest. -/
theorem readScale_written {n : Number} (formed : n.WellFormed) {rest : List Char}
    (ends : EndsNumber rest) :
    readScale { n with exponent := none } (n.exponentText ++ rest) = .ok (n, rest) := by
  obtain ⟨negative, whole, fraction, _ | ⟨downward, digits⟩⟩ := n
  · exact readScale_of_ends _ ends
  · obtain ⟨nonempty, all⟩ := formed.exponent _ rfl
    exact readExponent_written _ all nonempty ends

theorem not_digit_scale {n : Number} {rest : List Char} (ends : EndsNumber rest) :
    ∀ c ∈ (n.exponentText ++ rest).head?, isDigit c = false ∧ c ≠ '.' := by
  obtain ⟨negative, whole, fraction, _ | ⟨downward, digits⟩⟩ := n
  · exact fun c head => ⟨(ends c head).1, (ends c head).2.1⟩
  · intro c head
    obtain rfl : 'e' = c := Option.some.inj head
    decide

section Unsigned

variable {cs whole rest : List Char} (alone : ∀ c more, whole ≠ '0' :: c :: more)

include alone

theorem readUnsigned_plain (negative : Bool) (read : readDigits cs = .ok (whole, rest))
    (plain : ∀ more, rest ≠ '.' :: more) :
    readUnsigned negative cs = readScale { negative, whole } rest := by
  unfold readUnsigned
  rw [read]
  split
  · next eq => cases eq
  · next eq => exact absurd (Prod.mk.inj (Except.ok.inj eq)).1 (alone _ _)
  · next eq => exact absurd (Prod.mk.inj (Except.ok.inj eq)).2 (plain _)
  · next eq =>
    cases eq
    rfl

theorem readUnsigned_point (negative : Bool) {fraction after : List Char}
    (read : readDigits cs = .ok (whole, '.' :: rest))
    (more : readDigits rest = .ok (fraction, after)) :
    readUnsigned negative cs = readScale { negative, whole, fraction } after := by
  unfold readUnsigned
  rw [read]
  split
  · next eq => cases eq
  · next eq => exact absurd (Prod.mk.inj (Except.ok.inj eq)).1 (alone _ _)
  · next eq =>
    cases eq
    rw [more]
  · next plain eq => exact absurd (Prod.mk.inj (Except.ok.inj eq)).2.symm (plain _)

end Unsigned

theorem readUnsigned_written {n : Number} (formed : n.WellFormed) {rest : List Char}
    (ends : EndsNumber rest) :
    readUnsigned n.negative (n.whole ++ n.fractionText ++ n.exponentText ++ rest) =
      .ok (n, rest) := by
  have scaled := readScale_written formed ends
  have after := not_digit_scale (n := n) ends
  have alone : ∀ c cs, n.whole ≠ '0' :: c :: cs := fun c cs zero => by
    have single := formed.canonical (by rw [zero]; rfl)
    rw [zero] at single
    cases single
  obtain ⟨negative, whole, _ | ⟨c, fraction⟩, exponent⟩ := n
  · have read := readDigits_append formed.whole formed.nonempty fun c head => (after c head).1
    rw [Number.fractionText, List.isEmpty_nil, if_pos rfl, List.append_nil, List.append_assoc,
      readUnsigned_plain alone negative read fun more point =>
        (after '.' (by rw [point]; rfl)).2 rfl]
    exact scaled
  · have read (later : List Char) :
        readDigits (whole ++ '.' :: later) = .ok (whole, '.' :: later) :=
      readDigits_append formed.whole formed.nonempty fun _ head => Option.some.inj head ▸ rfl
    have more := readDigits_append formed.fraction (List.cons_ne_nil c fraction)
      fun c head => (after c head).1
    rw [Number.fractionText, List.isEmpty_cons, if_neg Bool.false_ne_true, List.append_assoc,
      List.append_assoc, List.cons_append, readUnsigned_point alone negative (read _) more]
    exact scaled

theorem readNumber_written {n : Number} (formed : n.WellFormed) {rest : List Char}
    (ends : EndsNumber rest) : readNumber (n.write ++ rest) = .ok (n, rest) := by
  have read := readUnsigned_written formed ends
  rw [Number.write_eq]
  cases negative : n.negative with
  | true => simpa [readNumber, negative] using read
  | false =>
    obtain ⟨c, cs, whole⟩ := List.exists_cons_of_ne_nil formed.nonempty
    have minus : c ≠ '-' := ne_of_isDigit (formed.whole c (by simp [whole])) rfl
    rw [negative, whole] at read
    simp only [Bool.false_eq_true, if_false, whole, List.nil_append, List.cons_append,
      List.append_assoc, readNumber] at read ⊢
    split
    · next same => exact absurd (List.cons.inj same).1 minus
    · exact read

namespace Number

theorem isDigit_of_mem_toDigits {n : Nat} {c : Char} (member : c ∈ Nat.toDigits 10 n) :
    isDigit c := by
  have digit := Nat.isDigit_of_mem_toDigits (by omega) (by omega) member
  simpa [isDigit, Char.isDigit, Char.le_def] using digit

/-- Only zero has a zero in front. -/
theorem toDigits_canonical {n : Nat} (zero : (Nat.toDigits 10 n).head? = some '0') :
    Nat.toDigits 10 n = ['0'] := by
  induction n using Nat.strongRecOn with
  | ind n ih =>
    by_cases small : n < 10
    · rw [Nat.toDigits_of_lt_base small] at zero ⊢
      rw [Option.some.inj zero]
    · rw [Nat.toDigits_of_base_le (by omega) (by omega), List.head?_append] at zero
      cases first : (Nat.toDigits 10 (n / 10)).head? with
      | none => exact absurd (List.head?_eq_none_iff.mp first) Nat.toDigits_ne_nil
      | some c =>
        rw [first] at zero
        obtain rfl : c = '0' := Option.some.inj zero
        have digits := congrArg (Nat.ofDigitChars 10 · 0) (ih (n / 10) (by omega) first)
        simp only [Nat.ofDigitChars_ten_toDigits] at digits
        have none : n / 10 = 0 := digits
        omega

theorem wellFormed_ofInt (i : Int) : (ofInt i).WellFormed where
  whole _ member := isDigit_of_mem_toDigits member
  nonempty := Nat.toDigits_ne_nil
  canonical := toDigits_canonical
  fraction _ member := absurd member List.not_mem_nil
  exponent _ member := absurd member (Option.not_mem_none _)

theorem digitsValue_toDigits (n : Nat) : digitsValue (Nat.toDigits 10 n) = n := by
  have value := Nat.ofDigitChars_ten_toDigits (n := n)
  simpa only [Nat.ofDigitChars_eq_foldl, digitsValue, Nat.mul_comm 10] using value

/-- An integer that was written is that integer, if it fits into 64 bits. -/
theorem integer?_ofInt {i : Int} (least : -(2 ^ 63) ≤ i) (greatest : i ≤ greatest64) :
    (ofInt i).integer? = some i := by
  have greatest64_eq : (greatest64 : Int) = 2 ^ 64 - 1 := rfl
  have power : Nat.pow 2 63 = 2 ^ 63 := rfl
  simp only [integer?, ofInt, digitsValue_toDigits, List.isEmpty_nil, Option.isNone_none,
    Bool.and_self, if_true, decide_eq_true_eq, Bool.and_eq_true, power]
  by_cases negative : i < 0
  · rw [if_pos negative, if_pos (by omega)]
    congr
    omega
  · rw [if_neg negative, if_pos (by omega)]
    congr
    omega

end Number

end Overseer.Json
