/-!
Decimal numbers in text: an optional sign and one or more ASCII digits, read from the left. The
first digit that leaves the range or the first character that is no digit decides the error.
-/
namespace Overseer

def greatest32 : Nat := Nat.pow 2 32 - 1

def greatest64 : Nat := Nat.pow 2 64 - 1

inductive IntegerError where
  | empty
  | invalidDigit
  | tooLarge
  | tooSmall
  deriving DecidableEq, Repr

def IntegerError.message : IntegerError → String
  | .empty => "cannot parse integer from empty string"
  | .invalidDigit => "invalid digit found in string"
  | .tooLarge => "number too large to fit in target type"
  | .tooSmall => "number too small to fit in target type"

namespace Text

def digit? (c : Char) : Option Nat :=
  if '0' ≤ c ∧ c ≤ '9' then some (c.toNat - '0'.toNat) else none

/-- Appends digits to `value`, which stays at most `greatest`; `beyond` is the error otherwise. -/
def appendDigits (greatest : Nat) (beyond : IntegerError) (value : Nat) :
    List Char → Except IntegerError Nat
  | [] => .ok value
  | c :: cs =>
    match digit? c with
    | none => .error .invalidDigit
    | some d =>
      if value * 10 + d ≤ greatest then appendDigits greatest beyond (value * 10 + d) cs
      else .error beyond

def magnitude (greatest : Nat) (beyond : IntegerError) : List Char → Except IntegerError Nat
  | [] => .error .invalidDigit
  | cs => appendDigits greatest beyond 0 cs

/-- A number from zero to `greatest`; only a plus sign is known. -/
def parseNatural (greatest : Nat) (s : String) : Except IntegerError Nat :=
  match s.toList with
  | [] => .error .empty
  | '+' :: cs => magnitude greatest .tooLarge cs
  | cs => magnitude greatest .tooLarge cs

def parseSigned (bits : Nat) (s : String) : Except IntegerError Int :=
  match s.toList with
  | [] => .error .empty
  | '+' :: cs => (magnitude (Nat.pow 2 (bits - 1) - 1) .tooLarge cs).map Int.ofNat
  | '-' :: cs => (magnitude (Nat.pow 2 (bits - 1)) .tooSmall cs).map fun n => -Int.ofNat n
  | cs => (magnitude (Nat.pow 2 (bits - 1) - 1) .tooLarge cs).map Int.ofNat

end Text

end Overseer
