/-!
The shortest decimal that stands for a binary floating-point number: of the decimals that round back
to it, those with the fewest digits, and of these the nearest. A number `m * 2 ^ q` is rounded to
from the numbers half a step below and above it, ends included if `m` is even; below a power of two
the steps are half as wide.
-/
namespace Overseer.Decimal

/-- `digits * 10 ^ exponent`. -/
structure Scaled where
  digits : Nat
  exponent : Int
  deriving DecidableEq, Repr

/-- A positive number `m * 2 ^ q`, and whether the step below it is a narrow one. -/
structure Binary where
  m : Nat
  q : Int
  narrow : Bool
  deriving DecidableEq, Repr

def width (n : Nat) : Nat :=
  (Nat.toDigits 10 n).length

/-- The power of ten of the first digit of the quotient of two positive numbers. -/
def leading (num den : Nat) : Int :=
  if den ≤ num then (width (num / den) : Int) - 1
  else -(width ((den + num - 1) / num - 1) : Int)

namespace Binary

def power (base : Nat) (e : Int) : Nat × Nat :=
  if 0 ≤ e then (Nat.pow base e.toNat, 1) else (1, Nat.pow base (-e).toNat)

def quotient (b : Binary) : Nat × Nat :=
  let (up, down) := power 2 b.q
  (b.m * up, down)

/-- Whether a decimal rounds to the number. In quarters of a step the interval reaches from
`4 m - 2`, or `4 m - 1` if the step below is narrow, to `4 m + 2`. -/
def covers (b : Binary) (d : Scaled) : Bool :=
  let (up, down) := power 2 (b.q - 2)
  let (tens, tenths) := power 10 d.exponent
  let value := d.digits * tens * down
  let unit := tenths * up
  let low := (4 * b.m - (if b.narrow then 1 else 2)) * unit
  let high := (4 * b.m + 2) * unit
  if b.m % 2 = 0 then low ≤ value && value ≤ high else low < value && value < high

/-- The decimals of the given exponent just below and just above the number; the nearer first, and
of two equally near ones the even. -/
def neighbours (b : Binary) (exponent : Int) : List Scaled :=
  let (num, den) := b.quotient
  let (tens, tenths) := power 10 exponent
  let n := num * tenths
  let d := den * tens
  let below : Scaled := ⟨n / d, exponent⟩
  let above : Scaled := ⟨n / d + 1, exponent⟩
  let twice := 2 * (n % d)
  if twice < d || (twice = d && n / d % 2 = 0) then [below, above] else [above, below]

def search (b : Binary) (first : Int) : Nat → Nat → Scaled
  | 0, count => ⟨b.m, first - count⟩
  | steps + 1, count =>
    match (b.neighbours (first - count)).find? b.covers with
    | some d => d
    | none => search b first steps (count + 1)

def shortest (b : Binary) : Scaled :=
  let (num, den) := b.quotient
  b.search (leading num den) 17 0

def ofFloat (x : Float) : Binary :=
  let bits := x.toBits.toNat
  let exponent : Nat := bits / Nat.pow 2 52 % Nat.pow 2 11
  let fraction := bits % Nat.pow 2 52
  if exponent = 0 then ⟨fraction, -1074, false⟩
  else ⟨fraction + Nat.pow 2 52, (exponent : Int) - 1075, fraction = 0 && 1 < exponent⟩

end Binary

def zeros (n : Nat) : List Char :=
  List.replicate n '0'

/-- Positional from the fifth place after the point to sixteen places before it, else with an
exponent that has a sign. -/
def Scaled.render (d : Scaled) : List Char :=
  let digits := Nat.toDigits 10 d.digits
  let first := d.exponent + digits.length - 1
  if -5 ≤ first && first < 0 then
    '0' :: '.' :: zeros (-first - 1).toNat ++ digits
  else if 0 ≤ first && first ≤ 15 then
    let whole := first.toNat + 1
    if digits.length ≤ whole then digits ++ zeros (whole - digits.length) ++ ['.', '0']
    else digits.take whole ++ '.' :: digits.drop whole
  else
    let fraction := match digits.drop 1 with
      | [] => []
      | more => '.' :: more
    digits.take 1 ++ fraction ++ 'e' :: (if first < 0 then '-' else '+')
      :: Nat.toDigits 10 first.natAbs

def Scaled.trim (d : Scaled) : Nat → Scaled
  | 0 => d
  | steps + 1 =>
    if 0 < d.digits ∧ d.digits % 10 = 0 then trim ⟨d.digits / 10, d.exponent + 1⟩ steps else d

def render (x : Float) : String :=
  let bits := x.toBits.toNat
  let sign := if bits / Nat.pow 2 63 = 1 then ['-'] else []
  let size := Float.ofBits (bits % Nat.pow 2 63).toUInt64
  String.ofList <| sign ++
    if bits % Nat.pow 2 63 = 0 then ['0', '.', '0']
    else ((Binary.ofFloat size).shortest.trim 20).render

end Overseer.Decimal
