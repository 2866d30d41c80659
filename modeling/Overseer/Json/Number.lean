import Overseer.Decimal.Shortest
import Overseer.Json.Basic
import Overseer.Text.Integer

/-!
What a number stands for. Without a point and an exponent it is an integer as long as it fits into
64 bits; every other number, and negative zero, is a floating-point number. That is computed from as
many leading digits as fit into 64 bits and a power of ten, rounding twice.
-/
namespace Overseer.Json

namespace Number

def ofInt (n : Int) : Number :=
  ⟨n < 0, Nat.toDigits 10 n.natAbs, [], none⟩

def digitsValue (digits : List Char) : Nat :=
  digits.foldl (fun n c => n * 10 + (c.toNat - '0'.toNat)) 0

/-- Takes digits into `significand` as long as it fits, and counts how many it took. -/
def gather (significand taken : Nat) : List Char → Nat × Nat
  | [] => (significand, taken)
  | c :: cs =>
    let next := significand * 10 + (c.toNat - '0'.toNat)
    if next ≤ greatest64 then gather next (taken + 1) cs else (significand, taken)

/-- The leading digits of the number and the power of ten that they are multiplied by, its exponent
left aside. -/
def significand (n : Number) : Nat × Int :=
  let (whole, taken) := gather 0 0 n.whole
  let (digits, places) := gather whole 0 n.fraction
  (digits, (n.whole.length : Int) - taken - places)

/-- Divides by `1e308` until the rest of a negative exponent is a single power of ten. -/
def shrink (x : Float) (exponent : Int) : Nat → Float × Int
  | 0 => (x, exponent)
  | steps + 1 =>
    if -308 ≤ exponent || x == 0 then (x, exponent)
    else shrink (x / 1e308) (exponent + 308) steps

/-- A significand times a power of ten; a product that is too large has no value. -/
def scale (significand : Nat) (exponent : Int) : Except Fault Float :=
  let x := significand.toUInt64.toFloat
  if 0 ≤ exponent then
    if significand = 0 then .ok x
    else if 308 < exponent then .error .malformed
    else
      let product := x * Float.ofScientific 1 false exponent.toNat
      if product.isInf then .error .malformed else .ok product
  else
    let (y, rest) := shrink x exponent (exponent.natAbs / 308 + 1)
    if y == 0 then .ok y else .ok (y / Float.ofScientific 1 false (-rest).toNat)

/-- The greatest exponent that is computed with; what lies beyond counts as infinitely far. -/
def greatestExponent : Nat := Nat.pow 2 31 - 1

def size (n : Number) : Except Fault Float :=
  let (digits, shift) := n.significand
  match n.exponent with
  | none => scale digits shift
  | some (downward, written) =>
    let e := digitsValue written
    if greatestExponent < e then
      if digits = 0 || downward then .ok 0 else .error .malformed
    else scale digits (if downward then shift - e else shift + e)

def integer? (n : Number) : Option Int :=
  if n.fraction.isEmpty && n.exponent.isNone then
    let m := digitsValue n.whole
    if n.negative then
      if 0 < m && m ≤ Nat.pow 2 63 then some (-(m : Int)) else none
    else if m ≤ greatest64 then some m else none
  else none

def realText (n : Number) : Except Fault String :=
  n.size.map fun x => Decimal.render (if n.negative then -x else x)

end Number

end Overseer.Json
