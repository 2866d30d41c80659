/-!
JSON values as they stand in a text, which may break off or go wrong at any place. A value holds
what was read up to that place and what the fault there is, so that a decoder can stop at an earlier
one of its own. Numbers keep the form in which they are written.
-/
namespace Overseer.Json

/-- The text holds what may not be there, or it ends too early. -/
inductive Fault where
  | malformed
  | truncated
  deriving DecidableEq, Repr

/-- A fault, as it is met where the value is read and where it is only skipped. -/
structure Break where
  reading : Fault
  skipping : Fault
  deriving DecidableEq, Repr

namespace Break

def malformed : Break := ⟨.malformed, .malformed⟩
def truncated : Break := ⟨.truncated, .truncated⟩

/-- A number that ends before a digit that must follow. -/
def unfinished : Break := ⟨.truncated, .malformed⟩

end Break

/-- A string that is complete. One that holds half of a surrogate pair can be skipped, not read. -/
inductive Literal where
  | text (s : String)
  | unpaired
  deriving DecidableEq, Repr

structure Number where
  negative : Bool
  whole : List Char
  fraction : List Char := []
  exponent : Option (Bool × List Char) := none
  deriving DecidableEq, Repr

/-- How an array or an object ends: with its bracket, or by a fault where that or a comma should
stand, or after a comma. -/
inductive Ending where
  | closed
  | cut (b : Break)
  | comma (b : Break)
  deriving DecidableEq, Repr

def Ending.fault? : Ending → Option Break
  | .closed => none
  | .cut b | .comma b => some b

inductive Value where
  | null
  | boolean (b : Bool)
  | number (n : Number)
  | string (l : Literal)
  | array (items : List Value) (ending : Ending)
  | object (members : List (Literal × Value)) (ending : Ending)
  /-- An object that begins with something else in the place of a name. -/
  | misnamed
  /-- A string that is not complete. -/
  | cutString (b : Break)
  /-- The text ends before the value. -/
  | absent
  | broken (b : Break)
  deriving Repr

abbrev Member := Literal × Value

namespace Value

mutual

/-- The fault that is met when the value is skipped. -/
def fault? : Value → Option Fault
  | .null | .boolean _ | .number _ | .string _ => none
  | .array items ending => itemsFault? ending items
  | .object members ending => membersFault? ending members
  | .misnamed => some .malformed
  | .cutString b | .broken b => some b.skipping
  | .absent => some .truncated

def itemsFault? (ending : Ending) : List Value → Option Fault
  | [] => ending.fault?.map Break.skipping
  | v :: items =>
    match v.fault? with
    | some f => some f
    | none => itemsFault? ending items

def membersFault? (ending : Ending) : List (Literal × Value) → Option Fault
  | [] => ending.fault?.map Break.skipping
  | (_, v) :: members =>
    match v.fault? with
    | some f => some f
    | none => membersFault? ending members

end

end Value

end Overseer.Json
