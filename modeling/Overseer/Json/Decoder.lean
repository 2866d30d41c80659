import Overseer.Json.Number
import Overseer.Json.Reader
import Overseer.Text.Quoted

/-!
Decoders take from a JSON value what a program wants of it. They look at the text from left to
right and stop at the first thing that is wrong, be it a value of the wrong type or a fault of the
text; what they do not want they skip.
-/
namespace Overseer.Json

inductive Found where
  | null
  | boolean (b : Bool)
  | integer (n : Int)
  | real (shown : String)
  | string (s : String)
  | sequence
  | map
  deriving DecidableEq, Repr

inductive DecodeError where
  | faulty (f : Fault)
  | wrongType (found : Found) (expected : String)
  | outOfRange (n : Int) (expected : String)
  | wrongLength (length : Nat) (expected : String)
  | missingField (name : String)
  | duplicateField (name : String)
  | unknownVariant (name : String) (known : List String)
  deriving DecidableEq, Repr

def ticked (name : String) : String :=
  "\x60" ++ name ++ "\x60"

def Found.text : Found → String
  | .null => "null"
  | .boolean b => "boolean " ++ ticked (if b then "true" else "false")
  | .integer n => "integer " ++ ticked (toString n)
  | .real shown => "floating point " ++ ticked shown
  | .string s => "string " ++ Text.quote s
  | .sequence => "sequence"
  | .map => "map"

namespace DecodeError

def category : DecodeError → String
  | .faulty .malformed => "Syntax"
  | .faulty .truncated => "Eof"
  | _ => "Data"

def message : DecodeError → String
  | .faulty _ => ""
  | .wrongType found expected => "invalid type: " ++ found.text ++ ", expected " ++ expected
  | .outOfRange n expected =>
    "invalid value: " ++ (Found.integer n).text ++ ", expected " ++ expected
  | .wrongLength length expected => s!"invalid length {length}, expected {expected}"
  | .missingField name => "missing field " ++ ticked name
  | .duplicateField name => "duplicate field " ++ ticked name
  | .unknownVariant name known =>
    "unknown variant " ++ ticked name ++ ", expected one of " ++
      ", ".intercalate (known.map ticked)

end DecodeError

abbrev Decoded (α : Type) := Except DecodeError α

def Break.error (b : Break) : DecodeError := .faulty b.reading

def malformed : DecodeError := .faulty .malformed

namespace Value

/-- Brackets are enough to tell an array or an object; the rest of it is not looked at. -/
def found : Value → Except Fault Found
  | .null => .ok .null
  | .boolean b => .ok (.boolean b)
  | .number n =>
    match n.integer? with
    | some i => .ok (.integer i)
    | none => n.realText.map .real
  | .string (.text s) => .ok (.string s)
  | .string .unpaired => .error .malformed
  | .array _ _ => .ok .sequence
  | .object _ _ | .misnamed => .ok .map
  | .cutString b | .broken b => .error b.reading
  | .absent => .error .truncated

def mismatch (v : Value) (expected : String) : DecodeError :=
  match v.found with
  | .ok f => .wrongType f expected
  | .error f => .faulty f

def decodeString (expected : String) : Value → Decoded String
  | .string (.text s) => .ok s
  | v => .error (v.mismatch expected)

def decodeBoolean : Value → Decoded Bool
  | .boolean b => .ok b
  | v => .error (v.mismatch "a boolean")

def decodeUnit : Value → Decoded Unit
  | .null => .ok ()
  | v => .error (v.mismatch "unit")

def decodeInteger (least greatest : Int) (expected : String) : Value → Decoded Int
  | .number n =>
    match n.integer? with
    | some i => if least ≤ i && i ≤ greatest then .ok i else .error (.outOfRange i expected)
    | none => .error ((Value.number n).mismatch expected)
  | v => .error (v.mismatch expected)

def decodeOptional {α : Type} (decode : Value → Decoded α) : Value → Decoded (Option α)
  | .null => .ok none
  | v => (decode v).map some

def skip (v : Value) : Decoded Unit :=
  match v.fault? with
  | none => .ok ()
  | some f => .error (.faulty f)

end Value

def foldMembers {α : Type} (put : α → String → Value → Decoded α) (ending : Ending) :
    α → List Member → Decoded α
  | a, [] =>
    match ending.fault? with
    | none => .ok a
    | some b => .error b.error
  | _, (.unpaired, _) :: _ => .error malformed
  | a, (.text name, v) :: members =>
    match put a name v with
    | .error e => .error e
    | .ok a => foldMembers put ending a members

/-- How a structure is decoded: the fields that are known, how one more is taken in, and how the
result is made. -/
structure Shape (α β : Type) where
  title : String
  fields : List String
  /-- The fields at the front that an array must give. -/
  required : Nat
  start : α
  put : α → String → Value → Decoded α
  finish : α → Decoded β

namespace Shape

variable {α β : Type}

def lengthText (s : Shape α β) : String :=
  s!"{s.title} with {s.fields.length} elements"

/-- Gives the items of an array to the fields in order. After the last field the array must end. -/
def foldItems (s : Shape α β) (ending : Ending) : α → Nat → List String → List Value → Decoded α
  | a, _, [], [] =>
    match ending with
    | .closed => .ok a
    | .cut b => .error b.error
    | .comma _ => .error malformed
  | _, _, [], _ :: _ => .error malformed
  | a, count, _ :: _, [] =>
    match ending.fault? with
    | some b => .error b.error
    | none =>
      if count < s.required then .error (.wrongLength count s.lengthText) else .ok a
  | a, count, field :: fields, v :: items =>
    match s.put a field v with
    | .error e => .error e
    | .ok a => foldItems s ending a (count + 1) fields items

/-- A structure is an object, or an array of its fields in order. -/
def decode (s : Shape α β) : Value → Decoded β
  | .object members ending => (foldMembers s.put ending s.start members).bind s.finish
  | .misnamed => .error malformed
  | .array items ending => (s.foldItems ending s.start 0 s.fields items).bind s.finish
  | v => .error (v.mismatch s.title)

end Shape

/-- Decodes a whole text: nothing but spaces may follow its value. -/
def decodeText {α : Type} (decode : Value → Decoded α) (text : String) : Decoded α :=
  let (v, rest) := read text
  match decode v with
  | .error e => .error e
  | .ok a =>
    match rest with
    | some rest => if (skipSpace rest).isEmpty then .ok a else .error malformed
    | none => .error malformed

end Overseer.Json
