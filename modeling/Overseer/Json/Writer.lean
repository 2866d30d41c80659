import Overseer.Json.Number
import Overseer.Text.Quoted

/-!
Writes JSON without spaces. A string escapes quotes, backslashes and control characters below the
space; all else stands for itself.
-/
namespace Overseer.Json

def controlEscape (c : Char) : List Char :=
  let digits := Text.hexDigits c.toNat
  '\\' :: 'u' :: List.replicate (4 - digits.length) '0' ++ digits

def writeChar (c : Char) : List Char :=
  if c = '"' then ['\\', '"']
  else if c = '\\' then ['\\', '\\']
  else if c.toNat = 8 then ['\\', 'b']
  else if c.toNat = 12 then ['\\', 'f']
  else if c = '\n' then ['\\', 'n']
  else if c = '\r' then ['\\', 'r']
  else if c = '\t' then ['\\', 't']
  else if c < ' ' then controlEscape c
  else [c]

def writeString (s : String) : List Char :=
  '"' :: s.toList.flatMap writeChar ++ ['"']

def Literal.write : Literal → List Char
  | .text s => writeString s
  | .unpaired => []

def Number.write (n : Number) : List Char :=
  let fraction := if n.fraction.isEmpty then [] else '.' :: n.fraction
  let exponent := match n.exponent with
    | none => []
    | some (downward, digits) => 'e' :: (if downward then '-' :: digits else digits)
  (if n.negative then ['-'] else []) ++ n.whole ++ fraction ++ exponent

namespace Value

mutual

/-- The text of a value that is complete; a fault has none. -/
def write : Value → List Char
  | .null => ['n', 'u', 'l', 'l']
  | .boolean true => ['t', 'r', 'u', 'e']
  | .boolean false => ['f', 'a', 'l', 's', 'e']
  | .number n => n.write
  | .string l => l.write
  | .array items _ => '[' :: writeItems items ++ [']']
  | .object members _ => '\x7b' :: writeMembers members ++ ['\x7d']
  | .misnamed | .cutString _ | .absent | .broken _ => []

def writeItems : List Value → List Char
  | [] => []
  | [v] => v.write
  | v :: items => v.write ++ ',' :: writeItems items

def writeMembers : List (Literal × Value) → List Char
  | [] => []
  | [(name, v)] => name.write ++ ':' :: v.write
  | (name, v) :: members => name.write ++ ':' :: v.write ++ ',' :: writeMembers members

end

def ofMembers (members : List (String × Value)) : Value :=
  .object (members.map fun m => (.text m.1, m.2)) .closed

def ofString (s : String) : Value := .string (.text s)

def ofInt (n : Int) : Value := .number (.ofInt n)

def render (v : Value) : String := String.ofList v.write

end Value

end Overseer.Json
