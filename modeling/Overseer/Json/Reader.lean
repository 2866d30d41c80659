import Overseer.Json.Basic

/-!
Reads a JSON value from the beginning of a text, as far as it goes. What follows a complete value is
given back; after a fault nothing is.
-/
namespace Overseer.Json

def isSpace (c : Char) : Bool :=
  c = ' ' || c = '\n' || c = '\t' || c = '\r'

def skipSpace (cs : List Char) : List Char :=
  cs.dropWhile isSpace

/-- What a string is made of: characters, and code units of sixteen bits given by number. -/
inductive Piece where
  | char (c : Char)
  | unit (n : Nat)
  deriving DecidableEq, Repr

def hexDigit? (c : Char) : Option Nat :=
  if '0' ≤ c ∧ c ≤ '9' then some (c.toNat - '0'.toNat)
  else if 'a' ≤ c ∧ c ≤ 'f' then some (c.toNat - 'a'.toNat + 10)
  else if 'A' ≤ c ∧ c ≤ 'F' then some (c.toNat - 'A'.toNat + 10)
  else none

def hexValue? (digits : List Char) : Option Nat :=
  digits.foldl (fun n c => n.bind fun n => (hexDigit? c).map (n * 16 + ·)) (some 0)

def escaped? (c : Char) : Option Char :=
  if c = '"' || c = '\\' || c = '/' then some c
  else if c = 'b' then some (Char.ofNat 8)
  else if c = 'f' then some (Char.ofNat 12)
  else if c = 'n' then some '\n'
  else if c = 'r' then some '\r'
  else if c = 't' then some '\t'
  else none

abbrev Scan := List Piece × Except Fault (List Char)

def Scan.cons (p : Piece) (s : Scan) : Scan := (p :: s.1, s.2)

/-- The four digits of a code unit are counted in bytes: fewer than four end the text. -/
def scan : List Char → Scan
  | [] => ([], .error .truncated)
  | '"' :: rest => ([], .ok rest)
  | '\\' :: 'u' :: a :: b :: c :: d :: rest =>
    match hexValue? [a, b, c, d] with
    | some n => (scan rest).cons (.unit n)
    | none => ([], .error .malformed)
  | '\\' :: 'u' :: rest =>
    ([], .error (if (String.ofList rest).utf8ByteSize < 4 then .truncated else .malformed))
  | '\\' :: c :: rest =>
    match escaped? c with
    | some e => (scan rest).cons (.char e)
    | none => ([], .error .malformed)
  | ['\\'] => ([], .error .truncated)
  | c :: rest =>
    if c < ' ' then ([], .error .malformed) else (scan rest).cons (.char c)

/-- The text of pieces, unless a half of a surrogate pair is alone. The first half of a pair dangles
if nothing follows it. -/
inductive Pairing where
  | text (cs : List Char)
  | lone
  | dangling
  deriving DecidableEq, Repr

def Pairing.cons (c : Char) : Pairing → Pairing
  | .text cs => .text (c :: cs)
  | other => other

def isFirstHalf (n : Nat) : Bool := 0xd800 ≤ n && n ≤ 0xdbff
def isSecondHalf (n : Nat) : Bool := 0xdc00 ≤ n && n ≤ 0xdfff

def pairUp : List Piece → Pairing
  | [] => .text []
  | .char c :: rest => (pairUp rest).cons c
  | [.unit n] =>
    if isSecondHalf n then .lone
    else if isFirstHalf n then .dangling
    else .text [Char.ofNat n]
  | .unit n :: .unit m :: rest =>
    if isSecondHalf n then .lone
    else if isFirstHalf n then
      if isSecondHalf m then
        (pairUp rest).cons (Char.ofNat (0x10000 + (n - 0xd800) * 0x400 + (m - 0xdc00)))
      else .lone
    else (pairUp (.unit m :: rest)).cons (Char.ofNat n)
  | .unit n :: .char c :: rest =>
    if isSecondHalf n || isFirstHalf n then .lone
    else (pairUp (.char c :: rest)).cons (Char.ofNat n)

/-- Reads a string after its opening quote. A lone half of a pair is the fault of a string that is
read, even if the text has another after it. -/
def readString (cs : List Char) : Except Break (Literal × List Char) :=
  match scan cs with
  | (pieces, .ok rest) =>
    match pairUp pieces with
    | .text s => .ok (.text (String.ofList s), rest)
    | _ => .ok (.unpaired, rest)
  | (pieces, .error f) =>
    match pairUp pieces with
    | .lone => .error ⟨.malformed, f⟩
    | _ => .error ⟨f, f⟩

def isDigit (c : Char) : Bool := '0' ≤ c && c ≤ '9'

def readDigits (cs : List Char) : Except Break (List Char × List Char) :=
  match cs.takeWhile isDigit, cs.dropWhile isDigit with
  | [], [] => .error .unfinished
  | [], _ => .error .malformed
  | digits, rest => .ok (digits, rest)

def readExponent (n : Number) (cs : List Char) : Except Break (Number × List Char) :=
  let (downward, unsigned) := match cs with
    | '+' :: rest => (false, rest)
    | '-' :: rest => (true, rest)
    | rest => (false, rest)
  (readDigits unsigned).map fun (digits, rest) =>
    ({ n with exponent := some (downward, digits) }, rest)

def readScale (n : Number) (cs : List Char) : Except Break (Number × List Char) :=
  match cs with
  | 'e' :: rest | 'E' :: rest => readExponent n rest
  | rest => .ok (n, rest)

/-- A zero at the beginning stands alone. -/
def readUnsigned (negative : Bool) (cs : List Char) : Except Break (Number × List Char) :=
  match readDigits cs with
  | .error b => .error b
  | .ok ('0' :: _ :: _, _) => .error .malformed
  | .ok (whole, '.' :: rest) =>
    match readDigits rest with
    | .error b => .error b
    | .ok (fraction, rest) => readScale { negative, whole, fraction } rest
  | .ok (whole, rest) => readScale { negative, whole } rest

def readNumber (cs : List Char) : Except Break (Number × List Char) :=
  match cs with
  | '-' :: rest => readUnsigned true rest
  | rest => readUnsigned false rest

/-- A word whose first letter decided what it must be. -/
def readWord (v : Value) : List Char → List Char → Value × Option (List Char)
  | [], rest => (v, some rest)
  | _ :: _, [] => (.broken .truncated, none)
  | expected :: word, c :: rest =>
    if c = expected then readWord v word rest else (.broken .malformed, none)

mutual

/-- Reads a value; `depth` bounds the number of brackets and commas met. -/
def readValue : Nat → List Char → Value × Option (List Char)
  | 0, _ => (.absent, none)
  | depth + 1, cs =>
    match skipSpace cs with
    | [] => (.absent, none)
    | 'n' :: rest => readWord .null ['u', 'l', 'l'] rest
    | 't' :: rest => readWord (.boolean true) ['r', 'u', 'e'] rest
    | 'f' :: rest => readWord (.boolean false) ['a', 'l', 's', 'e'] rest
    | '"' :: rest =>
      match readString rest with
      | .ok (l, rest) => (.string l, some rest)
      | .error b => (.cutString b, none)
    | '[' :: rest =>
      match skipSpace rest with
      | [] => (.array [] (.cut .truncated), none)
      | ']' :: rest => (.array [] .closed, some rest)
      | rest =>
        let (items, ending, rest) := readItems depth rest
        (.array items ending, rest)
    | '{' :: rest =>
      match skipSpace rest with
      | [] => (.object [] (.cut .truncated), none)
      | '}' :: rest => (.object [] .closed, some rest)
      | '"' :: rest =>
        let (members, ending, rest) := readMembers depth .cut rest
        (.object members ending, rest)
      | _ => (.misnamed, none)
    | c :: rest =>
      if c = '-' || isDigit c then
        match readNumber (c :: rest) with
        | .ok (n, rest) => (.number n, some rest)
        | .error b => (.broken b, none)
      else (.broken .malformed, none)

def readItems : Nat → List Char → List Value × Ending × Option (List Char)
  | 0, _ => ([], .cut .truncated, none)
  | depth + 1, cs =>
    match readValue depth cs with
    | (v, none) => ([v], .cut .malformed, none)
    | (v, some rest) =>
      match skipSpace rest with
      | [] => ([v], .cut .truncated, none)
      | ']' :: rest => ([v], .closed, some rest)
      | ',' :: rest =>
        match skipSpace rest with
        | [] => ([v], .comma .truncated, none)
        | ']' :: _ => ([v], .comma .malformed, none)
        | rest =>
          let (items, ending, rest) := readItems depth rest
          (v :: items, ending, rest)
      | _ => ([v], .cut .malformed, none)

/-- Reads members from behind the opening quote of a name; `faulty` is the ending if that name has a
fault. -/
def readMembers : Nat → (Break → Ending) → List Char → List Member × Ending × Option (List Char)
  | 0, _, _ => ([], .cut .truncated, none)
  | depth + 1, faulty, cs =>
    match readString cs with
    | .error b => ([], faulty b, none)
    | .ok (name, rest) =>
      match skipSpace rest with
      | [] => ([(name, .broken .truncated)], .cut .truncated, none)
      | ':' :: rest =>
        match readValue depth rest with
        | (v, none) => ([(name, v)], .cut .malformed, none)
        | (v, some rest) =>
          match skipSpace rest with
          | [] => ([(name, v)], .cut .truncated, none)
          | '}' :: rest => ([(name, v)], .closed, some rest)
          | ',' :: rest =>
            match skipSpace rest with
            | [] => ([(name, v)], .comma .truncated, none)
            | '"' :: rest =>
              let (members, ending, rest) := readMembers depth .comma rest
              ((name, v) :: members, ending, rest)
            | _ => ([(name, v)], .comma .malformed, none)
          | _ => ([(name, v)], .cut .malformed, none)
      | _ => ([(name, .broken .malformed)], .cut .malformed, none)

end

/-- Reads the value that a text begins with. Every bracket and comma is a character of the text. -/
def read (text : String) : Value × Option (List Char) :=
  readValue (2 * text.length + 2) text.toList

end Overseer.Json
