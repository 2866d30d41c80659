/-!
Text in bytes. A scalar value takes one to four bytes; a byte that cannot go on with what was begun
ends it, and the bytes read so far are then one ill-formed part: the longest beginning that some
scalar value shares. Lossy decoding puts U+FFFD for each part; strict decoding names the first.
-/
namespace Overseer.Utf8

/-- A scalar value that has begun: the bits so far, the bytes still due, and the range in which the
next of them must lie. -/
structure Opened where
  bits : Nat
  due : Nat
  low : UInt8
  high : UInt8
  deriving DecidableEq, Repr

inductive Start where
  | single (c : Char)
  | opened (o : Opened)
  | invalid
  deriving DecidableEq, Repr

/-- What a first byte begins. The ranges exclude overlong forms, surrogates and values past the
last plane. -/
def start (b : UInt8) : Start :=
  if b ≤ 0x7f then .single (Char.ofNat b.toNat)
  else if b < 0xc2 then .invalid
  else if b ≤ 0xdf then .opened ⟨b.toNat - 0xc0, 1, 0x80, 0xbf⟩
  else if b = 0xe0 then .opened ⟨0, 2, 0xa0, 0xbf⟩
  else if b = 0xed then .opened ⟨0xd, 2, 0x80, 0x9f⟩
  else if b ≤ 0xef then .opened ⟨b.toNat - 0xe0, 2, 0x80, 0xbf⟩
  else if b = 0xf0 then .opened ⟨0, 3, 0x90, 0xbf⟩
  else if b = 0xf4 then .opened ⟨4, 3, 0x80, 0x8f⟩
  else if b ≤ 0xf3 then .opened ⟨b.toNat - 0xf0, 3, 0x80, 0xbf⟩
  else .invalid

def Opened.accepts (o : Opened) (b : UInt8) : Bool :=
  o.low ≤ b && b ≤ o.high

/-- Takes a byte that is accepted; the last one due completes the scalar value. -/
def Opened.push (o : Opened) (b : UInt8) : Start :=
  let bits := o.bits * 64 + (b.toNat - 0x80)
  if o.due ≤ 1 then .single (Char.ofNat bits) else .opened ⟨bits, o.due - 1, 0x80, 0xbf⟩

def replacement : Char := Char.ofNat 0xfffd

def decodeFrom : Option Opened → List UInt8 → List Char
  | none, [] => []
  | some _, [] => [replacement]
  | none, b :: bs =>
    match start b with
    | .single c => c :: decodeFrom none bs
    | .opened o => decodeFrom (some o) bs
    | .invalid => replacement :: decodeFrom none bs
  | some o, b :: bs =>
    if o.accepts b then
      match o.push b with
      | .single c => c :: decodeFrom none bs
      | .opened o' => decodeFrom (some o') bs
      | .invalid => replacement :: decodeFrom none bs
    else
      match start b with
      | .single c => replacement :: c :: decodeFrom none bs
      | .opened o' => replacement :: decodeFrom (some o') bs
      | .invalid => replacement :: replacement :: decodeFrom none bs

def decode (bytes : List UInt8) : String :=
  String.ofList (decodeFrom none bytes)

/-- The first ill-formed part: where it begins and how long it is, or that the bytes end in it. -/
structure Fault where
  position : Nat
  length : Option Nat
  deriving DecidableEq, Repr

/-- `begun` counts the bytes of the scalar value that is open; `position` is where it began. -/
def faultFrom (position begun : Nat) : Option Opened → List UInt8 → Option Fault
  | none, [] => none
  | some _, [] => some ⟨position, none⟩
  | none, b :: bs =>
    match start b with
    | .single _ => faultFrom (position + 1) 0 none bs
    | .opened o => faultFrom position 1 (some o) bs
    | .invalid => some ⟨position, some 1⟩
  | some o, b :: bs =>
    if o.accepts b then
      match o.push b with
      | .single _ => faultFrom (position + begun + 1) 0 none bs
      | .opened o' => faultFrom position (begun + 1) (some o') bs
      | .invalid => some ⟨position, some begun⟩
    else some ⟨position, some begun⟩

def fault? (bytes : List UInt8) : Option Fault :=
  faultFrom 0 0 none bytes

def Fault.message (f : Fault) : String :=
  match f.length with
  | some n => s!"invalid utf-8 sequence of {n} bytes from index {f.position}"
  | none => s!"incomplete utf-8 byte sequence from index {f.position}"

def encode (s : String) : List UInt8 :=
  s.toUTF8.data.toList

theorem encode_inj {s t : String} (same : encode s = encode t) : s = t :=
  String.toByteArray_inj.1 (ByteArray.ext (Array.toList_inj.1 same))

end Overseer.Utf8
