import Overseer.Duration
import Overseer.Text.Blank
import Overseer.Text.Integer

/-!
Lengths of time in text: a plain number of seconds, or a sum of terms such as `1h 30.5min`, each a
number and a unit. White space may stand anywhere but inside a unit. Offsets in errors count bytes.
-/
namespace Overseer

inductive TimeUnit where
  | nanosecond
  | microsecond
  | millisecond
  | second
  | minute
  | hour
  | day
  | week
  | month
  | year
  deriving DecidableEq, Repr

namespace TimeUnit

def all : List TimeUnit :=
  [.nanosecond, .microsecond, .millisecond, .second, .minute, .hour, .day, .week, .month, .year]

def names : TimeUnit → List String
  | .nanosecond => ["nanos", "nsec", "ns"]
  | .microsecond => ["usec", "us", "µs"]
  | .millisecond => ["millis", "msec", "ms"]
  | .second => ["seconds", "second", "secs", "sec", "s"]
  | .minute => ["minutes", "minute", "min", "mins", "m"]
  | .hour => ["hours", "hour", "hr", "hrs", "h"]
  | .day => ["days", "day", "d"]
  | .week => ["weeks", "week", "wk", "wks", "w"]
  | .month => ["months", "month", "M"]
  | .year => ["years", "year", "yr", "yrs", "y"]

def ofName? (name : String) : Option TimeUnit :=
  all.find? fun u => u.names.contains name

inductive Scale where
  | nanoseconds (n : Nat)
  | seconds (n : Nat)
  deriving DecidableEq, Repr

def scale : TimeUnit → Scale
  | .nanosecond => .nanoseconds 1
  | .microsecond => .nanoseconds 1000
  | .millisecond => .nanoseconds 1000000
  | .second => .seconds 1
  | .minute => .seconds 60
  | .hour => .seconds 3600
  | .day => .seconds 86400
  | .week => .seconds 604800
  | .month => .seconds 2630016
  | .year => .seconds 31557600

/-- What fractions of a unit are counted in: seconds from the hour on, nanoseconds below it. A
nanosecond has no fractions. -/
def fractionScale : TimeUnit → Option Scale
  | .nanosecond => none
  | .microsecond => some (.nanoseconds 1000)
  | .millisecond => some (.nanoseconds 1000000)
  | .second => some (.nanoseconds 1000000000)
  | .minute => some (.nanoseconds 60000000000)
  | u => some u.scale

end TimeUnit

namespace Duration

structure Fraction where
  numerator : Nat
  denominator : Nat
  deriving DecidableEq, Repr

/-- A text and the offset at which it begins. -/
structure Cursor where
  offset : Nat
  rest : List Char
  deriving DecidableEq, Repr

def isUnitLetter (c : Char) : Bool :=
  ('a' ≤ c && c ≤ 'z') || ('A' ≤ c && c ≤ 'Z') || c = 'µ'

def appendDigit (n d : Nat) : Outcome Nat :=
  checked (n * 10 + d)

/-- Skips white space up to the first digit of a number. An error names the place where the skipping
began. -/
def firstDigit? (start offset : Nat) : List Char → Outcome (Option (Nat × Cursor))
  | [] => .ok none
  | c :: cs =>
    match Text.digit? c with
    | some d => .ok (some (d, ⟨offset + 1, cs⟩))
    | none =>
      if Text.isBlank c then firstDigit? start (offset + c.utf8Size) cs
      else .error (.numberExpected start)

def wholePart (n offset : Nat) : List Char → Outcome (Nat × Cursor)
  | [] => .ok (n, ⟨offset, []⟩)
  | c :: cs =>
    match Text.digit? c with
    | some d => do wholePart (← appendDigit n d) (offset + 1) cs
    | none =>
      if Text.isBlank c then wholePart n (offset + c.utf8Size) cs
      else if isUnitLetter c || c = '.' then .ok (n, ⟨offset, c :: cs⟩)
      else .error (.invalidCharacter offset)

/-- Reads digits after the point up to a unit or the end. An error names `mark`, the place after the
last character that was taken. -/
def fractionPart (f : Fraction) (mark offset : Nat) : List Char → Outcome (Fraction × Cursor)
  | [] => if f.denominator = 1 then .error (.invalidCharacter mark) else .ok (f, ⟨offset, []⟩)
  | c :: cs =>
    match Text.digit? c with
    | some d => do
      let f' : Fraction := ⟨← appendDigit f.numerator d, ← checked (f.denominator * 10)⟩
      fractionPart f' (offset + 1) (offset + 1) cs
    | none =>
      if Text.isBlank c then
        fractionPart f (offset + c.utf8Size) (offset + c.utf8Size) cs
      else if isUnitLetter c then
        if f.denominator = 1 then .error (.invalidCharacter mark)
        else .ok (f, ⟨offset, c :: cs⟩)
      else .error (.invalidCharacter mark)

def unitName (offset : Nat) : List Char → Outcome (List Char × Cursor)
  | [] => .ok ([], ⟨offset, []⟩)
  | c :: cs =>
    if (Text.digit? c).isSome || Text.isBlank c then .ok ([], ⟨offset, c :: cs⟩)
    else if isUnitLetter c then do
      let (name, after) ← unitName (offset + c.utf8Size) cs
      .ok (c :: name, after)
    else .error (.invalidCharacter offset)

structure Term where
  whole : Nat
  fraction : Option Fraction
  unit : String
  deriving DecidableEq, Repr

def readTerm (digit : Nat) (at_ : Cursor) : Outcome (Term × Cursor) := do
  let (whole, after) ← wholePart digit at_.offset at_.rest
  match after.rest with
  | '.' :: rest =>
    let (fraction, after) ← fractionPart ⟨0, 1⟩ after.offset (after.offset + 1) rest
    let (name, after) ← unitName after.offset after.rest
    .ok (⟨whole, some fraction, String.ofList name⟩, after)
  | _ =>
    let (name, after) ← unitName after.offset after.rest
    .ok (⟨whole, none, String.ofList name⟩, after)

def addScaled (d : Duration) (n : Nat) : TimeUnit.Scale → Outcome Duration
  | .nanoseconds k => do d.plus 0 (← checked (n * k))
  | .seconds k => do d.plus (← checked (n * k)) 0

/-- A fraction must come to a whole number of what it is counted in. -/
def addFraction (d : Duration) (f : Fraction) (s : TimeUnit.Scale) : Outcome Duration := do
  let k := match s with
    | .nanoseconds k | .seconds k => k
  let n ← checked (f.numerator * k)
  if n % f.denominator = 0 then
    match s with
    | .nanoseconds _ => d.plus 0 (n / f.denominator)
    | .seconds _ => d.plus (n / f.denominator) 0
  else .error .unrepresentable

/-- The unit is looked up before anything is computed. -/
def addTerm (d : Duration) (t : Term) : Outcome Duration :=
  match TimeUnit.ofName? t.unit with
  | none => .error (if t.unit.isEmpty then .unitNeeded t.whole else .unknownUnit t.unit)
  | some unit => do
    let d ← d.addScaled t.whole unit.scale
    match t.fraction with
    | none => .ok d
    | some f =>
      match unit.fractionScale with
      | none => .error .unrepresentable
      | some s => d.addFraction f s

/-- What separates two terms: nothing before a digit, else one white space before the next skips
more. -/
def afterUnit (at_ : Cursor) : Cursor :=
  match at_.rest with
  | [] => at_
  | c :: cs => if Text.isBlank c then ⟨at_.offset + c.utf8Size, cs⟩ else at_

/-- Adds term after term. Each takes at least one character, which `steps` counts. -/
def readTerms (d : Duration) (digit : Nat) (at_ : Cursor) : Nat → Outcome Duration
  | 0 => .ok d
  | steps + 1 => do
    let (term, after) ← readTerm digit at_
    let d ← d.addTerm term
    let next := afterUnit after
    match ← firstDigit? next.offset next.offset next.rest with
    | none => .ok d
    | some (digit, at_) => readTerms d digit at_ steps

def ofTerms (text : String) : Outcome Duration := do
  match ← firstDigit? 0 0 text.toList with
  | none => .error .empty
  | some (digit, at_) => readTerms zero digit at_ (text.length + 1)

/-- A number of seconds that fits into 64 bits, or else a sum of terms. -/
def ofText (text : String) : Outcome Duration :=
  match Text.parseNatural greatest64 text with
  | .ok n => if h : n ≤ greatest64 then .ok (ofSeconds n h) else .error .unrepresentable
  | .error _ => ofTerms text

end Duration

end Overseer
