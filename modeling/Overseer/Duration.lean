import Overseer.Text.Integer

/-!
Lengths of time: whole seconds, as many as fit into 64 bits, and a part of a second in nanoseconds.
-/
namespace Overseer

def nanosPerSecond : Nat := 1000000000

structure Duration where
  seconds : Nat
  nanoseconds : Nat
  seconds_le : seconds ≤ greatest64
  nanoseconds_lt : nanoseconds < nanosPerSecond
  deriving DecidableEq, Repr

/-- Why a length of time cannot be had. All but the last are reported; the last ends the program. -/
inductive DurationError where
  | empty
  | numberExpected (offset : Nat)
  | invalidCharacter (offset : Nat)
  | unitNeeded (value : Nat)
  | unknownUnit (unit : String)
  /-- A number or the sum leaves its 64 bits, or a fraction is no whole number of the finer unit. -/
  | unrepresentable
  | overflow
  deriving DecidableEq, Repr

def DurationError.message : DurationError → String
  | .empty => "value was empty"
  | .numberExpected offset => s!"expected number at {offset}"
  | .invalidCharacter offset => s!"invalid character at {offset}"
  | .unitNeeded value => s!"time unit needed, for example {value}sec or {value}ms"
  | .unknownUnit unit =>
    "unknown time unit \"" ++ unit ++
      "\", supported units: ns, us/µs, ms, sec, min, hours, days, weeks, months, years " ++
      "(and few variations)"
  | .unrepresentable =>
    "number is too large or cannot be represented without a lack of precision " ++
      "(values below 1ns are not supported)"
  | .overflow => "overflow in Duration::new"

namespace Duration

abbrev Outcome (α : Type) := Except DurationError α

def ofSeconds (n : Nat) (h : n ≤ greatest64) : Duration :=
  ⟨n, 0, h, by decide⟩

def zero : Duration := ofSeconds 0 (by decide)

theorem millis_le {n : Nat} (h : n ≤ greatest64) : n / 1000 ≤ greatest64 :=
  Nat.le_trans (Nat.div_le_self n 1000) h

theorem nanos_lt (n : Nat) : n % 1000 * 1000000 < nanosPerSecond := by
  unfold nanosPerSecond
  omega

def ofMillis (n : Nat) (h : n ≤ greatest64) : Duration :=
  ⟨n / 1000, n % 1000 * 1000000, millis_le h, nanos_lt n⟩

def ofMillis? (n : Nat) : Option Duration :=
  if h : n ≤ greatest64 then some (ofMillis n h) else none

/-- A number that must fit into 64 bits. -/
def checked (n : Nat) : Outcome Nat :=
  if n ≤ greatest64 then .ok n else .error .unrepresentable

/-- At most a second's worth of nanoseconds. A whole second is carried, for which there must be
room. -/
def make (seconds nanoseconds : Nat) : Outcome Duration :=
  if h : seconds ≤ greatest64 ∧ nanoseconds < nanosPerSecond then
    .ok ⟨seconds, nanoseconds, h.1, h.2⟩
  else if h : seconds + 1 ≤ greatest64 then .ok (ofSeconds (seconds + 1) h)
  else .error .overflow

/-- Adds seconds and nanoseconds. More nanoseconds than a second has are carried before the seconds
are added; exactly as many are carried last. -/
def plus (d : Duration) (seconds nanoseconds : Nat) : Outcome Duration := do
  let nanos ← checked (d.nanoseconds + nanoseconds)
  if nanosPerSecond < nanos then
    let carried ← checked (seconds + nanos / nanosPerSecond)
    make (← checked (d.seconds + carried)) (nanos % nanosPerSecond)
  else make (← checked (d.seconds + seconds)) nanos

/-- The milliseconds after which a timer for this long goes off: rounded up. -/
def toMillis (d : Duration) : Nat :=
  d.seconds * 1000 + (d.nanoseconds + 999999) / 1000000

end Duration

end Overseer
