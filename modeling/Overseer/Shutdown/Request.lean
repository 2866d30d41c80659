import Overseer.Shutdown.Channel
import Overseer.Text.Utf8

/-!
How a listener finds the request to exit in what a client sends. A line is looked at once its
newline is there. Only so many bytes of a line are held: one that goes on after them is no request,
and what is left of it is passed over up to its newline. A reader can take bytes as they come, or
a line at a time from what was read.
-/
namespace Overseer.Shutdown

/-- The most bytes of a line that are held, its newline among them. -/
def lineLimit : Nat := 1024

def newline : UInt8 := 0x0a
def carriageReturn : UInt8 := 0x0d

structure RequestReader where
  /-- The bytes of the line so far, last first. -/
  held : List UInt8 := []
  /-- The line is too long and is being passed over. -/
  skipping : Bool := false
  deriving DecidableEq, Repr

/-- A line is the request with or without one carriage return before its newline. -/
def isRequest (line : List UInt8) : Bool :=
  line = Utf8.encode exitCommand || line = Utf8.encode exitCommand ++ [carriageReturn]

namespace RequestReader

/-- Takes one byte; none if it completes a request. -/
def feedByte (r : RequestReader) (b : UInt8) : Option RequestReader :=
  if r.skipping then some ⟨[], b ≠ newline⟩
  else if b = newline then if isRequest r.held.reverse then none else some {}
  else if r.held.length + 1 = lineLimit then some ⟨[], true⟩
  else some ⟨b :: r.held, false⟩

def feed (r : RequestReader) : List UInt8 → Option RequestReader
  | [] => some r
  | b :: bs => (r.feedByte b).bind fun r => r.feed bs

def feedAll (r : RequestReader) : List (List UInt8) → Option RequestReader
  | [] => some r
  | read :: reads => (r.feed read).bind fun r => r.feedAll reads

end RequestReader

/-- Whether a stream that arrives in these reads and then ends holds a request. -/
def holdsRequest (reads : List (List UInt8)) : Bool :=
  (RequestReader.feedAll {} reads).isNone

/-- Takes bytes up to and with the next newline, at most `limit` of them. Gives them and what is left
of the reads. -/
def takeLine (limit : Nat) : List (List UInt8) → List UInt8 × List (List UInt8)
  | [] => ([], [])
  | read :: reads =>
    match (read.take limit).findIdx? (· = newline) with
    | some i => (read.take (i + 1), read.drop (i + 1) :: reads)
    | none =>
      if limit ≤ read.length then (read.take limit, read.drop limit :: reads)
      else
        let (line, left) := takeLine (limit - read.length) reads
        (read ++ line, left)

def skipLine : List (List UInt8) → List (List UInt8)
  | [] => []
  | read :: reads =>
    match read.findIdx? (· = newline) with
    | some i => read.drop (i + 1) :: reads
    | none => skipLine reads

/-- Nothing is lost of the stream. -/
theorem takeLine_append (limit : Nat) (reads : List (List UInt8)) :
    (takeLine limit reads).1 ++ (takeLine limit reads).2.flatten = reads.flatten := by
  induction reads generalizing limit with
  | nil => rfl
  | cons read reads ih =>
    unfold takeLine
    split
    next i found =>
      rw [List.flatten_cons, List.flatten_cons, ← List.append_assoc, List.take_append_drop]
    next none =>
      split
      next full =>
        rw [List.flatten_cons, List.flatten_cons, ← List.append_assoc, List.take_append_drop]
      next more => rw [List.flatten_cons, List.append_assoc, ih]

theorem length_skipLine_le (reads : List (List UInt8)) :
    (skipLine reads).flatten.length ≤ reads.flatten.length := by
  induction reads with
  | nil => exact Nat.le_refl 0
  | cons read reads ih =>
    unfold skipLine
    split
    next i found =>
      rw [List.flatten_cons, List.flatten_cons, List.length_append, List.length_append,
        List.length_drop]
      omega
    next none =>
      rw [List.flatten_cons, List.length_append]
      omega

/-- Reads lines up to a request or the end of the stream. -/
def awaitRequest (reads : List (List UInt8)) : Bool :=
  let line := (takeLine lineLimit reads).1
  let left := (takeLine lineLimit reads).2
  if _some : line = [] then false
  else if line.getLast? = some newline then
    if isRequest line.dropLast then true else awaitRequest left
  else if line.length = lineLimit then awaitRequest (skipLine left)
  else false
termination_by reads.flatten.length
decreasing_by
  all_goals
    have taken : 0 < (takeLine lineLimit reads).1.length := List.length_pos_iff.mpr _some
    have parted := congrArg List.length (takeLine_append lineLimit reads)
    have skipped := length_skipLine_le (takeLine lineLimit reads).2
    rw [List.length_append] at parted
    omega

def acknowledgementLine : List UInt8 :=
  Utf8.encode acknowledgement ++ [newline]

def requestLine : List UInt8 :=
  Utf8.encode exitCommand ++ [newline]

end Overseer.Shutdown
