import Overseer.Failure
import Overseer.Shutdown.Request
import Overseer.Text.Blank

/-!
What a signaler makes of the answer to its request. Only the first line counts, or all there is if
the other end closes before a newline.
-/
namespace Overseer.Shutdown

inductive Ending where
  | closed
  /-- It left bytes unread. -/
  | reset
  deriving DecidableEq, Repr

abbrev Answer := Except ShutdownError Unit

/-- Trailing carriage returns and newlines do not count. -/
def judgeText (reply : String) : Answer :=
  let trimmed := String.ofList
    (Text.trimEnd (fun c => c = '\r' || c = '\n') reply.toList)
  if trimmed = acknowledgement then .ok () else .error (.unexpectedReply trimmed)

def judgeLine (line : List UInt8) : Answer :=
  match Utf8.fault? line with
  | some f => .error (.readReply (.refused .invalidData f.message))
  | none => judgeText (Utf8.decode line)

def firstLine? : List UInt8 → Option (List UInt8)
  | [] => none
  | b :: bs => if b = newline then some [b] else (firstLine? bs).map (b :: ·)

/-- The answer, as soon as it is certain. -/
def judge? (received : List UInt8) (ending : Option Ending) : Option Answer :=
  match firstLine? received, ending with
  | some line, _ => some (judgeLine line)
  | none, none => none
  | none, some .reset => some (.error (.readReply (.errno .connectionReset)))
  | none, some .closed =>
    some (if received.isEmpty then .error .closed else judgeLine received)

def retries (e : SystemError) : Bool :=
  e.kind = .notFound || e.kind = .connectionRefused

end Overseer.Shutdown
