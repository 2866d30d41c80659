import Overseer.Proofs.Text.Segments
import Overseer.Shutdown.Request

/-!
What a listener takes for a request, as a property of the bytes alone: one of the lines that a
newline ends is `EXIT`, or `EXIT` and a carriage return. The reader that is fed byte by byte finds
just these, however the bytes are cut into reads and however long the other lines are.
-/
namespace Overseer.Shutdown

def completeLines (stream : List UInt8) : List (List UInt8) :=
  (stream.splitOn newline).dropLast

/-- A request stands among the lines of a stream. -/
def Requests (stream : List UInt8) : Prop :=
  ∃ line ∈ completeLines stream, isRequest line = true

theorem completeLines_of_not_mem {stream : List UInt8} (unended : newline ∉ stream) :
    completeLines stream = [] :=
  Text.ended_of_not_mem unended

theorem completeLines_append {line : List UInt8} (inside : newline ∉ line) (rest : List UInt8) :
    completeLines (line ++ newline :: rest) = line :: completeLines rest :=
  Text.ended_append inside rest

theorem not_requests {stream : List UInt8} (unended : newline ∉ stream) : ¬Requests stream := by
  simp [Requests, completeLines_of_not_mem unended]

theorem requests_append {line : List UInt8} (inside : newline ∉ line) (rest : List UInt8) :
    Requests (line ++ newline :: rest) ↔ isRequest line = true ∨ Requests rest := by
  simp [Requests, completeLines_append inside]

theorem isRequest_iff (line : List UInt8) :
    isRequest line = true ↔
      line = Utf8.encode exitCommand ∨ line = Utf8.encode exitCommand ++ [carriageReturn] := by
  simp [isRequest]

theorem length_lt_of_isRequest {line : List UInt8} (request : isRequest line = true) :
    line.length < lineLimit := by
  rcases (isRequest_iff line).mp request with rfl | rfl <;> decide

namespace RequestReader

theorem feed_append (r : RequestReader) (first later : List UInt8) :
    r.feed (first ++ later) = (r.feed first).bind fun r => r.feed later := by
  induction first generalizing r with
  | nil => rfl
  | cons b bs ih => simp [feed, ih, Option.bind_assoc]

/-- How a stream is cut into reads does not matter. -/
theorem feedAll_eq_feed (r : RequestReader) (reads : List (List UInt8)) :
    r.feedAll reads = r.feed reads.flatten := by
  induction reads generalizing r with
  | nil => rfl
  | cons read reads ih => simp [feedAll, feed_append, ih]

theorem feed_of_skipping {line : List UInt8} (inside : newline ∉ line) :
    feed ⟨[], true⟩ line = some ⟨[], true⟩ := by
  induction line with
  | nil => rfl
  | cons b bs ih =>
    obtain ⟨first, later⟩ : newline ≠ b ∧ newline ∉ bs := by simpa using inside
    simp [feed, feedByte, first.symm, ih later]

/-- A line that is not ended is held as long as there is room for its newline. -/
theorem feed_of_short {line : List UInt8} (held : List UInt8) (inside : newline ∉ line)
    (short : held.length + line.length < lineLimit) :
    feed ⟨held, false⟩ line = some ⟨line.reverse ++ held, false⟩ := by
  induction line generalizing held with
  | nil => rfl
  | cons b bs ih =>
    obtain ⟨first, later⟩ : newline ≠ b ∧ newline ∉ bs := by simpa using inside
    rw [List.length_cons] at short
    have room : held.length + 1 ≠ lineLimit := by omega
    have rest : (b :: held).length + bs.length < lineLimit := by
      rw [List.length_cons]
      omega
    simp [feed, feedByte, first.symm, room, ih (b :: held) later rest]

theorem feed_of_long {line : List UInt8} (held : List UInt8) (inside : newline ∉ line)
    (short : held.length < lineLimit) (long : lineLimit ≤ held.length + line.length) :
    feed ⟨held, false⟩ line = some ⟨[], true⟩ := by
  induction line generalizing held with
  | nil =>
    rw [List.length_nil] at long
    omega
  | cons b bs ih =>
    obtain ⟨first, later⟩ : newline ≠ b ∧ newline ∉ bs := by simpa using inside
    rw [List.length_cons] at long
    by_cases full : held.length + 1 = lineLimit
    · simp [feed, feedByte, first.symm, full, feed_of_skipping later]
    · have room : (b :: held).length < lineLimit := by
        rw [List.length_cons]
        omega
      have rest : lineLimit ≤ (b :: held).length + bs.length := by
        rw [List.length_cons]
        omega
      simp [feed, feedByte, first.symm, full, ih (b :: held) later room rest]

/-- After each line the reader begins anew, unless the line was a request. -/
theorem feed_line {line : List UInt8} (inside : newline ∉ line) (rest : List UInt8) :
    feed {} (line ++ newline :: rest) = if isRequest line then none else feed {} rest := by
  rw [feed_append]
  by_cases short : line.length < lineLimit
  · have held := feed_of_short [] inside (by simpa using short)
    rw [held]
    by_cases request : isRequest line = true
    · simp [feed, feedByte, request]
    · simp [feed, feedByte, request]
  · have passed := feed_of_long [] inside (by decide) (by simpa using short)
    have request : isRequest line = false :=
      Bool.eq_false_iff.mpr fun request => short (length_lt_of_isRequest request)
    rw [passed]
    simp [feed, feedByte, request]

theorem feed_unended {line : List UInt8} (inside : newline ∉ line) :
    (feed {} line).isSome = true := by
  by_cases short : line.length < lineLimit
  · rw [feed_of_short [] inside (by simpa using short)]
    rfl
  · rw [feed_of_long [] inside (by decide) (by simpa using short)]
    rfl

theorem feed_eq_none_iff (stream : List UInt8) : feed {} stream = none ↔ Requests stream := by
  induction stream using Text.segment_induction newline with
  | unended line inside =>
    have some := feed_unended inside
    simp only [not_requests inside, iff_false]
    intro none
    simp [none] at some
  | ended line rest inside ih =>
    rw [feed_line inside, requests_append inside]
    by_cases request : isRequest line = true
    · simp [request]
    · simp [request, ih]

end RequestReader

theorem holdsRequest_iff_requests (reads : List (List UInt8)) :
    holdsRequest reads = true ↔ Requests reads.flatten := by
  rw [holdsRequest, RequestReader.feedAll_eq_feed, Option.isNone_iff_eq_none,
    RequestReader.feed_eq_none_iff]

end Overseer.Shutdown
