import Overseer.Proofs.Shutdown.Requests

/-!
Reading requests in blocks. A line is taken from what is buffered, read after read, but no more of
it than the limit; if it did not end there, the rest of it is skipped in a loop of its own. At every
alignment of newlines, limit, reads and the end of the stream this finds the same requests as a
reader that is fed byte by byte.
-/
namespace Overseer.Shutdown

def throughNewline : List UInt8 → List UInt8
  | [] => []
  | b :: bs => if b = newline then [b] else b :: throughNewline bs

theorem throughNewline_of_not_mem {bytes : List UInt8} (inside : newline ∉ bytes) :
    throughNewline bytes = bytes := by
  induction bytes with
  | nil => rfl
  | cons b bs ih =>
    obtain ⟨first, later⟩ : newline ≠ b ∧ newline ∉ bs := by simpa using inside
    simp [throughNewline, first.symm, ih later]

theorem throughNewline_append {line : List UInt8} (inside : newline ∉ line) (rest : List UInt8) :
    throughNewline (line ++ rest) = line ++ throughNewline rest := by
  induction line with
  | nil => rfl
  | cons b bs ih =>
    obtain ⟨first, later⟩ : newline ≠ b ∧ newline ∉ bs := by simpa using inside
    simp [throughNewline, first.symm, ih later]

theorem not_mem_of_findIdx? {bytes : List UInt8} (none : bytes.findIdx? (· = newline) = none) :
    newline ∉ bytes := by
  intro member
  simpa using List.findIdx?_eq_none_iff.mp none newline member

/-- The first newline parts the bytes. -/
theorem eq_append_of_findIdx? {bytes : List UInt8} {i : Nat}
    (found : bytes.findIdx? (· = newline) = some i) :
    ∃ line rest, bytes = line ++ newline :: rest ∧ newline ∉ line ∧ line.length = i := by
  obtain ⟨bound, here, before⟩ := List.findIdx?_eq_some_iff_getElem.mp found
  have here : bytes[i] = newline := by simpa using here
  refine ⟨bytes.take i, bytes.drop (i + 1), ?_, ?_, List.length_take_of_le (Nat.le_of_lt bound)⟩
  · rw [← here, ← List.drop_eq_getElem_cons bound, List.take_append_drop]
  · intro member
    obtain ⟨j, short, same⟩ := List.mem_iff_getElem.mp member
    rw [List.length_take] at short
    rw [List.getElem_take] at same
    simpa [same] using before j (by omega)

/-- The first newline before a limit parts what goes on after it, too. -/
theorem eq_append_of_findIdx?_take {bytes : List UInt8} {limit i : Nat}
    (found : (bytes.take limit).findIdx? (· = newline) = some i) :
    ∃ line rest room, bytes = line ++ newline :: rest ∧ newline ∉ line ∧ line.length = i ∧
      limit = line.length + (room + 1) := by
  obtain ⟨line, rest, eq, inside, length⟩ := eq_append_of_findIdx? found
  have short : line.length < limit := by
    have lengths := congrArg List.length eq
    rw [List.length_take, List.length_append, List.length_cons] at lengths
    omega
  obtain ⟨room, eq_limit⟩ := Nat.exists_eq_add_of_lt short
  refine ⟨line, rest ++ bytes.drop limit, room, ?_, inside, length, eq_limit⟩
  calc bytes = bytes.take limit ++ bytes.drop limit := (List.take_append_drop limit bytes).symm
    _ = line ++ newline :: (rest ++ bytes.drop limit) := by rw [eq]; simp

theorem fst_takeLine (limit : Nat) (reads : List (List UInt8)) :
    (takeLine limit reads).1 = throughNewline (reads.flatten.take limit) := by
  induction reads generalizing limit with
  | nil => simp [takeLine, throughNewline]
  | cons read reads ih =>
    unfold takeLine
    split
    next i found =>
      obtain ⟨line, rest, room, rfl, inside, rfl, rfl⟩ := eq_append_of_findIdx?_take found
      rw [List.flatten_cons, List.append_assoc, List.cons_append, List.take_length_add_append,
        List.take_length_add_append, List.take_succ_cons, List.take_succ_cons,
        throughNewline_append inside]
      simp [throughNewline]
    next none =>
      have inside := not_mem_of_findIdx? none
      split
      next full =>
        rw [List.flatten_cons, List.take_append_of_le_length full,
          throughNewline_of_not_mem inside]
      next more =>
        rw [List.take_of_length_le (by omega)] at inside
        have whole : (read :: reads).flatten.take limit =
            read ++ reads.flatten.take (limit - read.length) := by
          rw [List.flatten_cons, List.take_append, List.take_of_length_le (by omega)]
        rw [whole, throughNewline_append inside, ← ih]

theorem flatten_snd_takeLine (limit : Nat) (reads : List (List UInt8)) :
    (takeLine limit reads).2.flatten = reads.flatten.drop (takeLine limit reads).1.length := by
  rw [← takeLine_append limit reads, List.drop_left]

/-- A line for which there is room is taken with its newline. -/
theorem takeLine_line {limit : Nat} {reads : List (List UInt8)} {line rest : List UInt8}
    (inside : newline ∉ line) (short : line.length < limit)
    (stream : reads.flatten = line ++ newline :: rest) :
    (takeLine limit reads).1 = line ++ [newline] ∧ (takeLine limit reads).2.flatten = rest := by
  obtain ⟨room, rfl⟩ := Nat.exists_eq_add_of_lt short
  have taken : (takeLine (line.length + room + 1) reads).1 = line ++ [newline] := by
    rw [fst_takeLine, stream, Nat.add_assoc, List.take_length_add_append,
      List.take_succ_cons, throughNewline_append inside]
    simp [throughNewline]
  refine ⟨taken, ?_⟩
  rw [flatten_snd_takeLine, taken, stream]
  simp

/-- Of a longer one as much is taken as the limit allows. -/
theorem takeLine_full {reads : List (List UInt8)} {line rest : List UInt8}
    (inside : newline ∉ line) (stream : reads.flatten = line ++ rest) :
    (takeLine line.length reads).1 = line ∧ (takeLine line.length reads).2.flatten = rest := by
  have taken : (takeLine line.length reads).1 = line := by
    rw [fst_takeLine, stream, List.take_left, throughNewline_of_not_mem inside]
  refine ⟨taken, ?_⟩
  rw [flatten_snd_takeLine, taken, stream, List.drop_left]

/-- Where the stream ends before the limit, all of it is taken. -/
theorem takeLine_last {limit : Nat} {reads : List (List UInt8)}
    (inside : newline ∉ reads.flatten) (short : reads.flatten.length < limit) :
    (takeLine limit reads).1 = reads.flatten := by
  rw [fst_takeLine, List.take_of_length_le (Nat.le_of_lt short),
    throughNewline_of_not_mem inside]

theorem dropWhile_append_of_not_mem {line : List UInt8} (inside : newline ∉ line)
    (rest : List UInt8) :
    (line ++ rest).dropWhile (· ≠ newline) = rest.dropWhile (· ≠ newline) := by
  refine List.dropWhile_append_of_pos fun b member => ?_
  have different : b ≠ newline := fun same => inside (same ▸ member)
  simpa using different

theorem flatten_skipLine (reads : List (List UInt8)) :
    (skipLine reads).flatten = (reads.flatten.dropWhile (· ≠ newline)).tail := by
  induction reads with
  | nil => rfl
  | cons read reads ih =>
    unfold skipLine
    split
    next i found =>
      obtain ⟨line, rest, rfl, inside, rfl⟩ := eq_append_of_findIdx? found
      rw [List.flatten_cons, List.flatten_cons, List.append_assoc,
        dropWhile_append_of_not_mem inside]
      simp
    next none =>
      have inside := not_mem_of_findIdx? none
      rw [ih, List.flatten_cons, dropWhile_append_of_not_mem inside]

theorem awaitRequest_of_empty {reads : List (List UInt8)} (none : reads.flatten = []) :
    awaitRequest reads = false := by
  have taken : (takeLine lineLimit reads).1 = reads.flatten :=
    takeLine_last (by simp [none]) (by rw [none]; decide)
  rw [awaitRequest, taken, none]
  simp

/-- Where the limit is reached within a line, the rest of it is skipped. -/
theorem awaitRequest_full {reads : List (List UInt8)} {line rest : List UInt8}
    (inside : newline ∉ line) (full : line.length = lineLimit)
    (stream : reads.flatten = line ++ rest) :
    ∃ left : List (List UInt8), left.flatten = rest ∧
      awaitRequest reads = awaitRequest (skipLine left) := by
  obtain ⟨taken, left⟩ := takeLine_full inside stream
  rw [full] at taken left
  have some : line ≠ [] := by
    intro none
    rw [none] at full
    exact absurd full (by decide)
  have last : line.getLast? ≠ Option.some newline := fun last =>
    inside (List.mem_of_getLast? last)
  refine ⟨_, left, ?_⟩
  rw [awaitRequest, taken]
  simp [some, last, full]

/-- A line is decided on, and what follows it is read on. -/
theorem awaitRequest_line {reads : List (List UInt8)} {line rest : List UInt8}
    (inside : newline ∉ line) (stream : reads.flatten = line ++ newline :: rest) :
    ∃ left : List (List UInt8), left.flatten = rest ∧
      awaitRequest reads = (isRequest line || awaitRequest left) := by
  by_cases short : line.length < lineLimit
  · obtain ⟨taken, left⟩ := takeLine_line inside short stream
    refine ⟨_, left, ?_⟩
    rw [awaitRequest, taken]
    by_cases request : isRequest line = true
    · simp [request]
    · simp [request]
  · have request : isRequest line = false :=
      Bool.eq_false_iff.mpr fun request => short (length_lt_of_isRequest request)
    have full : (line.take lineLimit).length = lineLimit :=
      List.length_take_of_le (by omega)
    have parted : reads.flatten =
        line.take lineLimit ++ (line.drop lineLimit ++ newline :: rest) := by
      rw [stream, ← List.append_assoc, List.take_append_drop]
    obtain ⟨left, rest_eq, reading⟩ := awaitRequest_full
      (fun member => inside (List.mem_of_mem_take member)) full parted
    refine ⟨skipLine left, ?_, ?_⟩
    · rw [flatten_skipLine, rest_eq,
        dropWhile_append_of_not_mem fun member => inside (List.mem_of_mem_drop member)]
      simp
    · rw [reading, request, Bool.false_or]

/-- What no newline ends is no request. -/
theorem awaitRequest_unended {reads : List (List UInt8)} (inside : newline ∉ reads.flatten) :
    awaitRequest reads = false := by
  by_cases short : reads.flatten.length < lineLimit
  · rw [awaitRequest, takeLine_last inside short]
    have last : reads.flatten.getLast? ≠ some newline := fun last =>
      inside (List.mem_of_getLast? last)
    simp only [last, Nat.ne_of_lt short, if_false, dite_eq_ite, ite_self]
  · have full : (reads.flatten.take lineLimit).length = lineLimit :=
      List.length_take_of_le (by omega)
    obtain ⟨left, rest_eq, reading⟩ := awaitRequest_full
      (fun member => inside (List.mem_of_mem_take member)) full
      (List.take_append_drop lineLimit reads.flatten).symm
    have skipped : (skipLine left).flatten = [] := by
      have none := dropWhile_append_of_not_mem
        (fun member => inside (List.mem_of_mem_drop (i := lineLimit) member)) []
      rw [List.append_nil] at none
      rw [flatten_skipLine, rest_eq, none]
      rfl
    rw [reading, awaitRequest_of_empty skipped]

theorem awaitRequest_iff_requests (reads : List (List UInt8)) :
    awaitRequest reads = true ↔ Requests reads.flatten := by
  generalize eq : reads.flatten = stream
  induction stream using Text.segment_induction newline generalizing reads with
  | unended stream inside =>
    subst eq
    simp [awaitRequest_unended inside, not_requests inside]
  | ended line rest inside ih =>
    obtain ⟨left, rfl, reading⟩ := awaitRequest_line inside eq
    rw [reading, requests_append inside, Bool.or_eq_true, ih left rfl]

/-- Whether the bytes are fed one by one or read in blocks, a request is found exactly if one of the
lines that a newline ends is `EXIT`, or `EXIT` and one carriage return. So no other line hides one or
makes one up, whatever its length and bytes, and what the stream ends in without a newline is none. -/
theorem awaitRequest_iff_line (reads : List (List UInt8)) :
    awaitRequest reads = holdsRequest reads ∧
      (holdsRequest reads = true ↔
        ∃ line ∈ (reads.flatten.splitOn newline).dropLast,
          line = Utf8.encode exitCommand ∨
            line = Utf8.encode exitCommand ++ [carriageReturn]) := by
  constructor
  · rw [Bool.eq_iff_iff, awaitRequest_iff_requests, holdsRequest_iff_requests]
  · rw [holdsRequest_iff_requests]
    simp only [Requests, completeLines, isRequest_iff]

end Overseer.Shutdown
