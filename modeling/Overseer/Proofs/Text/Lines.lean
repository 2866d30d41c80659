import Mathlib.Data.List.TakeWhile
import Overseer.Proofs.Text.Decoding
import Overseer.Proofs.Text.Segments
import Overseer.Text.Lines

/-!
The lines of a stream are its segments between newline bytes, each decoded by itself, however the
stream is cut into pieces. Decoding all of it first and cutting then gives the same lines: whatever
is ill-formed around a newline leaves it where it is.
-/
namespace Overseer

open String (utf8EncodeChar)

namespace Utf8

theorem mem_trailing {b : UInt8} {n v : Nat} (member : b ∈ trailing n v) :
    0x80 ≤ b.toNat ∧ b.toNat < 0xc0 := by
  induction n with
  | zero => cases member
  | succ n ih =>
    rcases List.mem_cons.mp member with rfl | later
    · have small : v / 64 ^ n % 64 + 0x80 < UInt8.size := by
        simp only [UInt8.size]
        omega
      rw [UInt8.toNat_ofNat_of_lt' small]
      omega
    · exact ih later

/-- A byte that begins a scalar value does not go on with another. -/
theorem not_begins_concat {part rest : List UInt8} {b : UInt8} {c : Char} (nonempty : part ≠ [])
    (first : utf8EncodeChar c = b :: rest) : ¬Begins (part ++ [b]) := by
  rintro ⟨d, more, spelled⟩
  obtain ⟨a, part, rfl⟩ := List.exists_cons_of_ne_nil nonempty
  have same := (utf8EncodeChar_eq_cons_iff.mp first).1
  have inside : b ∈ trailing (followers d.toNat) d.toNat := by
    rw [← (utf8EncodeChar_eq_cons_iff.mp spelled).2]
    simp
  have range := mem_trailing inside
  rw [← same, lead] at range
  repeat' split at range
  all_goals omega

theorem IllFormed.append {part rest : List UInt8} (illFormed : IllFormed part rest) (c : Char)
    (later : List UInt8) : IllFormed part (rest ++ utf8EncodeChar c ++ later) where
  nonempty := illFormed.nonempty
  begins := illFormed.begins
  unfinished := illFormed.unfinished
  stuck := by
    cases rest with
    | nil =>
      rw [utf8EncodeChar_eq]
      rintro b next
      obtain rfl : _ = b := Option.some.inj next
      exact not_begins_concat illFormed.nonempty (utf8EncodeChar_eq c)
    | cons b rest => exact illFormed.stuck

/-- What comes before a scalar value is decoded as if it came alone. -/
theorem Lossy.append {first later : List UInt8} {cs ds : List Char} (before : Lossy first cs)
    (c : Char) (after : Lossy later ds) :
    Lossy (first ++ utf8EncodeChar c ++ later) (cs ++ c :: ds) := by
  induction before with
  | nil => exact .scalar c after
  | scalar d _ ih =>
    rw [List.append_assoc, List.append_assoc, ← List.append_assoc _ _ later]
    exact .scalar d ih
  | part illFormed _ ih =>
    rw [List.append_assoc, List.append_assoc, ← List.append_assoc _ _ later]
    exact .part (illFormed.append c later) ih

/-- A byte of seven bits stands for itself and for nothing else. -/
theorem ascii_mem_iff {b : UInt8} (ascii : b.toNat < 0x80) (c : Char) :
    b ∈ utf8EncodeChar c ↔ c.toNat = b.toNat := by
  rw [utf8EncodeChar_eq, List.mem_cons, ← UInt8.toNat_inj, UInt8.toNat_ofNat_of_lt' (lead_lt c)]
  constructor
  · rintro (first | later)
    · unfold lead at first
      repeat' split at first
      all_goals omega
    · exact absurd (mem_trailing later).1 (Nat.not_le_of_lt ascii)
  · intro same
    rw [lead, if_pos (same ▸ ascii)]
    exact .inl same.symm

theorem newline_mem_iff (c : Char) : LineReader.newline ∈ utf8EncodeChar c ↔ c = '\n' :=
  (ascii_mem_iff (by decide) c).trans (Char.toNat_inj (d := '\n'))

theorem IllFormed.newline_not_mem {part rest : List UInt8} (illFormed : IllFormed part rest) :
    LineReader.newline ∉ part := by
  intro member
  have whole : utf8EncodeChar '\n' = part := by
    rcases illFormed.begins with ⟨c, more, spelled⟩ | single
    · obtain rfl := (newline_mem_iff c).mp (by rw [spelled]; exact List.mem_append_left _ member)
      obtain ⟨b, part, rfl⟩ := List.exists_cons_of_ne_nil illFormed.nonempty
      obtain ⟨rfl, none⟩ := List.cons.inj (spelled : [LineReader.newline] = b :: (part ++ more))
      rw [(List.append_eq_nil_iff.mp none.symm).1]
      rfl
    · obtain ⟨b, rfl⟩ := List.length_eq_one_iff.mp single
      rw [← List.mem_singleton.mp member]
      rfl
  exact illFormed.unfinished '\n' whole

theorem Lossy.newline_mem_iff {bytes : List UInt8} {cs : List Char} (lossy : Lossy bytes cs) :
    LineReader.newline ∈ bytes ↔ '\n' ∈ cs := by
  induction lossy with
  | nil => simp
  | scalar c _ ih =>
    rw [List.mem_append, List.mem_cons, Utf8.newline_mem_iff, ih, eq_comm]
  | part illFormed _ ih =>
    have other : '\n' ≠ replacement := by decide
    rw [List.mem_append, List.mem_cons, ih]
    simp [illFormed.newline_not_mem, other]

theorem Lossy.eq_nil_iff {bytes : List UInt8} {cs : List Char} (lossy : Lossy bytes cs) :
    cs = [] ↔ bytes = [] := by
  cases lossy with
  | nil => simp
  | scalar c => simp [utf8EncodeChar_eq]
  | part illFormed => simp [illFormed.nonempty]

theorem decodeFrom_append_newline (first later : List UInt8) :
    decodeFrom none (first ++ LineReader.newline :: later) =
      decodeFrom none first ++ '\n' :: decodeFrom none later := by
  have lossy := (lossy_decodeFrom first).append '\n' (lossy_decodeFrom later)
  rw [List.append_assoc] at lossy
  exact lossy_iff.mp lossy

/-- The breaks between the lines of a stream are where its newline bytes are. -/
theorem splitOn_decodeFrom (stream : List UInt8) :
    (decodeFrom none stream).splitOn '\n' =
      (stream.splitOn LineReader.newline).map (decodeFrom none) := by
  induction stream using Text.segment_induction LineReader.newline with
  | unended stream inside =>
    have same : '\n' ∉ decodeFrom none stream :=
      mt (lossy_decodeFrom stream).newline_mem_iff.mpr inside
    rw [List.splitOn_eq_singleton inside, List.splitOn_eq_singleton same]
    rfl
  | ended segment rest inside ih =>
    have same : '\n' ∉ decodeFrom none segment :=
      mt (lossy_decodeFrom segment).newline_mem_iff.mpr inside
    rw [decodeFrom_append_newline, List.splitOn_append_cons_self_of_not_mem inside,
      List.splitOn_append_cons_self_of_not_mem same, ih]
    rfl

theorem decodeFrom_eq_nil_iff (bytes : List UInt8) : decodeFrom none bytes = [] ↔ bytes = [] :=
  (lossy_decodeFrom bytes).eq_nil_iff

theorem segments_decodeFrom (stream : List UInt8) :
    Text.segments '\n' (decodeFrom none stream) =
      (Text.segments LineReader.newline stream).map (decodeFrom none) := by
  have last : ((stream.splitOn LineReader.newline).map (decodeFrom none)).getLast? = some [] ↔
      (stream.splitOn LineReader.newline).getLast? = some [] := by
    rw [List.getLast?_map, Option.map_eq_some_iff]
    simp [decodeFrom_eq_nil_iff]
  simp only [Text.segments, Text.ended, splitOn_decodeFrom, last]
  split
  · exact List.map_dropLast.symm
  · rfl

end Utf8

namespace LineReader

theorem feed_append (r : LineReader) (first later : List UInt8) :
    r.feed (first ++ later) =
      ((r.feed first).1 ++ ((r.feed first).2.feed later).1, ((r.feed first).2.feed later).2) := by
  induction first generalizing r with
  | nil => rfl
  | cons b bytes ih => by_cases newline : b = LineReader.newline <;> simp [feed, newline, ih]

/-- How a stream is cut into pieces does not matter. -/
theorem feedAll_eq_feed (r : LineReader) (pieces : List (List UInt8)) :
    r.feedAll pieces = r.feed pieces.flatten := by
  induction pieces generalizing r with
  | nil => rfl
  | cons piece pieces ih => simp [feedAll, feed_append, ih]

theorem lines_eq_lines_flatten (pieces : List (List UInt8)) :
    lines pieces = (feed {} pieces.flatten).1 ++ (feed {} pieces.flatten).2.finish := by
  simp [lines, feedAll_eq_feed]

theorem feed_of_not_mem {segment : List UInt8} (held : List UInt8) (inside : newline ∉ segment) :
    feed ⟨held⟩ segment = ([], ⟨segment.reverse ++ held⟩) := by
  induction segment generalizing held with
  | nil => rfl
  | cons b segment ih =>
    obtain ⟨first, later⟩ : newline ≠ b ∧ newline ∉ segment := by simpa using inside
    simp [feed, first.symm, ih (b :: held) later]

theorem feed_segment {segment : List UInt8} (inside : newline ∉ segment) (rest : List UInt8) :
    feed {} (segment ++ newline :: rest) =
      (line segment :: (feed {} rest).1, (feed {} rest).2) := by
  rw [feed_append, feed_of_not_mem [] inside]
  simp [feed]

theorem feed_lines (stream : List UInt8) :
    (feed {} stream).1 = (Text.ended newline stream).map line ∧
      (feed {} stream).1 ++ (feed {} stream).2.finish =
        (Text.segments newline stream).map line := by
  induction stream using Text.segment_induction newline with
  | unended stream inside =>
    rw [feed_of_not_mem [] inside, Text.ended_of_not_mem inside, Text.segments_of_not_mem inside]
    refine ⟨rfl, ?_⟩
    by_cases empty : stream = []
    · subst empty
      rfl
    · simp [finish, empty]
  | ended segment rest inside ih =>
    rw [feed_segment inside, Text.ended_append inside, Text.segments_append inside]
    exact ⟨by rw [ih.1, List.map_cons], by rw [List.cons_append, ih.2, List.map_cons]⟩

def trimmed (cs : List Char) : String :=
  String.ofList (Text.trimEnd (· = '\r') cs)

/-- The text of a segment is the line and some carriage returns, and the line ends in none. -/
structure Shows (segment : List UInt8) (line : String) : Prop where
  text : ∃ count, Utf8.Lossy segment (line.toList ++ List.replicate count '\r')
  trimmed : line.toList.getLast? ≠ some '\r'

theorem trimEnd_append (p : Char → Bool) (cs : List Char) :
    Text.trimEnd p cs ++ (cs.reverse.takeWhile p).reverse = cs := by
  rw [Text.trimEnd, ← List.reverse_append, List.takeWhile_append_dropWhile, List.reverse_reverse]

theorem shows_line (segment : List UInt8) : Shows segment (line segment) where
  text := by
    have text := trimEnd_append (· = '\r') (Utf8.decodeFrom none segment)
    have returns : ∀ c ∈ (Utf8.decodeFrom none segment).reverse.takeWhile (· = '\r'), c = '\r' :=
      fun c member => by simpa using List.mem_takeWhile_imp member
    rw [List.eq_replicate_of_mem returns, List.reverse_replicate] at text
    have shown :
        (line segment).toList = Text.trimEnd (· = '\r') (Utf8.decodeFrom none segment) := by
      simp only [line, Utf8.decode, String.toList_ofList]
    exact ⟨_, Utf8.lossy_iff.mpr (shown ▸ text.symm)⟩
  trimmed := by
    rw [line, String.toList_ofList, Text.trimEnd, List.getLast?_reverse]
    intro last
    have other := List.head?_dropWhile_not (· = '\r') (Utf8.decode segment).toList.reverse
    simp [last] at other

/-- Lines are sent as their newlines come, and are the segments of the stream, however it is cut
into pieces. Decoding all of it at once breaks the text where the newline bytes are and nowhere
else. -/
theorem lines_of_any_pieces (pieces : List (List UInt8)) :
    (feedAll {} pieces).1 = (Text.ended newline pieces.flatten).map line ∧
      lines pieces = (Text.segments newline pieces.flatten).map line ∧
      (∀ segment ∈ Text.segments newline pieces.flatten, Shows segment (line segment)) ∧
      lines pieces = (Text.segments '\n' (Utf8.decode pieces.flatten).toList).map trimmed ∧
      (Utf8.decode pieces.flatten).toList.splitOn '\n' =
        (pieces.flatten.splitOn newline).map fun segment => (Utf8.decode segment).toList := by
  obtain ⟨sent, all⟩ := feed_lines pieces.flatten
  have segments : lines pieces = (Text.segments newline pieces.flatten).map line :=
    (lines_eq_lines_flatten pieces).trans all
  have decoded (bytes : List UInt8) : (Utf8.decode bytes).toList = Utf8.decodeFrom none bytes :=
    String.toList_ofList
  refine ⟨?_, segments, fun segment _ => shows_line segment, ?_, ?_⟩
  · rw [feedAll_eq_feed]
    exact sent
  · rw [segments, decoded, Utf8.segments_decodeFrom, List.map_map]
    exact List.map_congr_left fun segment _ => by rw [line, decoded]; rfl
  · simp only [decoded]
    exact Utf8.splitOn_decodeFrom pieces.flatten

end LineReader

end Overseer
