import Overseer.Proofs.CommandLine.Accounts
import Overseer.Proofs.Text.Encoding
import Overseer.Proofs.Text.Numerals

/-!
Lines that are printed are read as the same lines, so that a program may be run by another `run`
without any difference. Printing gives the bytes back just where nothing was replaced, added or
trimmed.
-/
namespace Overseer

open String (utf8EncodeChar)

namespace Utf8

/-- A carriage return comes last in the bytes of a text just if it does in the text. -/
theorem getLast?_flatMap_iff (cs : List Char) :
    (cs.flatMap utf8EncodeChar).getLast? = some 0x0d ↔ cs.getLast? = some '\r' := by
  rcases List.eq_nil_or_concat' cs with rfl | ⟨front, c, rfl⟩
  · simp
  · have some : utf8EncodeChar c ≠ [] := by simp [utf8EncodeChar_eq]
    rw [List.flatMap_append, List.flatMap_singleton, List.getLast?_append_of_ne_nil _ some,
      List.getLast?_concat, Option.some.injEq]
    constructor
    · intro last
      have among := (ascii_mem_iff (by decide) c).mp (List.mem_of_getLast? last)
      exact Char.toNat_inj.mp among
    · rintro rfl
      decide

theorem spelled_iff {bytes : List UInt8} :
    Spelled bytes ↔ (decodeFrom none bytes).flatMap utf8EncodeChar = bytes := by
  refine ⟨?_, fun same => ⟨_, same.symm⟩⟩
  rintro ⟨cs, rfl⟩
  rw [decodeFrom_flatMap]

theorem newline_mem_flatMap_iff (cs : List Char) :
    LineReader.newline ∈ cs.flatMap utf8EncodeChar ↔ '\n' ∈ cs := by
  simp only [List.mem_flatMap, newline_mem_iff, exists_eq_right]

/-- A stream is the bytes of a text just if each of its segments is. -/
theorem spelled_iff_segments (stream : List UInt8) :
    Spelled stream ↔ ∀ segment ∈ Text.segments LineReader.newline stream, Spelled segment := by
  induction stream using Text.segment_induction LineReader.newline with
  | unended stream inside =>
    rw [Text.segments_of_not_mem inside]
    split
    next none => exact iff_of_true ⟨[], none⟩ nofun
    next => simp
  | ended segment rest inside ih =>
    rw [Text.segments_append inside, List.forall_mem_cons, ← ih]
    constructor
    · intro spelled
      rw [spelled_iff, decodeFrom_append_newline, List.flatMap_append, List.flatMap_cons] at spelled
      -- Decoding neither adds nor takes away newlines, so the first one is at the same place.
      have inside' : LineReader.newline ∉ (decodeFrom none segment).flatMap utf8EncodeChar := by
        rwa [newline_mem_flatMap_iff, ← (lossy_decodeFrom segment).newline_mem_iff]
      change _ ++ LineReader.newline :: _ = _ at spelled
      have first := congrArg (Text.segments LineReader.newline) spelled
      rw [Text.segments_append inside', Text.segments_append inside] at first
      have here := (List.cons.inj first).1
      rw [here, List.append_cancel_left_eq] at spelled
      exact ⟨spelled_iff.mpr here, spelled_iff.mpr (List.cons.inj spelled).2⟩
    · rintro ⟨⟨cs, rfl⟩, ⟨ds, rfl⟩⟩
      exact ⟨cs ++ '\n' :: ds, by simp; rfl⟩

end Utf8

namespace LineReader

/-- Text that is a line as it is: it has no newline in it and no carriage return at its end. -/
structure Plain (line : String) : Prop where
  newline : '\n' ∉ line.toList
  trimmed : line.toList.getLast? ≠ some '\r'

theorem lines_eq (pieces : List (List UInt8)) :
    lines pieces = (Text.segments newline pieces.flatten).map line :=
  (lines_eq_lines_flatten pieces).trans (feed_lines pieces.flatten).2

theorem plain_line {segment : List UInt8} (inside : newline ∉ segment) : Plain (line segment) := by
  obtain ⟨⟨count, text⟩, trimmed⟩ := shows_line segment
  refine ⟨fun member => inside ?_, trimmed⟩
  rw [text.newline_mem_iff]
  exact List.mem_append_left _ member

theorem plain_of_mem {pieces : List (List UInt8)} {l : String} (member : l ∈ lines pieces) :
    Plain l := by
  rw [lines_eq] at member
  obtain ⟨segment, among, rfl⟩ := List.mem_map.mp member
  exact plain_line (Text.not_mem_of_mem_segments among)

theorem toList_line (segment : List UInt8) :
    (line segment).toList = Text.trimEnd (· = '\r') (Utf8.decodeFrom none segment) := by
  simp only [line, Utf8.decode, String.toList_ofList]

theorem trimEnd_eq_self {cs : List Char} (trimmed : cs.getLast? ≠ some '\r') :
    Text.trimEnd (· = '\r') cs = cs := by
  refine Text.trimEnd_eq_iff.mpr ⟨⟨[], (List.append_nil cs).symm, nofun⟩, fun c last => ?_⟩
  exact decide_eq_false fun same => trimmed (same ▸ last)

theorem line_encode {l : String} (plain : Plain l) : line (Utf8.encode l) = l := by
  rw [← String.toList_inj, toList_line, Utf8.encode_eq, Utf8.decodeFrom_flatMap,
    trimEnd_eq_self plain.trimmed]

/-- A segment is the bytes of its line just if they are those of a text, without a carriage return at
the end. -/
theorem encode_line_iff {segment : List UInt8} :
    Utf8.encode (line segment) = segment ↔
      Utf8.Spelled segment ∧ segment.getLast? ≠ some 0x0d := by
  constructor
  · intro same
    refine ⟨⟨(line segment).toList, by rw [← Utf8.encode_eq, same]⟩, fun last => ?_⟩
    rw [← same, Utf8.encode_eq, Utf8.getLast?_flatMap_iff] at last
    exact (shows_line segment).trimmed last
  · rintro ⟨⟨cs, rfl⟩, trimmed⟩
    rw [ne_eq, Utf8.getLast?_flatMap_iff] at trimmed
    rw [Utf8.encode_eq, toList_line, Utf8.decodeFrom_flatMap, trimEnd_eq_self trimmed]

def echo (ls : List String) : List UInt8 := ls.flatMap Child.encodeLine

theorem echo_eq (ls : List String) : echo ls = Text.marked newline (ls.map Utf8.encode) := by
  rw [echo, Text.marked, List.flatMap_map]
  rfl

theorem newline_not_mem_encode {l : String} (plain : Plain l) : newline ∉ Utf8.encode l := by
  rw [Utf8.encode_eq, Utf8.newline_mem_flatMap_iff]
  exact plain.newline

theorem segments_echo {ls : List String} (plain : ∀ l ∈ ls, Plain l) :
    Text.segments newline (echo ls) = ls.map Utf8.encode := by
  rw [echo_eq, Text.segments_marked]
  exact List.forall_mem_map.mpr fun l member => newline_not_mem_encode (plain l member)

/-- Lines that are printed are read as they are just if each is a line as it is. -/
theorem lines_echo_iff {ls : List String} {pieces : List (List UInt8)}
    (printed : pieces.flatten = echo ls) : lines pieces = ls ↔ ∀ l ∈ ls, Plain l := by
  constructor
  · rintro rfl l member
    exact plain_of_mem member
  · intro plain
    rw [lines_eq, printed, segments_echo plain, List.map_map]
    exact (List.map_congr_left fun l member => line_encode (plain l member)).trans (List.map_id ls)

/-- Segments are printed as they are if each is the bytes of its line. -/
theorem map_encode_line_iff (segments : List (List UInt8)) :
    (segments.map line).map Utf8.encode = segments ↔
      ∀ segment ∈ segments, Utf8.encode (line segment) = segment := by
  rw [List.map_map]
  nth_rewrite 2 [← List.map_id segments]
  exact List.map_inj_left

theorem echo_lines_iff {bytes : List UInt8} :
    echo (lines [bytes]) = bytes ↔
      Utf8.Spelled bytes ∧ (∀ b ∈ bytes.getLast?, b = newline) ∧
        ∀ segment ∈ Text.segments newline bytes, segment.getLast? ≠ some 0x0d := by
  have plain : ∀ l ∈ lines [bytes], Plain l := fun l => plain_of_mem
  have whole : lines [bytes] = (Text.segments newline bytes).map line := by simp [lines_eq]
  have parts : echo (lines [bytes]) = bytes ↔
      (lines [bytes]).map Utf8.encode = Text.segments newline bytes ∧
        Text.marked newline (Text.segments newline bytes) = bytes := by
    constructor
    · intro same
      have segments := segments_echo plain
      rw [same] at segments
      exact ⟨segments.symm, by rw [segments, ← echo_eq, same]⟩
    · rintro ⟨segments, same⟩
      rw [echo_eq, segments, same]
  rw [parts, whole, map_encode_line_iff, Text.marked_segments_iff, Utf8.spelled_iff_segments]
  simp only [encode_line_iff, forall_and]
  rw [and_assoc]
  exact and_congr_right fun _ => and_comm

end LineReader

namespace CommandLine.Relay

open LineReader

/-- A run that is over, in which no receiver fell too far behind, no stream was still open when the
wait for its reader was over, and the readers kept up. -/
structure Undisturbed (settings : Settings) (u : Relay) : Prop where
  reached : ∃ pid stopTimeout events, (opening settings pid stopTimeout).admitsAll events = true ∧
    u = (opening settings pid stopTimeout).execute events
  kept : u.lost = false
  prompt : u.Prompt
  keptUp : u.KeptUp
  finished : u.code.isSome = true

theorem Undisturbed.said {settings : Settings} {u : Relay} (done : Undisturbed settings u)
    {s : Source} (captured : s.isCaptured settings = true) :
    u.said s = lines [(u.pipes s).written] := by
  obtain ⟨pid, stopTimeout, events, admitted, rfl⟩ := done.reached
  have inv := (invariant_opening settings pid stopTimeout).execute events admitted
  have same : _ = settings := settings_execute (opening settings pid stopTimeout) events
  rw [inv.said_eq done.kept done.prompt done.keptUp done.finished, Relay.captured, same]
  exact if_pos captured

/-- Reading lines, printing them and reading what was printed gives the same lines, whatever the
bytes, and in whatever pieces they come. Printing gives the bytes back just if they are those of a
text in which nothing comes after the last newline and no line ends in a carriage return. So it
makes no difference to the lines of a stream whether `run` is run by another `run` that reads what it
prints: both pass on the same. -/
theorem echo_is_transparent :
    (∀ pieces again : List (List UInt8), again.flatten = echo (lines pieces) →
      lines again = lines pieces) ∧
    (∀ bytes : List UInt8, echo (lines [bytes]) = bytes ↔
      (∃ s, bytes = Utf8.encode s) ∧ (bytes = [] ∨ bytes.getLast? = some newline) ∧
        ∀ segment ∈ Text.segments newline bytes, segment.getLast? ≠ some 0x0d) ∧
    (∀ (settings settings' : Settings) (inner outer : Relay) (s : Source),
      Undisturbed settings inner → Undisturbed settings' outer →
      s.isCaptured settings = true → s.isCaptured settings' = true →
      (outer.pipes s).written = echo (inner.said s) → outer.said s = inner.said s) := by
  have again (pieces again : List (List UInt8)) (printed : again.flatten = echo (lines pieces)) :
      lines again = lines pieces := (lines_echo_iff printed).mpr fun l => plain_of_mem
  refine ⟨again, fun bytes => ?_, fun settings settings' inner outer s done done' captured captured'
    printed => ?_⟩
  · rw [echo_lines_iff, Utf8.spelled_iff_exists_encode]
    refine and_congr_right fun _ => and_congr_left fun _ => ?_
    cases last : bytes.getLast? with
    | none => simp [List.getLast?_eq_none_iff.mp last]
    | some b =>
      have some : bytes ≠ [] := by
        rintro rfl
        cases last
      simp [some]
  · rw [done.said captured] at printed
    rw [done'.said captured', done.said captured]
    exact again [(inner.pipes s).written] _ (by rw [List.flatten_singleton, printed])

theorem echo_is_transparent_hasty :
    let settings : Settings := ⟨"", "/bin/server", "", .empty, false⟩
    let u := opening settings 7 (.ofSeconds 5 (by decide))
    let inner := u.execute (hasty [97, 255, 13, 13, 10, 10, 98] ++ leave 5)
    let outer := u.execute (hasty [97, 239, 191, 189, 10, 10, 98, 10] ++ leave 5)
    lines [[97, 239], [191, 189, 10, 10, 98, 10]] = lines [[97, 255, 13, 13, 10, 10, 98]] ∧
      echo (lines [[97, 239, 191, 189, 10, 10, 98, 10]]) = [97, 239, 191, 189, 10, 10, 98, 10] ∧
      outer.said .output = inner.said .output := by
  intro settings u inner outer
  have undisturbed (v : Relay) (reached : ∃ pid stopTimeout events,
      (opening settings pid stopTimeout).admitsAll events = true ∧
        v = (opening settings pid stopTimeout).execute events) (kept : v.lost = false)
      (silent : v.captures .errors = false) (due : v.deadline? = some 500)
      (closed : (v.pipes .output).closed = some 0) (ended : (v.pipes .output).ended = some 0)
      (finished : v.code.isSome = true) : Undisturbed settings v := by
    have only {s : Source} (captured : v.captures s = true) : s = .output := by
      cases s with
      | output => rfl
      | errors => simp [silent] at captured
    refine ⟨reached, kept, fun deadline due' s captured => ?_, fun deadline due' s captured _ => ?_,
      finished⟩
    all_goals
      obtain rfl : 500 = deadline := Option.some.inj (due.symm.trans due')
      obtain rfl := only captured
    · exact ⟨0, closed, by decide⟩
    · exact ⟨500, 0, due, ended, by decide⟩
  have done : Undisturbed settings inner :=
    undisturbed inner ⟨7, _, _, by decide +kernel, rfl⟩ (by decide +kernel) (by decide +kernel)
      (by decide +kernel) (by decide +kernel) (by decide +kernel) (by decide +kernel)
  have done' : Undisturbed settings outer :=
    undisturbed outer ⟨7, _, _, by decide +kernel, rfl⟩ (by decide +kernel) (by decide +kernel)
      (by decide +kernel) (by decide +kernel) (by decide +kernel) (by decide +kernel)
  obtain ⟨again, back, nested⟩ := echo_is_transparent
  exact ⟨again [[97, 255, 13, 13, 10, 10, 98]] _ (by decide +kernel),
    (back _).mpr ⟨⟨"a\uFFFD\n\nb\n", by decide +kernel⟩, .inr rfl, by decide +kernel⟩,
    nested settings settings inner outer .output done done' rfl rfl (by decide +kernel)⟩

end CommandLine.Relay

end Overseer
