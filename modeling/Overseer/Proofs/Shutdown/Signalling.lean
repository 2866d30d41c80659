import Overseer.Proofs.Text.Encoding
import Overseer.Proofs.Text.Lines
import Overseer.Proofs.Text.Numerals
import Overseer.Shutdown.Encounter

/-!
What a signaler makes of everything that it can meet: any results of its attempts to connect, any
way in which writing the request goes, and any bytes that come back in time, in whatever pieces.
-/
namespace Overseer.Shutdown

def firstLine (stream : List UInt8) : List UInt8 :=
  stream.takeWhile (· ≠ newline) ++ (stream.dropWhile (· ≠ newline)).take 1

theorem firstLine_cons (b : UInt8) (stream : List UInt8) :
    firstLine (b :: stream) = if b = newline then [b] else b :: firstLine stream := by
  by_cases ends : b = newline <;> simp [firstLine, ends]

theorem firstLine_of_not_mem {stream : List UInt8} (inside : newline ∉ stream) :
    firstLine stream = stream := by
  induction stream with
  | nil => rfl
  | cons b stream ih =>
    obtain ⟨first, later⟩ : newline ≠ b ∧ newline ∉ stream := by simpa using inside
    rw [firstLine_cons, if_neg first.symm, ih later]

theorem firstLine_append {stream : List UInt8} (member : newline ∈ stream) (more : List UInt8) :
    firstLine (stream ++ more) = firstLine stream := by
  induction stream with
  | nil => cases member
  | cons b stream ih =>
    rw [List.cons_append, firstLine_cons, firstLine_cons]
    by_cases ends : b = newline
    · rw [if_pos ends, if_pos ends]
    · rw [if_neg ends, if_neg ends, ih ((List.mem_cons.mp member).resolve_left (Ne.symm ends))]

theorem firstLine_eq_nil_iff {stream : List UInt8} : firstLine stream = [] ↔ stream = [] := by
  cases stream with
  | nil => exact iff_of_true rfl rfl
  | cons b stream =>
    rw [firstLine_cons]
    split <;> simp

theorem firstLine?_eq (stream : List UInt8) :
    firstLine? stream = if newline ∈ stream then some (firstLine stream) else none := by
  induction stream with
  | nil => rfl
  | cons b stream ih =>
    rw [firstLine?, firstLine_cons, ih]
    by_cases ends : b = newline
    · simp [ends]
    · by_cases later : newline ∈ stream <;> simp [ends, Ne.symm ends, later]

def isBreak (c : Char) : Bool :=
  c = '\r' || c = '\n'

/-- What is left of a text without the line breaks at its end. -/
structure Trimmed (line text : String) : Prop where
  tail : ∃ tail, line.toList = text.toList ++ tail ∧ ∀ c ∈ tail, c = '\r' ∨ c = '\n'
  last : ∀ c ∈ text.toList.getLast?, c ≠ '\r' ∧ c ≠ '\n'

theorem trimmed_iff {line text : String} :
    Trimmed line text ↔ text = String.ofList (Text.trimEnd isBreak line.toList) := by
  rw [← String.toList_inj, String.toList_ofList, eq_comm, Text.trimEnd_eq_iff]
  simp only [isBreak, decide_eq_true_eq, Bool.or_eq_true, Bool.or_eq_false_iff,
    decide_eq_false_iff_not]
  exact ⟨fun ⟨tail, last⟩ => ⟨tail, last⟩, fun ⟨tail, last⟩ => ⟨tail, last⟩⟩

theorem judgeText_eq {line text : String} (trimmed : Trimmed line text) :
    judgeText line = if text = acknowledgement then .ok () else .error (.unexpectedReply text) := by
  obtain rfl := trimmed_iff.mp trimmed
  rfl

theorem judgeLine_encode (s : String) : judgeLine (Utf8.encode s) = judgeText s := by
  rw [judgeLine, Utf8.fault?_eq_none_iff.mpr ⟨s, rfl⟩, Utf8.decode_encode]

theorem judgeLine_of_not_text {line : List UInt8} (other : ¬∃ s, line = Utf8.encode s) :
    ∃ e, judgeLine line = .error (.readReply e) := by
  rw [judgeLine]
  cases fault : Utf8.fault? line with
  | none => exact absurd (Utf8.fault?_eq_none_iff.mp fault) other
  | some f => exact ⟨_, rfl⟩

/-- What follows from the first line of a reply. -/
def verdict (line : List UInt8) : Answer :=
  if line = [] then .error .closed else judgeLine line

theorem verdict_of_ne_nil {line : List UInt8} (nonempty : line ≠ []) :
    verdict line = judgeLine line := if_neg nonempty

/-- The answers that a judgement of first lines gives to streams that came in time. -/
structure Judges (judgement : List UInt8 → Answer) : Prop where
  closed : ∀ stream, judgement (firstLine stream) = .error .closed ↔ stream = []
  unreadable : ∀ stream, (∃ e, judgement (firstLine stream) = .error (.readReply e)) ↔
    ¬∃ s, firstLine stream = Utf8.encode s
  acknowledged : ∀ stream, judgement (firstLine stream) = .ok () ↔
    ∃ line, firstLine stream = Utf8.encode line ∧ Trimmed line acknowledgement
  unexpected : ∀ stream reply, judgement (firstLine stream) = .error (.unexpectedReply reply) ↔
    stream ≠ [] ∧ reply ≠ acknowledgement ∧
      ∃ line, firstLine stream = Utf8.encode line ∧ Trimmed line reply

/-- A line is empty, or no text, or the text that a judgement goes by. -/
theorem verdict_cases (line : List UInt8) :
    line = [] ∧ verdict line = .error .closed ∨
    (¬∃ s, line = Utf8.encode s) ∧ (∃ e, verdict line = .error (.readReply e)) ∨
    ∃ s text, line ≠ [] ∧ line = Utf8.encode s ∧ Trimmed s text ∧
      verdict line = if text = acknowledgement then .ok () else .error (.unexpectedReply text) := by
  by_cases empty : line = []
  · exact .inl ⟨empty, if_pos empty⟩
  rw [verdict_of_ne_nil empty]
  by_cases spelled : ∃ s, line = Utf8.encode s
  · obtain ⟨s, rfl⟩ := spelled
    have trimmed := trimmed_iff.mpr (Eq.refl (String.ofList (Text.trimEnd isBreak s.toList)))
    exact .inr (.inr ⟨s, _, empty, rfl, trimmed, by rw [judgeLine_encode, judgeText_eq trimmed]⟩)
  · exact .inr (.inl ⟨spelled, judgeLine_of_not_text spelled⟩)

theorem Trimmed.unique {line first second : String} (one : Trimmed line first)
    (other : Trimmed line second) : first = second :=
  (trimmed_iff.mp one).trans (trimmed_iff.mp other).symm

theorem judges_verdict : Judges verdict where
  closed stream := by
    rw [← firstLine_eq_nil_iff]
    rcases verdict_cases (firstLine stream) with
      ⟨empty, judged⟩ | ⟨other, _, judged⟩ | ⟨_, text, nonempty, _, _, judged⟩
    · exact iff_of_true judged empty
    · refine iff_of_false (by simp [judged, ShutdownError.readReply]) fun empty => ?_
      exact other ⟨"", empty.trans Utf8.encode_empty.symm⟩
    · refine iff_of_false ?_ nonempty
      rw [judged]
      split <;> simp
  unreadable stream := by
    rcases verdict_cases (firstLine stream) with
      ⟨empty, judged⟩ | ⟨other, read⟩ | ⟨line, text, _, same, _, judged⟩
    · refine iff_of_false (by simp [judged, ShutdownError.readReply]) (not_not_intro ?_)
      exact ⟨"", empty.trans Utf8.encode_empty.symm⟩
    · exact iff_of_true read other
    · refine iff_of_false ?_ (not_not_intro ⟨line, same⟩)
      rw [judged]
      split <;> simp [ShutdownError.readReply]
  acknowledged stream := by
    rcases verdict_cases (firstLine stream) with
      ⟨empty, judged⟩ | ⟨other, _, judged⟩ | ⟨line, text, _, same, trimmed, judged⟩
    · refine iff_of_false (by simp [judged]) ?_
      rintro ⟨line, same, ⟨tail, spelled, _⟩, _⟩
      obtain rfl := Utf8.encode_inj ((empty.symm.trans same).symm.trans Utf8.encode_empty.symm)
      cases spelled
    · refine iff_of_false (by simp [judged]) ?_
      rintro ⟨line, same, _⟩
      exact other ⟨line, same⟩
    · rw [judged]
      constructor
      · intro answered
        split at answered
        next ok => exact ⟨line, same, ok ▸ trimmed⟩
        next => cases answered
      · rintro ⟨line', same', ok⟩
        obtain rfl := Utf8.encode_inj (same.symm.trans same')
        exact if_pos (trimmed.unique ok)
  unexpected stream reply := by
    rcases verdict_cases (firstLine stream) with
      ⟨empty, judged⟩ | ⟨other, _, judged⟩ | ⟨line, text, nonempty, same, trimmed, judged⟩
    · refine iff_of_false (by simp [judged]) ?_
      rintro ⟨nonempty, _⟩
      exact nonempty (firstLine_eq_nil_iff.mp empty)
    · refine iff_of_false (by simp [judged, ShutdownError.readReply]) ?_
      rintro ⟨_, _, line, same, _⟩
      exact other ⟨line, same⟩
    · rw [judged]
      constructor
      · intro answered
        split at answered
        next => cases answered
        next differs =>
          obtain rfl : text = reply := by simpa using answered
          exact ⟨mt firstLine_eq_nil_iff.mpr nonempty, differs, line, same, trimmed⟩
      · rintro ⟨_, differs, line', same', trimmed'⟩
        obtain rfl := Utf8.encode_inj (same.symm.trans same')
        obtain rfl := trimmed.unique trimmed'
        exact if_neg differs

namespace Encounter

/-- The attempt at a time fails in a way for which another is made. -/
def Course.Retried (course : Course) (now : Nat) : Prop :=
  ∃ e, course.attempts now = .failed e ∧ (e.kind = .notFound ∨ e.kind = .connectionRefused)

/-- Times at which attempts are due one after the other, and within the limit. -/
def Paced : Nat → List Nat → Prop
  | _, [] => True
  | due, now :: later => due ≤ now ∧ now < connectLimit ∧ Paced (now + connectInterval) later

theorem paced_range' (first count : Nat)
    (within : (first + count) * connectInterval ≤ connectLimit) :
    Paced (first * connectInterval) ((List.range' first count).map (· * connectInterval)) := by
  induction count generalizing first with
  | zero => trivial
  | succ count ih =>
    rw [List.range'_succ, List.map_cons]
    refine ⟨Nat.le_refl _, ?_, ?_⟩
    · refine Nat.lt_of_lt_of_le ?_ within
      exact Nat.mul_lt_mul_of_pos_right (by omega) (by decide)
    · rw [← Nat.succ_mul]
      exact ih (first + 1) (by rwa [Nat.add_right_comm])

theorem paced_attemptTimes : Paced 0 attemptTimes := by
  have paced := paced_range' 0 (connectLimit / connectInterval) (by decide)
  rwa [Nat.zero_mul, ← List.range_eq_range'] at paced

theorem attempt_of_retried {course : Course} {now : Nat} (retried : course.Retried now)
    (s : Signaler) : s.attempt now (course.attempts now) =
      { s with phase := .connecting (now + connectInterval) } := by
  obtain ⟨e, failed, kind⟩ := retried
  rw [failed, Signaler.attempt, if_pos (by simpa [retries] using kind)]

section Connecting

variable {course : Course} {before : List Nat} {channel : String} {due now : Nat}

theorem attempts_of_paced (paced : due ≤ now ∧ now < connectLimit) :
    Signaler.attempts ⟨channel, 0, .connecting due⟩ now = true := by
  simpa [Signaler.attempts] using paced

theorem connecting_again (paced : due ≤ now ∧ now < connectLimit) (retried : course.Retried now)
    (tried later : List Nat) :
    connecting course.attempts ⟨channel, 0, .connecting due⟩ tried (now :: later) =
      connecting course.attempts ⟨channel, 0, .connecting (now + connectInterval)⟩
        (tried ++ [now]) later := by
  simp only [connecting, attempts_of_paced paced, if_true, attempt_of_retried retried]

theorem connecting_settled {phase : Signaler.Phase} (paced : due ≤ now ∧ now < connectLimit)
    (attempted : Signaler.attempt ⟨channel, 0, .connecting due⟩ now (course.attempts now) =
      ⟨channel, 0, phase⟩)
    (settled : ∀ due, phase ≠ .connecting due) (tried later : List Nat) :
    connecting course.attempts ⟨channel, 0, .connecting due⟩ tried (now :: later) =
      (⟨channel, 0, phase⟩, now, tried ++ [now]) := by
  cases phase with
  | connecting due => exact absurd rfl (settled due)
  | exchanging | finished =>
    simp only [connecting, attempts_of_paced paced, if_true, attempted]

theorem connecting_retried (retried : ∀ now ∈ before, course.Retried now) {later : List Nat}
    (paced : Paced due (before ++ later)) (tried : List Nat) :
    ∃ next, Paced next later ∧
      connecting course.attempts ⟨channel, 0, .connecting due⟩ tried (before ++ later) =
        connecting course.attempts ⟨channel, 0, .connecting next⟩ (tried ++ before) later := by
  induction before generalizing due tried with
  | nil => exact ⟨due, paced, by rw [List.append_nil, List.nil_append]⟩
  | cons now before ih =>
    obtain ⟨first, limit, further⟩ := paced
    obtain ⟨once, rest⟩ := List.forall_mem_cons.mp retried
    obtain ⟨next, paced, same⟩ := ih rest further (tried ++ [now])
    refine ⟨next, paced, ?_⟩
    rw [List.cons_append, connecting_again ⟨first, limit⟩ once, List.append_cons tried now before]
    exact same

/-- The attempt at a time is the first that is not made again. -/
structure Course.Decides (course : Course) (before : List Nat) (now : Nat) : Prop where
  times : before ++ [now] <+: attemptTimes
  earlier : ∀ t ∈ before, course.Retried t
  last : ¬course.Retried now

theorem connecting_of_all_retried {times : List Nat} (paced : Paced 0 times)
    (retried : ∀ now ∈ times, course.Retried now) :
    connecting course.attempts (.begin channel 0) [] times =
      (⟨channel, 0, .finished (.error ShutdownError.connecting)⟩, connectLimit, times) := by
  rw [← List.append_nil times] at paced
  obtain ⟨next, _, same⟩ := connecting_retried retried paced []
  rw [List.append_nil] at same
  refine same.trans ?_
  simp [connecting, Signaler.expire]

theorem connecting_of_decides {phase : Signaler.Phase} (decides : course.Decides before now)
    (attempted : ∀ due, Signaler.attempt ⟨channel, 0, .connecting due⟩ now (course.attempts now) =
      ⟨channel, 0, phase⟩)
    (settled : ∀ due, phase ≠ .connecting due) :
    connecting course.attempts (.begin channel 0) [] attemptTimes =
      (⟨channel, 0, phase⟩, now, before ++ [now]) := by
  obtain ⟨⟨later, times⟩, earlier, _⟩ := decides
  have paced := paced_attemptTimes
  rw [← times, List.append_assoc] at paced ⊢
  obtain ⟨next, ⟨due, limit, _⟩, same⟩ := connecting_retried earlier paced []
  exact same.trans (connecting_settled ⟨due, limit⟩ (attempted next) settled _ _)

theorem connecting_of_connected {number : Nat} (decides : course.Decides before now)
    (connected : course.attempts now = .connected number) :
    connecting course.attempts (.begin channel 0) [] attemptTimes =
      (⟨channel, 0, .exchanging number (now + exchangeLimit)⟩, now, before ++ [now]) :=
  connecting_of_decides decides (fun _ => by rw [connected]; rfl) (by simp)

theorem connecting_of_failed {e : SystemError} (decides : course.Decides before now)
    (failed : course.attempts now = .failed e) :
    connecting course.attempts (.begin channel 0) [] attemptTimes =
      (⟨channel, 0, .finished (.error (.connect channel e))⟩, now, before ++ [now]) := by
  have final : ¬retries e = true := fun again =>
    decides.last ⟨e, failed, by simpa [retries] using again⟩
  exact connecting_of_decides decides (fun _ => by rw [failed, Signaler.attempt, if_neg final])
    (by simp)

end Connecting

/-- Either all attempts are made again or one decides. -/
theorem Course.retried_or_decides (course : Course) {before later : List Nat}
    (times : before ++ later = attemptTimes) (earlier : ∀ t ∈ before, course.Retried t) :
    (∀ now ∈ attemptTimes, course.Retried now) ∨ ∃ before now, course.Decides before now := by
  induction later generalizing before with
  | nil =>
    rw [List.append_nil] at times
    exact .inl (times ▸ earlier)
  | cons now later ih =>
    rw [List.append_cons] at times
    by_cases again : course.Retried now
    · exact ih times (by simpa [or_imp, forall_and] using ⟨earlier, again⟩)
    · exact .inr ⟨before, now, ⟨later, times⟩, earlier, again⟩

/-- What the other end does brings these bytes in time: in any pieces, and with a newline among
them or the end after them. -/
def Brings (deeds : List (Nat × Deed)) (stream : List UInt8) : Prop :=
  ∃ (pieces : List (Nat × List UInt8)) (rest : List (Nat × Deed)),
    deeds = pieces.map (fun piece => (piece.1, .writes piece.2)) ++ rest ∧
    (∀ piece ∈ pieces, piece.1 < exchangeLimit) ∧ pieces.flatMap (·.2) = stream ∧
    (newline ∈ stream ∨
      ∃ clock later, rest = (clock, .goes .closed) :: later ∧ clock < exchangeLimit)

theorem judge?_of_none {received : List UInt8} (unended : newline ∉ received) :
    judge? received none = none := by
  rw [judge?.eq_def, firstLine?_eq, if_neg unended]

theorem judge?_of_newline {received : List UInt8} (ended : newline ∈ received) :
    judge? received none = some (verdict (firstLine received)) := by
  have nonempty : firstLine received ≠ [] :=
    mt firstLine_eq_nil_iff.mp (List.ne_nil_of_mem ended)
  rw [judge?.eq_def, firstLine?_eq, if_pos ended, verdict_of_ne_nil nonempty]

theorem judge?_of_closed {received : List UInt8} (unended : newline ∉ received) :
    judge? received (some .closed) = some (verdict (firstLine received)) := by
  rw [judge?.eq_def, firstLine?_eq, if_neg unended, firstLine_of_not_mem unended, verdict]
  simp

/-- However the bytes come, the signaler goes by their first line. -/
theorem exchanging_answer {s : Signaler} {number deadline : Nat}
    (phase : s.phase = .exchanging number deadline) (connected : Nat)
    {pieces : List (Nat × List UInt8)}
    {rest : List (Nat × Deed)} {received : List UInt8} (unended : newline ∉ received)
    (inTime : ∀ piece ∈ pieces, piece.1 < exchangeLimit)
    (ends : newline ∈ received ++ pieces.flatMap (·.2) ∨
      ∃ clock later, rest = (clock, .goes .closed) :: later ∧ clock < exchangeLimit) :
    (exchanging s connected received
      (pieces.map (fun piece => (piece.1, .writes piece.2)) ++ rest)).1.answer? =
        some (verdict (firstLine (received ++ pieces.flatMap (·.2)))) := by
  induction pieces generalizing received with
  | nil =>
    rw [List.flatMap_nil, List.append_nil] at ends ⊢
    obtain ⟨clock, later, rfl, soon⟩ := ends.resolve_left unended
    have heard : s.hear received (some .closed) =
        { s with phase := .finished (verdict (firstLine received)) } := by
      rw [Signaler.hear, phase, judge?_of_closed unended]
    simp [exchanging, Nat.not_le.mpr soon, heard, Signaler.answer?]
  | cons piece pieces ih =>
    obtain ⟨soon, others⟩ := List.forall_mem_cons.mp inTime
    rw [List.flatMap_cons, ← List.append_assoc] at ends ⊢
    rw [List.map_cons, List.cons_append, exchanging, if_neg (Nat.not_le.mpr soon)]
    by_cases ended : newline ∈ received ++ piece.2
    · have heard : s.hear (received ++ piece.2) none =
          { s with phase := .finished (verdict (firstLine (received ++ piece.2))) } := by
        rw [Signaler.hear, phase, judge?_of_newline ended]
      rw [firstLine_append ended]
      simp [heard, Signaler.answer?]
    · have heard : s.hear (received ++ piece.2) none = s := by
        rw [Signaler.hear, phase, judge?_of_none ended]
      have open_ : s.answer? = none := by rw [Signaler.answer?, phase]
      simp only [heard, open_]
      exact ih ended others ends

/-- Some attempt comes about, and all before it are made again. -/
def Course.Connects (course : Course) (before : List Nat) (now : Nat) : Prop :=
  course.Decides before now ∧ ∃ number, course.attempts now = .connected number

structure Follows (judgement : List UInt8 → Answer) (channel : String) (course : Course)
    (c : Call) : Prop where
  exhausted : (∀ now ∈ attemptTimes, course.Retried now) →
    c.answer = some (.error .connecting) ∧ c.elapsed = connectLimit ∧ c.tried = attemptTimes
  failed : ∀ before now e, course.Decides before now → course.attempts now = .failed e →
    c.answer = some (.error (.connect channel e)) ∧ c.elapsed = now ∧ c.tried = before ++ [now]
  unwritten : (¬∃ before now, course.Connects before now) → c.written = []
  connected : ∀ before now, course.Connects before now → c.tried = before ++ [now]
  written : ∀ before now, course.Connects before now →
    (∀ count e, course.writing ≠ .cut count e) → c.written = requestLine
  replied : ∀ before now, course.Connects before now → course.writing = .done →
    ∀ stream, Brings course.deeds stream → c.answer = some (judgement (firstLine stream))
  cut : ∀ before now, course.Connects before now → ∀ count e, course.writing = .cut count e →
    c.answer = some (.error (.writeRequest e)) ∧ c.written = requestLine.take count
  unflushed : ∀ before now, course.Connects before now → ∀ e, course.writing = .unflushed e →
    c.answer = some (.error (.flushRequest e))
  acknowledged : c.acknowledged = true ↔ c.answer = some (.ok ())

section Call

variable {course : Course} {before : List Nat} {now : Nat}

theorem call_of_all_retried (retried : ∀ now ∈ attemptTimes, course.Retried now)
    (channel : String) :
    call channel course = ⟨some (.error .connecting), connectLimit, attemptTimes, []⟩ := by
  rw [call, connecting_of_all_retried paced_attemptTimes retried]
  rfl

theorem call_of_failed {e : SystemError} (decides : course.Decides before now)
    (failed : course.attempts now = .failed e) (channel : String) :
    call channel course = ⟨some (.error (.connect channel e)), now, before ++ [now], []⟩ := by
  rw [call, connecting_of_failed decides failed]
  rfl

theorem call_of_connected {number : Nat} (decides : course.Decides before now)
    (connected : course.attempts now = .connected number) (channel : String) :
    call channel course =
      match course.writing with
      | .done =>
        let (s, ended) := exchanging ⟨channel, 0, .exchanging number (now + exchangeLimit)⟩ now []
          course.deeds
        ⟨s.answer?, ended, before ++ [now], requestLine⟩
      | .cut count e =>
        ⟨some (.error (.writeRequest e)), now, before ++ [now], requestLine.take count⟩
      | .unflushed e => ⟨some (.error (.flushRequest e)), now, before ++ [now], requestLine⟩ := by
  rw [call, connecting_of_connected decides connected]
  cases course.writing <;> rfl

theorem call_follows (channel : String) (course : Course) :
    Follows verdict channel course (call channel course) where
  exhausted retried := by
    rw [call_of_all_retried retried]
    exact ⟨rfl, rfl, rfl⟩
  failed before now e decides failed := by
    rw [call_of_failed decides failed]
    exact ⟨rfl, rfl, rfl⟩
  unwritten none := by
    rcases course.retried_or_decides (List.nil_append attemptTimes) (by simp) with
      retried | ⟨before, now, decides⟩
    · rw [call_of_all_retried retried]
    · cases attempt : course.attempts now with
      | connected number => exact absurd ⟨before, now, decides, number, attempt⟩ none
      | failed e => rw [call_of_failed decides attempt]
  connected before now := by
    rintro ⟨decides, number, connected⟩
    rw [call_of_connected decides connected]
    cases course.writing <;> rfl
  written before now := by
    rintro ⟨decides, number, connected⟩ whole
    rw [call_of_connected decides connected]
    cases writing : course.writing with
    | done => rfl
    | unflushed e => rfl
    | cut count e => exact absurd writing (whole count e)
  replied before now := by
    rintro ⟨decides, number, connected⟩ done stream ⟨pieces, rest, deeds, inTime, rfl, ends⟩
    rw [call_of_connected decides connected, done, deeds]
    exact exchanging_answer rfl now (by simp) inTime ends
  cut before now := by
    rintro ⟨decides, number, connected⟩ count e cut
    rw [call_of_connected decides connected, cut]
    exact ⟨rfl, rfl⟩
  unflushed before now := by
    rintro ⟨decides, number, connected⟩ e unflushed
    rw [call_of_connected decides connected, unflushed]
  acknowledged := by
    rw [Call.acknowledged]
    cases (call channel course).answer with
    | none => simp
    | some answer => cases answer <;> simp

/-- There is one judgement of first lines by which every signaler goes. Nothing else of a reply that
comes in time matters, and which attempt decides hangs on nothing but the errors before it. -/
theorem exists_judgement : ∃ judgement, Judges judgement ∧
    ∀ channel course, Follows judgement channel course (call channel course) :=
  ⟨verdict, judges_verdict, call_follows⟩

-- The channel is there at the third attempt, and the answer comes in pieces with more after it.
example : (call "1" {
    attempts := fun now => if now < 100 then .failed (.errno .noSuchFile) else .connected 0
    deeds := [(5, .writes [0x4f]), (9, .writes [0x4b, 0x0d, 0x0a, 0xff])] }).acknowledged = true := by
  decide

end Call

end Encounter

end Overseer.Shutdown
