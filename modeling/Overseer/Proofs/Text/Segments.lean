import Mathlib.Data.List.Basic

/-!
A stream and the marks in it. A mark ends a segment, and what comes after the last mark is a segment
if it is not empty.
-/
namespace Overseer.Text

def marked {α : Type} (mark : α) (parts : List (List α)) : List α :=
  parts.flatMap (· ++ [mark])

theorem marked_cons {α : Type} (mark : α) (part : List α) (parts : List (List α)) :
    marked mark (part :: parts) = part ++ mark :: marked mark parts := by
  simp [marked]

variable {α : Type} [DecidableEq α]

def ended (mark : α) (stream : List α) : List (List α) :=
  (stream.splitOn mark).dropLast

def segments (mark : α) (stream : List α) : List (List α) :=
  if (stream.splitOn mark).getLast? = some [] then ended mark stream else stream.splitOn mark

variable {mark : α} {segment : List α}

theorem ended_of_not_mem (unended : mark ∉ segment) : ended mark segment = [] := by
  rw [ended, List.splitOn_eq_singleton unended]
  rfl

theorem ended_append (inside : mark ∉ segment) (rest : List α) :
    ended mark (segment ++ mark :: rest) = segment :: ended mark rest := by
  rw [ended, List.splitOn_append_cons_self_of_not_mem inside,
    List.dropLast_cons_of_ne_nil (List.splitOn_ne_nil _ _)]
  rfl

theorem segments_of_not_mem (unended : mark ∉ segment) :
    segments mark segment = if segment = [] then [] else [segment] := by
  rw [segments, ended_of_not_mem unended, List.splitOn_eq_singleton unended]
  simp

theorem segments_append (inside : mark ∉ segment) (rest : List α) :
    segments mark (segment ++ mark :: rest) = segment :: segments mark rest := by
  rw [segments, segments, ended_append inside, List.splitOn_append_cons_self_of_not_mem inside,
    List.getLast?_cons_of_ne_nil (List.splitOn_ne_nil _ _)]
  split <;> rfl

/-- A stream is taken segment by segment up to what comes after its last mark. -/
theorem segment_induction (mark : α) {motive : List α → Prop}
    (unended : ∀ stream, mark ∉ stream → motive stream)
    (ended : ∀ segment rest, mark ∉ segment → motive rest → motive (segment ++ mark :: rest))
    (stream : List α) : motive stream := by
  induction length : stream.length using Nat.strongRecOn generalizing stream with
  | ind n ih =>
    by_cases member : mark ∈ stream
    · obtain ⟨segment, rest, rfl, inside⟩ := List.eq_append_cons_of_mem member
      have shorter : rest.length < n := by
        rw [← length]
        simp
        omega
      exact ended segment rest inside (ih _ shorter rest rfl)
    · exact unended stream member

theorem not_mem_of_mem_segments {stream : List α} (member : segment ∈ segments mark stream) :
    mark ∉ segment := by
  induction stream using segment_induction mark with
  | unended stream inside =>
    rw [segments_of_not_mem inside] at member
    split at member
    · cases member
    · exact List.mem_singleton.mp member ▸ inside
  | ended first rest inside ih =>
    rw [segments_append inside] at member
    rcases List.mem_cons.mp member with rfl | later
    · exact inside
    · exact ih later

theorem segments_marked {parts : List (List α)} (inside : ∀ part ∈ parts, mark ∉ part) :
    segments mark (marked mark parts) = parts := by
  induction parts with
  | nil => rfl
  | cons part parts ih =>
    obtain ⟨here, later⟩ := List.forall_mem_cons.mp inside
    rw [marked_cons, segments_append here, ih later]

/-- Marks after all segments make up the stream again, unless none comes after the last of them. -/
theorem marked_segments_iff {stream : List α} :
    marked mark (segments mark stream) = stream ↔ ∀ a ∈ stream.getLast?, a = mark := by
  induction stream using segment_induction mark with
  | unended stream inside =>
    rw [segments_of_not_mem inside]
    split
    next none => simp [none, marked]
    next some =>
      refine iff_of_false ?_ fun last => inside ?_
      · simp [marked]
      · have ends := last _ (List.getLast?_eq_some_getLast some)
        exact ends ▸ List.getLast_mem some
  | ended segment rest inside ih =>
    rw [segments_append inside, marked_cons, List.append_cancel_left_eq, List.cons.injEq,
      and_iff_right rfl, ih, List.getLast?_append_of_ne_nil _ (List.cons_ne_nil _ _)]
    cases rest with
    | nil => simp
    | cons a rest => rw [List.getLast?_cons_cons]

end Overseer.Text
