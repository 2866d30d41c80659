import Mathlib.Data.List.Forall2
import Overseer.Proofs.Arguments.Seams

/-!
The pieces of a string that its arguments are read from, each by itself. An argument is empty only
if there is nothing but quotes in its piece.
-/
namespace Overseer.Arguments

def lastPiece (piece : List Char) : List String :=
  if piece = [] then [] else [String.ofList piece.reverse]

/-- What white space outside quotes leaves of a string, some of whose last piece was read. -/
def pieces (piece : List Char) : List Char → List String
  | [] => lastPiece piece
  | c :: cs =>
    if Text.isBlank c ∧ unescaped piece % 2 = 0 then lastPiece piece ++ pieces [] cs
    else pieces (c :: piece) cs

/-- A piece gives one argument, which is empty if there are only quotes in it. -/
structure StandsFor (piece argument : String) : Prop where
  alone : split piece = [argument]
  empty : argument = "" ↔ ∀ c ∈ piece.toList, c = '"'

namespace Scanner

structure Unbroken (s : Scanner) (piece : List Char) : Prop where
  arguments : s.arguments = []
  inToken : piece ≠ [] → s.flush.inToken = true
  empty : s.flush.current = [] ↔ ∀ c ∈ piece, c = '"'

theorem unbroken_empty : Unbroken {} [] := ⟨rfl, by simp, by simp [flush, emit]⟩

variable {s : Scanner} {piece : List Char}

theorem current_flush : s.flush.current = s.current ++ List.replicate s.pending '\\' :=
  current_emit s.pending

/-- A quote opens an argument and ends none, whatever it stands for. -/
theorem quote_opens :
    s.quote.pending = 0 ∧ s.quote.inToken = true ∧ s.quote.arguments = s.arguments := by
  unfold quote
  dsimp only
  split <;> exact ⟨rfl, rfl, arguments_emit _⟩

/-- A quote that is not literal leaves no character, unless there were backslashes before it. -/
theorem current_quote : s.quote.current = [] ↔ s.flush.current = [] := by
  rw [current_flush]
  unfold quote
  dsimp only
  split
  next odd =>
    have some : s.pending ≠ 0 := by omega
    simp [append, some]
  next even =>
    have half : s.pending / 2 = 0 ↔ s.pending = 0 := by omega
    simp [half]

theorem Unbroken.step (unbroken : s.Unbroken piece) (c : Char)
    (goesOn : (Text.isBlank c && !s.quoted) = false) : (s.step c).Unbroken (c :: piece) := by
  by_cases backslash : c = '\\'
  · subst backslash
    exact ⟨unbroken.arguments, fun _ => by simp [flush], by simp [flush]⟩
  by_cases quote : c = '"'
  · subst quote
    rw [step_quote]
    obtain ⟨settled, opened, arguments⟩ := quote_opens (s := s)
    refine ⟨arguments.trans unbroken.arguments, fun _ => ?_, ?_⟩
    · simp [flush, emit, settled, opened]
    · simpa [flush, emit, settled, current_quote] using unbroken.empty
  · rw [step_plain backslash quote goesOn]
    refine ⟨arguments_flush.trans unbroken.arguments, fun _ => rfl, ?_⟩
    simp [append, flush, quote]

/-- The piece stands for the argument that is ended with it. -/
theorem Unbroken.forall₂_lastPiece (unbroken : (read {} piece.reverse).Unbroken piece) :
    List.Forall₂ StandsFor (lastPiece piece) (read {} piece.reverse).finish := by
  unfold lastPiece
  split
  next nothing =>
    subst nothing
    exact .nil
  next some =>
    have ended : (read {} piece.reverse).finish =
        [String.ofList (read {} piece.reverse).flush.current] := by
      rw [finish, close, if_pos (unbroken.inToken some), arguments_flush, unbroken.arguments]
      rfl
    have alone : split (String.ofList piece.reverse) = (read {} piece.reverse).finish := by
      rw [← finish_scanner, scanner, String.toList_ofList]
    rw [ended] at alone ⊢
    refine .cons ⟨alone, ?_⟩ .nil
    simpa using unbroken.empty

end Scanner

theorem forall₂_pieces {piece : List Char} (cs : List Char)
    (unbroken : (Scanner.read {} piece.reverse).Unbroken piece) :
    List.Forall₂ StandsFor (pieces piece cs) ((Scanner.read {} piece.reverse).outcome cs) := by
  induction cs generalizing piece with
  | nil =>
    rw [Scanner.outcome_nil (Scanner.sane_empty.read _)]
    exact unbroken.forall₂_lastPiece
  | cons c cs ih =>
    have sane := Scanner.sane_empty.read piece.reverse
    have quoted := (read_counts piece.reverse).2
    rw [List.reverse_reverse] at quoted
    rw [← Scanner.outcome_step sane, pieces]
    split
    next separates =>
      obtain ⟨blank, even⟩ := separates
      have outside : (Scanner.read {} piece.reverse).quoted = false := by simp [quoted, even]
      have later : List.Forall₂ StandsFor (pieces [] cs) (split (String.ofList cs)) := by
        have read : List.Forall₂ StandsFor (pieces [] cs) (Scanner.outcome {} cs) :=
          ih Scanner.unbroken_empty
        rwa [Scanner.outcome_arguments, List.nil_append] at read
      rw [Scanner.step_separator sane blank outside, Scanner.outcome_arguments]
      exact List.rel_append unbroken.forall₂_lastPiece later
    next goesOn =>
      have inside : (Text.isBlank c && !(Scanner.read {} piece.reverse).quoted) = false := by
        rw [quoted]
        simpa using goesOn
      have longer : (Scanner.read {} piece.reverse).step c =
          Scanner.read {} (c :: piece).reverse := by
        rw [List.reverse_cons, Scanner.read_concat]
      have unbroken' := unbroken.step c inside
      rw [longer] at unbroken' ⊢
      exact ih unbroken'

/-- Reading an argument string by whole runs of backslashes and reading it one character at a time
comes to the same. Its arguments are those of its pieces, one for each, so that a piece of quotes
gives an empty argument and no other piece does. -/
theorem split_eq_finish (a : String) :
    split a = (scanner a).finish ∧ List.Forall₂ StandsFor (pieces [] a.toList) (split a) := by
  refine ⟨(finish_scanner a).symm, ?_⟩
  have read : List.Forall₂ StandsFor (pieces [] a.toList) (Scanner.outcome {} a.toList) :=
    forall₂_pieces a.toList Scanner.unbroken_empty
  rwa [Scanner.outcome_arguments, List.nil_append, String.ofList_toList] at read

/-- Empty arguments are those between quotes, also if the last quote is not closed. -/
example : pieces [] "\"\" a\"\" \\\\\" ".toList = ["\"\"", "a\"\"", "\\\\\" "] ∧
    (scanner "\"\" a\"\" \\\\\" ").finish = ["", "a", "\\ "] := by
  decide

end Overseer.Arguments
