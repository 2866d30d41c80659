import Mathlib.Data.List.Induction
import Overseer.Proofs.Arguments.Scanner

/-!
Argument strings put one after the other, with white space between them. What comes of it hangs only
on whether the first leaves a quote open.
-/
namespace Overseer.Arguments

/-- How many double quotes are not escaped in a string that is given last character first. An even
number of backslashes stands right before such a quote. -/
def unescaped : List Char → Nat
  | [] => 0
  | c :: before =>
    unescaped before +
      if c = '"' ∧ (before.takeWhile (· = '\\')).length % 2 = 0 then 1 else 0

def endsQuoted (a : String) : Bool := (scanner a).quoted

theorem Scanner.quoted_step (s : Scanner) (c : Char) :
    (s.step c).quoted = (s.quoted ^^ decide (c = '"' ∧ s.pending % 2 = 0)) := by
  by_cases quote : c = '"'
  · subst quote
    rw [step_quote, Scanner.quote]
    dsimp only
    split
    next odd => simp [append, odd]
    next even => simp [show s.pending % 2 = 0 by omega]
  · unfold step close
    simp only [quote, if_false]
    repeat' split
    all_goals simp [append]

theorem Scanner.pending_step (s : Scanner) (c : Char) :
    (s.step c).pending = if c = '\\' then s.pending + 1 else 0 := by
  unfold step quote close
  dsimp only
  repeat' split
  all_goals rfl

/-- Pending are the backslashes at the end, and a quote is open after an odd number of them that are
not escaped. -/
theorem read_counts (a : List Char) :
    (Scanner.read {} a).pending = (a.reverse.takeWhile (· = '\\')).length ∧
      (Scanner.read {} a).quoted = decide (unescaped a.reverse % 2 = 1) := by
  induction a using List.reverseRecOn with
  | nil => exact ⟨rfl, rfl⟩
  | append_singleton a c ih =>
    obtain ⟨pending, quoted⟩ := ih
    rw [Scanner.read_concat, Scanner.pending_step, Scanner.quoted_step, pending, quoted,
      List.reverse_concat, List.takeWhile_cons, unescaped]
    constructor
    · by_cases backslash : c = '\\' <;> simp [backslash]
    · split
      next flips =>
        rcases Nat.mod_two_eq_zero_or_one (unescaped a.reverse) with even | odd
        · simp [flips, even, Nat.add_mod]
        · simp [flips, odd, Nat.add_mod]
      next keeps => simp [keeps]

theorem endsQuoted_eq (a : String) : endsQuoted a = decide (unescaped a.toList.reverse % 2 = 1) :=
  (read_counts a.toList).2

/-- An open argument goes on with whatever came before it. -/
theorem group_some_append (token before : List Char) (quoted : Bool) (rest : List Symbol) :
    ∃ u ys, group (some token) quoted rest = u :: ys ∧
      group (some (token ++ before)) quoted rest = (String.ofList before.reverse ++ u) :: ys := by
  induction rest generalizing token quoted with
  | nil => exact ⟨String.ofList token.reverse, [], rfl, by simp [group]⟩
  | cons symbol rest ih =>
    cases symbol with
    | literal c => exact ih (c :: token) quoted
    | toggle => exact ih token (!quoted)
    | blank c =>
      cases quoted with
      | true => exact ih (c :: token) true
      | false => exact ⟨String.ofList token.reverse, group none false rest, rfl, by simp [group]⟩

variable {a : String} {w : Char}

/-- White space inside quotes goes on with the open argument. -/
theorem outcome_blank_quoted (blank : Text.isBlank w = true) (inside : endsQuoted a = true)
    (rest : List Char) :
    split a = (scanner a).arguments ++ [String.ofList (scanner a).flush.current] ∧
      (scanner a).outcome (w :: rest) = (scanner a).arguments ++
        group (some (w :: (scanner a).flush.current.reverse)) true (symbols rest) := by
  have sane := sane_scanner a
  have inToken : (scanner a).flush.inToken = true :=
    sane.flush.inside (Scanner.quoted_flush.trans inside)
  have notBackslash : w ≠ '\\' := by rintro rfl; contradiction
  have notQuote : w ≠ '"' := by rintro rfl; contradiction
  have quoted : (scanner a).quoted = true := inside
  constructor
  · rw [← finish_scanner, Scanner.finish, Scanner.close, if_pos inToken, Scanner.arguments_flush]
  · rw [← Scanner.outcome_step sane, Scanner.step_plain notBackslash notQuote (by simp [quoted])]
    simp [Scanner.outcome, Scanner.token, Scanner.append, quoted, Scanner.flush]

/-- Strings that are put together with white space between them: if the first ends outside quotes,
the arguments of both come one after the other, and if it ends inside quotes, its last argument goes
on with the white space and with what the second string holds up to the end of that argument. -/
theorem split_seam (a b : String) (w : Char) (blank : Text.isBlank w = true) :
    (endsQuoted a = decide (unescaped a.toList.reverse % 2 = 1)) ∧
    (endsQuoted a = false → split (a ++ String.singleton w ++ b) = split a ++ split b) ∧
    (endsQuoted a = true → ∃ xs t u ys, split a = xs ++ [t] ∧
      split (a ++ String.singleton w ++ b) = xs ++ [t ++ String.singleton w ++ u] ++ ys ∧
      split ("\"" ++ b) = u :: ys) := by
  have sane := sane_scanner a
  have seam : split (a ++ String.singleton w ++ b) = (scanner a).outcome (w :: b.toList) := by
    have joined : a ++ String.singleton w ++ b = a ++ String.ofList (w :: b.toList) :=
      String.toList_injective (by simp)
    rw [outcome_scanner, joined]
  rw [seam]
  refine ⟨endsQuoted_eq a, fun outside => ?_, fun inside => ?_⟩
  · rw [← Scanner.outcome_step sane, Scanner.step_separator sane blank outside,
      Scanner.outcome_arguments, finish_scanner, String.ofList_toList]
  · obtain ⟨left, right⟩ := outcome_blank_quoted blank inside b.toList
    set last := (scanner a).flush.current
    obtain ⟨u, ys, alone, joined⟩ :=
      group_some_append [] (w :: last.reverse) true (symbols b.toList)
    refine ⟨(scanner a).arguments, String.ofList last, u, ys, left, ?_, ?_⟩
    · rw [right, ← List.nil_append (w :: _), joined]
      simp
    · have opening : ("\"" ++ b).toList = '"' :: b.toList := by simp
      rw [split, opening, symbols_quote]
      exact alone

/-- Backslashes at the seam, and a quote that is open there. -/
theorem split_seam_open :
    endsQuoted "x\\" = false ∧
      split ("x\\" ++ String.singleton '\t' ++ "\\\"y") = ["x\\", "\"y"] ∧
      endsQuoted "x \"y\\" = true ∧
      ∃ xs t u ys, split "x \"y\\" = xs ++ [t] ∧
        split ("x \"y\\" ++ String.singleton ' ' ++ "\" z") =
          xs ++ [t ++ String.singleton ' ' ++ u] ++ ys ∧
        split ("\"" ++ "\" z") = u :: ys := by
  have outside : endsQuoted "x\\" = false := by decide
  have inside : endsQuoted "x \"y\\" = true := by decide
  refine ⟨outside, ?_, inside, (split_seam "x \"y\\" "\" z" ' ' (by decide)).2.2 inside⟩
  rw [(split_seam "x\\" "\\\"y" '\t' (by decide)).2.1 outside, ← finish_scanner, ← finish_scanner]
  decide

end Overseer.Arguments
