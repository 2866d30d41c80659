import Mathlib.Data.List.TakeWhile
import Overseer.Arguments

/-!
What `symbols` reads. A run of backslashes is opened here once, before a quote and before anything
else; later proofs use these equations and never the recursion.
-/
namespace Overseer.Arguments

/-- What a character stands for where neither a quote nor a backslash gives it another meaning. -/
def plain (c : Char) : Symbol :=
  if Text.isBlank c then .blank c else .literal c

@[simp] theorem plain_backslash : plain '\\' = .literal '\\' := rfl

@[simp] theorem plain_quote : plain '"' = .literal '"' := rfl

@[simp] theorem symbols_nil : symbols [] = [] := by
  rw [symbols]

@[simp] theorem symbols_quote (rest : List Char) :
    symbols ('"' :: rest) = .toggle :: symbols rest := by
  rw [symbols]
  simp

theorem symbols_plain {c : Char} (notBackslash : c ≠ '\\') (notQuote : c ≠ '"') (rest : List Char) :
    symbols (c :: rest) = plain c :: symbols rest := by
  rw [symbols, if_neg notBackslash, if_neg notQuote, plain]
  split <;> rfl

theorem backslashes_succ (n : Nat) : backslashes (n + 1) = backslashes n ++ [.literal '\\'] :=
  List.replicate_succ'

theorem takeWhile_run (n : Nat) {rest : List Char} (ends : rest.head? ≠ some '\\') :
    (List.replicate n '\\' ++ rest).takeWhile (· = '\\') = List.replicate n '\\' := by
  rw [List.takeWhile_append_of_pos (by simp)]
  cases rest with
  | nil => simp
  | cons c cs => simp_all

theorem dropWhile_run (n : Nat) {rest : List Char} (ends : rest.head? ≠ some '\\') :
    (List.replicate n '\\' ++ rest).dropWhile (· = '\\') = rest := by
  rw [List.dropWhile_append_of_pos (by simp)]
  cases rest with
  | nil => rfl
  | cons c cs => simp_all

/-- Backslashes before a quote are halved, and an odd one out makes the quote literal. -/
theorem symbols_run_quote (n : Nat) (rest : List Char) :
    symbols (List.replicate n '\\' ++ '"' :: rest) = escaped n ++ symbols rest := by
  cases n with
  | zero => simp [escaped, backslashes]
  | succ n =>
    have ends : ('"' :: rest).head? ≠ some '\\' := by simp
    rw [List.replicate_succ, List.cons_append, symbols, if_pos rfl, takeWhile_run n ends,
      List.length_replicate]
    split
    next tail eq =>
      rw [dropWhile_run n ends] at eq
      rw [(List.cons.inj eq).2]
    next other => exact absurd (dropWhile_run n ends) (other rest)

/-- Backslashes before anything else are what they are. -/
theorem symbols_run (n : Nat) {rest : List Char} (ends : rest.head? ≠ some '\\')
    (unquoted : rest.head? ≠ some '"') :
    symbols (List.replicate n '\\' ++ rest) = backslashes n ++ symbols rest := by
  cases n with
  | zero => rfl
  | succ n =>
    rw [List.replicate_succ, List.cons_append, symbols, if_pos rfl, takeWhile_run n ends,
      List.length_replicate]
    split
    next tail eq =>
      rw [dropWhile_run n ends] at eq
      simp [eq] at unquoted
    next => rw [dropWhile_run n ends]

end Overseer.Arguments
