import Overseer.Proofs.Arguments.Symbols

/-!
Reading an argument string that was written gives back the list of arguments. The invariant is
that backslashes which the writer still holds back are those that the reader finds before what
follows.
-/
namespace Overseer.Arguments

/-- Held-back backslashes and what follows them are read as the backslashes themselves, if the writer
doubles them before a closing quote. -/
def Closes (closing : Bool) (rest : List Char) : Prop :=
  ∀ n, symbols (List.replicate (if closing then n * 2 else n) '\\' ++ rest) =
    backslashes n ++ symbols rest

theorem closes_quote (rest : List Char) : Closes true ('"' :: rest) := by
  intro n
  have half : n * 2 / 2 = n := by omega
  rw [if_pos rfl, symbols_run_quote, symbols_quote]
  simp [escaped, half]

theorem closes_bare {rest : List Char} (ends : rest.head? ≠ some '\\')
    (unquoted : rest.head? ≠ some '"') : Closes false rest :=
  fun n => symbols_run n ends unquoted

/-- Every character that was written is read as itself, whatever came before it. -/
theorem symbols_escape {closing : Bool} {rest : List Char} (closes : Closes closing rest)
    (argument : List Char) (n : Nat) :
    symbols (escape closing n argument ++ rest) =
      backslashes n ++ argument.map plain ++ symbols rest := by
  induction argument generalizing n with
  | nil => simpa [escape] using closes n
  | cons c cs ih =>
    by_cases backslash : c = '\\'
    · subst c
      simp [escape, ih, backslashes_succ]
    by_cases quote : c = '"'
    · subst c
      have half : (n * 2 + 1) / 2 = n := by omega
      have odd : (n * 2 + 1) % 2 = 1 := by omega
      rw [escape, if_neg backslash, if_pos rfl, List.append_assoc, List.cons_append,
        symbols_run_quote, ih 0]
      simp [escaped, half, odd, backslashes]
    · have ends : (c :: (escape closing 0 cs ++ rest)).head? ≠ some '\\' := by simpa using backslash
      have unquoted : (c :: (escape closing 0 cs ++ rest)).head? ≠ some '"' := by simpa using quote
      rw [escape, if_neg backslash, if_neg quote, List.append_assoc, List.cons_append,
        symbols_run n ends unquoted, symbols_plain backslash quote, ih 0]
      simp [backslashes]

/-- Inside quotes all characters go on with the open argument. -/
theorem group_quoted (token argument : List Char) (rest : List Symbol) :
    group (some token) true (argument.map plain ++ rest) =
      group (some (argument.reverse ++ token)) true rest := by
  induction argument generalizing token with
  | nil => rfl
  | cons c cs ih =>
    have step : group (some token) true (plain c :: (cs.map plain ++ rest)) =
        group (some (c :: token)) true (cs.map plain ++ rest) := by
      unfold plain
      split <;> simp [group]
    simp [step, ih]

/-- Outside quotes those that are not white space do. -/
theorem group_bare (token argument : List Char) (rest : List Symbol)
    (solid : ∀ c ∈ argument, Text.isBlank c = false) :
    group (some token) false (argument.map plain ++ rest) =
      group (some (argument.reverse ++ token)) false rest := by
  induction argument generalizing token with
  | nil => rfl
  | cons c cs ih =>
    have literal : plain c = .literal c := by simp [plain, solid c]
    have later := ih (c :: token) fun d member => solid d (List.mem_cons_of_mem c member)
    simp [literal, group, later]

def Separated (rest : List Char) : Prop :=
  rest = [] ∨ ∃ tail, rest = ' ' :: tail

theorem Separated.closes {rest : List Char} (separated : Separated rest) : Closes false rest := by
  rcases separated with rfl | ⟨tail, rfl⟩
  · exact closes_bare (by simp) (by simp)
  · exact closes_bare (by simp) (by simp)

theorem group_write (argument : String) {rest : List Char} (separated : Separated rest) :
    group none false (symbols (write argument.toList ++ rest)) =
      group (some argument.toList.reverse) false (symbols rest) := by
  unfold write
  split
  next quotes =>
    have inside := symbols_escape (closes_quote rest) argument.toList 0
    simp [inside, backslashes, group, group_quoted]
  next bare =>
    have inside := symbols_escape separated.closes argument.toList 0
    obtain ⟨nonempty, solid⟩ : argument.toList ≠ [] ∧
        ∀ c ∈ argument.toList, Text.isBlank c = false := by
      simpa [needsQuotes] using bare
    obtain ⟨c, cs, eq⟩ := List.exists_cons_of_ne_nil nonempty
    rw [eq] at inside solid ⊢
    have literal : plain c = .literal c := by simp [plain, solid c]
    have later := group_bare [c] cs (symbols rest)
      fun d member => solid d (List.mem_cons_of_mem c member)
    simp [inside, backslashes, literal, group, later]

/-- The characters of a joined list are the first argument and, after a blank, the others. -/
theorem toList_join_cons (argument next : String) (others : List String) :
    (join (argument :: next :: others)).toList =
      write argument.toList ++ ' ' :: (join (next :: others)).toList := by
  simp [join, List.intercalate]

theorem group_join (arguments : List String) :
    group none false (symbols (join arguments).toList) = arguments := by
  induction arguments with
  | nil => simp [join, List.intercalate, group]
  | cons argument others ih =>
    cases others with
    | nil =>
      have alone : (join [argument]).toList = write argument.toList ++ [] := by
        simp [join, List.intercalate]
      rw [alone, group_write argument (.inl rfl)]
      simp [group]
    | cons next others =>
      have separator : symbols (' ' :: (join (next :: others)).toList) =
          .blank ' ' :: symbols (join (next :: others)).toList :=
        symbols_plain (by decide) (by decide) _
      rw [toList_join_cons, group_write argument (.inr ⟨_, rfl⟩), separator]
      simp [group, ih]

/-- Writing a list of arguments and reading it gives back the list, whatever white space, quotes and
runs of backslashes its arguments hold. -/
theorem split_join (arguments : List String) : split (join arguments) = arguments :=
  group_join arguments

end Overseer.Arguments
