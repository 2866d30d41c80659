import Overseer.Proofs.Arguments.Symbols

/-!
Argument strings read one character at a time. A scanner never looks ahead: it counts backslashes,
and decides what they stand for when another character comes or when the string ends. That comes to
the same as looking past whole runs of them.
-/
namespace Overseer.Arguments

structure Scanner where
  /-- Backslashes of which it is not known yet what they stand for. -/
  pending : Nat := 0
  inToken : Bool := false
  quoted : Bool := false
  /-- The characters of the open argument. -/
  current : List Char := []
  /-- The arguments that were ended. -/
  arguments : List String := []
  deriving DecidableEq, Repr

namespace Scanner

def append (s : Scanner) (cs : List Char) : Scanner :=
  { s with inToken := true, current := s.current ++ cs }

def emit (s : Scanner) (n : Nat) : Scanner :=
  if n = 0 then s else s.append (List.replicate n '\\')

def flush (s : Scanner) : Scanner :=
  { s.emit s.pending with pending := 0 }

def close (s : Scanner) : Scanner :=
  if s.inToken then
    { s with
      inToken := false, current := []
      arguments := s.arguments ++ [String.ofList s.current] }
  else s

/-- Half of the pending backslashes are literal, and so is the quote if there is an odd one out. -/
def quote (s : Scanner) : Scanner :=
  let half := { s.emit (s.pending / 2) with pending := 0 }
  if s.pending % 2 = 1 then half.append ['"']
  else { half with quoted := !s.quoted, inToken := true }

def step (s : Scanner) (c : Char) : Scanner :=
  if c = '\\' then { s with pending := s.pending + 1 }
  else if c = '"' then s.quote
  else if Text.isBlank c && !s.quoted then s.flush.close
  else s.flush.append [c]

def read (s : Scanner) (cs : List Char) : Scanner := cs.foldl step s

def finish (s : Scanner) : List String := s.flush.close.arguments

variable {s : Scanner}

theorem read_concat (s : Scanner) (cs : List Char) (c : Char) :
    s.read (cs ++ [c]) = (s.read cs).step c := by
  simp [read]

@[simp] theorem step_backslash : s.step '\\' = { s with pending := s.pending + 1 } := rfl

@[simp] theorem step_quote : s.step '"' = s.quote := rfl

theorem step_blank {c : Char} (blank : Text.isBlank c = true) (unquoted : s.quoted = false) :
    s.step c = s.flush.close := by
  have notBackslash : c ≠ '\\' := by rintro rfl; contradiction
  have notQuote : c ≠ '"' := by rintro rfl; contradiction
  simp [step, notBackslash, notQuote, blank, unquoted]

theorem step_plain {c : Char} (notBackslash : c ≠ '\\') (notQuote : c ≠ '"')
    (goesOn : (Text.isBlank c && !s.quoted) = false) : s.step c = s.flush.append [c] := by
  simp [step, notBackslash, notQuote, goesOn]

@[simp] theorem quoted_emit (n : Nat) : (s.emit n).quoted = s.quoted := by
  unfold emit
  split <;> rfl

@[simp] theorem arguments_emit (n : Nat) : (s.emit n).arguments = s.arguments := by
  unfold emit
  split <;> rfl

@[simp] theorem inToken_emit (n : Nat) :
    (s.emit n).inToken = (s.inToken || decide (0 < n)) := by
  unfold emit
  split
  next none => simp [none]
  next some => simp [append, Nat.pos_of_ne_zero some]

@[simp] theorem current_emit (n : Nat) :
    (s.emit n).current = s.current ++ List.replicate n '\\' := by
  unfold emit
  split
  next none => simp [none]
  next => rfl

@[simp] theorem quoted_flush : s.flush.quoted = s.quoted := quoted_emit _

@[simp] theorem arguments_flush : s.flush.arguments = s.arguments := arguments_emit _

/-- There are characters only of an open argument, and quotes are open only within one. -/
structure Sane (s : Scanner) : Prop where
  empty : s.inToken = false → s.current = []
  inside : s.quoted = true → s.inToken = true

theorem sane_empty : Sane {} := ⟨fun _ => rfl, fun quoted => by contradiction⟩

theorem sane_of_inToken (opened : s.inToken = true) : s.Sane :=
  ⟨fun closed => by simp [opened] at closed, fun _ => opened⟩

theorem Sane.emit (sane : s.Sane) (n : Nat) : (s.emit n).Sane := by
  unfold Scanner.emit
  split
  · exact sane
  · exact sane_of_inToken rfl

theorem Sane.flush (sane : s.Sane) : s.flush.Sane :=
  ⟨(sane.emit s.pending).empty, (sane.emit s.pending).inside⟩

/-- Nothing but the arguments is left of a scanner whose argument was ended. -/
theorem Sane.close_eq (sane : s.Sane) (settled : s.pending = 0) (unquoted : s.quoted = false) :
    s.close = { arguments := s.close.arguments } := by
  obtain ⟨pending, inToken, quoted, current, arguments⟩ := s
  subst settled unquoted
  cases inToken with
  | true => rfl
  | false =>
    obtain rfl : current = [] := sane.empty rfl
    rfl

theorem Sane.step (sane : s.Sane) (c : Char) : (s.step c).Sane := by
  unfold Scanner.step
  split
  · exact ⟨sane.empty, sane.inside⟩
  split
  · unfold quote
    dsimp only
    split <;> exact sane_of_inToken rfl
  split
  next outside =>
    have unquoted : s.flush.quoted = false := by simp_all
    unfold close
    split
    · exact ⟨fun _ => rfl, fun quoted => Bool.noConfusion (unquoted.symm.trans quoted)⟩
    · exact sane.flush
  · exact sane_of_inToken rfl

theorem Sane.read (sane : s.Sane) (cs : List Char) : (s.read cs).Sane := by
  induction cs generalizing s with
  | nil => exact sane
  | cons c cs ih => exact ih (sane.step c)

def token (s : Scanner) : Option (List Char) :=
  if s.inToken then some s.current.reverse else none

/-- What comes of a scanner if the rest is read by whole runs. -/
def outcome (s : Scanner) (cs : List Char) : List String :=
  s.arguments ++ group s.token s.quoted (symbols (List.replicate s.pending '\\' ++ cs))

theorem Sane.getD_token (sane : s.Sane) : s.token.getD [] = s.current.reverse := by
  unfold token
  split
  · rfl
  next closed => simp [sane.empty (by simpa using closed)]

theorem group_literal (sane : s.Sane) (quoted : Bool) (c : Char) (rest : List Symbol) :
    group s.token quoted (.literal c :: rest) = group (s.append [c]).token quoted rest := by
  rw [group, sane.getD_token]
  simp [token, append]

theorem group_backslashes (sane : s.Sane) (quoted : Bool) (n : Nat) (rest : List Symbol) :
    group s.token quoted (backslashes n ++ rest) = group (s.emit n).token quoted rest := by
  induction n generalizing rest with
  | zero => rfl
  | succ n ih =>
    have one : (s.emit n).append ['\\'] = s.emit (n + 1) := by
      unfold emit
      split
      next none => simp [none]
      next => simp [append, List.replicate_succ']
    rw [backslashes_succ, List.append_assoc, ih, ← one]
    exact group_literal (sane.emit n) quoted '\\' rest

/-- A quote opens an argument, whatever it stands for. -/
theorem group_quote (sane : s.Sane) (rest : List Symbol) :
    group s.token s.quoted (escaped s.pending ++ rest) =
      group s.quote.token s.quote.quoted rest := by
  have half := sane.emit (s.pending / 2)
  rw [escaped, List.append_assoc, group_backslashes sane]
  unfold quote
  split
  next odd =>
    rw [List.singleton_append, group_literal half]
    simp [append, token]
  next even =>
    rw [List.singleton_append, group, half.getD_token]
    simp [token]

theorem outcome_flush (sane : s.Sane) {cs : List Char} (ends : cs.head? ≠ some '\\')
    (unquoted : cs.head? ≠ some '"') : s.flush.outcome cs = s.outcome cs := by
  rw [outcome, outcome, symbols_run s.pending ends unquoted, group_backslashes sane]
  simp [flush, token]

/-- Whatever a character makes of the backslashes before it, a look past the run sees as well. -/
theorem outcome_step (sane : s.Sane) (c : Char) (cs : List Char) :
    (s.step c).outcome cs = s.outcome (c :: cs) := by
  by_cases backslash : c = '\\'
  · subst backslash
    have run : List.replicate (s.pending + 1) '\\' ++ cs =
        List.replicate s.pending '\\' ++ '\\' :: cs := by simp [List.replicate_succ']
    exact congrArg (fun rest => s.arguments ++ group s.token s.quoted (symbols rest)) run
  by_cases quote : c = '"'
  · subst quote
    rw [step_quote, outcome, outcome, symbols_run_quote, group_quote sane]
    unfold Scanner.quote
    dsimp only
    split <;> simp [append]
  -- Anything else finds no backslashes pending once they are flushed.
  rw [← outcome_flush sane (by simpa using backslash) (by simpa using quote)]
  have none : s.flush.pending = 0 := rfl
  have flushed : s.flush.outcome (c :: cs) =
      s.arguments ++ group s.flush.token s.quoted (plain c :: symbols cs) := by
    rw [outcome, none, List.replicate_zero, List.nil_append, symbols_plain backslash quote,
      arguments_flush, quoted_flush]
  rw [flushed]
  cases separates : Text.isBlank c && !s.quoted with
  | true =>
    obtain ⟨blank, unquoted⟩ : Text.isBlank c = true ∧ s.quoted = false := by simpa using separates
    rw [step_blank blank unquoted, plain, if_pos blank]
    cases inToken : s.flush.inToken <;>
      simp [close, inToken, outcome, none, token, group, unquoted]
  | false =>
    rw [step_plain backslash quote separates]
    have goesOn : group s.flush.token s.quoted (plain c :: symbols cs) =
        group (s.flush.append [c]).token s.quoted (symbols cs) := by
      rw [← group_literal sane.flush]
      unfold plain
      split
      next blank =>
        have quoted : s.quoted = true := by simpa [blank] using separates
        simp [group, quoted]
      next => rfl
    rw [goesOn]
    simp [outcome, append, none]

theorem outcome_nil (sane : s.Sane) : s.outcome [] = s.finish := by
  have none : s.flush.pending = 0 := rfl
  rw [← outcome_flush sane (by simp) (by simp), outcome, finish, none, token, close]
  split <;> simp [group]

/-- White space outside quotes ends whatever came before it. -/
theorem step_separator (sane : s.Sane) {c : Char} (blank : Text.isBlank c = true)
    (unquoted : s.quoted = false) : s.step c = { arguments := s.finish } := by
  rw [step_blank blank unquoted]
  exact sane.flush.close_eq rfl (quoted_flush.trans unquoted)

theorem outcome_arguments (arguments : List String) (cs : List Char) :
    outcome { arguments } cs = arguments ++ split (String.ofList cs) := by
  rw [split, String.toList_ofList]
  rfl

theorem outcome_read (sane : s.Sane) (cs rest : List Char) :
    (s.read cs).outcome rest = s.outcome (cs ++ rest) := by
  induction cs generalizing s with
  | nil => rfl
  | cons c cs ih => exact (ih (sane.step c)).trans (outcome_step sane c (cs ++ rest))

end Scanner

def scanner (a : String) : Scanner := Scanner.read {} a.toList

theorem sane_scanner (a : String) : (scanner a).Sane := Scanner.sane_empty.read _

theorem outcome_scanner (a : String) (rest : List Char) :
    (scanner a).outcome rest = split (a ++ String.ofList rest) := by
  rw [scanner, Scanner.outcome_read Scanner.sane_empty, split, String.toList_append,
    String.toList_ofList]
  rfl

/-- A scanner reads a string as whole runs do. -/
theorem finish_scanner (a : String) : (scanner a).finish = split a := by
  rw [← Scanner.outcome_nil (sane_scanner a), outcome_scanner, String.ofList_nil,
    String.append_empty]

end Overseer.Arguments
