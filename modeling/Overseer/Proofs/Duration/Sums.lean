import Overseer.Proofs.Duration.Spelling

/-!
Sums of terms. A text is read as the terms that it is spelled of, each added to those before it.
-/
namespace Overseer.Duration

open TimeUnit (Scale)

/-- Reads on where a term may begin, with what the terms before it came to. -/
def readOn (d : Duration) (offset : Nat) (text : List Char) (steps : Nat) : Outcome Duration := do
  match ← firstDigit? offset offset text with
  | none => .ok d
  | some (digit, at_) => readTerms d digit at_ steps

variable {c : Char} {cs gap text later rest : List Char} {d : Duration} {t : Term}
  {terms : List Term} {offset steps start : Nat}

theorem readTerms_succ (d : Duration) (digit : Nat) (at_ : Cursor) (steps : Nat) :
    readTerms d digit at_ (steps + 1) =
      readTerm digit at_ >>= fun read =>
        d.addTerm read.1 >>= fun d =>
          readOn d (afterUnit read.2).offset (afterUnit read.2).rest steps := rfl

theorem firstDigit?_digit {n : Nat} (digit : Text.digit? c = some n) (start offset : Nat)
    (cs : List Char) :
    firstDigit? start offset (c :: cs) = .ok (some (n, ⟨offset + 1, cs⟩)) := by
  rw [firstDigit?, digit]

theorem firstDigit?_blank (blank : Text.isBlank c = true) (start offset : Nat) (cs : List Char) :
    firstDigit? start offset (c :: cs) = firstDigit? start (offset + c.utf8Size) cs := by
  rw [firstDigit?, Text.digit?_eq_none (not_ascii_of_isBlank blank)]
  exact if_pos blank

theorem exists_firstDigit? (blank : ∀ c ∈ gap, Text.isBlank c = true) (start offset : Nat) :
    ∃ after, ∀ cs, firstDigit? start offset (gap ++ cs) = firstDigit? start after cs := by
  induction gap generalizing offset with
  | nil => exact ⟨offset, fun _ => rfl⟩
  | cons c gap ih =>
    obtain ⟨here, later⟩ := List.forall_mem_cons.mp blank
    obtain ⟨after, skipped⟩ := ih later (offset + c.utf8Size)
    exact ⟨after, fun cs => (firstDigit?_blank here start offset (gap ++ cs)).trans (skipped cs)⟩

theorem firstDigit?_eq_some {n : Nat} {at_ : Cursor}
    (first : firstDigit? start offset cs = .ok (some (n, at_))) :
    ∃ gap c, cs = gap ++ c :: at_.rest ∧ (∀ c ∈ gap, Text.isBlank c = true) ∧
      Text.digit? c = some n := by
  induction cs generalizing offset with
  | nil => cases first
  | cons c cs ih =>
    cases digit : Text.digit? c with
    | some m =>
      rw [firstDigit?_digit digit] at first
      cases first
      exact ⟨[], c, rfl, nofun, digit⟩
    | none =>
      by_cases blank : Text.isBlank c = true
      · rw [firstDigit?_blank blank] at first
        obtain ⟨gap, c', rfl, all, digit⟩ := ih first
        exact ⟨c :: gap, c', rfl, List.forall_mem_cons.mpr ⟨blank, all⟩, digit⟩
      · rw [firstDigit?, digit] at first
        simp [blank] at first

def Shortened (cs cs' : List Char) : Prop :=
  cs' = cs ∨ ∃ c, Text.isBlank c = true ∧ cs = c :: cs'

theorem shortened_afterUnit (at_ : Cursor) : Shortened at_.rest (afterUnit at_).rest := by
  obtain ⟨offset, rest⟩ := at_
  unfold afterUnit
  cases rest with
  | nil => exact .inl rfl
  | cons c cs =>
    by_cases blank : Text.isBlank c = true
    · exact .inr ⟨c, blank, by simp [blank]⟩
    · exact .inl (by simp [blank])

theorem Spells.exists_cons (spells : Spells t text) :
    ∃ c n tail, text = c :: tail ∧ Text.digit? c = some n := by
  have first {number : List Char} {n : Nat} (is : Number n number) (tail : List Char) :
      ∃ c n rest, number ++ tail = c :: rest ∧ Text.digit? c = some n := by
    cases number with
    | nil => exact absurd rfl is.nonempty
    | cons c number => exact ⟨c, _, _, rfl, Text.digit?_of_ascii (is.first c rfl)⟩
  cases spells with
  | whole is letters => exact first is _
  | fraction is and letters =>
    rw [List.append_assoc]
    exact first is _

theorem Shortened.begins {later' : List Char} (short : Shortened later later')
    (begins : Begins (t :: terms) later rest) : Begins (t :: terms) later' rest := by
  rcases short with rfl | ⟨b, blank, rfl⟩
  · exact begins
  generalize whole : b :: later' = all at begins
  cases begins with
  | @cons _ _ gap text later _ all spells ends more =>
    cases gap with
    | nil =>
      obtain ⟨c, n, tail, rfl, digit⟩ := spells.exists_cons
      obtain ⟨rfl, _⟩ := List.cons.inj whole
      rw [Text.digit?_eq_none (not_ascii_of_isBlank blank)] at digit
      cases digit
    | cons c gap =>
      obtain ⟨_, rfl⟩ := List.cons.inj whole
      exact .cons (List.forall_mem_cons.mp all).2 spells ends more

theorem Shortened.begun {later' : List Char} (short : Shortened later later')
    (begins : Begins (t :: terms) later' rest) : Begins (t :: terms) later rest := by
  rcases short with rfl | ⟨c, blank, rfl⟩
  · exact begins
  · cases begins with
    | @cons _ _ gap _ _ _ all spells ends more =>
      have whole : ∀ c' ∈ c :: gap, Text.isBlank c' = true := List.forall_mem_cons.mpr ⟨blank, all⟩
      exact .cons whole spells ends more

theorem Shortened.length_le {later' : List Char} (short : Shortened later later') :
    later'.length ≤ later.length := by
  rcases short with rfl | ⟨c, _, rfl⟩
  · exact Nat.le_refl _
  · exact Nat.le_succ _

def addTerms (d : Duration) (terms : List Term) : Outcome Duration := terms.foldlM addTerm d

theorem addTerms_cons (d : Duration) (t : Term) (terms : List Term) :
    d.addTerms (t :: terms) = d.addTerm t >>= fun d => d.addTerms terms :=
  List.foldlM_cons

theorem addTerms_eq (d : Duration) (terms : List Term) :
    d.addTerms terms = d.addParts (terms.flatMap Term.parts) := by
  induction terms generalizing d with
  | nil => rfl
  | cons t terms ih =>
    rw [addTerms_cons, List.flatMap_cons, addParts_append, addTerm_eq]
    exact bind_congr ih

/-- A term that is spelled at the front is added before anything else is read. -/
theorem readOn_cons (blank : ∀ c ∈ gap, Text.isBlank c = true) (spells : Spells t text)
    (ends : Ends t later) (offset steps : Nat) :
    ∃ offset' later', Shortened later later' ∧ ∀ d,
      readOn d offset (gap ++ text ++ later) (steps + 1) =
        d.addTerm t >>= fun d => readOn d offset' later' steps := by
  obtain ⟨c, n, tail, rfl, digit⟩ := spells.exists_cons
  obtain ⟨begun, skipped⟩ := exists_firstDigit? blank offset offset
  obtain ⟨ended, read⟩ := spells.exists_readTerm digit ends (begun + 1)
  refine ⟨(afterUnit ⟨ended, later⟩).offset, _, shortened_afterUnit ⟨ended, later⟩, fun d => ?_⟩
  rw [readOn, List.append_assoc, skipped, List.cons_append, firstDigit?_digit digit]
  change readTerms d n ⟨begun + 1, tail ++ later⟩ (steps + 1) = _
  rw [readTerms_succ, read]
  rfl

/-- All terms that a text begins with are added. -/
theorem readOn_begins (begins : Begins terms text rest) (enough : text.length < steps)
    (offset : Nat) :
    ∃ offset' rest' steps', Shortened rest rest' ∧ ∀ d,
      readOn d offset text steps =
        d.addTerms terms >>= fun d => readOn d offset' rest' steps' := by
  induction terms generalizing text offset steps with
  | nil =>
    cases begins
    exact ⟨offset, _, steps, .inl rfl, fun d => rfl⟩
  | cons t terms ih =>
    cases begins with
    | @cons _ _ gap first later _ blank spells ends more =>
      obtain ⟨steps, rfl⟩ := Nat.exists_eq_add_one_of_ne_zero (Nat.ne_zero_of_lt enough)
      obtain ⟨offset', later', short, read⟩ := readOn_cons blank spells ends offset steps
      have enough' : later'.length < steps := by
        obtain ⟨_, _, _, rfl, _⟩ := spells.exists_cons
        have less := short.length_le
        simp only [List.length_append, List.length_cons] at enough
        omega
      simp only [read, addTerms_cons, bind_assoc]
      cases terms with
      | nil =>
        cases more
        exact ⟨offset', later', steps, short, fun d => rfl⟩
      | cons t' terms =>
        obtain ⟨offset'', rest', steps', short', read'⟩ := ih (short.begins more) enough' offset'
        exact ⟨offset'', rest', steps', short', fun d => bind_congr read'⟩

/-- A text that holds terms and nothing else. -/
theorem readOn_whole (begins : Begins terms text rest)
    (blank : ∀ c ∈ rest, Text.isBlank c = true) (enough : text.length < steps) (offset : Nat)
    (d : Duration) : readOn d offset text steps = d.addTerms terms := by
  obtain ⟨offset', rest', steps', short, read⟩ := readOn_begins begins enough offset
  have blank' : ∀ c ∈ rest', Text.isBlank c = true := by
    rcases short with rfl | ⟨c, _, rfl⟩
    · exact blank
    · exact (List.forall_mem_cons.mp blank).2
  obtain ⟨after, skipped⟩ := exists_firstDigit? blank' offset' offset'
  have nothing (d : Duration) : readOn d offset' rest' steps' = .ok d := by
    rw [readOn, ← List.append_nil rest', skipped]
    rfl
  simp only [read, nothing]
  exact bind_pure _

theorem ofTerms_of_first {n : Nat} {at_ : Cursor} {s : String}
    (first : firstDigit? 0 0 s.toList = .ok (some (n, at_))) :
    ofTerms s = readOn zero 0 s.toList (s.toList.length + 1) := by
  rw [ofTerms, readOn, first, String.length_toList]
  rfl

theorem Begins.exists_firstDigit? (begins : Begins (t :: terms) text rest) :
    ∃ read, firstDigit? 0 0 text = .ok (some read) := by
  cases begins with
  | @cons _ _ gap first later _ blank spells ends more =>
    obtain ⟨c, n, tail, rfl, digit⟩ := spells.exists_cons
    obtain ⟨after, skipped⟩ := Duration.exists_firstDigit? blank 0 0
    rw [List.append_assoc, skipped, List.cons_append, firstDigit?_digit digit]
    exact ⟨_, rfl⟩

/-- A text of terms comes to what they come to when they are added. -/
theorem ofTerms_whole {s : String} (begins : Begins (t :: terms) s.toList rest)
    (blank : ∀ c ∈ rest, Text.isBlank c = true) :
    ofTerms s = zero.addParts ((t :: terms).flatMap Term.parts) := by
  obtain ⟨_, first⟩ := begins.exists_firstDigit?
  rw [ofTerms_of_first first, readOn_whole begins blank (Nat.lt_succ_self _), addTerms_eq]

/-- A text with a letter in it is no plain number. -/
theorem ofText_of_letter {s : String} (there : c ∈ s.toList) (letter : isUnitLetter c = true) :
    ofText s = ofTerms s := by
  unfold ofText
  split
  next n read =>
    obtain ⟨digits, is, spelled⟩ := (Text.parseNatural_eq_ok_iff.mp read).1
    have other := (not_spread_of_isUnitLetter letter).1
    rcases spelled with spelled | spelled
    · exact absurd (is.ascii c (spelled ▸ there)) other
    · rw [spelled] at there
      rcases List.mem_cons.mp there with rfl | among
      · cases letter
      · exact absurd (is.ascii c among) other
  next => rfl

end Overseer.Duration
