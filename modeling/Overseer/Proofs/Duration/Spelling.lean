import Overseer.Proofs.Duration.Amounts
import Overseer.Proofs.Text.Numerals

/-!
How terms of a length of time are spelled: a number, whose digits may stand apart, perhaps a
fraction, and the letters of a unit. The reader takes terms from the front of a text just as they
are spelled there.
-/
namespace Overseer.Duration

def Spread (cs : List Char) : Prop :=
  ∀ c ∈ cs, Text.isBlank c = true ∨ '0' ≤ c ∧ c ≤ '9'

def digitsOf (cs : List Char) : List Char := cs.filter fun c => !Text.isBlank c

/-- The number that is reached from `n` by appending digits to it. -/
def valueFrom (n : Nat) (cs : List Char) : Nat := Nat.ofDigitChars 10 (digitsOf cs) n

structure Number (n : Nat) (cs : List Char) : Prop where
  nonempty : cs ≠ []
  first : ∀ c ∈ cs.head?, '0' ≤ c ∧ c ≤ '9'
  spread : Spread cs
  value : valueFrom 0 cs = n
  fits : n ≤ greatest64

structure Decimals (f : Fraction) (cs : List Char) : Prop where
  spread : Spread cs
  some : digitsOf cs ≠ []
  numerator : valueFrom 0 cs = f.numerator
  denominator : 10 ^ (digitsOf cs).length = f.denominator
  fits : f.numerator ≤ greatest64 ∧ f.denominator ≤ greatest64

def Letters (cs : List Char) : Prop := ∀ c ∈ cs, isUnitLetter c = true

inductive Spells : Term → List Char → Prop where
  | whole {n : Nat} {number name : List Char} (is : Number n number) (letters : Letters name) :
      Spells ⟨n, none, String.ofList name⟩ (number ++ name)
  | fraction {n : Nat} {f : Fraction} {number decimals name : List Char} (is : Number n number)
      (and : Decimals f decimals) (letters : Letters name) :
      Spells ⟨n, some f, String.ofList name⟩ (number ++ '.' :: decimals ++ name)

/-- What may come after a term. Without a unit it is the last. -/
structure Ends (t : Term) (rest : List Char) : Prop where
  spread : ∀ c ∈ rest.head?, Text.isBlank c = true ∨ '0' ≤ c ∧ c ≤ '9'
  last : t.unit = "" → rest = []

/-- A text begins with terms, and a rest comes after them. -/
inductive Begins : List Term → List Char → List Char → Prop where
  | nil (rest : List Char) : Begins [] rest rest
  | cons {t : Term} {terms : List Term} {gap text later rest : List Char}
      (blank : ∀ c ∈ gap, Text.isBlank c = true) (spells : Spells t text) (ends : Ends t later)
      (more : Begins terms later rest) : Begins (t :: terms) (gap ++ text ++ later) rest

theorem not_spread_of_isUnitLetter {c : Char} (letter : isUnitLetter c = true) :
    ¬('0' ≤ c ∧ c ≤ '9') ∧ Text.isBlank c = false ∧ c ≠ '.' := by
  simp only [isUnitLetter, Bool.or_eq_true, Bool.and_eq_true, decide_eq_true_eq, Char.le_def,
    UInt32.le_iff_toNat_le] at letter
  simp only [Text.isBlank, Char.le_def, UInt32.le_iff_toNat_le, Bool.or_eq_false_iff,
    Bool.and_eq_false_iff, decide_eq_false_iff_not, beq_eq_false_iff_ne, Char.toNat, ne_eq,
    Char.ext_iff, ← UInt32.toNat_inj] at *
  simp at *
  omega

theorem digit?_of_isUnitLetter {c : Char} (letter : isUnitLetter c = true) :
    Text.digit? c = none :=
  Text.digit?_eq_none (not_spread_of_isUnitLetter letter).1

variable {c : Char} {cs front rest : List Char} {n m : Nat}

theorem valueFrom_digit (ascii : '0' ≤ c ∧ c ≤ '9') (n : Nat) (cs : List Char) :
    valueFrom n (c :: cs) = valueFrom (n * 10 + (c.toNat - '0'.toNat)) cs := by
  rw [valueFrom, digitsOf, List.filter_cons_of_pos (by simp [Text.isBlank_of_ascii ascii]),
    Nat.ofDigitChars_cons, Nat.mul_comm]
  rfl

theorem valueFrom_blank (blank : Text.isBlank c = true) (n : Nat) (cs : List Char) :
    valueFrom n (c :: cs) = valueFrom n cs := by
  rw [valueFrom, digitsOf, List.filter_cons_of_neg (by simp [blank])]
  rfl

theorem le_valueFrom (n : Nat) (cs : List Char) : n ≤ valueFrom n cs :=
  Text.le_ofDigitChars n _

theorem digitsOf_of_ascii (ascii : ∀ c ∈ cs, '0' ≤ c ∧ c ≤ '9') : digitsOf cs = cs :=
  List.filter_eq_self.mpr fun c member => by simp [Text.isBlank_of_ascii (ascii c member)]

def EndsNumber (rest : List Char) : Prop :=
  ∀ c ∈ rest.head?, isUnitLetter c = true ∨ c = '.'

theorem wholePart_ends (ends : EndsNumber rest) (n offset : Nat) :
    wholePart n offset rest = .ok (n, ⟨offset, rest⟩) := by
  cases rest with
  | nil => rfl
  | cons c rest =>
    obtain letter | rfl := ends c rfl
    · rw [wholePart, digit?_of_isUnitLetter letter]
      simp [(not_spread_of_isUnitLetter letter).2.1, letter]
    · rfl

theorem wholePart_digit (ascii : '0' ≤ c ∧ c ≤ '9') (n offset : Nat) (cs : List Char) :
    wholePart n offset (c :: cs) =
      checked (n * 10 + (c.toNat - '0'.toNat)) >>= fun n => wholePart n (offset + 1) cs := by
  rw [wholePart, Text.digit?_of_ascii ascii]
  rfl

theorem not_ascii_of_isBlank (blank : Text.isBlank c = true) : ¬('0' ≤ c ∧ c ≤ '9') := by
  intro ascii
  rw [Text.isBlank_of_ascii ascii] at blank
  cases blank

theorem wholePart_blank (blank : Text.isBlank c = true) (n offset : Nat) (cs : List Char) :
    wholePart n offset (c :: cs) = wholePart n (offset + c.utf8Size) cs := by
  rw [wholePart, Text.digit?_eq_none (not_ascii_of_isBlank blank)]
  exact if_pos blank

/-- Digits are read up to the end of a number that fits. -/
theorem exists_wholePart (spread : Spread cs) (fits : valueFrom n cs ≤ greatest64) (offset : Nat)
    (rest : List Char) :
    ∃ after, wholePart n offset (cs ++ rest) = wholePart (valueFrom n cs) after rest := by
  induction cs generalizing n offset with
  | nil => exact ⟨offset, rfl⟩
  | cons c cs ih =>
    obtain ⟨here, later⟩ := List.forall_mem_cons.mp spread
    rw [List.cons_append]
    rcases here with blank | ascii
    · rw [valueFrom_blank blank] at fits ⊢
      rw [wholePart_blank blank]
      exact ih later fits _
    · rw [valueFrom_digit ascii] at fits ⊢
      rw [wholePart_digit ascii, checked_of_le (Nat.le_trans (le_valueFrom _ cs) fits)]
      exact ih later fits _

/-- A number that does not fit is refused, whatever comes after it. -/
theorem wholePart_beyond (spread : Spread cs) (small : n ≤ greatest64)
    (beyond : greatest64 < valueFrom n cs) (offset : Nat) (rest : List Char) :
    wholePart n offset (cs ++ rest) = .error .unrepresentable := by
  induction cs generalizing n offset with
  | nil => exact absurd small (Nat.not_le_of_lt beyond)
  | cons c cs ih =>
    obtain ⟨here, later⟩ := List.forall_mem_cons.mp spread
    rw [List.cons_append]
    rcases here with blank | ascii
    · rw [valueFrom_blank blank] at beyond
      rw [wholePart_blank blank]
      exact ih later small beyond _
    · rw [valueFrom_digit ascii] at beyond
      rw [wholePart_digit ascii]
      by_cases fits : n * 10 + (c.toNat - '0'.toNat) ≤ greatest64
      · rw [checked_of_le fits]
        exact ih later fits beyond _
      · rw [checked_of_lt (Nat.lt_of_not_le fits)]
        rfl

theorem wholePart_eq_ok {offset : Nat} {after : Cursor} (small : n ≤ greatest64)
    (read : wholePart n offset cs = .ok (m, after)) :
    ∃ front, cs = front ++ after.rest ∧ Spread front ∧ valueFrom n front = m ∧ m ≤ greatest64 ∧
      EndsNumber after.rest := by
  induction cs generalizing n offset with
  | nil =>
    obtain ⟨rfl, rfl⟩ := Prod.mk.inj (Except.ok.inj read)
    exact ⟨[], rfl, nofun, rfl, small, nofun⟩
  | cons c cs ih =>
    by_cases ascii : '0' ≤ c ∧ c ≤ '9'
    · rw [wholePart_digit ascii] at read
      obtain ⟨k, next, later⟩ := Except.bind_eq_ok_iff.mp read
      obtain ⟨fits, rfl⟩ := checked_eq_ok_iff.mp next
      obtain ⟨front, rfl, spread, value, rest⟩ := ih fits later
      exact ⟨c :: front, rfl, List.forall_mem_cons.mpr ⟨.inr ascii, spread⟩,
        (valueFrom_digit ascii n front).trans value, rest⟩
    by_cases blank : Text.isBlank c = true
    · rw [wholePart_blank blank] at read
      obtain ⟨front, rfl, spread, value, rest⟩ := ih small read
      exact ⟨c :: front, rfl, List.forall_mem_cons.mpr ⟨.inl blank, spread⟩,
        (valueFrom_blank blank n front).trans value, rest⟩
    · rw [wholePart, Text.digit?_eq_none ascii] at read
      simp only [blank, Bool.false_eq_true, if_false] at read
      split at read
      next ends =>
        obtain ⟨rfl, rfl⟩ := Prod.mk.inj (Except.ok.inj read)
        exact ⟨[], rfl, nofun, rfl, small, by simpa [EndsNumber] using ends⟩
      next => cases read

def EndsFraction (rest : List Char) : Prop :=
  ∀ c ∈ rest.head?, isUnitLetter c = true

def fractionFrom (f : Fraction) (cs : List Char) : Fraction :=
  ⟨valueFrom f.numerator cs, f.denominator * 10 ^ (digitsOf cs).length⟩

def Fraction.Fits (f : Fraction) : Prop :=
  f.numerator ≤ greatest64 ∧ f.denominator ≤ greatest64

variable {f : Fraction}

theorem fractionFrom_nil (f : Fraction) : fractionFrom f [] = f := by
  simp [fractionFrom, valueFrom, digitsOf]

theorem fractionFrom_digit (ascii : '0' ≤ c ∧ c ≤ '9') (f : Fraction) (cs : List Char) :
    fractionFrom f (c :: cs) =
      fractionFrom ⟨f.numerator * 10 + (c.toNat - '0'.toNat), f.denominator * 10⟩ cs := by
  simp only [fractionFrom, valueFrom_digit ascii]
  rw [digitsOf, List.filter_cons_of_pos (by simp [Text.isBlank_of_ascii ascii]),
    List.length_cons, Nat.pow_succ', Nat.mul_assoc]
  rfl

theorem fractionFrom_blank (blank : Text.isBlank c = true) (f : Fraction) (cs : List Char) :
    fractionFrom f (c :: cs) = fractionFrom f cs := by
  simp only [fractionFrom, valueFrom_blank blank]
  rw [digitsOf, List.filter_cons_of_neg (by simp [blank])]
  rfl

theorem Fraction.Fits.of_fractionFrom (fits : (fractionFrom f cs).Fits) : f.Fits :=
  ⟨Nat.le_trans (le_valueFrom _ cs) fits.1,
    Nat.le_trans (Nat.le_mul_of_pos_right _ (Nat.pow_pos (by decide))) fits.2⟩

theorem fractionPart_digit (ascii : '0' ≤ c ∧ c ≤ '9') (f : Fraction) (mark offset : Nat)
    (cs : List Char) :
    fractionPart f mark offset (c :: cs) =
      checked (f.numerator * 10 + (c.toNat - '0'.toNat)) >>= fun numerator =>
        checked (f.denominator * 10) >>= fun denominator =>
          fractionPart ⟨numerator, denominator⟩ (offset + 1) (offset + 1) cs := by
  rw [fractionPart, Text.digit?_of_ascii ascii]
  rfl

theorem fractionPart_blank (blank : Text.isBlank c = true) (f : Fraction) (mark offset : Nat)
    (cs : List Char) :
    fractionPart f mark offset (c :: cs) =
      fractionPart f (offset + c.utf8Size) (offset + c.utf8Size) cs := by
  rw [fractionPart, Text.digit?_eq_none (not_ascii_of_isBlank blank)]
  exact if_pos blank

theorem fractionPart_ends (ends : EndsFraction rest) (some : f.denominator ≠ 1)
    (mark offset : Nat) : fractionPart f mark offset rest = .ok (f, ⟨offset, rest⟩) := by
  cases rest with
  | nil => exact if_neg some
  | cons c rest =>
    have letter := ends c rfl
    rw [fractionPart, digit?_of_isUnitLetter letter]
    simp [(not_spread_of_isUnitLetter letter).2.1, letter, some]

theorem exists_fractionPart (spread : Spread cs) (fits : (fractionFrom f cs).Fits)
    (mark offset : Nat) (rest : List Char) :
    ∃ mark' after, fractionPart f mark offset (cs ++ rest) =
      fractionPart (fractionFrom f cs) mark' after rest := by
  induction cs generalizing f mark offset with
  | nil => exact ⟨mark, offset, by rw [fractionFrom_nil, List.nil_append]⟩
  | cons c cs ih =>
    obtain ⟨here, later⟩ := List.forall_mem_cons.mp spread
    rw [List.cons_append]
    rcases here with blank | ascii
    · rw [fractionFrom_blank blank] at fits ⊢
      rw [fractionPart_blank blank]
      exact ih later fits _ _
    · rw [fractionFrom_digit ascii] at fits ⊢
      have now := fits.of_fractionFrom
      rw [fractionPart_digit ascii, checked_of_le now.1, checked_of_le now.2]
      exact ih later fits _ _

theorem fractionPart_eq_ok {mark offset : Nat} {f' : Fraction} {after : Cursor} (small : f.Fits)
    (read : fractionPart f mark offset cs = .ok (f', after)) :
    ∃ front, cs = front ++ after.rest ∧ Spread front ∧ fractionFrom f front = f' ∧ f'.Fits ∧
      f'.denominator ≠ 1 ∧ EndsFraction after.rest := by
  induction cs generalizing f mark offset with
  | nil =>
    rw [fractionPart] at read
    split at read
    · cases read
    next some =>
      obtain ⟨rfl, rfl⟩ := Prod.mk.inj (Except.ok.inj read)
      exact ⟨[], rfl, nofun, fractionFrom_nil _, small, some, nofun⟩
  | cons c cs ih =>
    by_cases ascii : '0' ≤ c ∧ c ≤ '9'
    · rw [fractionPart_digit ascii] at read
      obtain ⟨_, above, read⟩ := Except.bind_eq_ok_iff.mp read
      obtain ⟨_, below, later⟩ := Except.bind_eq_ok_iff.mp read
      obtain ⟨numerator, rfl⟩ := checked_eq_ok_iff.mp above
      obtain ⟨denominator, rfl⟩ := checked_eq_ok_iff.mp below
      obtain ⟨front, rfl, spread, value, rest⟩ := ih ⟨numerator, denominator⟩ later
      exact ⟨c :: front, rfl, List.forall_mem_cons.mpr ⟨.inr ascii, spread⟩,
        (fractionFrom_digit ascii f front).trans value, rest⟩
    by_cases blank : Text.isBlank c = true
    · rw [fractionPart_blank blank] at read
      obtain ⟨front, rfl, spread, value, rest⟩ := ih small read
      exact ⟨c :: front, rfl, List.forall_mem_cons.mpr ⟨.inl blank, spread⟩,
        (fractionFrom_blank blank f front).trans value, rest⟩
    · rw [fractionPart, Text.digit?_eq_none ascii] at read
      simp only [blank, Bool.false_eq_true, if_false] at read
      repeat' split at read
      · cases read
      next letter some =>
        obtain ⟨rfl, rfl⟩ := Prod.mk.inj (Except.ok.inj read)
        exact ⟨[], rfl, nofun, fractionFrom_nil _, small, some,
          by simpa [EndsFraction] using letter⟩
      · cases read

def EndsUnit (rest : List Char) : Prop :=
  ∀ c ∈ rest.head?, Text.isBlank c = true ∨ '0' ≤ c ∧ c ≤ '9'

theorem unitName_ends (ends : EndsUnit rest) (offset : Nat) :
    unitName offset rest = .ok ([], ⟨offset, rest⟩) := by
  cases rest with
  | nil => rfl
  | cons c rest =>
    refine if_pos ?_
    rcases ends c rfl with blank | ascii
    · simp [blank]
    · simp [Text.digit?_of_ascii ascii]

theorem unitName_letter (letter : isUnitLetter c = true) (offset : Nat) (cs : List Char) :
    unitName offset (c :: cs) =
      (unitName (offset + c.utf8Size) cs).map fun read => (c :: read.1, read.2) := by
  rw [unitName, digit?_of_isUnitLetter letter]
  simp only [(not_spread_of_isUnitLetter letter).2.1, letter]
  cases unitName (offset + c.utf8Size) cs <;> rfl

theorem exists_unitName (letters : Letters cs) (ends : EndsUnit rest) (offset : Nat) :
    ∃ after, unitName offset (cs ++ rest) = .ok (cs, ⟨after, rest⟩) := by
  induction cs generalizing offset with
  | nil => exact ⟨offset, unitName_ends ends offset⟩
  | cons c cs ih =>
    obtain ⟨letter, later⟩ := List.forall_mem_cons.mp letters
    obtain ⟨after, read⟩ := ih later (offset + c.utf8Size)
    exact ⟨after, by rw [List.cons_append, unitName_letter letter, read]; rfl⟩

theorem unitName_eq_ok {offset : Nat} {name : List Char} {after : Cursor}
    (read : unitName offset cs = .ok (name, after)) :
    cs = name ++ after.rest ∧ Letters name ∧ EndsUnit after.rest := by
  induction cs generalizing name offset with
  | nil =>
    obtain ⟨rfl, rfl⟩ := Prod.mk.inj (Except.ok.inj read)
    exact ⟨rfl, nofun, nofun⟩
  | cons c cs ih =>
    by_cases letter : isUnitLetter c = true
    · rw [unitName_letter letter] at read
      obtain ⟨⟨name', after'⟩, later, same⟩ := Except.map_eq_ok_iff.mp read
      obtain ⟨rfl, rfl⟩ := Prod.mk.inj same
      obtain ⟨rfl, letters, ends⟩ := ih later
      exact ⟨rfl, List.forall_mem_cons.mpr ⟨letter, letters⟩, ends⟩
    · rw [unitName] at read
      split at read
      next stops =>
        obtain ⟨rfl, rfl⟩ := Prod.mk.inj (Except.ok.inj read)
        refine ⟨rfl, nofun, fun c' here => ?_⟩
        obtain rfl : c = c' := Option.some.inj here
        rw [Bool.or_eq_true] at stops
        refine stops.symm.imp_right fun digit => ?_
        by_contra other
        rw [Text.digit?_eq_none other] at digit
        cases digit
      next => cases read

theorem ascii_of_digit? {d : Nat} (digit : Text.digit? c = some d) :
    ('0' ≤ c ∧ c ≤ '9') ∧ d = c.toNat - '0'.toNat := by
  unfold Text.digit? at digit
  split at digit
  next ascii => exact ⟨ascii, (Option.some.inj digit).symm⟩
  next => cases digit

theorem le_of_digit? {d : Nat} (digit : Text.digit? c = some d) : d ≤ greatest64 := by
  obtain ⟨⟨_, most⟩, rfl⟩ := ascii_of_digit? digit
  have most : c.toNat ≤ 57 := UInt32.le_iff_toNat_le.mp (Char.le_def.mp most)
  exact Nat.le_trans (Nat.le_trans (Nat.sub_le _ _) most) (by decide)

theorem valueFrom_first {d : Nat} (digit : Text.digit? c = some d) :
    valueFrom 0 (c :: cs) = valueFrom d cs := by
  obtain ⟨ascii, rfl⟩ := ascii_of_digit? digit
  rw [valueFrom_digit ascii, Nat.zero_mul, Nat.zero_add]

theorem Number.exists_wholePart {number : List Char} {d : Nat} (is : Number n (c :: number))
    (digit : Text.digit? c = some d) (ends : EndsNumber rest) (offset : Nat) :
    ∃ after, wholePart d offset (number ++ rest) = .ok (n, ⟨after, rest⟩) := by
  have value := (valueFrom_first digit).symm.trans is.value
  obtain ⟨after, read⟩ := Duration.exists_wholePart (List.forall_mem_cons.mp is.spread).2
    (value ▸ is.fits) offset rest
  rw [value, wholePart_ends ends] at read
  exact ⟨after, read⟩

theorem exists_number {d offset : Nat} {after : Cursor} (digit : Text.digit? c = some d)
    (read : wholePart d offset cs = .ok (n, after)) :
    ∃ front, cs = front ++ after.rest ∧ Number n (c :: front) ∧ EndsNumber after.rest := by
  obtain ⟨ascii, _⟩ := ascii_of_digit? digit
  obtain ⟨front, rfl, spread, value, fits, ends⟩ := wholePart_eq_ok (le_of_digit? digit) read
  refine ⟨front, rfl, ⟨by simp, ?_, ?_, (valueFrom_first digit).trans value, fits⟩, ends⟩
  · rintro _ ⟨⟩
    exact ascii
  · exact List.forall_mem_cons.mpr ⟨.inr ascii, spread⟩

theorem readTerm_whole {d offset after : Nat}
    (read : wholePart d offset cs = .ok (n, ⟨after, rest⟩)) (noPoint : rest.head? ≠ some '.') :
    readTerm d ⟨offset, cs⟩ =
      (unitName after rest).map fun read => (⟨n, none, String.ofList read.1⟩, read.2) := by
  rw [readTerm, read]
  cases rest with
  | nil => rfl
  | cons c rest =>
    have other : c ≠ '.' := fun same => noPoint (same ▸ rfl)
    simp only [bind, Except.bind]
    split
    next eq => exact absurd (List.cons.inj eq).1 other
    next => cases unitName after (c :: rest) <;> rfl

theorem readTerm_fraction {d offset after : Nat}
    (read : wholePart d offset cs = .ok (n, ⟨after, '.' :: rest⟩)) :
    readTerm d ⟨offset, cs⟩ =
      fractionPart ⟨0, 1⟩ after (after + 1) rest >>= fun fraction =>
        (unitName fraction.2.offset fraction.2.rest).map fun read =>
          (⟨n, some fraction.1, String.ofList read.1⟩, read.2) := by
  rw [readTerm, read]
  change (fractionPart ⟨0, 1⟩ after (after + 1) rest >>= _) = _
  refine bind_congr fun fraction => ?_
  change (unitName fraction.2.offset fraction.2.rest >>= _) = _
  cases unitName fraction.2.offset fraction.2.rest <;> rfl

/-- Letters come after a number, or else the end. -/
theorem endsFraction_name {t : Term} {name : List Char} (unit : t.unit = String.ofList name)
    (letters : Letters name) (ends : Ends t rest) : EndsFraction (name ++ rest) := by
  cases name with
  | nil =>
    rw [List.nil_append, ends.last unit]
    exact nofun
  | cons c name =>
    rintro _ ⟨⟩
    exact letters c List.mem_cons_self

theorem EndsFraction.endsNumber (ends : EndsFraction rest) : EndsNumber rest :=
  fun c here => .inl (ends c here)

theorem EndsFraction.no_point (ends : EndsFraction rest) : rest.head? ≠ some '.' :=
  fun here => (not_spread_of_isUnitLetter (ends '.' here)).2.2 rfl

theorem Number.exists_cons {number tail : List Char} (is : Number n number)
    (whole : number ++ tail = c :: cs) : ∃ front, number = c :: front ∧ cs = front ++ tail := by
  cases number with
  | nil => exact absurd rfl is.nonempty
  | cons c' front =>
    obtain ⟨rfl, rfl⟩ := List.cons.inj whole
    exact ⟨front, rfl, rfl⟩

variable {t : Term} {text : List Char} {d offset : Nat}

/-- The reader takes a term as it is spelled. -/
theorem Spells.exists_readTerm (spells : Spells t (c :: text)) (digit : Text.digit? c = some d)
    (ends : Ends t rest) (offset : Nat) :
    ∃ after, readTerm d ⟨offset, text ++ rest⟩ = .ok (t, ⟨after, rest⟩) := by
  generalize whole : c :: text = all at spells
  cases spells with
  | @whole n number name is letters =>
    obtain ⟨front, rfl, rfl⟩ := is.exists_cons whole.symm
    have follows := endsFraction_name rfl letters ends
    obtain ⟨first, read⟩ := is.exists_wholePart digit follows.endsNumber offset
    obtain ⟨last, unit⟩ := exists_unitName letters ends.spread first
    rw [List.append_assoc, readTerm_whole read follows.no_point, unit]
    exact ⟨last, rfl⟩
  | @fraction n f number decimals name is and letters =>
    rw [List.append_assoc] at whole
    obtain ⟨front, rfl, rfl⟩ := is.exists_cons whole.symm
    have follows := endsFraction_name rfl letters ends
    have same : fractionFrom ⟨0, 1⟩ decimals = f := by
      rw [fractionFrom, and.numerator, Nat.one_mul, and.denominator]
    have some : f.denominator ≠ 1 := by
      rw [← and.denominator]
      exact Nat.ne_of_gt (Nat.one_lt_pow (mt List.length_eq_zero_iff.mp and.some) (by decide))
    have point : EndsNumber ('.' :: (decimals ++ (name ++ rest))) := by
      rintro _ ⟨⟩
      exact .inr rfl
    obtain ⟨first, read⟩ := is.exists_wholePart digit point offset
    obtain ⟨_, second, decimal⟩ := exists_fractionPart (f := ⟨0, 1⟩) and.spread
      (same ▸ and.fits) first (first + 1) (name ++ rest)
    rw [same, fractionPart_ends follows some] at decimal
    obtain ⟨last, unit⟩ := exists_unitName letters ends.spread second
    simp only [List.append_assoc, List.cons_append]
    rw [readTerm_fraction read, decimal]
    exact ⟨last, by simp only [bind, Except.bind, unit]; rfl⟩

/-- Where no letters come although they could, nothing does. -/
theorem ends_of_name {name : List Char} (unit : t.unit = String.ofList name)
    (follows : EndsFraction (name ++ rest)) (ends : EndsUnit rest) : Ends t rest where
  spread := ends
  last empty := by
    obtain rfl : name = [] := by
      rw [unit, ← String.toList_inj, String.toList_ofList] at empty
      exact empty
    cases rest with
    | nil => rfl
    | cons c rest =>
      have other := not_spread_of_isUnitLetter (follows c rfl)
      rcases ends c rfl with blank | ascii
      · rw [blank] at other
        exact absurd other.2.1 (by simp)
      · exact absurd ascii other.1

/-- What the reader takes is a term as it is spelled. -/
theorem exists_spells {after : Cursor} (digit : Text.digit? c = some d)
    (read : readTerm d ⟨offset, cs⟩ = .ok (t, after)) :
    ∃ text, c :: cs = text ++ after.rest ∧ Spells t text ∧ Ends t after.rest := by
  obtain ⟨⟨n, first, rest⟩, number, _⟩ := Except.bind_eq_ok_iff.mp read
  obtain ⟨front, rfl, is, endsNumber⟩ := exists_number digit number
  by_cases point : rest.head? = some '.'
  · obtain ⟨rest, rfl⟩ : ∃ tail, rest = '.' :: tail := List.head?_eq_some_iff.mp point
    rw [readTerm_fraction number] at read
    obtain ⟨⟨f, second, tail⟩, decimal, named⟩ := Except.bind_eq_ok_iff.mp read
    obtain ⟨⟨name, last⟩, unit, same⟩ := Except.map_eq_ok_iff.mp named
    obtain ⟨rfl, rfl⟩ := Prod.mk.inj same
    obtain ⟨decimals, rfl, spread, value, fits, some, ends⟩ :=
      fractionPart_eq_ok ⟨by decide, by decide⟩ decimal
    obtain ⟨rfl, letters, endsUnit⟩ := unitName_eq_ok unit
    refine ⟨c :: front ++ '.' :: decimals ++ name, by simp,
      .fraction is ⟨spread, ?_, ?_, ?_, fits⟩ letters, ends_of_name rfl ends endsUnit⟩
    · intro none
      refine some ?_
      rw [← value, fractionFrom, none]
      rfl
    · rw [← value]
      rfl
    · rw [← value, fractionFrom, Nat.one_mul]
  · rw [readTerm_whole number point] at read
    obtain ⟨⟨name, last⟩, unit, same⟩ := Except.map_eq_ok_iff.mp read
    obtain ⟨rfl, rfl⟩ := Prod.mk.inj same
    obtain ⟨rfl, letters, endsUnit⟩ := unitName_eq_ok unit
    have ends : EndsFraction (name ++ last.rest) := fun c here =>
      (endsNumber c here).resolve_right fun same => point (same ▸ here)
    exact ⟨c :: front ++ name, by simp, .whole is letters, ends_of_name rfl ends endsUnit⟩

end Overseer.Duration
