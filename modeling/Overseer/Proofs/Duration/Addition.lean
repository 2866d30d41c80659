import Mathlib.Algebra.Order.BigOperators.Group.List
import Mathlib.Algebra.Order.Group.Nat
import Overseer.Proofs.Duration.Sums

/-!
Whole numbers of units. A text of them is read as their exact sum, in whatever order they come, and
digits alone are read as the seconds that the same digits are with their unit.
-/
namespace Overseer.Duration

open TimeUnit (Scale)

/-- Amounts as they are written: digits and the name of a unit, with or without white space between
one and the next. -/
inductive Written : List (Nat × TimeUnit) → List Char → Prop where
  | nil {gap : List Char} (blank : ∀ c ∈ gap, Text.isBlank c = true) : Written [] gap
  | cons {n : Nat} {u : TimeUnit} {name : String} {amounts : List (Nat × TimeUnit)}
      {gap digits apart text : List Char} (blank : ∀ c ∈ gap ++ apart, Text.isBlank c = true)
      (is : Text.Digits n digits) (named : name ∈ u.names) (more : Written amounts text) :
      Written ((n, u) :: amounts) (gap ++ (digits ++ apart ++ name.toList) ++ text)

def lengths (amounts : List (Nat × TimeUnit)) : Nat :=
  (amounts.map fun amount => amount.1 * amount.2.scale.total).sum

theorem mem_all (u : TimeUnit) : u ∈ TimeUnit.all := by
  cases u <;> decide

theorem ofName?_of_mem {u : TimeUnit} {name : String} (named : name ∈ u.names) :
    TimeUnit.ofName? name = some u :=
  (by decide : ∀ u ∈ TimeUnit.all, ∀ name ∈ u.names, TimeUnit.ofName? name = some u)
    u (mem_all u) name named

theorem letters_of_mem {u : TimeUnit} {name : String} (named : name ∈ u.names) :
    name.toList ≠ [] ∧ Letters name.toList := by
  have letters : ∀ u ∈ TimeUnit.all, ∀ name ∈ u.names,
      name.toList ≠ [] ∧ name.toList.all isUnitLetter = true := by decide
  exact (letters u (mem_all u) name named).imp_right List.all_eq_true.mp

theorem count_pos (u : TimeUnit) : 0 < u.scale.count := by
  cases u <;> decide

variable {n : Nat} {u : TimeUnit} {amounts amounts' : List (Nat × TimeUnit)} {cs text : List Char}

def part (amount : Nat × TimeUnit) : Scale :=
  amount.2.scale.withCount (amount.1 * amount.2.scale.count)

theorem total_part (n : Nat) (u : TimeUnit) : (part (n, u)).total = n * u.scale.total := by
  simp only [part]
  cases u.scale with
  | nanoseconds k => rfl
  | seconds k => exact Nat.mul_assoc n k nanosPerSecond

theorem sum_parts (amounts : List (Nat × TimeUnit)) : sum (amounts.map part) = lengths amounts := by
  rw [sum, lengths, List.map_map]
  exact congrArg List.sum (List.map_congr_left fun amount _ => total_part amount.1 amount.2)

theorem count_le_total (s : Scale) : s.count ≤ s.total := by
  cases s with
  | nanoseconds n => exact Nat.le_refl n
  | seconds n => exact Nat.le_mul_of_pos_right n (by decide)

def Countable (amounts : List (Nat × TimeUnit)) : Prop :=
  ∀ amount ∈ amounts, amount.1 * amount.2.scale.count ≤ greatest64

theorem countable_of_le (small : lengths amounts ≤ greatest64) : Countable amounts := by
  rintro ⟨n, u⟩ member
  have among : n * u.scale.total ∈ amounts.map fun amount => amount.1 * amount.2.scale.total :=
    List.mem_map_of_mem member
  exact Nat.le_trans (Nat.mul_le_mul_left n (count_le_total _))
    (Nat.le_trans (List.le_sum_of_mem among) small)

/-- Sums below 2⁶⁴ nanoseconds are carried without loss. -/
theorem fitFrom_of_le {before : Nat} {parts : List Scale}
    (small : before + sum parts ≤ greatest64) : FitFrom before parts := by
  induction parts generalizing before with
  | nil => trivial
  | cons part parts ih =>
    rw [sum_cons, ← Nat.add_assoc] at small
    have here := Nat.le_trans (Nat.le_add_right _ _) small
    refine ⟨?_, ih small⟩
    cases part with
    | nanoseconds n => exact Nat.le_trans (Nat.add_le_add_right (Nat.mod_le _ _) n) here
    | seconds n => trivial

theorem digitsOf_blank (blank : ∀ c ∈ cs, Text.isBlank c = true) : digitsOf cs = [] :=
  List.filter_eq_nil_iff.mpr fun c member => by simp [blank c member]

theorem number_of_digits {digits apart : List Char} (is : Text.Digits n digits)
    (blank : ∀ c ∈ apart, Text.isBlank c = true) (fits : n ≤ greatest64) :
    Number n (digits ++ apart) where
  nonempty := by simp [is.nonempty]
  first := by
    rw [List.head?_append_of_ne_nil _ is.nonempty]
    exact fun c here => is.ascii c (List.mem_of_head? here)
  spread := List.forall_mem_append.mpr ⟨fun c member => .inr (is.ascii c member),
    fun c member => .inl (blank c member)⟩
  value := by
    rw [valueFrom, digitsOf, List.filter_append]
    change Nat.ofDigitChars 10 (digitsOf digits ++ digitsOf apart) 0 = n
    rw [digitsOf_of_ascii is.ascii, digitsOf_blank blank, List.append_nil, is.value]
  fits := fits

/-- An amount that is written with nothing between. -/
theorem Written.amount {name : String} {digits : List Char} (is : Text.Digits n digits)
    (named : name ∈ u.names) (more : Written amounts text) :
    Written ((n, u) :: amounts) (digits ++ name.toList ++ text) := by
  have written := @Written.cons n u name amounts [] digits [] text nofun is named more
  rwa [List.append_nil] at written

/-- White space, a digit or the end comes next where amounts are written. -/
theorem Written.spread (written : Written amounts text) :
    ∀ c ∈ text.head?, Text.isBlank c = true ∨ '0' ≤ c ∧ c ≤ '9' := by
  intro c here
  cases written with
  | nil blank => exact .inl (blank c (List.mem_of_head? here))
  | @cons _ _ _ _ gap digits _ _ blank is _ _ =>
    cases gap with
    | cons b gap =>
      obtain rfl : b = c := Option.some.inj here
      exact .inl (blank b List.mem_cons_self)
    | nil =>
      simp only [List.nil_append, List.append_assoc] at here
      rw [List.head?_append_of_ne_nil _ is.nonempty] at here
      exact .inr (is.ascii c (List.mem_of_head? here))

/-- Amounts are written as terms, with white space at the end. -/
theorem Written.begins (written : Written amounts text) (countable : Countable amounts) :
    ∃ terms rest, Begins terms text rest ∧ (∀ c ∈ rest, Text.isBlank c = true) ∧
      terms.length = amounts.length ∧
      terms.flatMap Term.parts = (amounts.map part).map .ok := by
  induction written with
  | @nil gap blank => exact ⟨[], gap, .nil gap, blank, rfl, rfl⟩
  | @cons n u name amounts gap digits apart text blank is named more ih =>
    obtain ⟨here, later⟩ := List.forall_mem_cons.mp countable
    have fits := Nat.le_trans (Nat.le_mul_of_pos_right n (count_pos u)) here
    obtain ⟨terms, rest, begins, last, length, parts⟩ := ih later
    obtain ⟨before, between⟩ := List.forall_mem_append.mp blank
    obtain ⟨some, letters⟩ := letters_of_mem named
    have spells := Spells.whole (number_of_digits is between fits) letters
    rw [String.ofList_toList] at spells
    refine ⟨⟨n, none, name⟩ :: terms, rest, .cons before spells ⟨more.spread, ?_⟩ begins, last,
      congrArg Nat.succ length, ?_⟩
    · rintro rfl
      exact absurd rfl some
    · rw [List.flatMap_cons, parts, Term.parts, ofName?_of_mem named]
      simp only [scaled, checked_of_le here]
      rfl

theorem Written.exists_letter (written : Written amounts text) (some : amounts ≠ []) :
    ∃ c ∈ text, isUnitLetter c = true := by
  cases written with
  | nil => exact absurd rfl some
  | cons _ _ named _ =>
    obtain ⟨nonempty, letters⟩ := letters_of_mem named
    obtain ⟨c, member⟩ := List.exists_mem_of_ne_nil _ nonempty
    exact ⟨c, by simp [member], letters c member⟩

theorem ofText_of_written {s : String} (written : Written amounts s.toList)
    (some : amounts ≠ []) (countable : Countable amounts) :
    ofText s = zero.addParts ((amounts.map part).map .ok) := by
  obtain ⟨c, there, letter⟩ := written.exists_letter some
  obtain ⟨terms, rest, begins, blank, length, parts⟩ := written.begins countable
  obtain ⟨t, terms, rfl⟩ : ∃ t terms', terms = t :: terms' :=
    List.exists_cons_of_length_pos (length ▸ List.length_pos_of_ne_nil some)
  rw [ofText_of_letter there letter, ofTerms_whole begins blank, parts]

/-- Amounts below 2⁶⁴ nanoseconds are read as their sum. -/
theorem exists_ofText_of_written {s : String} (written : Written amounts s.toList)
    (some : amounts ≠ []) (small : lengths amounts ≤ greatest64) :
    ∃ d, ofText s = .ok d ∧ d.total = lengths amounts := by
  have room : lengths amounts < limit := Nat.lt_of_le_of_lt small (by decide)
  obtain ⟨d, total⟩ := exists_total room
  refine ⟨d, ?_, total⟩
  rw [ofText_of_written written some (countable_of_le small), addParts_eq_ok_iff, sum_parts, total]
  exact ⟨fitFrom_of_le (by rwa [sum_parts, total_zero, Nat.zero_add]), (Nat.zero_add _).symm⟩

theorem ofText_of_digits {s : String} (is : Text.Digits n s.toList) (fits : n ≤ greatest64) :
    ofText s = .ok (ofSeconds n fits) := by
  have read : Text.parseNatural greatest64 s = .ok n :=
    Text.parseNatural_eq_ok_iff.mpr ⟨⟨_, is, .inl rfl⟩, fits⟩
  rw [ofText, read]
  exact dif_pos fits

theorem ofText_of_digits_s {s : String} (is : Text.Digits n s.toList) (fits : n ≤ greatest64) :
    ofText (s ++ "s") = .ok (ofSeconds n fits) := by
  have written : Written [(n, .second)] (s ++ "s").toList := by
    have named : "s" ∈ TimeUnit.second.names := by decide
    have one := Written.amount is named (@Written.nil [] nofun)
    rwa [List.append_nil, ← String.toList_append] at one
  rw [ofText_of_written written (List.cons_ne_nil _ _) fun amount member => by
    obtain rfl := List.mem_singleton.mp member
    exact (Nat.mul_one n).symm ▸ fits]
  refine addParts_eq_ok_iff.mpr ⟨⟨trivial, trivial⟩, ?_⟩
  rw [sum_parts, total_zero, Nat.zero_add]
  change n * nanosPerSecond + 0 = n * (1 * nanosPerSecond) + 0
  rw [Nat.one_mul]

/-- Digits for a number that does not fit are refused, whatever comes after them. -/
theorem ofTerms_beyond {s : String} {digits rest : List Char} (is : Text.Digits n digits)
    (whole : s.toList = digits ++ rest) (beyond : greatest64 < n) :
    ofTerms s = .error .unrepresentable := by
  obtain ⟨nonempty, ascii, value⟩ := is
  cases digits with
  | nil => exact absurd rfl nonempty
  | cons c cs =>
    have first := Text.digit?_of_ascii (ascii c List.mem_cons_self)
    have same : valueFrom (c.toNat - '0'.toNat) cs = n := by
      rw [← valueFrom_first first, valueFrom, digitsOf_of_ascii ascii, value]
    have refused := wholePart_beyond
      (fun c' member => .inr (ascii c' (List.mem_cons_of_mem c member))) (le_of_digit? first)
      (same ▸ beyond) 1 rest
    rw [ofTerms, whole, List.cons_append, firstDigit?_digit first]
    change readTerms zero _ ⟨1, cs ++ rest⟩ _ = _
    rw [readTerms_succ, readTerm, refused]
    rfl

theorem ofText_of_digits_beyond {s : String} (is : Text.Digits n s.toList)
    (beyond : greatest64 < n) : ofText s = .error .unrepresentable := by
  have bare : ∀ rest, s.toList ≠ '+' :: rest := fun rest plus => (plus ▸ is).not_sign.1 rfl
  unfold ofText
  split
  next m read =>
    obtain ⟨unsigned, fits⟩ := Text.parseNatural_eq_ok_iff.mp read
    have same := is.value.symm.trans ((Text.unsigned_iff_of_no_plus bare).mp unsigned).value
    exact absurd (same ▸ fits) (Nat.not_le_of_lt beyond)
  next => exact ofTerms_beyond is (List.append_nil _).symm beyond

theorem ofText_of_digits_s_beyond {s : String} (is : Text.Digits n s.toList)
    (beyond : greatest64 < n) : ofText (s ++ "s") = .error .unrepresentable := by
  rw [ofText_of_letter (c := 's') (by simp) (by decide)]
  exact ofTerms_beyond is String.toList_append beyond

/-- Digits are read just as the same digits with the unit of seconds: as that many seconds where
they fit into 64 bits, and else not at all. Amounts below 2⁶⁴ nanoseconds that are written one
after the other are read as their exact sum, and in another order as the same. -/
theorem ofText_adds_up :
    (∀ s : String, s ≠ "" → (∀ c ∈ s.toList, '0' ≤ c ∧ c ≤ '9') → ofText s = ofText (s ++ "s")) ∧
    (∀ (n : Nat) (s : String), Text.Digits n s.toList →
      (∀ fits : n ≤ greatest64, ofText s = .ok (ofSeconds n fits)) ∧
      (greatest64 < n → ofText s = .error .unrepresentable)) ∧
    (∀ (amounts : List (Nat × TimeUnit)) (s : String), amounts ≠ [] → Written amounts s.toList →
      lengths amounts ≤ greatest64 → ∃ d, ofText s = .ok d ∧ d.total = lengths amounts) ∧
    (∀ (amounts amounts' : List (Nat × TimeUnit)) (s s' : String), amounts ≠ [] →
      Written amounts s.toList → lengths amounts ≤ greatest64 → amounts.Perm amounts' →
      Written amounts' s'.toList → ofText s' = ofText s) := by
  refine ⟨fun s some ascii => ?_, fun n s is => ?_, fun amounts s some written small => ?_,
    fun amounts amounts' s s' some written small shuffled written' => ?_⟩
  · have is : Text.Digits _ s.toList := ⟨mt String.toList_eq_nil_iff.mp some, ascii, rfl⟩
    by_cases fits : Nat.ofDigitChars 10 s.toList 0 ≤ greatest64
    · rw [ofText_of_digits is fits, ofText_of_digits_s is fits]
    · have beyond := Nat.lt_of_not_le fits
      rw [ofText_of_digits_beyond is beyond, ofText_of_digits_s_beyond is beyond]
  · exact ⟨ofText_of_digits is, ofText_of_digits_beyond is⟩
  · exact exists_ofText_of_written written some small
  · have same : lengths amounts = lengths amounts' := (shuffled.map _).sum_eq
    have some' : amounts' ≠ [] := fun none => some (List.perm_nil.mp (none ▸ shuffled))
    obtain ⟨d, read, total⟩ := exists_ofText_of_written written some small
    obtain ⟨d', read', total'⟩ := exists_ofText_of_written written' some' (same ▸ small)
    rw [read, read', total_inj (total'.trans (same.symm.trans total.symm))]

theorem ofText_adds_up_two_seconds :
    ofText "007" = ofText "007s" ∧
    ofText "99999999999999999999" = .error .unrepresentable ∧
    (∃ d, ofText "1s1000000000ns" = .ok d ∧ d.total = 2000000000) ∧
    ofText "1000000000ns 1s" = ofText "1s1000000000ns" := by
  have one : Text.Digits 1 "1".toList := by decide
  have second : Text.Digits 1000000000 "1000000000".toList := by decide
  have seven : Text.Digits 7 "007".toList := by decide
  have written : Written [(1, .second), (1000000000, .nanosecond)] "1s1000000000ns".toList :=
    .amount one (by decide : "s" ∈ _)
      (.amount second (by decide : "ns" ∈ _) (@Written.nil [] nofun))
  have written' : Written [(1000000000, .nanosecond), (1, .second)] "1000000000ns 1s".toList :=
    .amount second (by decide : "ns" ∈ _)
      (@Written.cons 1 .second "s" [] [' '] _ [] [] (by simp [Text.isBlank]) one (by decide)
        (.nil nofun))
  obtain ⟨seconds, digits, sums, orders⟩ := ofText_adds_up
  exact ⟨seconds "007" (by decide) seven.ascii,
    (digits 99999999999999999999 _ (by decide)).2 (by decide),
    sums _ _ (by simp) written (by decide),
    orders _ _ _ _ (by simp) written (by decide) (.swap _ _ _) written'⟩

end Overseer.Duration
