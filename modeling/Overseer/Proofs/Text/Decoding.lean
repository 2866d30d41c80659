import Mathlib.Algebra.Group.Nat.Defs
import Mathlib.Data.List.Induction
import Overseer.Text.Utf8

/-!
Lossy decoding, said of the bytes alone. Where the bytes of a scalar value come, they are that
value. Elsewhere the longest part that begins one, or a single byte that begins none, becomes
U+FFFD. The decoder takes its bytes one by one and gives just this.
-/
namespace Overseer.Utf8

open String (utf8EncodeChar)

def Begins (part : List UInt8) : Prop :=
  ∃ c rest, utf8EncodeChar c = part ++ rest

/-- The longest part at the front of some bytes that begins a scalar value and does not hold it, or
one byte that begins none. -/
structure IllFormed (part rest : List UInt8) : Prop where
  nonempty : part ≠ []
  begins : Begins part ∨ part.length = 1
  unfinished : ∀ c, utf8EncodeChar c ≠ part
  stuck : ∀ b ∈ rest.head?, ¬Begins (part ++ [b])

inductive Lossy : List UInt8 → List Char → Prop where
  | nil : Lossy [] []
  | scalar (c : Char) {rest : List UInt8} {cs : List Char} (later : Lossy rest cs) :
      Lossy (utf8EncodeChar c ++ rest) (c :: cs)
  | part {part rest : List UInt8} {cs : List Char} (illFormed : IllFormed part rest)
      (later : Lossy rest cs) : Lossy (part ++ rest) (replacement :: cs)

def trailing : Nat → Nat → List UInt8
  | 0, _ => []
  | n + 1, v => UInt8.ofNat (v / 64 ^ n % 64 + 0x80) :: trailing n v

def followers (v : Nat) : Nat :=
  if v < 0x80 then 0 else if v < 0x800 then 1 else if v < 0x10000 then 2 else 3

def lead (v : Nat) : Nat :=
  if v < 0x80 then v
  else if v < 0x800 then v / 0x40 + 0xc0
  else if v < 0x10000 then v / 0x1000 + 0xe0
  else v / 0x40000 + 0xf0

theorem utf8EncodeChar_eq (c : Char) :
    utf8EncodeChar c = UInt8.ofNat (lead c.toNat) :: trailing (followers c.toNat) c.toNat := by
  have valid : c.toNat < 0xd800 ∨ 0xdfff < c.toNat ∧ c.toNat < 0x110000 := c.valid
  have value : c.val.toNat = c.toNat := rfl
  simp only [utf8EncodeChar, value, lead, followers, Nat.lt_iff_add_one_le, Nat.reduceLeDiff]
  split
  · rfl
  split
  · rw [Nat.mod_eq_of_lt (by omega : c.toNat / 64 < 32)]
    simp [trailing]
  split
  · rw [Nat.mod_eq_of_lt (by omega : c.toNat / 4096 < 16)]
    simp [trailing]
  · rw [Nat.mod_eq_of_lt (by omega : c.toNat / 262144 < 8)]
    simp [trailing]

theorem lead_lt (c : Char) : lead c.toNat < 256 := by
  have valid : c.toNat < 0xd800 ∨ 0xdfff < c.toNat ∧ c.toNat < 0x110000 := c.valid
  unfold lead
  repeat' split
  all_goals omega

theorem utf8EncodeChar_eq_cons_iff {c : Char} {b : UInt8} {rest : List UInt8} :
    utf8EncodeChar c = b :: rest ↔
      lead c.toNat = b.toNat ∧ rest = trailing (followers c.toNat) c.toNat := by
  rw [utf8EncodeChar_eq, List.cons.injEq, ← UInt8.toNat_inj, UInt8.toNat_ofNat_of_lt' (lead_lt c),
    eq_comm (b := rest)]

def Opened.Holds (o : Opened) (v : Nat) : Prop :=
  o.bits * 64 + (o.low.toNat - 0x80) ≤ v / 64 ^ (o.due - 1) ∧
    v / 64 ^ (o.due - 1) ≤ o.bits * 64 + (o.high.toNat - 0x80)

structure Opened.After (part : List UInt8) (o : Opened) : Prop where
  due : 0 < o.due
  range : 0x80 ≤ o.low.toNat ∧ o.low.toNat ≤ o.high.toNat ∧ o.high.toNat ≤ 0xbf
  scalar : ∀ v, o.Holds v → v.isValidChar
  spells : ∀ c rest,
    utf8EncodeChar c = part ++ rest ↔ o.Holds c.toNat ∧ rest = trailing o.due c.toNat

/-- What a byte came to tells which scalar values begin with the bytes so far. -/
def Start.Spells (part : List UInt8) : Start → Prop
  | .single c => ∀ d rest, utf8EncodeChar d = part ++ rest ↔ d = c ∧ rest = []
  | .opened o => o.After part
  | .invalid => ¬Begins part

theorem Opened.after_first {b : UInt8} {o : Opened} (due : 0 < o.due)
    (range : 0x80 ≤ o.low.toNat ∧ o.low.toNat ≤ o.high.toNat ∧ o.high.toNat ≤ 0xbf)
    (scalar : ∀ v, o.Holds v → v.isValidChar ∧ followers v = o.due ∧ lead v = b.toNat)
    (holds : ∀ v, v.isValidChar → lead v = b.toNat → o.Holds v) : o.After [b] where
  due := due
  range := range
  scalar v held := (scalar v held).1
  spells c rest := by
    rw [List.singleton_append, utf8EncodeChar_eq_cons_iff]
    constructor
    · rintro ⟨first, same⟩
      have held := holds c.toNat c.valid first
      rw [same, (scalar _ held).2.1]
      exact ⟨held, rfl⟩
    · rintro ⟨held, same⟩
      obtain ⟨_, count, first⟩ := scalar _ held
      rw [same, count]
      exact ⟨first, rfl⟩

theorem toNat_ofNat_of_isValidChar {n : Nat} (valid : n.isValidChar) :
    (Char.ofNat n).toNat = n := by
  rw [Char.ofNat, dif_pos valid]
  rfl

theorem single_spells {b : UInt8} (ascii : b.toNat < 0x80) :
    (Start.single (Char.ofNat b.toNat)).Spells [b] := by
  have shown : (Char.ofNat b.toNat).toNat = b.toNat :=
    toNat_ofNat_of_isValidChar (.inl (by omega))
  intro d rest
  rw [List.singleton_append, utf8EncodeChar_eq_cons_iff]
  constructor
  · rintro ⟨first, rfl⟩
    have small : d.toNat < 0x80 := by
      unfold lead at first
      repeat' split at first
      all_goals omega
    have none : followers d.toNat = 0 := if_pos small
    rw [lead, if_pos small] at first
    rw [none, ← first, Char.ofNat_toNat]
    exact ⟨rfl, rfl⟩
  · rintro ⟨rfl, rfl⟩
    rw [shown, lead, followers, if_pos ascii, if_pos ascii]
    exact ⟨rfl, rfl⟩

theorem invalid_spells {b : UInt8} (never : ∀ v, v.isValidChar → lead v ≠ b.toNat) :
    Start.invalid.Spells [b] := by
  rintro ⟨c, rest, spelled⟩
  exact never c.toNat c.valid (utf8EncodeChar_eq_cons_iff.mp spelled).1

theorem start_spells (b : UInt8) : (start b).Spells [b] := by
  have small := b.toNat_lt
  unfold start
  simp only [UInt8.le_iff_toNat_le, UInt8.lt_iff_toNat_lt, ← UInt8.toNat_inj, UInt8.reduceToNat]
  split
  next => exact single_spells (by omega)
  -- What is left are first bytes of several, by what may follow them, and bytes that are none.
  repeat' split
  any_goals
    refine Opened.after_first (by simp) (by simp) ?_ ?_ <;>
      simp only [Opened.Holds, followers, lead, Nat.isValidChar, UInt8.reduceToNat, Nat.reduceSub,
        Nat.reducePow, Nat.div_one] <;>
      intro v
    · intro held
      repeat' split
      all_goals omega
    · repeat' split
      all_goals omega
  all_goals
    refine invalid_spells fun v => ?_
    simp only [lead, Nat.isValidChar]
    repeat' split
    all_goals omega

theorem Opened.accepts_iff {o : Opened} {b : UInt8} :
    o.accepts b = true ↔ o.low.toNat ≤ b.toNat ∧ b.toNat ≤ o.high.toNat := by
  simp [accepts, UInt8.le_iff_toNat_le]

namespace Opened.After

variable {o : Opened} {part : List UInt8} {n : Nat} {b : UInt8}

/-- Of the scalar values that may still come, those with a given next byte. -/
theorem spells_concat (after : o.After part) (due : o.due = n + 1) (c : Char) (rest : List UInt8) :
    utf8EncodeChar c = part ++ [b] ++ rest ↔
      o.accepts b = true ∧ c.toNat / 64 ^ n = o.bits * 64 + (b.toNat - 0x80) ∧
        rest = trailing n c.toNat := by
  have small : c.toNat / 64 ^ n % 64 + 0x80 < UInt8.size := by
    simp only [UInt8.size]
    omega
  obtain ⟨low, order, high⟩ := after.range
  rw [List.append_assoc, List.singleton_append, after.spells, due, trailing, List.cons.injEq,
    ← UInt8.toNat_inj, UInt8.toNat_ofNat_of_lt' small, accepts_iff, Holds, due,
    Nat.add_one_sub_one, ← and_assoc, ← and_assoc]
  refine and_congr_left fun _ => ?_
  generalize c.toNat / 64 ^ n = bits
  omega

theorem not_begins (after : o.After part) (refused : o.accepts b = false) :
    ¬Begins (part ++ [b]) := by
  rintro ⟨c, rest, spelled⟩
  obtain ⟨n, due⟩ := Nat.exists_eq_add_one_of_ne_zero (Nat.ne_of_gt after.due)
  have accepted := ((after.spells_concat due c rest).mp spelled).1
  rw [refused] at accepted
  cases accepted

theorem push_single (after : o.After part) (due : o.due = 1) (accepted : o.accepts b = true) :
    (Start.single (Char.ofNat (o.bits * 64 + (b.toNat - 0x80)))).Spells (part ++ [b]) := by
  have bounds := accepts_iff.mp accepted
  have valid : (o.bits * 64 + (b.toNat - 0x80)).isValidChar := by
    refine after.scalar _ ?_
    simp only [Holds, due, Nat.sub_self, Nat.pow_zero, Nat.div_one]
    omega
  intro d rest
  rw [after.spells_concat due, Nat.pow_zero, Nat.div_one, trailing]
  constructor
  · rintro ⟨_, same, rfl⟩
    rw [← same, Char.ofNat_toNat]
    exact ⟨rfl, rfl⟩
  · rintro ⟨same, none⟩
    rw [same]
    exact ⟨accepted, toNat_ofNat_of_isValidChar valid, none⟩

theorem push_opened (after : o.After part) (due : o.due = n + 2) (accepted : o.accepts b = true) :
    Opened.After (part ++ [b]) ⟨o.bits * 64 + (b.toNat - 0x80), n + 1, 0x80, 0xbf⟩ := by
  have bounds := accepts_iff.mp accepted
  have holds (v : Nat) : Holds ⟨o.bits * 64 + (b.toNat - 0x80), n + 1, 0x80, 0xbf⟩ v ↔
      v / 64 ^ (n + 1) = o.bits * 64 + (b.toNat - 0x80) := by
    simp only [Holds, Nat.add_one_sub_one, UInt8.reduceToNat, Nat.pow_succ,
      ← Nat.div_div_eq_div_mul]
    omega
  refine ⟨Nat.succ_pos n, by simp, fun v held => ?_, fun c rest => ?_⟩
  · rw [holds] at held
    refine after.scalar v ?_
    rw [Holds, due, Nat.add_one_sub_one, held]
    omega
  · rw [after.spells_concat due, holds]
    simp [accepted]

theorem push (after : o.After part) (accepted : o.accepts b = true) :
    (o.push b).Spells (part ++ [b]) := by
  obtain ⟨n, due⟩ := Nat.exists_eq_add_one_of_ne_zero (Nat.ne_of_gt after.due)
  unfold Opened.push
  cases n with
  | zero =>
    rw [if_pos (Nat.le_of_eq due)]
    exact after.push_single due accepted
  | succ n =>
    rw [if_neg (by omega), due]
    exact after.push_opened due accepted

theorem begins (after : o.After part) : Begins part := by
  obtain ⟨n, due⟩ := Nat.exists_eq_add_one_of_ne_zero (Nat.ne_of_gt after.due)
  obtain ⟨low, order, high⟩ := after.range
  obtain ⟨v, held⟩ : ∃ v, o.Holds v := by
    refine ⟨(o.bits * 64 + (o.low.toNat - 0x80)) * 64 ^ n, ?_⟩
    rw [Holds, due, Nat.add_one_sub_one, Nat.mul_div_cancel _ (Nat.pow_pos (by decide))]
    omega
  have shown := toNat_ofNat_of_isValidChar (after.scalar v held)
  refine ⟨Char.ofNat v, trailing o.due v, (after.spells _ _).mpr ?_⟩
  rw [shown]
  exact ⟨held, rfl⟩

/-- No scalar value is complete yet. -/
theorem unfinished (after : o.After part) (c : Char) : utf8EncodeChar c ≠ part := by
  intro whole
  obtain ⟨n, due⟩ := Nat.exists_eq_add_one_of_ne_zero (Nat.ne_of_gt after.due)
  rw [← List.append_nil part, after.spells, due, trailing] at whole
  cases whole.2

theorem illFormed (after : o.After part) (nonempty : part ≠ []) {rest : List UInt8}
    (refused : ∀ b ∈ rest.head?, o.accepts b = false) : IllFormed part rest where
  nonempty := nonempty
  begins := .inl after.begins
  unfinished := after.unfinished
  stuck b next := after.not_begins (refused b next)

end Opened.After

theorem illFormed_of_not_begins {b : UInt8} (never : ¬Begins [b]) (rest : List UInt8) :
    IllFormed [b] rest := by
  refine ⟨by simp, .inr rfl, fun c whole => never ⟨c, [], by simpa using whole⟩, ?_⟩
  rintro b' _ ⟨c, more, spelled⟩
  exact never ⟨c, b' :: more, by simpa using spelled⟩

/-- A byte that does not go on with what was begun is looked at anew. -/
theorem decodeFrom_refused {o : Opened} {b : UInt8} (refused : o.accepts b = false)
    (bytes : List UInt8) :
    decodeFrom (some o) (b :: bytes) = replacement :: decodeFrom none (b :: bytes) := by
  simp only [decodeFrom, refused]
  cases start b <;> rfl

/-- What comes after a byte that was taken, be it the first or a later one of its scalar value. -/
def resume (came : Start) (bytes : List UInt8) : List Char :=
  match came with
  | .single c => c :: decodeFrom none bytes
  | .opened o => decodeFrom (some o) bytes
  | .invalid => replacement :: decodeFrom none bytes

theorem decodeFrom_first (b : UInt8) (bytes : List UInt8) :
    decodeFrom none (b :: bytes) = resume (start b) bytes := rfl

theorem decodeFrom_accepted {o : Opened} {b : UInt8} (accepted : o.accepts b = true)
    (bytes : List UInt8) : decodeFrom (some o) (b :: bytes) = resume (o.push b) bytes := by
  rw [decodeFrom, if_pos accepted]
  rfl

theorem push_ne_invalid (o : Opened) (b : UInt8) : o.push b ≠ .invalid := by
  unfold Opened.push
  split <;> simp

theorem lossy_resume {part bytes : List UInt8} {came : Start} (spells : came.Spells part)
    (nonempty : part ≠ []) (known : came = .invalid → part.length = 1)
    (fresh : Lossy bytes (decodeFrom none bytes))
    (begun : ∀ part o, part ≠ [] → Opened.After part o →
      Lossy (part ++ bytes) (decodeFrom (some o) bytes)) :
    Lossy (part ++ bytes) (resume came bytes) := by
  cases came with
  | single c =>
    have whole : utf8EncodeChar c = part := by simpa using (spells c []).mpr ⟨rfl, rfl⟩
    rw [← whole]
    exact .scalar c fresh
  | opened o => exact begun part o nonempty spells
  | invalid =>
    obtain ⟨b, rfl⟩ := List.length_eq_one_iff.mp (known rfl)
    exact .part (illFormed_of_not_begins spells bytes) fresh

/-- Bytes are decoded lossily, and with them the part that was begun before them. -/
theorem lossy_or_begun (bytes : List UInt8) :
    Lossy bytes (decodeFrom none bytes) ∧
      ∀ part o, part ≠ [] → Opened.After part o →
        Lossy (part ++ bytes) (decodeFrom (some o) bytes) := by
  induction bytes with
  | nil =>
    refine ⟨.nil, fun part o nonempty after => ?_⟩
    exact .part (after.illFormed nonempty (by simp)) .nil
  | cons b bytes ih =>
    obtain ⟨fresh, begun⟩ := ih
    have first : Lossy (b :: bytes) (decodeFrom none (b :: bytes)) :=
      lossy_resume (start_spells b) (by simp) (fun _ => rfl) fresh begun
    refine ⟨first, fun part o nonempty after => ?_⟩
    cases accepted : o.accepts b with
    | false =>
      rw [decodeFrom_refused accepted]
      exact .part (after.illFormed nonempty (by simpa using accepted)) first
    | true =>
      rw [decodeFrom_accepted accepted, List.append_cons]
      exact lossy_resume (after.push accepted) (by simp)
        (fun invalid => absurd invalid (push_ne_invalid o b)) fresh begun

theorem lossy_decodeFrom (bytes : List UInt8) : Lossy bytes (decodeFrom none bytes) :=
  (lossy_or_begun bytes).1

/-- In the midst of a scalar value. -/
theorem Start.Spells.opened {came : Start} {c : Char} {part rest : List UInt8}
    (spells : came.Spells part) (spelled : utf8EncodeChar c = part ++ rest) (due : rest ≠ []) :
    ∃ o, came = .opened o ∧ o.After part := by
  cases came with
  | single d => exact absurd ((spells c rest).mp spelled).2 due
  | opened o => exact ⟨o, rfl, spells⟩
  | invalid => exact absurd ⟨c, rest, spelled⟩ spells

/-- At the last byte of a scalar value. -/
theorem Start.Spells.single {came : Start} {c : Char} {part : List UInt8}
    (spells : came.Spells part) (spelled : utf8EncodeChar c = part) : came = .single c := by
  rw [← List.append_nil part] at spelled
  cases came with
  | single d => rw [((spells c []).mp spelled).1]
  | opened o => exact absurd (by simpa using spelled) (Opened.After.unfinished spells c)
  | invalid => exact absurd ⟨c, [], spelled⟩ spells

theorem Start.Spells.invalid {came : Start} {part : List UInt8} (spells : came.Spells part)
    (never : ¬Begins part) : came = .invalid := by
  cases came with
  | single c => exact absurd ⟨c, [], (spells c []).mpr ⟨rfl, rfl⟩⟩ never
  | opened o => exact absurd (Opened.After.begins spells) never
  | invalid => rfl

theorem Opened.After.accepts {o : Opened} {part : List UInt8} (after : o.After part) {b : UInt8}
    (goesOn : Begins (part ++ [b])) : o.accepts b = true :=
  Bool.not_eq_false _ ▸ fun refused => after.not_begins refused goesOn

/-- The decoder holds whatever it has begun with. -/
theorem exists_after {c : Char} {part rest : List UInt8} (spelled : utf8EncodeChar c = part ++ rest)
    (begun : part ≠ []) (due : rest ≠ []) :
    ∃ o, Opened.After part o ∧
      ∀ bytes, decodeFrom none (part ++ bytes) = decodeFrom (some o) bytes := by
  induction part using List.reverseRecOn generalizing rest with
  | nil => exact absurd rfl begun
  | append_singleton part b ih =>
    by_cases first : part = []
    · subst first
      obtain ⟨o, came, after⟩ := (start_spells b).opened spelled due
      exact ⟨o, after, fun bytes => by rw [List.nil_append, List.singleton_append,
        decodeFrom_first, came, resume]⟩
    · obtain ⟨o, after, decoded⟩ := ih (by simpa using spelled) first (by simp)
      have accepted : o.accepts b = true := after.accepts ⟨c, rest, spelled⟩
      obtain ⟨o', came, after'⟩ := (after.push accepted).opened spelled due
      refine ⟨o', after', fun bytes => ?_⟩
      rw [← List.append_cons, decoded, decodeFrom_accepted accepted, came, resume]

theorem decodeFrom_scalar (c : Char) (bytes : List UInt8) :
    decodeFrom none (utf8EncodeChar c ++ bytes) = c :: decodeFrom none bytes := by
  obtain ⟨part, b, whole⟩ : ∃ part b, utf8EncodeChar c = List.concat part b :=
    (utf8EncodeChar c).eq_nil_or_concat.resolve_left (by simp [utf8EncodeChar_eq])
  rw [List.concat_eq_append] at whole
  rw [whole]
  by_cases first : part = []
  · subst first
    have came := (start_spells b).single whole
    rw [List.nil_append, List.singleton_append, decodeFrom_first, came, resume]
  · obtain ⟨o, after, decoded⟩ := exists_after whole first (by simp)
    have accepted : o.accepts b = true := after.accepts ⟨c, [], by simpa using whole⟩
    have came := (after.push accepted).single whole
    rw [← List.append_cons, decoded, decodeFrom_accepted accepted, came, resume]

theorem decodeFrom_illFormed {part rest : List UInt8} (illFormed : IllFormed part rest) :
    decodeFrom none (part ++ rest) = replacement :: decodeFrom none rest := by
  by_cases begins : Begins part
  · obtain ⟨c, more, spelled⟩ := begins
    have due : more ≠ [] := by
      rintro rfl
      exact illFormed.unfinished c (by simpa using spelled)
    obtain ⟨o, after, decoded⟩ := exists_after spelled illFormed.nonempty due
    rw [decoded]
    cases rest with
    | nil => rfl
    | cons b rest =>
      have stuck : ¬Begins (part ++ [b]) := illFormed.stuck b rfl
      cases accepted : o.accepts b with
      | false => exact decodeFrom_refused accepted rest
      | true => exact absurd ((after.push accepted).invalid stuck) (push_ne_invalid o b)
  · obtain ⟨b, rfl⟩ := List.length_eq_one_iff.mp (illFormed.begins.resolve_left begins)
    have came := (start_spells b).invalid begins
    rw [List.singleton_append, decodeFrom_first, came, resume]

/-- The decoder gives what lossy decoding is, and nothing else is lossy decoding. -/
theorem lossy_iff {bytes : List UInt8} {cs : List Char} :
    Lossy bytes cs ↔ decodeFrom none bytes = cs := by
  constructor
  · intro lossy
    induction lossy with
    | nil => rfl
    | scalar c _ ih => rw [decodeFrom_scalar, ih]
    | part illFormed _ ih => rw [decodeFrom_illFormed illFormed, ih]
  · rintro rfl
    exact lossy_decodeFrom bytes

end Overseer.Utf8
