import Overseer.Proofs.Text.Decoding

/-!
Strict reading. No fault is found in the bytes of a text and in no others, and decoding gives that
text back.
-/
namespace Overseer.Utf8

open String (utf8EncodeChar)

theorem encode_eq (s : String) : encode s = s.toList.flatMap utf8EncodeChar := by
  rw [encode, String.toUTF8, ← String.utf8Encode_toList, List.utf8Encode, List.data_toByteArray]

theorem decodeFrom_flatMap (cs : List Char) : decodeFrom none (cs.flatMap utf8EncodeChar) = cs := by
  induction cs with
  | nil => rfl
  | cons c cs ih => rw [List.flatMap_cons, decodeFrom_scalar, ih]

theorem decode_encode (s : String) : decode (encode s) = s := by
  rw [decode, encode_eq, decodeFrom_flatMap, String.ofList_toList]

theorem encode_empty : encode "" = [] := rfl

/-- The bytes of one scalar value do not go on to those of another. -/
theorem eq_nil_of_utf8EncodeChar_append {c d : Char} {rest : List UInt8}
    (spelled : utf8EncodeChar d = utf8EncodeChar c ++ rest) : rest = [] := by
  have decoded := decodeFrom_flatMap [d]
  rw [List.flatMap_singleton, spelled, decodeFrom_scalar] at decoded
  obtain rfl : c = d := (List.cons.inj decoded).1
  exact List.self_eq_append_right.mp spelled

def Spelled (bytes : List UInt8) : Prop :=
  ∃ cs : List Char, bytes = cs.flatMap utf8EncodeChar

theorem spelled_iff_exists_encode {bytes : List UInt8} :
    Spelled bytes ↔ ∃ s, bytes = encode s := by
  constructor
  · rintro ⟨cs, rfl⟩
    exact ⟨String.ofList cs, by rw [encode_eq, String.toList_ofList]⟩
  · rintro ⟨s, rfl⟩
    exact ⟨s.toList, encode_eq s⟩

theorem Spelled.scalar {bytes : List UInt8} (spelled : Spelled bytes) (c : Char) :
    Spelled (utf8EncodeChar c ++ bytes) := by
  obtain ⟨cs, rfl⟩ := spelled
  exact ⟨c :: cs, rfl⟩

def Unfinished (part : List UInt8) : Prop :=
  ∀ c, ¬utf8EncodeChar c <+: part

theorem unfinished_nil : Unfinished [] := by
  intro c front
  rw [utf8EncodeChar_eq] at front
  cases List.prefix_nil.mp front

theorem Opened.After.unfinished_part {part : List UInt8} {o : Opened} (after : o.After part) :
    Unfinished part := by
  rintro c ⟨rest, rfl⟩
  obtain ⟨d, further, begun⟩ := after.begins
  rw [List.append_assoc] at begun
  have ended := eq_nil_of_utf8EncodeChar_append begun
  rw [(List.append_eq_nil_iff.mp ended).1, List.append_nil] at after
  exact after.unfinished c rfl

/-- What is unfinished lies within the first scalar value. -/
theorem Spelled.first {part bytes : List UInt8} {b : UInt8} (spelled : Spelled (part ++ b :: bytes))
    (unfinished : Unfinished part) :
    ∃ c tail rest, utf8EncodeChar c = part ++ [b] ++ tail ∧ bytes = tail ++ rest ∧
      Spelled rest := by
  obtain ⟨cs, same⟩ := spelled
  cases cs with
  | nil => simp at same
  | cons c cs =>
    rw [List.flatMap_cons] at same
    rcases List.append_eq_append_iff.mp same with ⟨tail, whole, rest⟩ | ⟨tail, longer, _⟩
    · cases tail with
      | nil => exact absurd ⟨[], by rw [whole]; simp⟩ (unfinished c)
      | cons a tail =>
        obtain ⟨rfl, rfl⟩ := List.cons.inj rest
        exact ⟨c, tail, _, by rw [whole, List.append_cons], rfl, cs, rfl⟩
    · exact absurd ⟨tail, longer.symm⟩ (unfinished c)

theorem not_spelled_of_unfinished {part : List UInt8} (unfinished : Unfinished part)
    (nonempty : part ≠ []) : ¬Spelled part := by
  rintro ⟨cs, rfl⟩
  cases cs with
  | nil => exact nonempty rfl
  | cons c cs => exact unfinished c ⟨_, rfl⟩

theorem not_spelled_of_not_begins {part bytes : List UInt8} {b : UInt8}
    (unfinished : Unfinished part) (never : ¬Begins (part ++ [b])) :
    ¬Spelled (part ++ b :: bytes) := by
  intro spelled
  obtain ⟨c, tail, _, whole, _, _⟩ := spelled.first unfinished
  exact never ⟨c, tail, whole⟩

/-- After the last byte of a scalar value only the later bytes count. -/
theorem spelled_append_iff {part bytes : List UInt8} {b : UInt8} {c : Char}
    (unfinished : Unfinished part) (spells : (Start.single c).Spells (part ++ [b])) :
    Spelled (part ++ b :: bytes) ↔ Spelled bytes := by
  constructor
  · intro spelled
    obtain ⟨d, tail, rest, whole, rfl, later⟩ := spelled.first unfinished
    obtain ⟨rfl, rfl⟩ := (spells d tail).mp whole
    exact later
  · intro spelled
    have whole : utf8EncodeChar c = part ++ [b] := by simpa using (spells c []).mpr ⟨rfl, rfl⟩
    rw [List.append_cons, ← whole]
    exact spelled.scalar c

/-- The reader finds no fault in bytes, or in a part that was begun with the bytes after it, just
if they are those of scalar values. -/
theorem faultFrom_eq_none_iff (bytes : List UInt8) :
    (∀ position begun, faultFrom position begun none bytes = none ↔ Spelled bytes) ∧
      ∀ part o, part ≠ [] → Opened.After part o → ∀ position begun,
        faultFrom position begun (some o) bytes = none ↔ Spelled (part ++ bytes) := by
  induction bytes with
  | nil =>
    refine ⟨fun _ _ => iff_of_true rfl ⟨[], rfl⟩, fun part o nonempty after _ _ => ?_⟩
    rw [List.append_nil]
    exact iff_of_false (by simp [faultFrom])
      (not_spelled_of_unfinished after.unfinished_part nonempty)
  | cons b bytes ih =>
    obtain ⟨fresh, goesOn⟩ := ih
    refine ⟨fun position begun => ?_, fun part o _ after position begun => ?_⟩
    · have spells := start_spells b
      rw [faultFrom]
      cases came : start b with
      | single c =>
        rw [came] at spells
        exact (fresh _ _).trans (spelled_append_iff unfinished_nil spells).symm
      | opened o =>
        rw [came] at spells
        exact goesOn [b] o (by simp) spells _ _
      | invalid =>
        rw [came] at spells
        exact iff_of_false (by simp) (not_spelled_of_not_begins unfinished_nil spells)
    · rw [faultFrom]
      cases accepted : o.accepts b with
      | false =>
        exact iff_of_false (by simp)
          (not_spelled_of_not_begins after.unfinished_part (after.not_begins accepted))
      | true =>
        have spells := after.push accepted
        rw [if_pos rfl]
        cases came : o.push b with
        | single c =>
          rw [came] at spells
          exact (fresh _ _).trans (spelled_append_iff after.unfinished_part spells).symm
        | opened o' =>
          rw [came] at spells
          rw [List.append_cons]
          exact goesOn _ o' (by simp) spells _ _
        | invalid => exact absurd came (push_ne_invalid o b)

theorem fault?_eq_none_iff {bytes : List UInt8} :
    fault? bytes = none ↔ ∃ s, bytes = encode s :=
  ((faultFrom_eq_none_iff bytes).1 0 0).trans spelled_iff_exists_encode

end Overseer.Utf8
