import Overseer.Proofs.Json.Members

/-!
Structures that are given as arrays. The items are taken as the members of an object are that have
the names of the fields, in order, and what is wrong with an item is wrong with its member. Only
once all of them are taken does their number count.
-/
namespace Overseer.Json

/-- How a decoder of structures takes arrays, where some fields are required: as objects, unless
there are not enough items or too many. Items beyond the last field may be anything. -/
structure Positional {β : Type} (ofJson : Value → Decoded β) (fields : List String)
    (required : Nat) (shown : String) (fits : String → Value → Prop) : Prop where
  same : ∀ items : List Value, required ≤ items.length → items.length ≤ fields.length →
    ofJson (.array items .closed) = ofJson (.ofMembers (fields.zip items))
  texts : ∀ items : List Value, (∀ v ∈ items, v.Complete) → required ≤ items.length →
    items.length ≤ fields.length →
      decodeText ofJson (Value.array items .closed).render =
        decodeText ofJson (Value.ofMembers (fields.zip items)).render
  few : ∀ items : List Value, items.length < required →
    (∀ m ∈ fields.zip items, fits m.1 m.2) →
      ofJson (.array items .closed) = .error (.wrongLength items.length shown)
  many : ∀ items : List Value, fields.length < items.length →
    (∀ m ∈ fields.zip items, fits m.1 m.2) → ofJson (.array items .closed) = .error malformed

theorem complete_zip {fields : List String} {items : List Value}
    (complete : ∀ v ∈ items, v.Complete) : ∀ m ∈ fields.zip items, m.2.Complete :=
  fun _ member => complete _ (List.of_mem_zip member).2

namespace Shape

variable {α β : Type} (s : Shape α β)

/-- What becomes of what was taken of `count` items, when `more` items follow and `left` fields. -/
def measure (count left more : Nat) (a : α) : Decoded α :=
  if left < more then .error malformed
  else if more < left ∧ count + more < s.required then
    .error (.wrongLength (count + more) s.lengthText)
  else .ok a

theorem foldItems_closed (a : α) (count : Nat) (fields : List String) (items : List Value) :
    s.foldItems .closed a count fields items =
      (foldMembers s.put .closed a (written (fields.zip items))).bind
        (s.measure count fields.length items.length) := by
  induction fields generalizing a count items with
  | nil =>
    cases items with
    | nil => rfl
    | cons v items => simp [foldItems, foldMembers, Except.bind, measure, Ending.fault?, written]
  | cons field fields ih =>
    cases items with
    | nil => simp [foldItems, foldMembers, Except.bind, measure, Ending.fault?, written]
    | cons v items =>
      simp only [foldItems, List.zip_cons_cons, written, List.map_cons, foldMembers]
      cases s.put a field v with
      | error e => rfl
      | ok b =>
        have shifted (x : α) : s.measure (count + 1) fields.length items.length x =
            s.measure count (field :: fields).length (v :: items).length x := by
          have sum : count + 1 + items.length = count + (items.length + 1) := by omega
          simp only [measure, List.length_cons, sum, Nat.add_lt_add_iff_right]
        exact (ih b (count + 1) items).trans (congrArg _ (funext shifted))

def taken (items : List Value) : Decoded α :=
  foldMembers s.put .closed s.start (written (s.fields.zip items))

theorem decode_array (items : List Value) :
    s.decode (.array items .closed) =
      ((s.taken items).bind (s.measure 0 s.fields.length items.length)).bind s.finish :=
  congrArg (Except.bind · s.finish) (s.foldItems_closed s.start 0 s.fields items)

theorem decode_array_of_enough {items : List Value} (enough : s.required ≤ items.length)
    (most : items.length ≤ s.fields.length) :
    s.decode (.array items .closed) = s.decode (.ofMembers (s.fields.zip items)) := by
  have kept : s.measure 0 s.fields.length items.length = .ok := by
    funext a
    rw [measure, if_neg (by omega), if_neg (by omega)]
  have whole (x : Decoded α) : x.bind .ok = x := by cases x <;> rfl
  rw [decode_array, kept, whole]
  rfl

/-- Items that fit are taken, so that it is their number that is wrong. -/
theorem positional {fits : String → Value → Prop} (needed : s.required ≤ s.fields.length)
    (takes : ∀ items, (∀ m ∈ s.fields.zip items, fits m.1 m.2) → ∃ a, s.taken items = .ok a) :
    Positional s.decode s.fields s.required s.lengthText fits where
  same _ enough most := s.decode_array_of_enough enough most
  texts items complete enough most := by
    rw [decodeText_render _ (.array complete),
      decodeText_render _ (.object (complete_zip complete))]
    exact s.decode_array_of_enough enough most
  few items few fit := by
    obtain ⟨a, taken⟩ := takes items fit
    rw [decode_array, taken, Except.bind, measure, if_neg (by omega),
      if_pos ⟨by omega, by omega⟩, Nat.zero_add]
    rfl
  many items many fit := by
    obtain ⟨a, taken⟩ := takes items fit
    rw [decode_array, taken, Except.bind, measure, if_pos many]
    rfl

end Shape

end Overseer.Json
