import Mathlib.Data.List.Induction
import Overseer.Proofs.Json.Values

/-!
The members of an object, which a decoder takes one after the other: it gets through a part of them
before it comes to the next, and the first that it does not take decides. Of one name there may be
any number of them.
-/
namespace Overseer.Json

namespace Value

theorem itemsFault?_eq_none {items : List Value} (sound : ∀ v ∈ items, v.fault? = none) :
    itemsFault? .closed items = none := by
  induction items with
  | nil => rfl
  | cons v items ih =>
    rw [itemsFault?, sound v (by simp)]
    exact ih fun w member => sound w (List.mem_cons_of_mem v member)

theorem membersFault?_eq_none {members : List (String × Value)}
    (sound : ∀ m ∈ members, m.2.fault? = none) :
    membersFault? .closed (written members) = none := by
  induction members with
  | nil => rfl
  | cons m members ih =>
    rw [written, List.map_cons, membersFault?, sound m (by simp)]
    exact ih fun n member => sound n (List.mem_cons_of_mem m member)

theorem Complete.fault?_eq_none {v : Value} (complete : v.Complete) : v.fault? = none := by
  induction complete with
  | null | boolean | number | string => rfl
  | array _ sound => exact itemsFault?_eq_none sound
  | object _ sound => exact membersFault?_eq_none sound

theorem Complete.skip {v : Value} (complete : v.Complete) : v.skip = .ok () := by
  rw [Value.skip, complete.fault?_eq_none]

end Value

theorem ofMembers_inj {members members' : List (String × Value)} :
    Value.ofMembers members = .ofMembers members' ↔ members = members' := by
  have inj (m m' : String × Value) (same : (Literal.text m.1, m.2) = (.text m'.1, m'.2)) :
      m = m' := by
    cases m
    cases m'
    simpa using same
  simp [Value.ofMembers, List.map_inj_right inj]

def valuesOf (name : String) (members : List (String × Value)) : List Value :=
  (members.filter fun m => m.1 = name).map Prod.snd

theorem valuesOf_append (name : String) (first later : List (String × Value)) :
    valuesOf name (first ++ later) = valuesOf name first ++ valuesOf name later := by
  rw [valuesOf, List.filter_append, List.map_append]
  rfl

theorem valuesOf_singleton (name other : String) (v : Value) :
    valuesOf name [(other, v)] = if other = name then [v] else [] := by
  by_cases same : other = name <;> simp [valuesOf, same]

theorem valuesOf_concat (name other : String) (v : Value) (members : List (String × Value)) :
    valuesOf name (members ++ [(other, v)]) =
      if other = name then valuesOf name members ++ [v] else valuesOf name members := by
  rw [valuesOf_append, valuesOf_singleton]
  split <;> simp

theorem valuesOf_eq_nil_iff (name : String) (members : List (String × Value)) :
    valuesOf name members = [] ↔ name ∉ members.map Prod.fst := by
  simp only [valuesOf, List.map_eq_nil_iff, List.filter_eq_nil_iff, decide_eq_true_eq, List.mem_map,
    not_exists, not_and]

/-- What a field holds after these values were given for it. -/
inductive Holds {α : Type} (decode : Value → Decoded α) : List Value → Option α → Prop
  | nothing : Holds decode [] none
  | value {v : Value} {a : α} (decoded : decode v = .ok a) : Holds decode [v] (some a)

section

variable {α : Type} {put : α → String → Value → Decoded α}

theorem foldMembers_append (a : α) (first later : List (String × Value)) :
    foldMembers put .closed a (written (first ++ later)) =
      (foldMembers put .closed a (written first)).bind fun b =>
        foldMembers put .closed b (written later) := by
  induction first generalizing a with
  | nil => rfl
  | cons m first ih =>
    simp only [written, List.map_cons, List.cons_append, foldMembers] at ih ⊢
    cases put a m.1 m.2 with
    | error e => rfl
    | ok b => exact ih b

theorem foldMembers_concat (a : α) (first : List (String × Value)) (m : String × Value) :
    foldMembers put .closed a (written (first ++ [m])) =
      (foldMembers put .closed a (written first)).bind fun b => put b m.1 m.2 := by
  rw [foldMembers_append]
  congr 1
  funext b
  simp only [written, List.map_cons, List.map_nil, foldMembers]
  cases put b m.1 m.2 <;> rfl

/-- Members are not taken because one of them is not, once those before it were. -/
theorem foldMembers_eq_error_iff (a : α) (members : List (String × Value)) (e : DecodeError) :
    foldMembers put .closed a (written members) = .error e ↔
      ∃ before m later b, members = before ++ m :: later ∧
        foldMembers put .closed a (written before) = .ok b ∧ put b m.1 m.2 = .error e := by
  constructor
  · intro failed
    induction members generalizing a with
    | nil => cases failed
    | cons m members ih =>
      simp only [written, List.map_cons, foldMembers] at failed
      cases taken : put a m.1 m.2 with
      | error e' =>
        rw [taken] at failed
        cases failed
        exact ⟨[], m, members, a, rfl, rfl, taken⟩
      | ok b =>
        rw [taken] at failed
        obtain ⟨before, n, later, c, rfl, passed, refused⟩ := ih b failed
        refine ⟨m :: before, n, later, c, rfl, ?_, refused⟩
        simp only [written, List.map_cons, foldMembers, taken]
        exact passed
  · rintro ⟨before, m, later, b, rfl, passed, refused⟩
    rw [foldMembers_append, passed]
    simp only [written, List.map_cons, Except.bind, foldMembers, refused]

end

end Overseer.Json
