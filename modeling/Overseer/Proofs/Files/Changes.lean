import Mathlib.Data.List.Basic
import Overseer.FileTree

/-!
What a change at one place of a tree of files leaves as it was: everything that is not at that place
or below it.
-/
namespace Overseer.FileTree

theorem node?_of_ne_nil (t : FileTree) {place : Place} (below : place ≠ []) :
    t.node? place = t.nodes.lookup place := by
  cases place with
  | nil => exact absurd rfl below
  | cons part parts => rfl

theorem lookup_filter_fst (keeps : Place → Bool) (nodes : List (Place × Node)) (place : Place) :
    (nodes.filter fun e => keeps e.1).lookup place =
      if keeps place then nodes.lookup place else none := by
  induction nodes with
  | nil => simp
  | cons e nodes ih =>
    obtain ⟨key, node⟩ := e
    by_cases here : place = key
    · subst here
      cases kept : keeps place <;> simp [kept, ih]
    · have differs : (place == key) = false := beq_eq_false_iff_ne.mpr here
      cases kept : keeps key <;> simp [List.lookup_cons, kept, differs, ih]

section

variable (t : FileTree) {place : Place} (below : place ≠ [])

include below

theorem node?_put (node : Node) (other : Place) :
    (t.put place node).node? other = if other = place then some node else t.node? other := by
  by_cases root : other = []
  · subst root
    rw [if_neg below.symm]
    rfl
  rw [node?_of_ne_nil _ root, node?_of_ne_nil _ root, put, List.lookup_append,
    lookup_filter_fst fun key => decide (key ≠ place)]
  by_cases here : other = place
  · simp [here]
  · have differs : (other == place) = false := beq_eq_false_iff_ne.mpr here
    simp [here, List.lookup_cons, differs]

theorem node?_erase (other : Place) :
    (t.erase place).node? other = if place <+: other then none else t.node? other := by
  by_cases root : other = []
  · subst root
    rw [if_neg (mt List.prefix_nil.mp below)]
    rfl
  rw [node?_of_ne_nil _ root, node?_of_ne_nil _ root, erase,
    lookup_filter_fst fun key => !place.isPrefixOf key]
  by_cases inside : place <+: other
  · simp [inside, List.isPrefixOf_iff_prefix.mpr inside]
  · have outside : place.isPrefixOf other = false :=
      Bool.eq_false_iff.mpr (mt List.isPrefixOf_iff_prefix.mp inside)
    simp [inside, outside]

end

/-- Two trees are the same but at a place and below it. -/
def Elsewhere (place : Place) (t t' : FileTree) : Prop :=
  ∀ other, ¬place <+: other → t.node? other = t'.node? other

section

variable {place : Place} {t t' : FileTree}

theorem Elsewhere.refl (place : Place) (t : FileTree) : Elsewhere place t t := fun _ _ => rfl

theorem Elsewhere.trans {t'' : FileTree} (same : Elsewhere place t t')
    (same' : Elsewhere place t' t'') : Elsewhere place t t'' :=
  fun other outside => (same other outside).trans (same' other outside)

theorem Elsewhere.put (same : Elsewhere place t t') (below : place ≠ []) (node : Node) :
    Elsewhere place (t.put place node) t' := by
  intro other outside
  have differs : other ≠ place := by
    rintro rfl
    exact outside List.prefix_rfl
  rw [node?_put t below, if_neg differs]
  exact same other outside

theorem Elsewhere.erase (same : Elsewhere place t t') (below : place ≠ []) :
    Elsewhere place (t.erase place) t' := by
  intro other outside
  rw [node?_erase t below, if_neg outside]
  exact same other outside

theorem Elsewhere.unlink (same : Elsewhere place t t') (below : place ≠ []) :
    Elsewhere place (t.unlink place) t' := by
  unfold FileTree.unlink
  split
  · exact same
  · exact same.erase below

/-- What is not a directory can be unlinked. -/
theorem node?_unlink {node : Node} (below : place ≠ []) (there : t.node? place = some node)
    (plain : node.isDirectory = false) : (t.unlink place).node? place = none := by
  have unlinked : t.unlink place = t.erase place := by
    rw [FileTree.unlink, isDirectory, there, Option.any_some, plain]
    rfl
  rw [unlinked, node?_erase t below, if_pos List.prefix_rfl]

theorem erase_erase (t : FileTree) (place : Place) : (t.erase place).erase place = t.erase place := by
  simp [FileTree.erase]

theorem unlink_unlink (t : FileTree) (place : Place) :
    (t.unlink place).unlink place = t.unlink place := by
  by_cases directory : t.isDirectory place = true
  · have stays : t.unlink place = t := if_pos directory
    rw [stays, stays]
  · have erased : t.unlink place = t.erase place := if_neg directory
    rw [erased, unlink, erase_erase, ite_self]

section

variable (more : ∀ other node, t.node? other = some node → t'.node? other = some node)

include more

theorem follow_mono {other : Place} (led : t.follow place = .ok other) :
    t'.follow place = .ok other := by
  unfold FileTree.follow at led ⊢
  cases there : t.node? place with
  | none =>
    rw [there] at led
    cases led
  | some node =>
    rw [there] at led
    rw [more _ _ there]
    cases node with
    | link target =>
      cases target with
      | none => cases led
      | some target =>
        cases found : t.node? target with
        | none => simp [found] at led
        | some node => simpa [found, more _ _ found] using led
    | directory | fixed | file | socket => exact led

theorem step_mono {part : String} {other : Place} (led : t.step place part = .ok other) :
    t'.step place part = .ok other := by
  unfold FileTree.step at led ⊢
  cases directory : t.isDirectory place with
  | false =>
    rw [directory] at led
    cases led
  | true =>
    have still : t'.isDirectory place = true := by
      obtain ⟨node, there, isDirectory⟩ := (Option.any_eq_true ..).mp directory
      rwa [FileTree.isDirectory, more _ _ there]
    rw [directory] at led
    rwa [still]

/-- A path that leads somewhere still does when there are more files. -/
theorem approach_mono {start : Place} {parts : List String}
    (named : t.approach start parts = .ok place) : t'.approach start parts = .ok place := by
  induction parts generalizing start with
  | nil => exact named
  | cons part parts ih =>
    cases parts with
    | nil => exact step_mono more named
    | cons next parts =>
      rw [approach] at named ⊢
      · cases stepped : t.step start part with
        | error e => simp [enter, stepped] at named
        | ok inside =>
          cases followed : t.follow inside with
          | error e => simp [enter, stepped, followed] at named
          | ok inside =>
            simp only [enter, stepped, followed] at named
            simp only [enter, step_mono more stepped, follow_mono more followed]
            exact ih named
      · simp
      · simp

end

/-- A path whose last part is no link leads to what it names. -/
theorem walk_of_approach {start : Place} {parts : List String}
    (named : t.approach start parts = .ok place) (stays : t.follow place = .ok place) :
    t.walk start parts = .ok place := by
  induction parts generalizing start with
  | nil => exact named
  | cons part parts ih =>
    cases parts with
    | nil =>
      have step : t.step start part = .ok place := named
      simp only [walk, enter, step, stays]
    | cons next parts =>
      rw [approach] at named
      · rw [walk]
        cases entered : t.enter start part with
        | error e =>
          rw [entered] at named
          cases named
        | ok inside =>
          rw [entered] at named
          exact ih named
      · simp

end

end Overseer.FileTree
