import Mathlib.Data.List.Sort
import Overseer.Settings

/-!
Variables that are set one after the other: the last value of each counts, and no other variable is
set.
-/
namespace Overseer

theorem bytesBefore_irrefl (bytes : List UInt8) : bytesBefore bytes bytes = false := by
  induction bytes with
  | nil => rfl
  | cons b bytes ih => simp [bytesBefore, ih]

namespace Environment

theorem ne_of_precedes {a b : String} (before : precedes a b) : a ≠ b := by
  rintro rfl
  rw [precedes, bytesBefore_irrefl] at before
  cases before

theorem lookup_cons (name value other : String) (entries : List Variable) :
    ((name, value) :: entries).lookup other =
      if other = name then some value else entries.lookup other := by
  by_cases same : other = name
  · simp [same]
  · have distinct : (other == name) = false := by simpa using same
    rw [List.lookup_cons, distinct, if_neg same]

theorem lookup_insertEntry (name value other : String) (entries : List Variable) :
    (insertEntry name value entries).lookup other =
      if other = name then some value else entries.lookup other := by
  induction entries with
  | nil => exact lookup_cons name value other []
  | cons entry rest ih =>
    obtain ⟨key, held⟩ := entry
    unfold insertEntry
    by_cases equal : key = name
    · subst equal
      rw [if_pos rfl, lookup_cons, lookup_cons]
      split <;> rfl
    · rw [if_neg equal]
      split
      · rw [lookup_cons, lookup_cons, ih]
        by_cases here : other = key
        · subst here
          simp [equal]
        · simp [here]
      · exact lookup_cons name value other _

theorem get?_insert (e : Environment) (name value other : String) :
    (e.insert name value).get? other = if other = name then some value else e.get? other :=
  lookup_insertEntry name value other e.entries

/-- The last value that a variable is given is the one it has. -/
theorem get?_foldl (e : Environment) (pairs : List Variable) (name : String) :
    (pairs.foldl (fun e v => e.insert v.1 v.2) e).get? name =
      (pairs.reverse.lookup name).or (e.get? name) := by
  induction pairs generalizing e with
  | nil => simp
  | cons pair pairs ih =>
    obtain ⟨key, value⟩ := pair
    rw [List.foldl_cons, ih, get?_insert, List.reverse_cons, List.lookup_append, lookup_cons]
    cases pairs.reverse.lookup name with
    | some held => rfl
    | none => split <;> rfl

theorem mem_of_lookup {name value : String} {entries : List Variable}
    (found : entries.lookup name = some value) : (name, value) ∈ entries := by
  induction entries with
  | nil => cases found
  | cons entry rest ih =>
    obtain ⟨key, held⟩ := entry
    rw [lookup_cons] at found
    split at found
    next same =>
      cases found
      exact same ▸ List.mem_cons_self
    next => exact List.mem_cons_of_mem _ (ih found)

theorem lookup_of_mem {name value : String} {entries : List Variable} (ascending : Ascending entries)
    (member : (name, value) ∈ entries) : entries.lookup name = some value := by
  induction entries with
  | nil => cases member
  | cons entry rest ih =>
    obtain ⟨key, held⟩ := entry
    obtain ⟨least, ascending⟩ := List.pairwise_cons.mp ascending
    rw [lookup_cons]
    rcases List.mem_cons.mp member with first | later
    · cases first
      exact if_pos rfl
    · rw [if_neg (ne_of_precedes (least _ later)).symm]
      exact ih ascending later

/-- Environments are the same that give each variable the same value. -/
theorem ext_get? {e f : Environment} (same : ∀ name, e.get? name = f.get? name) : e = f := by
  have part {e f : Environment} (same : ∀ name, e.get? name = f.get? name) :
      e.entries ⊆ f.entries := fun entry member =>
    mem_of_lookup ((same entry.1).symm.trans (lookup_of_mem e.ascending member))
  have irrefl : Std.Irrefl fun a b : Variable => precedes a.1 b.1 = true :=
    ⟨fun _ before => ne_of_precedes before rfl⟩
  have antisymm : Std.Antisymm fun a b : Variable => precedes a.1 b.1 = true :=
    ⟨fun _ _ before after => absurd rfl (ne_of_precedes (precedes_trans before after))⟩
  cases e
  cases f
  rw [Environment.mk.injEq]
  exact List.Subset.antisymm_of_pairwise (by assumption) (by assumption) (part same)
    (part fun name => (same name).symm)

end Environment

end Overseer

namespace Overseer.Settings

theorem foldl_withEnv (s : Settings) (pairs : List Variable) :
    pairs.foldl (fun s v => s.withEnv v.1 v.2) s =
      { s with environment := pairs.foldl (fun e v => e.insert v.1 v.2) s.environment } := by
  induction pairs generalizing s with
  | nil => rfl
  | cons pair pairs ih => exact ih (s.withEnv pair.1 pair.2)

end Overseer.Settings
