import Mathlib.Logic.Relation

/-!
The flag of an operation queue under any interleaving. Callers put operations in and then try the
flag; whoever sets it spawns a drain loop, which gives the flag up once it finds nothing, looks once
more and tries the flag itself. Every access to the operations or to the flag is one step, and any
number of callers and loops take their steps in any order.
-/
namespace Overseer.Queue

variable {α : Type}

/-- Where somebody stands who puts an operation in. -/
inductive Caller (α : Type) where
  | arriving (a : α)
  /-- It is in, and the flag is to be tried. -/
  | pushed
  deriving DecidableEq, Repr

/-- Where a drain loop stands. -/
inductive Loop (α : Type) where
  | spawned
  | popping
  | running (a : α)
  /-- Nothing was there. The flag is to be given up. -/
  | releasing
  /-- The flag is given up. Something may have come before it was. -/
  | looking
  /-- Something has come, and the flag is to be tried. -/
  | retrying
  deriving DecidableEq, Repr

/-- The loop was spawned for the flag or set it, and has not given it up. -/
def Loop.holds : Loop α → Bool
  | .spawned | .popping | .running _ | .releasing => true
  | .looking | .retrying => false

def Loop.retries : Loop α → Bool
  | .looking | .retrying => true
  | _ => false

/-- A queue with all who are at work on it. Those who are done are not listed. -/
structure Parties (α : Type) where
  items : List α := []
  draining : Bool := false
  callers : List (Caller α) := []
  loops : List (Loop α) := []
  deriving DecidableEq, Repr

namespace Parties

/-- One step of one party. -/
inductive Step (s : Parties α) : Parties α → Prop where
  | arrive (a : α) : Step s { s with callers := s.callers ++ [.arriving a] }
  | push (before after : List (Caller α)) (a : α)
      (place : s.callers = before ++ .arriving a :: after) :
      Step s { s with items := s.items ++ [a], callers := before ++ .pushed :: after }
  | win (before after : List (Caller α)) (place : s.callers = before ++ .pushed :: after)
      (free : s.draining = false) :
      Step s { s with
        draining := true, callers := before ++ after, loops := s.loops ++ [.spawned] }
  | lose (before after : List (Caller α)) (place : s.callers = before ++ .pushed :: after)
      (taken : s.draining = true) : Step s { s with callers := before ++ after }
  | begin (before after : List (Loop α)) (place : s.loops = before ++ .spawned :: after) :
      Step s { s with loops := before ++ .popping :: after }
  | pop (before after : List (Loop α)) (place : s.loops = before ++ .popping :: after) (a : α)
      (rest : List α) (first : s.items = a :: rest) :
      Step s { s with items := rest, loops := before ++ .running a :: after }
  | finish (before after : List (Loop α)) (a : α)
      (place : s.loops = before ++ .running a :: after) :
      Step s { s with loops := before ++ .popping :: after }
  | exhaust (before after : List (Loop α)) (place : s.loops = before ++ .popping :: after)
      (none : s.items = []) : Step s { s with loops := before ++ .releasing :: after }
  | release (before after : List (Loop α)) (place : s.loops = before ++ .releasing :: after) :
      Step s { s with draining := false, loops := before ++ .looking :: after }
  | leave (before after : List (Loop α)) (place : s.loops = before ++ .looking :: after)
      (none : s.items = []) : Step s { s with loops := before ++ after }
  | notice (before after : List (Loop α)) (place : s.loops = before ++ .looking :: after)
      (some : s.items ≠ []) : Step s { s with loops := before ++ .retrying :: after }
  | regain (before after : List (Loop α)) (place : s.loops = before ++ .retrying :: after)
      (free : s.draining = false) :
      Step s { s with draining := true, loops := before ++ .popping :: after }
  | yield (before after : List (Loop α)) (place : s.loops = before ++ .retrying :: after)
      (taken : s.draining = true) : Step s { s with loops := before ++ after }

abbrev Steps : Parties α → Parties α → Prop :=
  Relation.ReflTransGen Step

/-- What an idle and empty queue can come to. -/
def Reachable (s : Parties α) : Prop :=
  Steps {} s

/-- The flag counts the loops that hold it, and operations that no such loop will find are those of
somebody who is yet to try the flag. -/
structure Invariant (s : Parties α) : Prop where
  flag : s.loops.countP Loop.holds = s.draining.toNat
  covered : s.items ≠ [] →
    s.draining = true ∨ .pushed ∈ s.callers ∨ ∃ l ∈ s.loops, l.retries = true

theorem invariant_idle : Invariant ({} : Parties α) where
  flag := rfl
  covered some := absurd rfl some

theorem countP_holds_insert (before after : List (Loop α)) (l : Loop α) :
    (before ++ l :: after).countP Loop.holds =
      (before ++ after).countP Loop.holds + l.holds.toNat := by
  cases held : l.holds with
  | false => simp [held]
  | true =>
    simp [held]
    omega

/-- A loop that holds the flag finds it set, and no other loop holds it. -/
theorem Invariant.alone {s : Parties α} (invariant : Invariant s) {before after : List (Loop α)}
    {l : Loop α} (place : s.loops = before ++ l :: after) (holds : l.holds = true) :
    s.draining = true ∧ (before ++ after).countP Loop.holds = 0 := by
  have flag := invariant.flag
  rw [place, countP_holds_insert, holds] at flag
  cases draining : s.draining with
  | false => simp [draining] at flag
  | true => exact ⟨rfl, by simpa [draining] using flag⟩

/-- A loop that does not hold the flag leaves the count to the others. -/
theorem Invariant.others {s : Parties α} (invariant : Invariant s) {before after : List (Loop α)}
    {l : Loop α} (place : s.loops = before ++ l :: after) (released : l.holds = false) :
    (before ++ after).countP Loop.holds = s.draining.toNat := by
  have flag := invariant.flag
  rwa [place, countP_holds_insert, released] at flag

/-- A step of a loop that holds the flag and keeps it. -/
theorem Invariant.work {s : Parties α} (invariant : Invariant s) {before after : List (Loop α)}
    {l l' : Loop α} (place : s.loops = before ++ l :: after) (holds : l.holds = true)
    (keeps : l'.holds = true) (items : List α) :
    Invariant { s with items, loops := before ++ l' :: after } := by
  obtain ⟨draining, none⟩ := invariant.alone place holds
  refine ⟨(countP_holds_insert before after l').trans ?_, fun _ => .inl draining⟩
  rw [none, keeps, draining]
  rfl

theorem Invariant.step {s t : Parties α} (invariant : Invariant s) (step : Step s t) :
    Invariant t := by
  cases step with
  | arrive a =>
    refine ⟨invariant.flag, fun some => ?_⟩
    rcases invariant.covered some with draining | pushed | retries
    · exact .inl draining
    · exact .inr (.inl (List.mem_append_left _ pushed))
    · exact .inr (.inr retries)
  | push before after a place =>
    exact ⟨invariant.flag, fun _ => .inr (.inl (by simp))⟩
  | win before after place free =>
    have flag := invariant.flag
    rw [free] at flag
    refine ⟨?_, fun _ => .inl rfl⟩
    rw [List.countP_append, flag]
    rfl
  -- Whoever loses leaves its operation to the loop that holds the flag.
  | lose before after place taken => exact ⟨invariant.flag, fun _ => .inl taken⟩
  | begin before after place => exact invariant.work place rfl rfl s.items
  | pop before after place a rest first => exact invariant.work place rfl rfl rest
  | finish before after a place => exact invariant.work place rfl rfl s.items
  | exhaust before after place none => exact invariant.work place rfl rfl s.items
  | release before after place =>
    -- What came since the loop found nothing is covered by the loop itself, which looks again.
    obtain ⟨_, none⟩ := invariant.alone place rfl
    refine ⟨(countP_holds_insert before after .looking).trans ?_,
      fun _ => .inr (.inr ⟨.looking, by simp, rfl⟩)⟩
    rw [none]
    rfl
  | leave before after place none =>
    exact ⟨invariant.others place rfl, fun some => absurd none some⟩
  | notice before after place some =>
    refine ⟨(countP_holds_insert before after .retrying).trans ?_,
      fun _ => .inr (.inr ⟨.retrying, by simp, rfl⟩)⟩
    exact invariant.others place rfl
  | regain before after place free =>
    refine ⟨(countP_holds_insert before after .popping).trans ?_, fun _ => .inl rfl⟩
    rw [invariant.others place rfl, free]
    rfl
  | yield before after place taken =>
    exact ⟨invariant.others place rfl, fun _ => .inl taken⟩

theorem Invariant.steps {s t : Parties α} (invariant : Invariant s) (steps : Steps s t) :
    Invariant t := by
  induction steps with
  | refl => exact invariant
  | tail _ step ih => exact ih.step step

/-- Under any interleaving one drain loop at most holds the flag, and the flag says whether there is
one. While operations are there, the flag is set or somebody is yet to try it. So once all are done
nothing is left behind and the flag is free. -/
theorem reachable_drained {s : Parties α} (reachable : Reachable s) :
    s.loops.countP Loop.holds ≤ 1 ∧
      (s.draining = true ↔ ∃ l ∈ s.loops, l.holds = true) ∧
      (s.items ≠ [] →
        s.draining = true ∨ .pushed ∈ s.callers ∨ ∃ l ∈ s.loops, l.retries = true) ∧
      (s.callers = [] → s.loops = [] → s.items = [] ∧ s.draining = false) := by
  have invariant := invariant_idle.steps reachable
  have flag := invariant.flag
  have set : s.draining = true ↔ ∃ l ∈ s.loops, l.holds = true := by
    rw [← List.countP_pos_iff, flag]
    cases s.draining <;> simp
  refine ⟨?_, set, invariant.covered, ?_⟩
  · rw [flag]
    exact Bool.toNat_le s.draining
  · intro noCallers noLoops
    have free : s.draining = false := by
      rw [Bool.eq_false_iff, Ne, set, noLoops]
      simp
    refine ⟨?_, free⟩
    cases items : s.items with
    | nil => rfl
    | cons a rest =>
      rcases invariant.covered (by simp [items]) with draining | pushed | ⟨l, member, _⟩
      · simp [free] at draining
      · simp [noCallers] at pushed
      · simp [noLoops] at member

/-- A loop that gave the flag up, and found an operation then, is overtaken by the caller who
brought it. -/
theorem reachable_overtaken :
    Reachable (⟨[2], true, [], [.retrying, .spawned]⟩ : Parties Nat) := by
  have served : Reachable (⟨[], true, [], [.running 1]⟩ : Parties Nat) :=
    .tail (.tail (.tail (.tail (.tail .refl (.arrive 1)) (.push [] [] 1 rfl)) (.win [] [] rfl rfl))
      (.begin [] [] rfl)) (.pop [] [] rfl 1 [] rfl)
  have released : Reachable (⟨[], false, [.arriving 2], [.looking]⟩ : Parties Nat) :=
    .tail (.tail (.tail (.tail served (.arrive 2)) (.finish [] [] 1 rfl)) (.exhaust [] [] rfl rfl))
      (.release [] [] rfl)
  exact .tail (.tail (.tail released (.push [] [] 2 rfl)) (.notice [] [] rfl (by simp)))
    (.win [] [] rfl rfl)

theorem reachable_drained_overtaken :
    let s : Parties Nat := ⟨[2], true, [], [.retrying, .spawned]⟩
    Reachable s ∧ s.loops.countP Loop.holds ≤ 1 ∧
      (s.draining = true ↔ ∃ l ∈ s.loops, l.holds = true) ∧
      (s.items ≠ [] →
        s.draining = true ∨ .pushed ∈ s.callers ∨ ∃ l ∈ s.loops, l.retries = true) ∧
      (s.callers = [] → s.loops = [] → s.items = [] ∧ s.draining = false) :=
  ⟨reachable_overtaken, reachable_drained reachable_overtaken⟩

end Parties

end Overseer.Queue
