import Mathlib.Data.List.Nodup
import Overseer.Failure
import Overseer.Proofs.Queue.Draining

/-!
An operation queue with the tickets of its operations, under any interleaving. Whoever enqueues
looks whether the queue was disposed of, and puts the operation in later. The drain loop that has an
operation in hand looks again, runs the operation to its end and tells the ticket. At any time the
queue may be disposed of, a ticket dropped or another operation enqueued, also by the operation that
is executing.
-/
namespace Overseer.Queue

variable {ι β : Type}

def Caller.item? : Caller ι → Option ι
  | .arriving n => some n
  | .pushed => none

def Loop.item? : Loop ι → Option ι
  | .running n => some n
  | _ => none

theorem Loop.holds_of_item? {l : Loop ι} {n : ι} (item : l.item? = some n) : l.holds = true := by
  cases l <;> simp_all [Loop.item?, Loop.holds]

namespace Parties

def arriving (s : Parties ι) : List ι :=
  s.callers.filterMap Caller.item?

def inHand (s : Parties ι) : List ι :=
  s.loops.filterMap Loop.item?

def underway (s : Parties ι) : List ι :=
  s.arriving ++ s.items ++ s.inHand

theorem inHand_of_alone {before after : List (Loop ι)}
    (alone : (before ++ after).countP Loop.holds = 0) (l : Loop ι) :
    (before ++ l :: after).filterMap Loop.item? = l.item?.toList := by
  have none : ∀ l ∈ before ++ after, l.item? = none := by
    intro l member
    cases item : l.item? with
    | none => rfl
    | some n => exact absurd (Loop.holds_of_item? item) (List.countP_eq_zero.mp alone l member)
  rw [List.filterMap_append, List.filterMap_cons,
    List.filterMap_eq_nil_iff.mpr fun l member => none l (List.mem_append_left _ member),
    List.filterMap_eq_nil_iff.mpr fun l member => none l (List.mem_append_right _ member)]
  cases l.item? <;> rfl

theorem arriving_arrive {s t : Parties ι} {n : ι}
    (callers : t.callers = s.callers ++ [.arriving n]) : t.arriving = s.arriving ++ [n] := by
  rw [arriving, callers, List.filterMap_append]
  rfl

theorem arriving_push {s t : Parties ι} {before after : List (Caller ι)} {n : ι}
    (place : s.callers = before ++ .arriving n :: after)
    (callers : t.callers = before ++ .pushed :: after) : s.arriving.Perm (n :: t.arriving) := by
  rw [arriving, arriving, place, callers, List.filterMap_append, List.filterMap_append]
  exact List.perm_middle

/-- A loop that holds the flag is the only one that has an operation in hand. -/
theorem Invariant.inHand_eq {s : Parties ι} (invariant : s.Invariant) {before after : List (Loop ι)}
    {l : Loop ι} (place : s.loops = before ++ l :: after) (holds : l.holds = true) :
    s.inHand = l.item?.toList := by
  rw [inHand, place, inHand_of_alone (invariant.alone place holds).2]

theorem Invariant.inHand_of_mem {s : Parties ι} (invariant : s.Invariant) {n : ι}
    (hand : n ∈ s.inHand) : s.inHand = [n] := by
  obtain ⟨l, member, item⟩ := List.mem_filterMap.mp hand
  obtain ⟨before, after, place⟩ := List.append_of_mem member
  rw [invariant.inHand_eq place (Loop.holds_of_item? item), item]
  rfl

end Parties

inductive Ending (β : Type) where
  | returned (b : β)
  | panicked

def Ending.outcome : Ending β → Except QueueError β
  | .returned b => .ok b
  | .panicked => .error .panicked

/-- Where an operation that was enqueued stands. -/
inductive Stage (β : Type) where
  | waiting
  | executing
  /-- It ended or was skipped, and its ticket is to be told. -/
  | ended (outcome : Except QueueError β)
  | told (outcome : Except QueueError β)

def Stage.isWaiting : Stage β → Bool
  | .waiting => true
  | _ => false

/-- A queue with its parties and with the tickets that it gave out. -/
structure Service (ι β : Type) extends Parties ι where
  disposed : Bool := false
  stage : ι → Option (Stage β) := fun _ => none
  dropped : ι → Bool := fun _ => false
  /-- What the ticket gave to whoever held it. -/
  resolved : ι → Option (Except QueueError β) := fun _ => none

namespace Service

inductive Event (ι β : Type) where
  /-- An enqueue that finds the queue disposed of. -/
  | refuse (n : ι)
  /-- An enqueue that does not, and is yet to put the operation in. -/
  | arrive (n : ι)
  | push (n : ι)
  | take (n : ι)
  /-- The operation in hand begins, as the queue is not disposed of. -/
  | begin (n : ι)
  | skip (n : ι)
  | conclude (n : ι) (ending : Ending β)
  | tell (n : ι)
  /-- The loop is done with the operation in hand. -/
  | finish (n : ι)
  /-- A step of a party for the flag. -/
  | turn
  | dispose
  | forget (n : ι)

/-- No operation is in two places. Until a loop has it in hand it waits, and wherever it stands
otherwise it was told of. -/
structure Placed (s : Service ι β) : Prop where
  once : s.underway.Nodup
  waiting : ∀ n ∈ s.arriving ++ s.items, s.stage n = some .waiting
  known : ∀ n ∈ s.underway, s.stage n ≠ none
  gone : ∀ n stage, s.stage n = some stage → n ∉ s.underway → ∃ outcome, stage = .told outcome

theorem placed_idle : Placed ({} : Service ι β) where
  once := List.nodup_nil
  waiting n member := by simp [Parties.arriving] at member
  known n member := by simp [Parties.underway, Parties.arriving, Parties.inHand] at member
  gone n stage known := by simp at known

/-- An operation that began and whose ticket was not told is in hand. -/
theorem Placed.hand {s : Service ι β} (placed : s.Placed) {n : ι} {stage : Stage β}
    (stands : s.stage n = some stage) (begun : stage.isWaiting = false)
    (untold : ∀ outcome, stage ≠ .told outcome) : n ∈ s.inHand := by
  by_contra absent
  by_cases member : n ∈ s.arriving ++ s.items
  · have waiting := placed.waiting n member
    rw [stands, Option.some_inj] at waiting
    simp [waiting, Stage.isWaiting] at begun
  · obtain ⟨outcome, told⟩ := placed.gone n stage stands fun underway =>
      (List.mem_append.mp underway).elim member absent
    exact untold outcome told

/-- Once nobody is at work, every operation that was enqueued was told of. -/
theorem Placed.told_of_idle {s : Service ι β} (placed : s.Placed) (items : s.items = [])
    (callers : s.callers = []) (loops : s.loops = []) {n : ι} (known : s.stage n ≠ none) :
    ∃ outcome, s.stage n = some (.told outcome) := by
  have nowhere : n ∉ s.underway := by
    simp [Parties.underway, Parties.arriving, Parties.inHand, items, callers, loops]
  obtain ⟨stage, stands⟩ := Option.ne_none_iff_exists'.mp known
  obtain ⟨outcome, rfl⟩ := placed.gone n stage stands nowhere
  exact ⟨outcome, stands⟩

/-- Operations that only change places still wait as long as nobody has them in hand. -/
theorem Placed.flow {s t : Service ι β} (placed : s.Placed) (stage : t.stage = s.stage)
    (same : t.underway.Perm s.underway)
    (fewer : t.arriving ++ t.items ⊆ s.arriving ++ s.items) : t.Placed where
  once := same.nodup_iff.mpr placed.once
  waiting n member := stage ▸ placed.waiting n (fewer member)
  known n member := stage ▸ placed.known n (same.subset member)
  gone n st known absent :=
    placed.gone n st (stage ▸ known) fun member => absent (same.symm.subset member)

theorem Placed.push {s t : Service ι β} (placed : s.Placed) {n : ι}
    (arriving : s.arriving.Perm (n :: t.arriving)) (items : t.items = s.items ++ [n])
    (inHand : t.inHand = s.inHand) (stage : t.stage = s.stage) : t.Placed := by
  have same : (t.arriving ++ (s.items ++ [n])).Perm (s.arriving ++ s.items) := by
    rw [← List.append_assoc]
    exact (List.perm_append_singleton n _).trans (arriving.append_right s.items).symm
  refine placed.flow stage ?_ ?_
  · rw [Parties.underway, Parties.underway, items, inHand]
    exact same.append_right s.inHand
  · rw [items]
    exact same.subset

theorem Placed.take {s t : Service ι β} (placed : s.Placed) {n : ι} {rest : List ι}
    (first : s.items = n :: rest) (items : t.items = rest) (arriving : t.arriving = s.arriving)
    (free : s.inHand = []) (inHand : t.inHand = [n]) (stage : t.stage = s.stage) : t.Placed := by
  refine placed.flow stage ?_ ?_
  · rw [Parties.underway, Parties.underway, arriving, items, inHand, first, free, List.append_nil,
      List.append_assoc]
    exact (List.perm_append_singleton n rest).append_left s.arriving
  · intro m member
    rw [first]
    rw [arriving, items, List.mem_append] at member
    exact List.mem_append.mpr (member.imp_right (List.mem_cons_of_mem n))

theorem Placed.finish {s t : Service ι β} (placed : s.Placed) {n : ι}
    {outcome : Except QueueError β} (told : s.stage n = some (.told outcome))
    (arriving : t.arriving = s.arriving) (items : t.items = s.items) (hand : s.inHand = [n])
    (inHand : t.inHand = []) (stage : t.stage = s.stage) : t.Placed := by
  have old : s.underway = s.arriving ++ s.items ++ [n] := by rw [Parties.underway, hand]
  have new : t.underway = s.arriving ++ s.items := by
    rw [Parties.underway, arriving, items, inHand, List.append_nil]
  constructor
  · rw [new]
    exact (List.nodup_append.mp (old ▸ placed.once)).1
  · rw [arriving, items, stage]
    exact placed.waiting
  · rw [new, stage]
    exact fun m member => placed.known m (old ▸ List.mem_append_left _ member)
  · intro m st known absent
    rw [stage] at known
    by_cases same : m = n
    · rw [same, told, Option.some_inj] at known
      exact ⟨outcome, known.symm⟩
    · refine placed.gone m st known fun member => ?_
      rw [old] at member
      exact (List.mem_append.mp member).elim (new ▸ absent) fun last =>
        same (List.mem_singleton.mp last)

variable [DecidableEq ι]

def move (s : Service ι β) (n : ι) (stage : Stage β) : Service ι β :=
  { s with stage := Function.update s.stage n (some stage) }

/-- Nobody hears of the outcome if the ticket was dropped. -/
def tell (s : Service ι β) (n : ι) (outcome : Except QueueError β) : Service ι β :=
  { s.move n (.told outcome) with
    resolved := if s.dropped n then s.resolved else Function.update s.resolved n (some outcome) }

inductive Step (s : Service ι β) : Event ι β → Service ι β → Prop where
  | refuse (n : ι) (new : s.stage n = none) (disposed : s.disposed = true) :
      Step s (.refuse n) (s.tell n (.error .cancelled))
  | arrive (n : ι) (new : s.stage n = none) (undisposed : s.disposed = false) :
      Step s (.arrive n) { s.move n .waiting with callers := s.callers ++ [.arriving n] }
  | push (before after : List (Caller ι)) (n : ι)
      (place : s.callers = before ++ .arriving n :: after) :
      Step s (.push n)
        { s with items := s.items ++ [n], callers := before ++ .pushed :: after }
  | take (before after : List (Loop ι)) (n : ι) (rest : List ι)
      (place : s.loops = before ++ .popping :: after) (first : s.items = n :: rest) :
      Step s (.take n) { s with items := rest, loops := before ++ .running n :: after }
  | begin (n : ι) (hand : n ∈ s.inHand) (waiting : s.stage n = some .waiting)
      (undisposed : s.disposed = false) : Step s (.begin n) (s.move n .executing)
  | skip (n : ι) (hand : n ∈ s.inHand) (waiting : s.stage n = some .waiting)
      (disposed : s.disposed = true) :
      Step s (.skip n) (s.move n (.ended (.error .cancelled)))
  | conclude (n : ι) (ending : Ending β) (executing : s.stage n = some .executing) :
      Step s (.conclude n ending) (s.move n (.ended ending.outcome))
  | tell (n : ι) (outcome : Except QueueError β) (ended : s.stage n = some (.ended outcome)) :
      Step s (.tell n) (s.tell n outcome)
  | finish (before after : List (Loop ι)) (n : ι)
      (place : s.loops = before ++ .running n :: after) (outcome : Except QueueError β)
      (told : s.stage n = some (.told outcome)) :
      Step s (.finish n) { s with loops := before ++ .popping :: after }
  | turn (p : Parties ι) (step : Parties.Step s.toParties p) (items : p.items = s.items)
      (arriving : p.arriving = s.arriving) (inHand : p.inHand = s.inHand) :
      Step s .turn { s with toParties := p }
  | dispose : Step s .dispose { s with disposed := true }
  | forget (n : ι) : Step s (.forget n) { s with dropped := Function.update s.dropped n true }

inductive Runs (s : Service ι β) : List (Event ι β) → Service ι β → Prop where
  | start : Runs s [] s
  | next {trace : List (Event ι β)} {t u : Service ι β} {e : Event ι β} (run : Runs s trace t)
      (step : Step t e u) : Runs s (trace ++ [e]) u

theorem runs_nil {s t : Service ι β} : Runs s [] t ↔ t = s := by
  refine ⟨fun run => ?_, fun same => same ▸ .start⟩
  generalize none : [] = trace at run
  cases run with
  | start => rfl
  | next => simp at none

theorem runs_concat {s u : Service ι β} {trace : List (Event ι β)} {e : Event ι β} :
    Runs s (trace ++ [e]) u ↔ ∃ t, Runs s trace t ∧ Step t e u := by
  refine ⟨fun run => ?_, fun ⟨_, run, step⟩ => run.next step⟩
  generalize whole : trace ++ [e] = whole at run
  cases run with
  | start => simp at whole
  | next run step =>
    obtain ⟨rfl, last⟩ := List.append_inj' whole rfl
    obtain rfl := List.singleton_inj.mp last
    exact ⟨_, run, step⟩

section

variable (s : Service ι β) (n : ι) (stage : Stage β) (outcome : Except QueueError β)

@[simp] theorem move_toParties : (s.move n stage).toParties = s.toParties := rfl

@[simp] theorem move_disposed : (s.move n stage).disposed = s.disposed := rfl

@[simp] theorem move_stage : (s.move n stage).stage = Function.update s.stage n (some stage) := rfl

@[simp] theorem tell_disposed : (s.tell n outcome).disposed = s.disposed := rfl

@[simp] theorem tell_stage :
    (s.tell n outcome).stage = Function.update s.stage n (some (.told outcome)) := rfl

theorem tell_resolved_self (held : s.dropped n = false) :
    (s.tell n outcome).resolved n = some outcome := by
  simp [tell, held]

theorem tell_resolved_of_ne {m : ι} (other : m ≠ n) :
    (s.tell n outcome).resolved m = s.resolved m := by
  simp only [tell]
  split
  · rfl
  · exact Function.update_of_ne other _ _

end

/-- What is seen of a step from the flag is nothing or a step of the parties. -/
theorem Step.parties {s t : Service ι β} {e : Event ι β} (step : Step s e t) :
    t.toParties = s.toParties ∨ Parties.Step s.toParties t.toParties := by
  cases step with
  | arrive n new undisposed => exact .inr (.arrive n)
  | push before after n place => exact .inr (.push before after n place)
  | take before after n rest place first => exact .inr (.pop before after place n rest first)
  | finish before after n place outcome told => exact .inr (.finish before after n place)
  | turn p step items arriving inHand => exact .inr step
  | _ => exact .inl rfl

theorem Step.invariant {s t : Service ι β} {e : Event ι β} (step : Step s e t)
    (invariant : s.toParties.Invariant) : t.toParties.Invariant := by
  rcases step.parties with same | moved
  · rwa [same]
  · exact invariant.step moved

theorem Runs.reachable {s : Service ι β} {trace : List (Event ι β)} (run : Runs {} trace s) :
    Parties.Reachable s.toParties := by
  induction run with
  | start => exact .refl
  | next run step ih =>
    rcases step.parties with same | moved
    · rwa [same]
    · exact ih.tail moved

theorem Runs.parties {s : Service ι β} {trace : List (Event ι β)} (run : Runs {} trace s) :
    s.toParties.Invariant :=
  Parties.invariant_idle.steps run.reachable

/-- An operation that nobody waits for may move on. It is in hand, or its ticket is told. -/
theorem Placed.moved {s t : Service ι β} (placed : s.Placed) {n : ι} {stage : Stage β}
    (parties : t.toParties = s.toParties)
    (moves : t.stage = Function.update s.stage n (some stage)) (free : s.stage n ≠ some .waiting ∨
      n ∈ s.inHand) (place : n ∈ s.underway ∨ ∃ outcome, stage = .told outcome) : t.Placed := by
  -- In the queue or on its way there everything waits, and nothing is there and in hand.
  have absent : n ∉ s.arriving ++ s.items := by
    intro member
    rcases free with ready | hand
    · exact ready (placed.waiting n member)
    · exact (List.nodup_append.mp placed.once).2.2 n member n hand rfl
  constructor
  · rw [parties]
    exact placed.once
  · intro m member
    rw [parties] at member
    rw [moves, Function.update_of_ne (ne_of_mem_of_not_mem member absent)]
    exact placed.waiting m member
  · intro m member
    rw [moves]
    by_cases same : m = n
    · simp [same]
    · rw [Function.update_of_ne same]
      exact placed.known m (parties ▸ member)
  · intro m st known out
    rw [moves] at known
    rw [parties] at out
    by_cases same : m = n
    · subst same
      obtain rfl : stage = st := by simpa using known
      exact place.resolve_left out
    · rw [Function.update_of_ne same] at known
      exact placed.gone m st known out

theorem Placed.arrive {s t : Service ι β} (placed : s.Placed) {n : ι} (new : s.stage n = none)
    (arriving : t.arriving = s.arriving ++ [n]) (items : t.items = s.items)
    (inHand : t.inHand = s.inHand) (stage : t.stage = Function.update s.stage n (some .waiting)) :
    t.Placed := by
  have fresh : n ∉ s.underway := fun member => placed.known n member new
  have same : t.underway.Perm (n :: s.underway) := by
    rw [List.perm_iff_count]
    intro m
    simp only [Parties.underway, arriving, items, inHand, List.count_append, List.count_cons,
      List.count_nil]
    omega
  constructor
  · exact same.nodup_iff.mpr (List.nodup_cons.mpr ⟨fresh, placed.once⟩)
  · intro m member
    rw [stage]
    by_cases here : m = n
    · simp [here]
    · rw [Function.update_of_ne here]
      apply placed.waiting
      simpa [arriving, items, here] using member
  · intro m member
    rw [stage]
    by_cases here : m = n
    · simp [here]
    · rw [Function.update_of_ne here]
      exact placed.known m ((List.mem_cons.mp (same.subset member)).resolve_left here)
  · intro m st known absent
    have others : m ∉ n :: s.underway := fun member => absent (same.symm.subset member)
    rw [stage, Function.update_of_ne (List.ne_of_not_mem_cons others)] at known
    exact placed.gone m st known (List.not_mem_of_not_mem_cons others)

theorem Placed.step {s t : Service ι β} {e : Event ι β} (placed : s.Placed)
    (invariant : s.toParties.Invariant) (step : Step s e t) : t.Placed := by
  have hand : ∀ {n}, n ∈ s.inHand → n ∈ s.underway := List.mem_append_right _
  have invariant' := step.invariant invariant
  cases step with
  | refuse n new disposed => exact placed.moved rfl rfl (.inl (by simp [new])) (.inr ⟨_, rfl⟩)
  | arrive n new undisposed => exact placed.arrive new (Parties.arriving_arrive rfl) rfl rfl rfl
  | push before after n place =>
    exact placed.push (Parties.arriving_push place rfl) rfl rfl rfl
  | take before after n rest place first =>
    -- The loop that takes holds the flag, so no other one has anything in hand.
    have free := invariant.inHand_eq place rfl
    exact placed.take first rfl rfl free (invariant'.inHand_eq rfl rfl) rfl
  | begin n inHand | skip n inHand =>
    exact placed.moved rfl rfl (.inr inHand) (.inl (hand inHand))
  | conclude n ending executing =>
    have inHand := placed.hand executing rfl nofun
    exact placed.moved rfl rfl (.inr inHand) (.inl (hand inHand))
  | tell n outcome ended =>
    exact placed.moved rfl rfl (.inl (by simp [ended])) (.inr ⟨outcome, rfl⟩)
  | finish before after n place outcome told =>
    have only := invariant.inHand_eq place rfl
    exact placed.finish told rfl rfl only (invariant'.inHand_eq rfl rfl) rfl
  | turn p step items arriving inHand =>
    have same : p.underway = s.underway := by
      simp only [Parties.underway, items, arriving, inHand]
    exact placed.flow rfl (.of_eq same) (by simp [items, arriving])
  | dispose => exact placed.flow rfl (.refl _) (List.Subset.refl _)
  | forget n => exact placed.flow rfl (.refl _) (List.Subset.refl _)

end Service

end Overseer.Queue
