import Overseer.Proofs.Queue.Tickets

/-!
What happens in a run of an operation queue, in which order and how often. Operations begin in the
order in which they were put in, and none is passed over before the queue is disposed of. What
happens to a single operation is one of a few tales.
-/
namespace Overseer.Queue.Service

variable {ι β : Type}

namespace Event

def arrived? : Event ι β → Option ι
  | .arrive n => some n
  | _ => none

def pushed? : Event ι β → Option ι
  | .push n => some n
  | _ => none

def taken? : Event ι β → Option ι
  | .take n => some n
  | _ => none

def begun? : Event ι β → Option ι
  | .begin n => some n
  | _ => none

variable [DecidableEq ι]

def concerns (n : ι) : Event ι β → Bool
  | .refuse m | .arrive m | .begin m | .skip m | .conclude m _ | .tell m => m = n
  | _ => false

/-- The event gives an outcome to the ticket, or loses it if the ticket was dropped. -/
def resolves (n : ι) : Event ι β → Bool
  | .refuse m | .tell m => m = n
  | _ => false

theorem concerns_of_resolves {n : ι} {e : Event ι β} (resolves : e.resolves n = true) :
    e.concerns n = true := by
  cases e <;> simp_all [Event.resolves, concerns]

end Event

def arrivedIn (trace : List (Event ι β)) : List ι :=
  trace.filterMap Event.arrived?

def pushedIn (trace : List (Event ι β)) : List ι :=
  trace.filterMap Event.pushed?

def takenIn (trace : List (Event ι β)) : List ι :=
  trace.filterMap Event.taken?

def begunIn (trace : List (Event ι β)) : List ι :=
  trace.filterMap Event.begun?

section

variable (trace : List (Event ι β)) (e : Event ι β)

theorem arrivedIn_concat : arrivedIn (trace ++ [e]) = arrivedIn trace ++ e.arrived?.toList := by
  rw [arrivedIn, List.filterMap_append]
  cases e <;> rfl

theorem pushedIn_concat : pushedIn (trace ++ [e]) = pushedIn trace ++ e.pushed?.toList := by
  rw [pushedIn, List.filterMap_append]
  cases e <;> rfl

theorem takenIn_concat : takenIn (trace ++ [e]) = takenIn trace ++ e.taken?.toList := by
  rw [takenIn, List.filterMap_append]
  cases e <;> rfl

theorem begunIn_concat : begunIn (trace ++ [e]) = begunIn trace ++ e.begun?.toList := by
  rw [begunIn, List.filterMap_append]
  cases e <;> rfl

end

theorem mem_begunIn {n : ι} {trace : List (Event ι β)} :
    n ∈ begunIn trace ↔ .begin n ∈ trace := by
  simp only [begunIn, List.mem_filterMap]
  constructor
  · rintro ⟨e, member, begun⟩
    cases e <;> simp_all [Event.begun?]
  · exact fun member => ⟨_, member, rfl⟩

/-- The operation in hand, as long as nobody looked whether the queue was disposed of. -/
def unchecked (s : Service ι β) : List ι :=
  s.inHand.filter fun n => (s.stage n).any Stage.isWaiting

/-- Operations that arrive are put in once, and they are taken in the order in which they were put
in. Those that began come first of those taken, and nothing but what is unchecked comes after them
until the queue is disposed of. -/
structure Ordered (trace : List (Event ι β)) (s : Service ι β) : Prop where
  arrived : (pushedIn trace ++ s.arriving).Perm (arrivedIn trace)
  fifo : pushedIn trace = takenIn trace ++ s.items
  begun : ∃ rest, takenIn trace = begunIn trace ++ rest ∧ (s.disposed = false → rest = s.unchecked)

theorem ordered_idle : Ordered [] ({} : Service ι β) where
  arrived := .nil
  fifo := rfl
  begun := ⟨[], rfl, fun _ => rfl⟩

theorem unchecked_congr {s t : Service ι β} (inHand : t.inHand = s.inHand)
    (same : ∀ n ∈ s.inHand, (t.stage n).any Stage.isWaiting = (s.stage n).any Stage.isWaiting) :
    t.unchecked = s.unchecked := by
  rw [unchecked, unchecked, inHand]
  exact List.filter_congr same

theorem Ordered.aside {s t : Service ι β} {trace : List (Event ι β)} {e : Event ι β}
    (ordered : Ordered trace s) (arrived : e.arrived? = none) (pushed : e.pushed? = none)
    (taken : e.taken? = none) (begun : e.begun? = none) (arriving : t.arriving = s.arriving)
    (items : t.items = s.items)
    (unchecked : t.disposed = false → s.disposed = false ∧ t.unchecked = s.unchecked) :
    Ordered (trace ++ [e]) t := by
  obtain ⟨rest, taken', all⟩ := ordered.begun
  constructor
  · rw [pushedIn_concat, arrivedIn_concat, pushed, arrived, arriving]
    simpa using ordered.arrived
  · rw [pushedIn_concat, takenIn_concat, pushed, taken, items]
    simpa using ordered.fifo
  · rw [takenIn_concat, begunIn_concat, taken, begun]
    refine ⟨rest, by simpa using taken', fun undisposed => ?_⟩
    obtain ⟨before, same⟩ := unchecked undisposed
    rw [same, all before]

theorem Ordered.arrive {s t : Service ι β} {trace : List (Event ι β)} (ordered : Ordered trace s)
    {n : ι} (arriving : t.arriving = s.arriving ++ [n]) (items : t.items = s.items)
    (disposed : t.disposed = s.disposed) (unchecked : t.unchecked = s.unchecked) :
    Ordered (trace ++ [.arrive n]) t := by
  constructor
  · rw [pushedIn_concat, arrivedIn_concat, arriving]
    simpa [Event.arrived?, Event.pushed?] using ordered.arrived.append_right [n]
  · rw [pushedIn_concat, takenIn_concat, items]
    simpa [Event.pushed?, Event.taken?] using ordered.fifo
  · rw [takenIn_concat, begunIn_concat, disposed, unchecked]
    simpa [Event.taken?, Event.begun?] using ordered.begun

theorem Ordered.push {s t : Service ι β} {trace : List (Event ι β)} (ordered : Ordered trace s)
    {n : ι} (arriving : s.arriving.Perm (n :: t.arriving)) (items : t.items = s.items ++ [n])
    (disposed : t.disposed = s.disposed) (unchecked : t.unchecked = s.unchecked) :
    Ordered (trace ++ [.push n]) t := by
  constructor
  · rw [pushedIn_concat, arrivedIn_concat]
    have same := (arriving.append_left (pushedIn trace)).symm.trans ordered.arrived
    simpa [Event.arrived?, Event.pushed?] using same
  · rw [pushedIn_concat, takenIn_concat, items, ordered.fifo]
    simp [Event.pushed?, Event.taken?]
  · rw [takenIn_concat, begunIn_concat, disposed, unchecked]
    simpa [Event.taken?, Event.begun?] using ordered.begun

/-- Before the disposal everything that was taken began, as nothing is in hand. -/
theorem Ordered.take {s t : Service ι β} {trace : List (Event ι β)} (ordered : Ordered trace s)
    {n : ι} {rest : List ι} (first : s.items = n :: rest) (items : t.items = rest)
    (arriving : t.arriving = s.arriving) (disposed : t.disposed = s.disposed)
    (before : s.unchecked = []) (after : t.unchecked = [n]) : Ordered (trace ++ [.take n]) t := by
  obtain ⟨late, taken, all⟩ := ordered.begun
  constructor
  · rw [pushedIn_concat, arrivedIn_concat, arriving]
    simpa [Event.arrived?, Event.pushed?] using ordered.arrived
  · rw [pushedIn_concat, takenIn_concat, items, ordered.fifo, first]
    simp [Event.pushed?, Event.taken?]
  · rw [takenIn_concat, begunIn_concat, taken, disposed, after]
    refine ⟨late ++ [n], by simp [Event.taken?, Event.begun?], fun undisposed => ?_⟩
    rw [all undisposed, before, List.nil_append]

theorem Ordered.begin {s t : Service ι β} {trace : List (Event ι β)} (ordered : Ordered trace s)
    {n : ι} (items : t.items = s.items) (arriving : t.arriving = s.arriving)
    (undisposed : s.disposed = false) (before : s.unchecked = [n]) (after : t.unchecked = []) :
    Ordered (trace ++ [.begin n]) t := by
  obtain ⟨late, taken, all⟩ := ordered.begun
  constructor
  · rw [pushedIn_concat, arrivedIn_concat, arriving]
    simpa [Event.arrived?, Event.pushed?] using ordered.arrived
  · rw [pushedIn_concat, takenIn_concat, items]
    simpa [Event.pushed?, Event.taken?] using ordered.fifo
  · rw [takenIn_concat, begunIn_concat, taken, all undisposed, before, after]
    exact ⟨[], by simp [Event.taken?, Event.begun?], fun _ => rfl⟩

variable [DecidableEq ι]

/-- Only an operation that waits is unchecked, whatever its ticket is told. -/
theorem unchecked_update {s t : Service ι β} {n : ι} {stage : Stage β}
    (inHand : t.inHand = s.inHand) (moves : t.stage = Function.update s.stage n (some stage))
    (same : n ∈ s.inHand → (s.stage n).any Stage.isWaiting = stage.isWaiting) :
    t.unchecked = s.unchecked := by
  refine unchecked_congr inHand fun m hand => ?_
  rw [moves]
  by_cases here : m = n
  · subst here
    rw [Function.update_self, same hand, Option.any_some]
  · rw [Function.update_of_ne here]

theorem Ordered.step {s t : Service ι β} {trace : List (Event ι β)} {e : Event ι β}
    (ordered : Ordered trace s) (placed : s.Placed) (invariant : s.toParties.Invariant)
    (step : Step s e t) : Ordered (trace ++ [e]) t := by
  have invariant' := step.invariant invariant
  cases step with
  | refuse n new disposed =>
    exact ordered.aside rfl rfl rfl rfl rfl rfl fun undisposed => by simp [disposed] at undisposed
  | arrive n new undisposed =>
    refine ordered.arrive (Parties.arriving_arrive rfl) rfl rfl (unchecked_update rfl rfl ?_)
    exact fun hand => absurd new (placed.known n (List.mem_append_right _ hand))
  | push before after n place =>
    exact ordered.push (Parties.arriving_push place rfl) rfl rfl rfl
  | take before after n rest place first =>
    -- Nothing was unchecked, and what is taken has waited until now.
    have free := invariant.inHand_eq place rfl
    have hand := invariant'.inHand_eq rfl rfl
    have waiting := placed.waiting n (List.mem_append_right _ (by simp [first]))
    refine ordered.take first rfl rfl rfl ?_ ?_
    · rw [unchecked, free]
      rfl
    · rw [unchecked, hand]
      simp [Loop.item?, waiting, Stage.isWaiting]
  | begin n hand waiting undisposed =>
    have only := invariant.inHand_of_mem hand
    refine ordered.begin rfl rfl undisposed ?_ ?_
    · rw [unchecked, only]
      simp [waiting, Stage.isWaiting]
    · rw [unchecked, move_toParties, only]
      simp [Stage.isWaiting]
  | skip n hand waiting disposed =>
    exact ordered.aside rfl rfl rfl rfl rfl rfl fun undisposed => by simp [disposed] at undisposed
  | conclude n ending executing =>
    refine ordered.aside rfl rfl rfl rfl rfl rfl fun undisposed =>
      ⟨undisposed, unchecked_update rfl rfl fun _ => ?_⟩
    rw [executing]
    rfl
  | tell n outcome ended =>
    refine ordered.aside rfl rfl rfl rfl rfl rfl fun undisposed =>
      ⟨undisposed, unchecked_update rfl rfl fun _ => ?_⟩
    rw [ended]
    rfl
  | finish before after n place outcome told =>
    have hand := invariant.inHand_eq place rfl
    have free := invariant'.inHand_eq rfl rfl
    refine ordered.aside rfl rfl rfl rfl rfl rfl fun undisposed => ⟨undisposed, ?_⟩
    rw [unchecked, unchecked, hand, free]
    simp [Loop.item?, told, Stage.isWaiting]
  | turn p step items arriving inHand =>
    exact ordered.aside rfl rfl rfl rfl arriving items fun undisposed =>
      ⟨undisposed, unchecked_congr inHand fun _ _ => rfl⟩
  | dispose => exact ordered.aside rfl rfl rfl rfl rfl rfl fun undisposed => by simp at undisposed
  | forget n => exact ordered.aside rfl rfl rfl rfl rfl rfl fun undisposed => ⟨undisposed, rfl⟩

/-- What happened to an operation, wherever it was, by the time that it stands where it does. -/
inductive Tale (n : ι) : Option (Stage β) → List (Event ι β) → Prop where
  | unknown : Tale n none []
  | refused : Tale n (some (.told (.error .cancelled))) [.refuse n]
  | waiting : Tale n (some .waiting) [.arrive n]
  | executing : Tale n (some .executing) [.arrive n, .begin n]
  | ended (ending : Ending β) :
      Tale n (some (.ended ending.outcome)) [.arrive n, .begin n, .conclude n ending]
  | told (ending : Ending β) :
      Tale n (some (.told ending.outcome)) [.arrive n, .begin n, .conclude n ending, .tell n]
  | skipped : Tale n (some (.ended (.error .cancelled))) [.arrive n, .skip n]
  | cancelled : Tale n (some (.told (.error .cancelled))) [.arrive n, .skip n, .tell n]

def about (n : ι) (trace : List (Event ι β)) : List (Event ι β) :=
  trace.filter (Event.concerns n)

theorem about_concat (n : ι) (trace : List (Event ι β)) (e : Event ι β) :
    about n (trace ++ [e]) = if e.concerns n then about n trace ++ [e] else about n trace := by
  rw [about, List.filter_append]
  cases concerns : e.concerns n <;> simp [about, concerns]

theorem Step.stage_eq {s t : Service ι β} {e : Event ι β} (step : Step s e t) {n : ι}
    (apart : e.concerns n = false) : t.stage n = s.stage n := by
  cases step with
  | turn | push | take | finish | dispose | forget => rfl
  | _ =>
    have other : n ≠ _ := Ne.symm (of_decide_eq_false apart)
    exact Function.update_of_ne other _ _

theorem Tale.step {s t : Service ι β} {e : Event ι β} (step : Step s e t) {n : ι}
    {trace : List (Event ι β)} (tale : Tale n (s.stage n) (about n trace)) :
    Tale n (t.stage n) (about n (trace ++ [e])) := by
  rw [about_concat]
  split
  next concerns =>
    -- Where the operation stands leaves one tale, or two if its ticket is to be told.
    generalize about n trace = past at tale ⊢
    cases step with
    | turn | push | take | finish | dispose | forget => simp [Event.concerns] at concerns
    | refuse m new disposed =>
      obtain rfl : m = n := of_decide_eq_true concerns
      rw [new] at tale
      cases tale
      simpa using Tale.refused
    | arrive m new undisposed =>
      obtain rfl : m = n := of_decide_eq_true concerns
      rw [new] at tale
      cases tale
      simpa using Tale.waiting
    | begin m hand waiting undisposed =>
      obtain rfl : m = n := of_decide_eq_true concerns
      rw [waiting] at tale
      cases tale
      simpa using Tale.executing
    | skip m hand waiting disposed =>
      obtain rfl : m = n := of_decide_eq_true concerns
      rw [waiting] at tale
      cases tale
      simpa using Tale.skipped
    | conclude m ending executing =>
      obtain rfl : m = n := of_decide_eq_true concerns
      rw [executing] at tale
      cases tale
      simpa using Tale.ended ending
    | tell m outcome ended =>
      obtain rfl : m = n := of_decide_eq_true concerns
      rw [ended] at tale
      cases tale with
      | ended ending => simpa using Tale.told ending
      | skipped => simpa using Tale.cancelled
  next apart =>
    rw [step.stage_eq (Bool.eq_false_iff.mpr apart)]
    exact tale

/-- What a ticket gave is what it was told, and it gave that if it was not dropped. -/
structure Answered (s : Service ι β) : Prop where
  told : ∀ n outcome, s.resolved n = some outcome → s.stage n = some (.told outcome)
  heard : ∀ n outcome, s.stage n = some (.told outcome) → s.dropped n = false →
    s.resolved n = some outcome

/-- A step tells a ticket what it was not told yet, or it has no part in what that was told. -/
theorem Step.answers {s t : Service ι β} {e : Event ι β} (step : Step s e t) (n : ι) :
    (∃ outcome, t = s.tell n outcome ∧ ∀ old, s.stage n ≠ some (.told old)) ∨
      t.resolved n = s.resolved n ∧
        ∀ outcome, t.stage n = some (.told outcome) ↔ s.stage n = some (.told outcome) := by
  cases concerns : e.concerns n with
  | false =>
    refine .inr ⟨?_, by simp [step.stage_eq concerns]⟩
    cases step with
    | refuse m | tell m => exact tell_resolved_of_ne _ _ _ (Ne.symm (of_decide_eq_false concerns))
    | _ => rfl
  | true =>
    cases step with
    | turn | push | take | finish | dispose | forget => simp [Event.concerns] at concerns
    | refuse m new disposed =>
      obtain rfl : m = n := of_decide_eq_true concerns
      exact .inl ⟨_, rfl, by simp [new]⟩
    | tell m outcome ended =>
      obtain rfl : m = n := of_decide_eq_true concerns
      exact .inl ⟨_, rfl, by simp [ended]⟩
    | arrive m known | begin m _ known | skip m _ known | conclude m _ known =>
      obtain rfl : m = n := of_decide_eq_true concerns
      exact .inr ⟨rfl, by simp [known]⟩

theorem Step.dropped {s t : Service ι β} {e : Event ι β} (step : Step s e t) {n : ι}
    (held : t.dropped n = false) : s.dropped n = false := by
  cases step with
  | forget m =>
    by_cases same : n = m
    · simp [same] at held
    · simpa [same] using held
  | _ => exact held

theorem Answered.step {s t : Service ι β} {e : Event ι β} (answered : s.Answered)
    (step : Step s e t) : t.Answered := by
  constructor
  · intro n outcome resolved
    rcases step.answers n with ⟨now, rfl, untold⟩ | ⟨same, told⟩
    · cases held : s.dropped n with
      | false =>
        rw [tell_resolved_self s n now held, Option.some_inj] at resolved
        simp [resolved]
      | true =>
        simp only [tell, held, if_true] at resolved
        exact absurd (answered.told n outcome resolved) (untold outcome)
    · exact (told outcome).mpr (answered.told n outcome (same.symm.trans resolved))
  · intro n outcome stage held
    rcases step.answers n with ⟨now, rfl, _⟩ | ⟨same, told⟩
    · obtain rfl : now = outcome := by simpa using stage
      exact tell_resolved_self s n now held
    · exact same.trans (answered.heard n outcome ((told outcome).mp stage) (step.dropped held))

/-- A ticket gives one outcome only. -/
theorem Answered.keeps {s t : Service ι β} {e : Event ι β} (answered : s.Answered)
    (step : Step s e t) {n : ι} {outcome : Except QueueError β}
    (resolved : s.resolved n = some outcome) : t.resolved n = some outcome := by
  rcases step.answers n with ⟨_, _, untold⟩ | ⟨same, _⟩
  · exact absurd (answered.told n outcome resolved) (untold outcome)
  · exact same.trans resolved

structure Closed (trace : List (Event ι β)) (s : Service ι β) : Prop where
  disposed : .dispose ∈ trace → s.disposed = true
  still : ∀ before after, trace = before ++ .dispose :: after → begunIn after = []

theorem Closed.step {s t : Service ι β} {trace : List (Event ι β)} {e : Event ι β}
    (closed : Closed trace s) (step : Step s e t) : Closed (trace ++ [e]) t := by
  constructor
  · intro member
    rcases List.mem_append.mp member with old | new
    · have disposed := closed.disposed old
      cases step <;> first | exact disposed | rfl
    · obtain rfl := List.mem_singleton.mp new
      cases step
      rfl
  · -- Either the disposal is the last event, or it came before the step.
    intro before after split
    rcases after.eq_nil_or_concat with rfl | ⟨after, last, rfl⟩
    · rfl
    · rw [List.concat_eq_append, ← List.cons_append, ← List.append_assoc] at split
      obtain ⟨rfl, last'⟩ := List.append_inj' split rfl
      obtain rfl := List.singleton_inj.mp last'
      have disposed := closed.disposed (by simp)
      rw [List.concat_eq_append, begunIn_concat, closed.still before after rfl]
      cases step with
      | begin n hand waiting undisposed => simp [disposed] at undisposed
      | _ => rfl

structure History (trace : List (Event ι β)) (s : Service ι β) : Prop where
  parties : s.toParties.Invariant
  placed : s.Placed
  ordered : Ordered trace s
  tale : ∀ n, Tale n (s.stage n) (about n trace)
  answered : s.Answered
  closed : Closed trace s

theorem runs_history {s : Service ι β} {trace : List (Event ι β)} (run : Runs {} trace s) :
    History trace s := by
  induction run with
  | start =>
    refine ⟨Parties.invariant_idle, placed_idle, ordered_idle, fun _ => .unknown, ?_, ?_⟩
    · constructor <;> intro n outcome none <;> simp at none
    · constructor
      · simp
      · intro before after none
        simp at none
  | next run step ih =>
    exact ⟨step.invariant ih.parties, ih.placed.step ih.parties step,
      ih.ordered.step ih.placed ih.parties step, fun n => (ih.tale n).step step,
      ih.answered.step step, ih.closed.step step⟩

end Overseer.Queue.Service
