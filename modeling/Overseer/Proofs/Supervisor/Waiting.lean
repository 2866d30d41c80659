import Mathlib.Data.List.Induction
import Overseer.Proofs.Supervisor.Parting
import Overseer.Supervisor.Script

/-!
What those are told who wait for a change or for a line of output. The changes of a supervisor are
sent one after the other, lines are sent whenever a reader has one, and a waiter is polled at any
time: before all that, between any two steps of the owner, or long after the owner is gone.
-/
namespace Overseer

/-- Nothing is lost as long as there is room. -/
theorem Broadcast.Receiver.push_of_room {α : Type} {r : Receiver α} {items : List α}
    (room : (r.held ++ items).length ≤ r.capacity) :
    r.push items = { r with held := r.held ++ items } := by
  rw [push, Nat.sub_eq_zero_of_le room]
  rfl

namespace Supervision

open Supervisor (Estate)

/-- A supervisor with all who hold on to it, and how many of its changes were sent. -/
structure Airing where
  estate : Estate
  sent : Nat := 0

namespace Airing

inductive Event where
  | estate (ev : Estate.Event)
  /-- The next change is sent, if there is one. -/
  | send
  | print (line : String)

def sends (a : Airing) : Event → List Notice
  | .estate _ => []
  | .send => a.estate.changes[a.sent]?.toList.map .change
  | .print line => [.output line]

def move (a : Airing) : Event → Airing
  | .estate ev => { a with estate := a.estate.advance ev }
  | .send => { a with sent := if a.sent < a.estate.changes.length then a.sent + 1 else a.sent }
  | .print _ => a

def run (a : Airing) : List Event → Airing
  | [] => a
  | ev :: events => (a.move ev).run events

/-- All that is sent in the course of some events. -/
def notices (a : Airing) : List Event → List Notice
  | [] => []
  | ev :: events => a.sends ev ++ (a.move ev).notices events

def isDropped (a : Airing) : Bool :=
  match a.estate.owner with
  | .held | .disposed => false
  | .announced | .stripped | .gone => true

theorem run_append (a : Airing) (earlier later : List Event) :
    a.run (earlier ++ later) = (a.run earlier).run later := by
  induction earlier generalizing a with
  | nil => rfl
  | cons ev earlier ih => exact ih (a.move ev)

theorem notices_append (a : Airing) (earlier later : List Event) :
    a.notices (earlier ++ later) = a.notices earlier ++ (a.run earlier).notices later := by
  induction earlier generalizing a with
  | nil => rfl
  | cons ev earlier ih => rw [List.cons_append, notices, ih, ← List.append_assoc]; rfl

theorem changes_advance (e : Estate) (ev : Estate.Event) :
    e.changes <+: (e.advance ev).changes := by
  have grows : e.log <+: (e.move ev).log := by
    cases ev with
    | take =>
      simp only [Estate.move, Estate.take]
      repeat' split
      all_goals exact List.prefix_refl _
    | perform launched =>
      simp only [Estate.move, Estate.perform]
      split
      · exact List.prefix_refl _
      · exact List.prefix_append _ _
    | complete =>
      simp only [Estate.move, Estate.complete]
      split <;> exact List.prefix_refl _
    | _ => exact ⟨[], by rw [List.append_nil, (e.idles_move (by rfl)).log]⟩
  obtain ⟨more, same⟩ := grows
  rw [Estate.advance, Estate.changes, Estate.changes, (e.move ev).idles_settle.log, ← same,
    List.flatMap_append]
  exact List.prefix_append _ _

/-- The changes that were sent are the first of those that were made, in their order. -/
theorem changesOf_notices (a : Airing) (bound : a.sent ≤ a.estate.changes.length)
    (events : List Event) :
    (a.run events).sent ≤ (a.run events).estate.changes.length ∧
      a.estate.changes.take a.sent ++ changesOf (a.notices events) =
        (a.run events).estate.changes.take (a.run events).sent := by
  induction events generalizing a with
  | nil => exact ⟨bound, List.append_nil _⟩
  | cons ev events ih =>
    have step : (a.move ev).sent ≤ (a.move ev).estate.changes.length ∧
        a.estate.changes.take a.sent ++ changesOf (a.sends ev) =
          (a.move ev).estate.changes.take (a.move ev).sent := by
      cases ev with
      | estate ev =>
        obtain ⟨more, same⟩ := changes_advance a.estate ev
        simp only [move, sends, changesOf, List.filterMap_nil, List.append_nil]
        rw [← same]
        refine ⟨by simp; omega, ?_⟩
        rw [List.take_append_of_le_length bound]
      | send =>
        simp only [move, sends]
        split
        next more =>
          refine ⟨more, ?_⟩
          rw [List.getElem?_eq_getElem more, List.take_add_one, List.getElem?_eq_getElem more]
          rfl
        next =>
          refine ⟨bound, ?_⟩
          rw [List.getElem?_eq_none (by omega)]
          simp [changesOf]
      | print line => exact ⟨bound, by simp [sends, changesOf, move]⟩
    obtain ⟨within, same⟩ := ih (a.move ev) step.1
    refine ⟨within, ?_⟩
    rw [notices, changesOf, List.filterMap_append, ← List.append_assoc]
    exact (congrArg (· ++ _) step.2).trans same

end Airing

/-- What happens one after the other while somebody waits. -/
inductive Moment where
  | event (ev : Airing.Event)
  /-- Takes what came. -/
  | look
  /-- Looks whether the supervisor was dropped. -/
  | giveUp

/-- A poll looks for what came first, and for the drop after that. Anything may happen between its
two looks. -/
inductive Turn where
  | event (ev : Airing.Event)
  | poll (meanwhile : List Airing.Event)

def Turn.moments : Turn → List Moment
  | .event ev => [.event ev]
  | .poll meanwhile => .look :: (meanwhile.map .event ++ [.giveUp])

def momentsOf (turns : List Turn) : List Moment :=
  turns.flatMap Turn.moments

def eventsOf (moments : List Moment) : List Airing.Event :=
  moments.filterMap fun
    | .event ev => some ev
    | .look | .giveUp => none

structure Vigil where
  airing : Airing
  watch : Watch

namespace Vigil

def step (v : Vigil) : Moment → Vigil
  | .event ev => ⟨v.airing.move ev, v.watch.hear (v.airing.sends ev)⟩
  | .look => { v with watch := v.watch.look }
  | .giveUp => { v with watch := v.watch.giveUp v.airing.isDropped }

def run (v : Vigil) (moments : List Moment) : Vigil :=
  moments.foldl step v

/-- From the beginning until the waiter first looks for what came, and from one time that it does to
the next, no more is sent to it than it can hold. -/
def Prompt (v : Vigil) (moments : List Moment) : Prop :=
  ∀ before between later, moments = before ++ between ++ later → .look ∉ between →
    (((v.airing.run (eventsOf before)).notices (eventsOf between)).filter
      v.watch.awaited.hears).length ≤ v.watch.awaited.capacity

theorem run_append (v : Vigil) (earlier later : List Moment) :
    v.run (earlier ++ later) = (v.run earlier).run later :=
  List.foldl_append

theorem eventsOf_append (earlier later : List Moment) :
    eventsOf (earlier ++ later) = eventsOf earlier ++ eventsOf later :=
  List.filterMap_append

/-- Nobody who waits has a part in what happens. -/
theorem airing_run (v : Vigil) (moments : List Moment) :
    (v.run moments).airing = v.airing.run (eventsOf moments) := by
  induction moments using List.reverseRecOn with
  | nil => rfl
  | append_singleton moments m ih =>
    rw [run_append, eventsOf_append, Airing.run_append, ← ih]
    cases m <;> rfl

theorem Prompt.of_append {v : Vigil} {earlier later : List Moment}
    (prompt : v.Prompt (earlier ++ later)) : v.Prompt earlier := by
  intro before between rest same
  exact prompt before between (rest ++ later) (by rw [same, List.append_assoc])

/-- A waiter that is still waiting: nothing that it waited for came by the last time it looked, and
it holds all that was sent to it since then. -/
structure Caught (a : Airing) (awaited : Awaited) (moments : List Moment) (w : Watch)
    (before between : List Moment) : Prop where
  split : moments = before ++ between
  unseen : .look ∉ between
  earlier : ∀ n ∈ a.notices (eventsOf before), awaited.isMet n = false
  watch : w = ⟨awaited, ⟨awaited.isMet, ⟨awaited.capacity,
    ((a.run (eventsOf before)).notices (eventsOf between)).filter awaited.hears, 0⟩, none⟩⟩

end Vigil

theorem Awaited.hears_of_isMet {awaited : Awaited} {n : Notice} (met : awaited.isMet n = true) :
    awaited.hears n = true := by
  cases awaited <;> cases n <;> first | rfl | cases met

theorem Awaited.any_filter_hears (awaited : Awaited) (notices : List Notice) :
    (notices.filter awaited.hears).any awaited.isMet = notices.any awaited.isMet := by
  rw [List.any_filter]
  refine List.any_congr rfl fun n => ?_
  cases met : awaited.isMet n with
  | false => simp
  | true => simp [Awaited.hears_of_isMet met]

theorem Watch.outcome_giveUp (w : Watch) (gone : Bool) :
    (w.giveUp gone).outcome = w.outcome.or (if gone then some false else none) := by
  obtain ⟨awaited, ⟨wanted, receiver, outcome⟩⟩ := w
  cases outcome <;> cases gone <;> rfl

namespace Vigil

variable {a : Airing} {awaited : Awaited} {moments : List Moment}

/-- An answer stays. -/
theorem outcome_of_outcome_step {v : Vigil} {m : Moment}
    (pending : (v.step m).watch.outcome = none) : v.watch.outcome = none := by
  cases m with
  | event ev => exact pending
  | look =>
    by_contra answered
    have told : v.watch.waiter.outcome.isSome = true := Option.isSome_iff_ne_none.mpr answered
    refine answered (Eq.trans ?_ pending)
    rw [step, Watch.outcome, Watch.outcome, Watch.look, Broadcast.Waiter.look, if_pos told]
  | giveUp =>
    rw [step, Watch.outcome_giveUp, Option.or_eq_none_iff] at pending
    exact pending.1

theorem outcome_hears (v : Vigil) (events : List Airing.Event) :
    (v.run (events.map .event)).watch.outcome = v.watch.outcome := by
  induction events generalizing v with
  | nil => rfl
  | cons ev events ih => exact ih (v.step (.event ev))

theorem eventsOf_map_event (events : List Airing.Event) :
    eventsOf (events.map .event) = events := by
  simp [eventsOf, List.filterMap_map]

/-- What came by the first look decides, and what is so by the second one if nothing came. -/
theorem outcome_poll (v : Vigil) (meanwhile : List Airing.Event) :
    (v.run (Turn.poll meanwhile).moments).watch.outcome =
      v.watch.look.outcome.or
        (if (v.airing.run meanwhile).isDropped then some false else none) := by
  have asked : v.run (Turn.poll meanwhile).moments =
      ((v.step .look).run (meanwhile.map .event)).step .giveUp :=
    run_append (v.step .look) _ [.giveUp]
  rw [asked]
  refine (Watch.outcome_giveUp _ _).trans ?_
  rw [outcome_hears, airing_run, eventsOf_map_event]
  rfl

namespace Caught

variable {w : Watch} {before between : List Moment}

theorem any_notices (caught : Caught a awaited moments w before between) :
    (a.notices (eventsOf moments)).any awaited.isMet =
      ((a.run (eventsOf before)).notices (eventsOf between)).any awaited.isMet := by
  have none : (a.notices (eventsOf before)).any awaited.isMet = false := by
    simpa [List.any_eq_false] using caught.earlier
  rw [caught.split, eventsOf_append, Airing.notices_append, List.any_append, none, Bool.false_or]

theorem outcome_look (caught : Caught a awaited moments w before between) :
    w.look.outcome =
      if (a.notices (eventsOf moments)).any awaited.isMet then some true else none := by
  rw [caught.any_notices, caught.watch]
  simp only [Watch.look, Watch.outcome, Broadcast.Waiter.look, Option.isSome_none,
    Bool.false_eq_true, if_false, Awaited.any_filter_hears]
  split <;> rfl

theorem hear (caught : Caught a awaited moments w before between) (ev : Airing.Event)
    (room : (((a.run (eventsOf before)).notices (eventsOf (between ++ [.event ev]))).filter
      awaited.hears).length ≤ awaited.capacity) :
    Caught a awaited (moments ++ [.event ev])
      (w.hear ((a.run (eventsOf moments)).sends ev)) before (between ++ [.event ev]) where
  split := by rw [caught.split, List.append_assoc]
  unseen := by simpa using caught.unseen
  earlier := caught.earlier
  watch := by
    have sent : a.run (eventsOf moments) = (a.run (eventsOf before)).run (eventsOf between) := by
      rw [caught.split, eventsOf_append, Airing.run_append]
    have more : (a.run (eventsOf before)).notices (eventsOf (between ++ [.event ev])) =
        (a.run (eventsOf before)).notices (eventsOf between) ++
          (a.run (eventsOf moments)).sends ev := by
      rw [eventsOf_append, Airing.notices_append, sent]
      exact congrArg (_ ++ ·) (List.append_nil _)
    rw [more, List.filter_append] at room ⊢
    rw [caught.watch, Watch.hear, Broadcast.Waiter.hear, Broadcast.Receiver.push_of_room room]

theorem look (caught : Caught a awaited moments w before between)
    (pending : w.look.outcome = none) :
    Caught a awaited (moments ++ [.look]) w.look (moments ++ [.look]) [] where
  split := (List.append_nil _).symm
  unseen := List.not_mem_nil
  earlier := by
    rw [caught.outcome_look] at pending
    split at pending
    next => cases pending
    next none =>
      rw [eventsOf_append]
      simpa [eventsOf] using none
  watch := by
    rw [caught.watch] at pending ⊢
    simp only [Watch.look, Watch.outcome, Broadcast.Waiter.look, Option.isSome_none,
      Bool.false_eq_true, if_false] at pending ⊢
    split at pending
    next => cases pending
    next none =>
      rw [if_neg none]
      rfl

theorem giveUp (caught : Caught a awaited moments w before between) {gone : Bool}
    (pending : (w.giveUp gone).outcome = none) :
    Caught a awaited (moments ++ [.giveUp]) (w.giveUp gone) before (between ++ [.giveUp]) where
  split := by rw [caught.split, List.append_assoc]
  unseen := by simpa using caught.unseen
  earlier := caught.earlier
  watch := by
    have same : eventsOf (between ++ [.giveUp]) = eventsOf between :=
      (eventsOf_append _ _).trans (List.append_nil _)
    have stays : gone = false := by
      rw [Watch.outcome_giveUp, Option.or_eq_none_iff] at pending
      simpa using pending.2
    rw [same, stays, ← caught.watch, caught.watch]
    rfl

end Caught

/-- As long as nothing is answered, what came since the waiter last looked is held. -/
theorem exists_caught (prompt : Prompt ⟨a, .begin awaited⟩ moments)
    (pending : (run ⟨a, .begin awaited⟩ moments).watch.outcome = none) :
    ∃ before between,
      Caught a awaited moments (run ⟨a, .begin awaited⟩ moments).watch before between := by
  induction moments using List.reverseRecOn with
  | nil => exact ⟨[], [], rfl, List.not_mem_nil, by simp [eventsOf, Airing.notices], rfl⟩
  | append_singleton moments m ih =>
    rw [run_append] at pending ⊢
    obtain ⟨before, between, caught⟩ := ih prompt.of_append (outcome_of_outcome_step pending)
    cases m with
    | event ev =>
      have room := prompt before (between ++ [.event ev]) []
        (by rw [caught.split, List.append_assoc, List.append_nil]) (by simpa using caught.unseen)
      have sent := caught.hear ev room
      rw [← airing_run ⟨a, .begin awaited⟩ moments] at sent
      exact ⟨before, _, sent⟩
    | look => exact ⟨_, _, caught.look pending⟩
    | giveUp => exact ⟨_, _, caught.giveUp pending⟩

/-- Enough that all that is sent fits at once. -/
theorem prompt_of_length
    (few : ((a.notices (eventsOf moments)).filter awaited.hears).length ≤ awaited.capacity) :
    Prompt ⟨a, .begin awaited⟩ moments := by
  rintro before between later rfl -
  refine Nat.le_trans ?_ few
  rw [eventsOf_append, eventsOf_append, Airing.notices_append, Airing.notices_append,
    List.filter_append, List.filter_append, List.length_append, List.length_append]
  exact Nat.le_trans (Nat.le_add_left _ _) (Nat.le_add_right _ _)

end Vigil

/-- What is waited for, said of the texts themselves. -/
def Awaited.Met : Awaited → Notice → Prop
  | .state s, .change c => c.target = s
  | .output beginning, .output line => beginning.toList <+: line.toList
  | _, _ => False

theorem Awaited.isMet_iff {awaited : Awaited} {n : Notice} :
    awaited.isMet n = true ↔ awaited.Met n := by
  cases awaited <;> cases n <;> simp [Awaited.isMet, Awaited.Met]

instance (awaited : Awaited) (n : Notice) : Decidable (awaited.Met n) :=
  decidable_of_iff _ Awaited.isMet_iff

/-- The answer of a poll, by what was sent from the beginning until it looked for that, and by
whether the supervisor was dropped when it looked for that. -/
structure Told (awaited : Awaited) (sent : List Notice) (dropped : Bool) (outcome : Option Bool) :
    Prop where
  met : outcome = some true ↔ ∃ n ∈ sent, awaited.Met n
  gone : outcome = some false ↔ (∀ n ∈ sent, ¬awaited.Met n) ∧ dropped = true
  pending : outcome = none ↔ (∀ n ∈ sent, ¬awaited.Met n) ∧ dropped = false

theorem told_or (awaited : Awaited) (sent : List Notice) (dropped : Bool) :
    Told awaited sent dropped
      ((if sent.any awaited.isMet then some true else none).or
        (if dropped then some false else none)) := by
  by_cases came : sent.any awaited.isMet = true
  · have met : ∃ n ∈ sent, awaited.Met n := by simpa [Awaited.isMet_iff] using came
    have some_met : ¬∀ n ∈ sent, ¬awaited.Met n := by simpa using met
    rw [if_pos came, Option.some_or]
    exact ⟨iff_of_true rfl met, by simp [some_met], by simp [some_met]⟩
  · have unmet : ∀ n ∈ sent, ¬awaited.Met n := by simpa [Awaited.isMet_iff] using came
    have none_met : ¬∃ n ∈ sent, awaited.Met n := by simpa using unmet
    rw [if_neg came, Option.none_or]
    cases dropped with
    | true => exact ⟨by simp [none_met], iff_of_true rfl ⟨unmet, rfl⟩, by simp⟩
    | false => exact ⟨by simp [none_met], by simp, iff_of_true rfl ⟨unmet, rfl⟩⟩

/-- What is waited for is sent when the supervisor is not dropped yet. -/
def Airing.InTime (a : Airing) (awaited : Awaited) (events : List Airing.Event) : Prop :=
  ∃ earlier later, events = earlier ++ later ∧ (a.run earlier).isDropped = false ∧
    ∃ n ∈ a.notices earlier, awaited.Met n

/-- If nothing came by some time, it comes in time if it does so from then on. -/
theorem Airing.inTime_append {a : Airing} {awaited : Awaited} {earlier : List Airing.Event}
    (none : ∀ n ∈ a.notices earlier, ¬awaited.Met n) (later : List Airing.Event) :
    a.InTime awaited (earlier ++ later) ↔ (a.run earlier).InTime awaited later := by
  constructor
  · rintro ⟨first, rest, split, present, n, sent, met⟩
    rcases List.append_eq_append_iff.mp split with ⟨more, rfl, rfl⟩ | ⟨more, rfl, rfl⟩
    · rw [notices_append] at sent
      rw [run_append] at present
      exact ⟨more, rest, rfl, present, n,
        (List.mem_append.mp sent).resolve_left fun before => none n before met, met⟩
    · refine absurd met (none n ?_)
      rw [notices_append]
      exact List.mem_append_left _ sent
  · rintro ⟨first, rest, rfl, present, n, sent, met⟩
    refine ⟨earlier ++ first, rest, (List.append_assoc _ _ _).symm, ?_, n, ?_, met⟩
    · rwa [run_append]
    · rw [notices_append]
      exact List.mem_append_right _ sent

def Vigil.begin (settings : Settings) (events : List Airing.Event) (awaited : Awaited) : Vigil :=
  ⟨({ estate := .fresh settings } : Airing).run events, .begin awaited⟩

/-- Whoever waits is told of everything that is sent from then on until a poll looks for it, and of
nothing else, and is told that the supervisor is dropped if nothing came by then, whoever holds on
to it still. What came before the drop is missed if both fall between the two looks of a poll, and
not otherwise. -/
theorem poll_told (settings : Settings) (events : List Airing.Event) (awaited : Awaited)
    {turns : List Turn}
    (prompt : (Vigil.begin settings events awaited).Prompt (momentsOf turns))
    (pending : ((Vigil.begin settings events awaited).run (momentsOf turns)).watch.outcome = none)
    (meanwhile : List Airing.Event) :
    let v := Vigil.begin settings events awaited
    let earlier := eventsOf (momentsOf turns)
    let sent := v.airing.notices earlier
    let later := v.run (momentsOf turns)
    let outcome := (later.run (Turn.poll meanwhile).moments).watch.outcome
    Told awaited sent (later.airing.run meanwhile).isDropped outcome ∧
      changesOf sent =
        (later.airing.estate.changes.take later.airing.sent).drop v.airing.sent ∧
      (outcome = some false → (v.airing.InTime awaited (earlier ++ meanwhile) ↔
        later.airing.InTime awaited meanwhile)) := by
  intro v earlier sent later outcome
  have airing : later.airing = v.airing.run earlier := Vigil.airing_run v (momentsOf turns)
  have told : Told awaited sent (later.airing.run meanwhile).isDropped outcome := by
    obtain ⟨before, between, caught⟩ := Vigil.exists_caught prompt pending
    have looked : later.watch.look.outcome =
        if sent.any awaited.isMet then some true else none := caught.outcome_look
    have answer : outcome = _ := later.outcome_poll meanwhile
    rw [answer, looked]
    exact told_or awaited sent (later.airing.run meanwhile).isDropped
  refine ⟨told, ?_, fun gone => ?_⟩
  · obtain ⟨bound, _⟩ :=
      Airing.changesOf_notices { estate := .fresh settings } (Nat.le_refl _) events
    obtain ⟨_, made⟩ := Airing.changesOf_notices v.airing bound earlier
    have first : (v.airing.estate.changes.take v.airing.sent).length = v.airing.sent :=
      List.length_take_of_le bound
    rw [airing, ← made, List.drop_left' first]
  · rw [airing]
    exact Airing.inTime_append (told.gone.mp gone).1 meanwhile

def stopUnderWay (limit : Duration) : List Airing.Event :=
  [.estate .start, .estate .take, .estate (.perform (.ok 7)), .estate .complete, .send,
    .estate (.stop (some limit)), .estate .take, .estate (.perform (.ok 0)), .estate .complete]

/-- In the midst of a stop the task of the stop is all that is left of the supervisor. -/
theorem poll_told_mid_stop :
    let v := Vigil.begin ⟨"", "/bin/server", "", .empty, false⟩
      (stopUnderWay (.ofSeconds 5 (by decide))) (.state .exitedKilled)
    let turns : List Turn := [.event .send, .event (.estate .dispose), .poll [],
      .event (.estate .announce), .event (.estate .strip), .event (.estate .release)]
    let later := v.run (momentsOf turns)
    v.Prompt (momentsOf turns) ∧ later.watch.outcome = none ∧ later.airing.estate.errands ≠ [] ∧
      (later.run (Turn.poll []).moments).watch.outcome = some false := by
  intro v turns later
  have prompt : v.Prompt (momentsOf turns) := Vigil.prompt_of_length (by decide)
  have pending : later.watch.outcome = none := by decide
  exact ⟨prompt, pending, by decide, (poll_told _ _ _ prompt pending []).1.gone.mpr (by decide)⟩

/-- The change is sent and the supervisor dropped between the two looks of one poll, in this order.
Who waits for the change is told that it did not come. -/
theorem poll_misses :
    let v := Vigil.begin ⟨"", "/bin/server", "", .empty, false⟩
      (stopUnderWay (.ofSeconds 5 (by decide))) (.state .stopping)
    let meanwhile : List Airing.Event := [.send, .estate .dispose, .estate .announce]
    v.Prompt [] ∧ v.airing.InTime (.state .stopping) meanwhile ∧
      (v.run (Turn.poll meanwhile).moments).watch.outcome = some false := by
  intro v meanwhile
  exact ⟨Vigil.prompt_of_length (by decide), ⟨[.send], _, rfl, by decide, by decide⟩, by decide⟩

/-- A poll that begins after both finds it. -/
example :
    let v := Vigil.begin ⟨"", "/bin/server", "", .empty, false⟩
      (stopUnderWay (.ofSeconds 5 (by decide))) (.state .stopping)
    (v.run (momentsOf [.event .send, .event (.estate .dispose), .event (.estate .announce),
      .poll []])).watch.outcome = some true := by
  decide +kernel

end Supervision

end Overseer
