import Mathlib.Algebra.GroupWithZero.Nat
import Overseer.Proofs.CommandLine.Relay

/-!
What becomes of the lines of a stream. Each line that was sent was passed on, or was counted when
lines were dropped, or was missed and not counted yet, or is held. At the end of the program what is
held is passed on line by line, up to the moment at which lines turn out to have been missed: then
neither those nor the lines that are held are passed on or counted.
-/
namespace Overseer

namespace Broadcast

variable {α : Type}

/-- Receipts that account for all items, in their order. -/
inductive Accounts : List (Receipt α) → List α → Prop where
  | nil : Accounts [] []
  | item (a : α) {receipts : List (Receipt α)} {items : List α} (later : Accounts receipts items) :
      Accounts (.item a :: receipts) (a :: items)
  | missed (dropped : List α) {receipts : List (Receipt α)} {items : List α}
      (later : Accounts receipts items) :
      Accounts (.missed dropped.length :: receipts) (dropped ++ items)

def itemsOf (receipts : List (Receipt α)) : List α :=
  receipts.filterMap fun
    | .item a => some a
    | .missed _ => none

def Receipt.count : Receipt α → Nat
  | .item _ => 1
  | .missed n => n

variable {receipts later : List (Receipt α)} {items more : List α}

theorem Accounts.append (first : Accounts receipts items) (then_ : Accounts later more) :
    Accounts (receipts ++ later) (items ++ more) := by
  induction first with
  | nil => exact then_
  | item a _ ih => exact .item a ih
  | missed dropped _ ih => exact List.append_assoc .. ▸ .missed dropped ih

theorem accounts_items (items : List α) : Accounts (items.map .item) items := by
  induction items with
  | nil => exact .nil
  | cons a items ih => exact .item a ih

theorem accounts_missed (dropped : List α) : Accounts [.missed dropped.length] dropped := by
  have alone := Accounts.missed dropped .nil
  rwa [List.append_nil] at alone

theorem Accounts.length (accounts : Accounts receipts items) :
    items.length = (receipts.map Receipt.count).sum := by
  induction accounts with
  | nil => rfl
  | item a _ ih => simp [Receipt.count, ih, Nat.add_comm]
  | missed dropped _ ih => simp [Receipt.count, ih]

/-- What was sent to a receiver is accounted for up to what it missed and was not told, and what it
holds. It holds as much as it can if it missed anything. -/
structure Ledger (room : Nat) (sent : List α) (r : Receiver α) (told : List (Receipt α)) :
    Prop where
  capacity : r.capacity = room
  bounded : r.held.length ≤ room
  full : r.missed ≠ 0 → r.held.length = room
  balance : ∃ accounted missed, sent = accounted ++ (missed ++ r.held) ∧ Accounts told accounted ∧
    missed.length = r.missed

variable {room : Nat} {sent : List α} {r r' : Receiver α} {told : List (Receipt α)}

theorem Ledger.push (ledger : Ledger room sent r told) (items : List α) :
    Ledger room (sent ++ items) (r.push items) told where
  capacity := ledger.capacity
  bounded := by
    change ((r.held ++ items).drop ((r.held ++ items).length - r.capacity)).length ≤ room
    rw [List.length_drop, ledger.capacity]
    omega
  full some := by
    have some : r.missed + ((r.held ++ items).length - r.capacity) ≠ 0 := some
    change ((r.held ++ items).drop ((r.held ++ items).length - r.capacity)).length = room
    have full := ledger.full
    have capacity := ledger.capacity
    simp only [List.length_drop, List.length_append] at some ⊢
    omega
  balance := by
    obtain ⟨accounted, missed, rfl, accounts, length⟩ := ledger.balance
    let all := r.held ++ items
    let surplus := all.length - r.capacity
    -- What has to go is the oldest of what was held, so it follows what was missed before.
    refine ⟨accounted, missed ++ all.take surplus, ?_, accounts, ?_⟩
    · change _ = accounted ++ (missed ++ all.take surplus ++ all.drop surplus)
      rw [List.append_assoc missed, List.take_append_drop]
      simp [all]
    · change _ = r.missed + surplus
      rw [List.length_append, length, List.length_take_of_le (Nat.sub_le _ _)]

theorem Ledger.receive {receipt : Receipt α} (ledger : Ledger room sent r told)
    (received : r.receive? = some (receipt, r')) :
    Ledger room sent r' (told ++ [receipt]) := by
  obtain ⟨accounted, missed, rfl, accounts, length⟩ := ledger.balance
  unfold Receiver.receive? at received
  split at received
  next none =>
    split at received
    next => cases received
    next a rest held =>
      cases received
      obtain rfl : missed = [] := List.length_eq_zero_iff.mp (length.trans none)
      have bounded := ledger.bounded
      rw [held] at bounded
      refine ⟨ledger.capacity, Nat.le_of_succ_le bounded, fun some => absurd none some,
        accounted ++ [a], [], ?_, accounts.append (accounts_items [a]), none.symm⟩
      simp [held]
  next some =>
    cases received
    refine ⟨ledger.capacity, ledger.bounded, fun other => absurd rfl other, accounted ++ missed, [],
      by simp, ?_, rfl⟩
    rw [← length]
    exact accounts.append (accounts_missed missed)

theorem Ledger.closes (ledger : Ledger room sent r told) (none : r.missed = 0) :
    Accounts (told ++ r.held.map .item) sent := by
  obtain ⟨accounted, missed, rfl, accounts, length⟩ := ledger.balance
  obtain rfl : missed = [] := List.length_eq_zero_iff.mp (length.trans none)
  exact accounts.append (accounts_items r.held)

/-- Nothing that is sent elsewhere matters. -/
theorem Ledger.push_nil (ledger : Ledger room sent r told) : r.push [] = r := by
  have surplus : (r.held ++ []).length - r.capacity = 0 := by
    rw [List.append_nil, ledger.capacity]
    exact Nat.sub_eq_zero_of_le ledger.bounded
  rw [Receiver.push, surplus]
  simp

/-- Without what is held, the account closes only if nothing is held and nothing was missed. -/
theorem Ledger.missing (ledger : Ledger room sent r told) (some : r.missed ≠ 0) :
    ¬Accounts told sent := by
  obtain ⟨accounted, missed, rfl, accounts, length⟩ := ledger.balance
  intro closed
  have whole := closed.length.trans accounts.length.symm
  simp only [List.length_append, length] at whole
  omega

end Broadcast

namespace CommandLine

open Broadcast

namespace Forwarding

/-- What is said of a stream: the lines of it that are passed on, and the warnings about lines that
were dropped. -/
def receiptsOf : Source → List Effect → List (Receipt String)
  | .output, effects => effects.filterMap fun
    | .print line => some (.item line)
    | .log (.outputDropped n) => some (.missed n)
    | _ => none
  | .errors, effects => effects.filterMap fun
    | .complain line => some (.item line)
    | .log (.errorsDropped n) => some (.missed n)
    | _ => none

variable {f f' : Forwarding} {b : Branch} {effects : List Effect} {s : Source} {room : Nat}
  {sent : List String} {told : List (Receipt String)}

theorem receiptsOf_nil (s : Source) : receiptsOf s [] = [] := by
  cases s <;> rfl

theorem receiptsOf_append (s : Source) (first later : List Effect) :
    receiptsOf s (first ++ later) = receiptsOf s first ++ receiptsOf s later := by
  cases s <;> exact List.filterMap_append

theorem itemsOf_receiptsOf (s : Source) (effects : List Effect) :
    itemsOf (receiptsOf s effects) = linesOf s effects := by
  induction effects with
  | nil => cases s <;> rfl
  | cons e effects ih =>
    rw [← List.singleton_append, receiptsOf_append, linesOf_append, ← ih, itemsOf,
      List.filterMap_append]
    congr 1
    cases s <;> cases e with
    | print | complain | stop => rfl
    | log e => cases e <;> rfl

/-- What is received is said of its stream and of no other, and is said until its turn is over. -/
theorem Picks.tells (picks : Picks f b f' effects) (s : Source) :
    f'.receiver s = f.receiver s ∧ receiptsOf s effects = [] ∨
    f.stage.isPast s = false ∧
      ((∃ receipt, (f.receiver s).receive? = some (receipt, f'.receiver s) ∧
          receiptsOf s effects = [receipt] ∧ f'.stage = f.stage ∧
          (f.stage ≠ .looping → ∃ line, receipt = .item line)) ∨
        f'.stage.isPast s = true ∧ receiptsOf s effects = []) := by
  cases picks with
  | idle | ended => exact .inl ⟨by cases s <;> rfl, receiptsOf_nil s⟩
  | interrupt =>
    refine .inl ⟨by cases s <;> rfl, ?_⟩
    simp only [Forwarding.interrupt]
    split <;> cases s <;> rfl
  | line _ s' line rest _ waits kept held =>
    by_cases same : s = s'
    · subst same
      refine .inr ⟨waits, .inl ⟨.item line, ?_, by cases s <;> rfl, stage_setReceiver .., fun _ =>
        ⟨line, rfl⟩⟩⟩
      simp [Receiver.receive?, kept, held]
    · exact .inl ⟨receiver_setReceiver_of_ne _ same, by
        cases s <;> cases s' <;> first | rfl | exact absurd rfl same⟩
  | warn _ s' _ looping missed =>
    by_cases same : s = s'
    · subst same
      refine .inr ⟨by rw [looping]; rfl, .inl ⟨.missed (f.receiver s).missed, ?_, by
        cases s <;> rfl, stage_setReceiver .., fun left => absurd looping left⟩⟩
      simp [Receiver.receive?, missed]
    · exact .inl ⟨receiver_setReceiver_of_ne _ same, by
        cases s <;> cases s' <;> first | rfl | exact absurd rfl same⟩
  | drained s' stage | overrun s' stage =>
    by_cases same : s = s'
    · subst same
      exact .inr ⟨by rw [stage]; cases s <;> rfl, .inr ⟨by cases s <;> rfl, by cases s <;> rfl⟩⟩
    · refine .inl ⟨by simp [receiver_setReceiver_of_ne _ same], ?_⟩
      cases s <;> cases s' <;> rfl

end Forwarding

namespace Relay

def effects (u : Relay) : Event → List Forwarding.Effect
  | .pick b => (u.forwarding.advance b).2
  | _ => []

def deeds (u : Relay) : List Event → List Forwarding.Effect
  | [] => []
  | e :: events => u.effects e ++ (u.advance e).deeds events

def told (u : Relay) (events : List Event) (s : Source) : List (Receipt String) :=
  Forwarding.receiptsOf s (u.deeds events)

variable {u v : Relay} {s : Source} {pid : UInt32} {events : List Event}

theorem told_nil (u : Relay) (s : Source) : u.told [] s = [] :=
  Forwarding.receiptsOf_nil s

theorem told_cons (u : Relay) (e : Event) (events : List Event) (s : Source) :
    u.told (e :: events) s =
      Forwarding.receiptsOf s (u.effects e) ++ (u.advance e).told events s :=
  Forwarding.receiptsOf_append s _ _

theorem told_append (u : Relay) (first later : List Event) (s : Source) :
    u.told (first ++ later) s = u.told first s ++ (u.execute first).told later s := by
  induction first generalizing u with
  | nil => rw [told_nil]; rfl
  | cons e first ih => rw [List.cons_append, told_cons, told_cons, ih, List.append_assoc]; rfl

theorem execute_append (u : Relay) (first later : List Event) :
    u.execute (first ++ later) = (u.execute first).execute later := by
  induction first generalizing u with
  | nil => rfl
  | cons e first ih => exact ih (u.advance e)

theorem admitsAll_append (u : Relay) (first later : List Event) :
    u.admitsAll (first ++ later) = (u.admitsAll first && (u.execute first).admitsAll later) := by
  induction first generalizing u with
  | nil => rfl
  | cons e first ih => simp [admitsAll, execute, ih, Bool.and_assoc]

/-- What is passed on are the lines among what is said. -/
theorem said_execute (u : Relay) (events : List Event) (s : Source) :
    (u.execute events).said s = u.said s ++ itemsOf (u.told events s) := by
  induction events generalizing u with
  | nil => rw [told_nil]; exact (List.append_nil _).symm
  | cons e events ih =>
    have step : (u.advance e).said s = u.said s ++ Forwarding.linesOf s (u.effects e) := by
      cases e with
      | act | write | close | exit | read | finish => cases s <;> exact (List.append_nil _).symm
      | pick b => rfl
    rw [told_cons, itemsOf, List.filterMap_append, ← List.append_assoc]
    refine (ih (u.advance e)).trans ?_
    rw [step, ← Forwarding.itemsOf_receiptsOf]
    rfl

/-- The turn of a stream is over, and nothing is said of it from then on. -/
theorem told_of_past (past : u.forwarding.stage.isPast s = true) (events : List Event) :
    u.told events s = [] ∧ (u.execute events).forwarding.stage.isPast s = true := by
  induction events generalizing u with
  | nil => exact ⟨told_nil u s, past⟩
  | cons e events ih =>
    have step : Forwarding.receiptsOf s (u.effects e) = [] ∧
        (u.advance e).forwarding.stage.isPast s = true := by
      cases e with
      | act | write | close | exit => exact ⟨Forwarding.receiptsOf_nil s, past⟩
      | read s' | finish s' =>
        exact ⟨Forwarding.receiptsOf_nil s, (Forwarding.stage_send u.forwarding s' _) ▸ past⟩
      | pick b =>
        have picks := u.forwarding.picks_advance b
        rcases picks.tells s with ⟨_, silent⟩ | ⟨waits, _⟩
        · exact ⟨silent, picks.isPast past⟩
        · rw [past] at waits
          cases waits
    obtain ⟨silent, past'⟩ := ih step.2
    exact ⟨by rw [told_cons, step.1, silent]; rfl, past'⟩

theorem waits_of_cons {e : Event}
    (waits : (u.execute (e :: events)).forwarding.stage.isPast s = false) :
    (u.advance e).forwarding.stage.isPast s = false := by
  by_contra past
  have past' := (told_of_past (Bool.not_eq_false _ ▸ past) events).2
  change (u.execute (e :: events)).forwarding.stage.isPast s = true at past'
  rw [waits] at past'
  cases past'

theorem isEnded_advance (e : Event) (ended : (u.pipes s).isEnded = true) :
    ((u.advance e).pipes s).isEnded = true := by
  have other {p : Pipe} {s' : Source} (same : s = s' → p.isEnded = true) :
      ((u.setPipe s' p).pipes s).isEnded = true := by
    by_cases here : s = s'
    · subst here
      rw [pipes_setPipe_self]
      exact same rfl
    · rw [u.pipes_setPipe_of_ne here]
      exact ended
  cases e with
  | act | exit | pick => exact ended
  | write | close | read => exact other fun same => same ▸ ended
  | finish => exact other fun _ => rfl

inductive Treats (u : Relay) (s : Source) (u' : Relay) : List (Receipt String) → Prop where
  | quiet (lines : (u'.pipes s).lines = (u.pipes s).lines)
      (same : u'.forwarding.receiver s = u.forwarding.receiver s) : Treats u s u' []
  | sent (items : List String) (unended : (u.pipes s).isEnded = false)
      (lines : (u'.pipes s).lines = (u.pipes s).lines ++ items)
      (pushed : u'.forwarding.receiver s = (u.forwarding.receiver s).push items) : Treats u s u' []
  | received (receipt : Receipt String) (lines : (u'.pipes s).lines = (u.pipes s).lines)
      (received : (u.forwarding.receiver s).receive? = some (receipt, u'.forwarding.receiver s))
      (line : u.forwarding.stage ≠ .looping → ∃ line, receipt = .item line) :
      Treats u s u' [receipt]

def Kept (u : Relay) (s : Source) (told : List (Receipt String)) : Prop :=
  Ledger Supervision.lineCapacity (u.pipes s).lines (u.forwarding.receiver s) told

variable {told before : List (Receipt String)} {receipts : List (Receipt String)}

theorem treats_deliver (kept : Kept u s told) {s' : Source} {sent : Pipe × List String}
    (unended : (u.pipes s').isEnded = false)
    (lines : sent.1.lines = (u.pipes s').lines ++ sent.2) : Treats u s (u.deliver s' sent) [] := by
  by_cases here : s = s'
  · subst here
    refine .sent sent.2 unended ?_ (Forwarding.receiver_send_self u.forwarding s sent.2)
    exact (congrArg Pipe.lines (u.pipes_setPipe_self s sent.1)).trans lines
  · refine .quiet (congrArg Pipe.lines (u.pipes_setPipe_of_ne here sent.1)) ?_
    exact (Forwarding.receiver_send_of_ne here sent.2).trans kept.push_nil

theorem treats_setPipe {s' : Source} {p : Pipe} (lines : p.lines = (u.pipes s').lines) :
    Treats u s (u.setPipe s' p) [] := by
  refine .quiet ?_ rfl
  by_cases here : s = s'
  · subst here
    exact (congrArg Pipe.lines (u.pipes_setPipe_self s p)).trans lines
  · exact congrArg Pipe.lines (u.pipes_setPipe_of_ne here p)

theorem Invariant.treats (inv : Invariant pid u) (kept : Kept u s told) {e : Event}
    (admitted : u.admits e = true) (waits : (u.advance e).forwarding.stage.isPast s = false) :
    Treats u s (u.advance e) (Forwarding.receiptsOf s (u.effects e)) := by
  have silent {u' : Relay} (treats : Treats u s u' []) :
      Treats u s u' (Forwarding.receiptsOf s []) := by rwa [Forwarding.receiptsOf_nil]
  cases e with
  | act | exit => exact silent (.quiet rfl rfl)
  | write | close => exact silent (treats_setPipe rfl)
  | read s' count =>
    obtain ⟨_, unended⟩ : u.captures s' = true ∧ (u.pipes s').isEnded = false := by
      simpa [admits] using admitted
    exact silent (treats_deliver kept unended ((inv.pipes s').lines_take unended count))
  | finish s' =>
    obtain ⟨_, atEnd⟩ := by simpa [admits] using admitted
    have unended : (u.pipes s').isEnded = false := by
      simp only [Pipe.isAtEnd, Bool.and_eq_true, Bool.not_eq_true'] at atEnd
      exact atEnd.1.1
    exact silent (treats_deliver kept unended (Pipe.lines_finish unended _))
  | pick b =>
    rcases (u.forwarding.picks_advance b).tells s with
      ⟨same, none⟩ | ⟨_, ⟨receipt, received, one, _, line⟩ | ⟨past, _⟩⟩
    · rw [show Forwarding.receiptsOf s (u.effects (.pick b)) = [] from none]
      exact .quiet rfl same
    · rw [show Forwarding.receiptsOf s (u.effects (.pick b)) = [receipt] from one]
      exact .received receipt rfl received line
    · rw [show (u.advance (.pick b)).forwarding.stage.isPast s = true from past] at waits
      cases waits

theorem Kept.treats (kept : Kept u s told) (treats : Treats u s v receipts) :
    Kept v s (told ++ receipts) := by
  unfold Kept at kept ⊢
  cases treats with
  | quiet lines same => rwa [lines, same, List.append_nil]
  | sent items _ lines pushed =>
    rw [lines, pushed, List.append_nil]
    exact kept.push items
  | received receipt lines received =>
    rw [lines]
    exact kept.receive received

theorem kept_opening (settings : Settings) (pid : UInt32) (stopTimeout : Duration) (s : Source) :
    Kept (opening settings pid stopTimeout) s [] := by
  cases s <;> exact ⟨rfl, Nat.zero_le _, fun some => absurd rfl some, [], [], rfl, .nil, rfl⟩

/-- Up to the end of its turn a stream is accounted for. -/
theorem Kept.execute (inv : Invariant pid u) (kept : Kept u s told) {events : List Event}
    (admitted : u.admitsAll events = true)
    (waits : (u.execute events).forwarding.stage.isPast s = false) :
    Kept (u.execute events) s (told ++ u.told events s) := by
  induction events generalizing u told with
  | nil => rwa [told_nil, List.append_nil]
  | cons e events ih =>
    obtain ⟨first, later⟩ : u.admits e = true ∧ (u.advance e).admitsAll events = true := by
      simpa [admitsAll] using admitted
    have waits' := waits_of_cons waits
    rw [told_cons, ← List.append_assoc]
    exact ih (inv.advance e first) (kept.treats (inv.treats kept first waits')) later waits

/-- How a stream stands since the loop ended in `u`. As long as nothing is missed, what was held then
is passed on next. -/
structure Since (u : Relay) (before : List (Receipt String)) (s : Source) (v : Relay)
    (told : List (Receipt String)) : Prop where
  left : v.forwarding.stage ≠ .looping
  kept : (v.forwarding.receiver s).missed = 0 → (u.forwarding.receiver s).missed = 0 ∧
    before ++ (u.forwarding.receiver s).held.map .item <+:
      told ++ (v.forwarding.receiver s).held.map .item
  broken : (u.forwarding.receiver s).missed ≠ 0 → told = before
  done : (u.pipes s).isEnded = true → (v.pipes s).isEnded = true ∧
    (v.pipes s).lines = (u.pipes s).lines ∧
    ((u.forwarding.receiver s).missed = 0 → (v.forwarding.receiver s).missed = 0)

theorem Since.treats {v' : Relay} (since : Since u before s v told) (treats : Treats v s v' receipts)
    (left : v'.forwarding.stage ≠ .looping)
    (ended : (v.pipes s).isEnded = true → (v'.pipes s).isEnded = true) :
    Since u before s v' (told ++ receipts) := by
  obtain ⟨left₀, kept, broken, done⟩ := since
  cases treats with
  | quiet lines same =>
    rw [← same] at kept done
    rw [← lines] at done
    refine ⟨left, by simpa using kept, by simpa using broken, fun first => ?_⟩
    exact ⟨ended (done first).1, (done first).2⟩
  | sent items unended lines pushed =>
    refine ⟨left, fun none => ?_, by simpa using broken, fun first => ?_⟩
    · rw [pushed] at none ⊢
      obtain ⟨none', same⟩ := Receiver.push_kept none
      obtain ⟨none₀, here⟩ := kept none'
      refine ⟨none₀, here.trans ?_⟩
      simp [same]
    · rw [(done first).1] at unended
      cases unended
  | received receipt lines received line =>
    obtain ⟨first, rfl⟩ := line left₀
    obtain ⟨none, none', held⟩ : (v.forwarding.receiver s).missed = 0 ∧
        (v'.forwarding.receiver s).missed = 0 ∧
        (v.forwarding.receiver s).held = first :: (v'.forwarding.receiver s).held := by
      unfold Receiver.receive? at received
      split at received
      next none =>
        split at received
        next => cases received
        next first' rest held =>
          obtain ⟨same, next⟩ := Prod.mk.inj (Option.some.inj received)
          cases same
          exact ⟨none, by rw [← next]; exact none, by rw [← next]; exact held⟩
      next => cases received
    obtain ⟨none₀, here⟩ := kept none
    refine ⟨left, fun _ => ⟨none₀, ?_⟩, fun some => absurd none₀ some, fun first => ?_⟩
    · simpa [held] using here
    · exact ⟨ended (done first).1, lines.trans (done first).2.1, fun _ => none'⟩

theorem left_advance (left : u.forwarding.stage ≠ .looping) (e : Event) :
    (u.advance e).forwarding.stage ≠ .looping := by
  cases e with
  | act | write | close | exit => exact left
  | read s | finish s => exact (Forwarding.stage_send u.forwarding s _) ▸ left
  | pick b => exact (u.forwarding.picks_advance b).left left

theorem Since.execute (inv : Invariant pid v) (kept : Kept v s told)
    (since : Since u before s v told) {events : List Event} (admitted : v.admitsAll events = true)
    (waits : (v.execute events).forwarding.stage.isPast s = false) :
    Since u before s (v.execute events) (told ++ v.told events s) := by
  induction events generalizing v told with
  | nil => rwa [told_nil, List.append_nil]
  | cons e events ih =>
    obtain ⟨first, later⟩ : v.admits e = true ∧ (v.advance e).admitsAll events = true := by
      simpa [admitsAll] using admitted
    have waits' := waits_of_cons waits
    have treats := inv.treats kept first waits'
    rw [told_cons, ← List.append_assoc]
    exact ih (inv.advance e first) (kept.treats treats)
      (since.treats treats (left_advance since.left e) (isEnded_advance e)) later waits

/-- In a run to the end each stream has its turn, which ends with a step of draining. -/
theorem exists_turn (waits : u.forwarding.stage.isPast s = false)
    (past : (u.execute events).forwarding.stage.isPast s = true) :
    ∃ during rest, events = during ++ .pick .drain :: rest ∧
      (u.execute during).forwarding.stage = .draining s ∧
      ((u.execute during).advance (.pick .drain)).forwarding.stage.isPast s = true := by
  induction events generalizing u with
  | nil =>
    change u.forwarding.stage.isPast s = true at past
    rw [waits] at past
    cases past
  | cons e events ih =>
    cases turned : (u.advance e).forwarding.stage.isPast s with
    | false =>
      obtain ⟨during, rest, rfl, last⟩ := ih turned past
      exact ⟨e :: during, rest, rfl, last⟩
    | true =>
      have same {f : Forwarding} (same : f.stage = u.forwarding.stage)
          (turned : f.stage.isPast s = true) : False := by
        rw [same, waits] at turned
        cases turned
      cases e with
      | act | write | close | exit => exact (same rfl turned).elim
      | read s' | finish s' => exact (same (Forwarding.stage_send u.forwarding s' _) turned).elim
      | pick b =>
        obtain ⟨rfl, stage, _⟩ := (u.forwarding.picks_advance b).turned waits turned
        exact ⟨[], events, rfl, stage, turned⟩

theorem stage_of_draining (stage : u.forwarding.stage = .draining s) :
    u.forwarding.stage.isPast s = false := by
  rw [stage]
  cases s <;> rfl

/-- The last step of draining finds nothing that is held, unless lines were missed. -/
theorem held_of_turned (stage : u.forwarding.stage = .draining s)
    (turned : (u.advance (.pick .drain)).forwarding.stage.isPast s = true)
    (none : (u.forwarding.receiver s).missed = 0) : (u.forwarding.receiver s).held = [] := by
  cases held : (u.forwarding.receiver s).held with
  | nil => rfl
  | cons line rest =>
    have stepped : (u.forwarding.advance .drain).1.stage = .draining s := by
      simp [Forwarding.advance, stage, Forwarding.drain, Receiver.receive?, none, held]
    have turned : (u.forwarding.advance .drain).1.stage.isPast s = true := turned
    rw [stepped] at turned
    cases s <;> cases turned

/-- Nothing is said of a stream by the last step of draining it, or later. -/
theorem told_of_turned (stage : u.forwarding.stage = .draining s)
    (turned : (u.advance (.pick .drain)).forwarding.stage.isPast s = true) (rest : List Event) :
    u.told (.pick .drain :: rest) s = [] := by
  have nothing : Forwarding.receiptsOf s (u.effects (.pick .drain)) = [] := by
    rcases (u.forwarding.picks_advance .drain).tells s with ⟨_, none⟩ | ⟨_, said | ⟨_, none⟩⟩
    · exact none
    · obtain ⟨_, _, _, same, _⟩ := said
      have turned : (u.forwarding.advance .drain).1.stage.isPast s = true := turned
      rw [same, stage_of_draining stage] at turned
      cases turned
    · exact none
  rw [told_cons, nothing, (told_of_past turned rest).1]
  rfl

/-- The loop ends. Nothing is said of it, and from then on it drains. -/
theorem since_ended (ends : u.admits (.pick .ended) = true) (before : List (Receipt String))
    (s : Source) :
    u.forwarding.stage = .looping ∧ u.effects (.pick .ended) = [] ∧
      (u.advance (.pick .ended)).forwarding.stage.isPast s = false ∧
      (u.advance (.pick .ended)).forwarding.receiver s = u.forwarding.receiver s ∧
      Since u before s (u.advance (.pick .ended)) before := by
  simp only [admits, Bool.and_eq_true] at ends
  have looping : u.forwarding.stage = .looping := by
    have offered := ends.1.1
    cases stage : u.forwarding.stage <;> simp [Forwarding.offers, stage] at offered ⊢
  have stepped : u.forwarding.advance .ended =
      ({ u.forwarding with stage := .draining .output }, []) := by
    simp [Forwarding.advance, looping]
  have stage : (u.advance (.pick .ended)).forwarding.stage = .draining .output :=
    congrArg (·.1.stage) stepped
  have receiver : (u.advance (.pick .ended)).forwarding.receiver s = u.forwarding.receiver s :=
    (congrArg (fun f => Forwarding.receiver f.1 s) stepped).trans (by simp)
  refine ⟨looping, congrArg Prod.snd stepped, by rw [stage]; cases s <;> rfl, receiver, ?_⟩
  exact
    { left := by simp [stage]
      kept := fun none => ⟨receiver ▸ none, by simp only [receiver, List.prefix_rfl]⟩
      broken := fun _ => rfl
      done := fun ended => ⟨ended, rfl, fun none => by rwa [receiver]⟩ }

/-- How a stream is left whose account was `told` when the loop ended in `u`, and is `all` when the
last step of draining it is made in `w`. -/
structure Closing (settings : Settings) (s : Source) (u w : Relay)
    (told all : List (Receipt String)) : Prop where
  ledger : Kept w s all
  /-- If nothing was missed without being told, all that was sent is passed on or counted, and what
  was held when the loop ended is passed on first. -/
  whole : (w.forwarding.receiver s).missed = 0 →
    (w.forwarding.receiver s).held = [] ∧ Accounts all (w.pipes s).lines ∧
      told ++ (u.forwarding.receiver s).held.map .item <+: all
  /-- Otherwise as many lines as can be held are lost with those that were missed. -/
  broken : (w.forwarding.receiver s).missed ≠ 0 →
    (w.forwarding.receiver s).held.length = Supervision.lineCapacity ∧
      ¬Accounts all (w.pipes s).lines
  /-- If lines had been missed before the loop ended, all that was held then is among them. -/
  atOnce : (u.forwarding.receiver s).missed ≠ 0 →
    (w.forwarding.receiver s).missed ≠ 0 ∧ all = told
  /-- Only a stream whose end was not read yet can be missed later. -/
  done : (u.pipes s).isEnded = true → (w.pipes s).lines = (u.pipes s).lines ∧
    ((w.forwarding.receiver s).missed = 0 ↔ (u.forwarding.receiver s).missed = 0)
  written : s.isCaptured settings = true →
    u.Expired ∨ (u.pipes s).isEnded = true ∧ (u.pipes s).lines = u.captured settings s

/-- From the account at the end of the loop to that at the last step of draining. -/
theorem Invariant.closing (inv : Invariant pid u)
    (terminal : u.traffic.supervisor.state.isTerminal = true) (kept : Kept v s told)
    (since : Since u before s v told) (stage : v.forwarding.stage = .draining s)
    (turned : (v.advance (.pick .drain)).forwarding.stage.isPast s = true) :
    Closing u.traffic.supervisor.settings s u v before told where
  ledger := kept
  whole none := by
    have empty := held_of_turned stage turned none
    have closes := kept.closes none
    have first := (since.kept none).2
    rw [empty, List.map_nil, List.append_nil] at closes first
    exact ⟨empty, closes, first⟩
  broken some := ⟨kept.full some, kept.missing some⟩
  atOnce some := ⟨fun none => some (since.kept none).1, since.broken some⟩
  done ended := by
    obtain ⟨_, lines, none⟩ := since.done ended
    exact ⟨lines, fun none' => (since.kept none').1, none⟩
  written captured := by
    obtain ⟨_, code, ⟨_, expired | all⟩, _⟩ := inv.once.recorded terminal
    · exact .inl expired
    · refine .inr ⟨all s captured, ?_⟩
      rw [Relay.captured, if_pos captured]
      exact (inv.pipes s).lines_of_ended (all s captured)

/-- Lines that were sent and not said by the end of the loop are passed on in their order, up to the
moment at which draining them shows that some were missed: these and all that are held then are
neither passed on nor counted. In a run to the end this is what becomes of both streams. -/
theorem execute_accounts (settings : Settings) (pid : UInt32) (stopTimeout : Duration)
    (earlier later : List Event) (s : Source)
    (admitted : (opening settings pid stopTimeout).admitsAll
      (earlier ++ .pick .ended :: later) = true)
    (finished : ((opening settings pid stopTimeout).execute
      (earlier ++ .pick .ended :: later)).code.isSome = true) :
    let o := opening settings pid stopTimeout
    let all := o.told (earlier ++ .pick .ended :: later) s
    itemsOf all = (o.execute (earlier ++ .pick .ended :: later)).said s ∧
      ∃ during rest, later = during ++ .pick .drain :: rest ∧
        Closing settings s (o.execute earlier) (o.execute (earlier ++ .pick .ended :: during))
          (o.told earlier s) all := by
  intro o all
  refine ⟨by rw [said_execute]; cases s <;> rfl, ?_⟩
  have opened : Invariant pid o := invariant_opening settings pid stopTimeout
  let u := o.execute earlier
  let v := u.advance (.pick .ended)
  obtain ⟨before, after⟩ : o.admitsAll earlier = true ∧
      u.admitsAll (.pick .ended :: later) = true := by
    simpa [admitsAll_append] using admitted
  obtain ⟨ends, after⟩ : u.admits (.pick .ended) = true ∧ v.admitsAll later = true := by
    simpa [admitsAll] using after
  have inv : Invariant pid u := opened.execute earlier before
  have inv' : Invariant pid v := inv.advance _ ends
  obtain ⟨looping, quiet, waits, receiver, since⟩ := since_ended ends (o.told earlier s) s
  have kept : Kept u s (o.told earlier s) :=
    (kept_opening settings pid stopTimeout s).execute opened before (by
      rw [show (o.execute earlier).forwarding.stage = .looping from looping]; rfl)
  have kept' : Kept v s (o.told earlier s) := by
    unfold Kept at kept ⊢
    rwa [receiver]
  have past : (v.execute later).forwarding.stage.isPast s = true := by
    rw [execute_append] at finished
    rw [(inv'.execute later after).ends.mp finished]
    rfl
  obtain ⟨during, rest, rfl, stage, turned⟩ := exists_turn waits past
  obtain ⟨during_admitted, _⟩ : v.admitsAll during = true ∧ _ := by
    simpa [admitsAll_append] using after
  have waiting := stage_of_draining stage
  have sum : all = o.told earlier s ++ v.told during s :=
    calc all = o.told earlier s ++ u.told (.pick .ended :: (during ++ .pick .drain :: rest)) s :=
          told_append o earlier _ s
      _ = o.told earlier s ++ v.told during s := by
          rw [told_cons, quiet, Forwarding.receiptsOf_nil, List.nil_append, told_append,
            told_of_turned stage turned, List.append_nil]
  have terminal : u.traffic.supervisor.state.isTerminal = true := by
    simp only [admits, Bool.and_eq_true] at ends
    simpa using ends.2
  have same : o.execute (earlier ++ .pick .ended :: during) = v.execute during :=
    execute_append ..
  have settled : u.traffic.supervisor.settings = settings := settings_execute _ earlier
  refine ⟨during, rest, rfl, ?_⟩
  rw [same, sum, ← settled]
  exact inv.closing terminal (kept'.execute inv' during_admitted waiting)
    (since.execute inv' kept' during_admitted waiting) stage turned

def hasty (bytes : List UInt8) : List Event :=
  [.act .complete, .write .output bytes, .exit 0, .close .output, .read .output bytes.length,
    .finish .output, .act (.report 7 0), .act (.take (.ok 0)), .act .complete]

def burst (lines : Nat) : List Event := hasty (List.replicate lines LineReader.newline)

def leave (count : Nat) : List Event := .pick .ended :: List.replicate count (.pick .drain)

theorem execute_accounts_bursts :
    let settings : Settings := ⟨"", "/bin/server", "", .empty, false⟩
    let u := opening settings 7 (.ofSeconds 5 (by decide))
    Accounts (u.told (burst 2 ++ leave 4) .output) ["", ""] ∧
      ¬Accounts (u.told (burst 1025 ++ leave 2) .output)
        (((u.execute (burst 1025)).pipes .output).lines) := by
  intro settings u
  obtain ⟨_, _, _, _, few⟩ := execute_accounts settings 7 (.ofSeconds 5 (by decide)) (burst 2)
    (List.replicate 4 (.pick .drain)) .output (by decide +kernel) (by decide +kernel)
  obtain ⟨_, _, _, _, many⟩ := execute_accounts settings 7 (.ofSeconds 5 (by decide)) (burst 1025)
    (List.replicate 2 (.pick .drain)) .output (by decide +kernel) (by decide +kernel)
  obtain ⟨same, none⟩ := few.done (by decide +kernel)
  obtain ⟨same', _⟩ := many.done (by decide +kernel)
  have lines : ((u.execute (burst 2)).pipes .output).lines = ["", ""] := by decide +kernel
  refine ⟨lines ▸ same ▸ (few.whole (none.mpr (by decide +kernel))).2.1, ?_⟩
  exact same' ▸ (many.broken (many.atOnce (by decide +kernel)).1).2

/-- After a burst of one line more than a receiver holds, nothing is passed on and nothing counted. -/
theorem drain_forgets :
    ¬∀ (settings : Settings) (pid : UInt32) (stopTimeout : Duration) (earlier later : List Event)
      (s : Source),
      (opening settings pid stopTimeout).admitsAll (earlier ++ .pick .ended :: later) = true →
      ((opening settings pid stopTimeout).execute
        (earlier ++ .pick .ended :: later)).code.isSome = true →
      ∃ sent, (((opening settings pid stopTimeout).execute earlier).pipes s).lines <+: sent ∧
        Accounts ((opening settings pid stopTimeout).told (earlier ++ .pick .ended :: later) s)
          sent := by
  intro closes
  let settings : Settings := ⟨"", "/bin/server", "", .empty, false⟩
  let u := opening settings 7 (.ofSeconds 5 (by decide))
  have silent : u.told (burst 1025 ++ leave 2) .output = [] := by decide +kernel
  have count : ((u.execute (burst 1025)).pipes .output).lines.length = 1025 := by decide +kernel
  obtain ⟨sent, first, accounts⟩ := closes settings 7 (.ofSeconds 5 (by decide)) (burst 1025)
    (List.replicate 2 (.pick .drain)) .output (by decide +kernel) (by decide +kernel)
  have none : sent.length = 0 := (silent ▸ accounts).length
  have some := first.length_le
  rw [count, none] at some
  cases some

end Relay

end CommandLine

end Overseer
