import Mathlib.Data.List.Nodup
import Overseer.Proofs.Supervisor.Kills

/-!
A cooperative stop races against the exit of its process. Both end in an operation, and which of the
two is executed first decides how the stop ends, whatever else is executed meanwhile.
-/
namespace Overseer.Supervisor

def stopsOf (log : List Deed) : List UInt32 := log.filterMap Deed.stopped?

def escalationsOf (log : List Deed) : List UInt32 :=
  log.filterMap fun d => d.operation.escalated?

def unstopped (s : Supervisor) : List UInt32 :=
  if s.state = .running then s.info.toList.map ProcessInfo.id else []

/-- A stop begins with the stop of the present process, and each launch can be stopped once. -/
theorem Course.tally {s s' : Supervisor} {op : Operation} {changes : List Change}
    {kills : List UInt32} {begun : List CooperativeStop}
    (course : Course s op s' changes kills begun) (pid : UInt32) :
    (begun.map fun stop => stop.pid).count pid ≤ (s.stops? op).toList.count pid ∧
      (s.stops? op).toList.count pid + s'.unstopped.count pid ≤
        (s.launches? op).toList.count pid + s.unstopped.count pid := by
  cases course with
  | startRefused live launched => cases launched <;> simp [stops?]
  | launch idle new => simp [stops?, launches?, permits_start, idle, unstopped]
  | launchFailed => simp [stops?, unstopped]
  | stopRefused idle timeout => simp [stops?, permits_stop, idle]
  | kill running p info => simp [stops?, launches?, permits_stop, running, info, unstopped]
  | ask running p info => simp [stops?, launches?, permits_stop, running, info, unstopped]
  | exit live p info code =>
    have ended : s.exitState code ≠ .running := by
      intro same
      have gone := exitState_isLive (s := s) code
      simp [same] at gone
    simp [stops?, unstopped, ended]
  | escalate stopping p info => simp [stops?, unstopped, stopping]
  | escalateInVain => simp [stops?]

theorem Deed.Sound.tally {d : Deed} (sound : d.Sound) (pid : UInt32) :
    (d.begun.map fun stop => stop.pid).count pid ≤ d.stopped?.toList.count pid ∧
      d.stopped?.toList.count pid + d.after.unstopped.count pid ≤
        d.launched?.toList.count pid + d.before.unstopped.count pid :=
  sound.course.tally pid

namespace Traffic

/-- Every stop escalates at most once, and every launch is stopped at most once. -/
structure Tallied (t : Traffic) : Prop where
  escalations : ∀ pid,
    t.pursued.count pid + (escalationsOf t.log).count pid ≤ (stopsOf t.log).count pid
  stops : ∀ pid,
    (stopsOf t.log).count pid + t.supervisor.unstopped.count pid ≤ (launchesOf t.log).count pid

theorem tallied_fresh (settings : Settings) : (fresh settings).Tallied where
  escalations := by simp [fresh, Traffic.pursued, escalationsOf]
  stops := by simp [fresh, Run.fresh, unstopped, stopsOf]

theorem Tallied.aside {t u : Traffic} (tallied : t.Tallied) (aside : t.Aside u) : u.Tallied := by
  obtain ⟨state, info, _⟩ := aside.supervisor
  constructor
  · intro pid
    have before := tallied.escalations pid
    have fewer := aside.pursued pid
    rw [aside.log]
    omega
  · intro pid
    rw [aside.log, unstopped, state, info]
    exact tallied.stops pid

theorem Tallied.take {t : Traffic} (tallied : t.Tallied) (free : t.executing = none) {r : Request}
    {rest : List Request} (queue : t.queue = r :: rest) (launched : Except SystemError UInt32) :
    (t.take launched).Tallied := by
  have pursued := pursued_take free queue launched
  rw [take_eq queue] at pursued ⊢
  refine ⟨fun pid => ?_, tallied.stops⟩
  rw [pursued.count_eq]
  exact tallied.escalations pid

theorem Tallied.complete {t : Traffic} (tallied : t.Tallied) {op : Operation}
    (busy : t.executing = some op) (deed : (⟨t.supervisor, op⟩ : Deed).Sound) :
    t.complete.Tallied := by
  have pursued := pursued_complete busy
  rw [complete_eq busy] at pursued ⊢
  constructor
  · intro pid
    have moved := pursued.count_eq pid
    have before := tallied.escalations pid
    have most := (deed.tally pid).1
    simp only [List.count_append] at moved
    simp only [escalationsOf, stopsOf, List.filterMap_append, filterMap_cons_toList,
      List.filterMap_nil, List.append_nil, List.count_append] at before ⊢
    omega
  · intro pid
    have before := tallied.stops pid
    have most := (deed.tally pid).2
    dsimp only at most
    change (stopsOf (t.log ++ [_])).count pid +
        (Deed.after ⟨t.supervisor, op⟩).unstopped.count pid ≤
      (launchesOf (t.log ++ [_])).count pid
    simp only [launchesOf, stopsOf, List.filterMap_append, filterMap_cons_toList,
      List.filterMap_nil, List.append_nil, List.count_append] at before ⊢
    omega

theorem Tallied.advance {t : Traffic} (tallied : t.Tallied) (sound : t.Sound) {e : Event}
    (admitted : t.admits e = true) : (t.advance e).Tallied := by
  rcases advance_cases admitted with aside | ⟨r, rest, launched, rfl, free, queue⟩ | ⟨op, rfl, busy⟩
  · exact tallied.aside aside
  · exact tallied.take free queue launched
  · exact tallied.complete busy (sound.deed busy)

/-- A process that is launched once is escalated against at most once. -/
theorem Tallied.escalations_le_one {t : Traffic} (tallied : t.Tallied)
    (distinct : (launchesOf t.log).Nodup) (pid : UInt32) : (escalationsOf t.log).count pid ≤ 1 := by
  have escalations := tallied.escalations pid
  have stops := tallied.stops pid
  have launches := List.nodup_iff_count_le_one.mp distinct pid
  omega

end Traffic

/-- While the process is awaited nothing moves, and only the escalation asks for a kill. -/
structure Undecided (pid : UInt32) (deeds : List Deed) : Prop where
  unreported : ∀ d ∈ deeds, d.operation.reported? ≠ some pid
  still : ∀ d ∈ deeds, d.before.state = .stopping ∧ d.after.state = .stopping ∧ d.changes = []
  kills : deeds.flatMap Deed.kills = if pid ∈ escalationsOf deeds then [pid] else []
  marked : ∀ d ∈ deeds, d.operation = .escalate pid → d.kills = [pid] ∧ d.after.killed = true

structure Decided (pid : UInt32) (code : Int32) (escalated : Prop) [Decidable escalated]
    (d : Deed) : Prop where
  operation : d.operation = .exited pid code
  changes : d.changes = [⟨.stopping, d.after.state⟩]
  state : d.after.state =
    if escalated then .exitedKilled else if code = 0 then .exitedSuccessfully else .exitedWithError
  killed : d.after.killed = decide escalated

/-- From then on the process is left alone. An escalation that comes too late does nothing. -/
structure Settled (pid : UInt32) (deeds : List Deed) : Prop where
  unreported : ∀ d ∈ deeds, d.operation.reported? ≠ some pid
  spared : ∀ d ∈ deeds, pid ∉ d.kills
  late : ∀ d ∈ deeds, d.operation = .escalate pid →
    d.after = d.before ∧ d.changes = [] ∧ d.kills = []

/-- How a stop goes on that began with a request to exit: what was done since, and the supervisor
after it. -/
inductive Race (pid : UInt32) (s : Supervisor) : List Deed → Prop where
  | awaiting (deeds : List Deed) (undecided : Undecided pid deeds) (state : s.state = .stopping)
      (info : s.info = some ⟨pid, none⟩) (killed : s.killed = decide (pid ∈ escalationsOf deeds)) :
      Race pid s deeds
  | ended (during : List Deed) (d : Deed) (code : Int32) (later : List Deed)
      (undecided : Undecided pid during) (decided : Decided pid code (pid ∈ escalationsOf during) d)
      (settled : Settled pid later)
      (gone : s.state.isLive = true → s.info.map ProcessInfo.id ≠ some pid) :
      Race pid s (during ++ d :: later)

theorem Undecided.nil (pid : UInt32) : Undecided pid [] := by
  constructor <;> simp [escalationsOf]

theorem Race.congr {pid : UInt32} {s u : Supervisor} {deeds : List Deed} (race : Race pid s deeds)
    (state : u.state = s.state) (info : u.info = s.info) (killed : u.killed = s.killed) :
    Race pid u deeds := by
  cases race with
  | awaiting _ undecided old known mark =>
    exact .awaiting deeds undecided (state.trans old) (info.trans known) (killed.trans mark)
  | ended during d code later undecided decided settled gone =>
    exact .ended during d code later undecided decided settled (by rwa [state, info])

theorem escalationsOf_append (earlier later : List Deed) :
    escalationsOf (earlier ++ later) = escalationsOf earlier ++ escalationsOf later :=
  List.filterMap_append

namespace Course

variable {s s' : Supervisor} {op : Operation} {changes : List Change} {kills : List UInt32}
  {begun : List CooperativeStop} {pid : UInt32}

/-- While a process is being stopped its exit is the only thing that moves the supervisor, and its
escalation the only one that asks for a kill. -/
theorem stopping (course : Course s op s' changes kills begun) (state : s.state = .stopping)
    (info : s.info = some ⟨pid, none⟩) :
    (∃ code, op = .exited pid code ∧ changes = [⟨.stopping, s'.state⟩] ∧
        s'.state = Lifecycle.verdict ⟨s.killed, some code⟩ ∧ s'.killed = s.killed ∧
        s'.state.isLive = false) ∨
      op.reported? ≠ some pid ∧ s'.state = .stopping ∧ s'.info = some ⟨pid, none⟩ ∧
        changes = [] ∧ kills = (if op.escalated? = some pid then [pid] else []) ∧
        s'.killed = (s.killed || decide (op.escalated? = some pid)) := by
  cases course with
  | startRefused | stopRefused =>
    refine .inr ⟨by simp [Operation.reported?], state, info, rfl, rfl, ?_⟩
    simp [Operation.escalated?]
  | launch idle | launchFailed idle => simp [state] at idle
  | kill running | ask running => simp [state] at running
  | exit live p known code =>
    obtain rfl : p = pid := by simpa [info, eq_comm] using known
    have verdict : s.exitState code = Lifecycle.verdict ⟨s.killed, some code⟩ := by
      simp [exitState, state]
    exact .inl ⟨code, rfl, by rw [state], verdict, rfl, exitState_isLive code⟩
  | escalate _ p known =>
    obtain rfl : p = pid := by simpa [info, eq_comm] using known
    refine .inr ⟨by simp [Operation.reported?], state, info, rfl, ?_, ?_⟩ <;>
      simp [Operation.escalated?]
  | escalateInVain p other =>
    have apart : p ≠ pid := by
      rintro rfl
      exact other ⟨state, by simp [info]⟩
    refine .inr ⟨by simp [Operation.reported?], state, info, rfl, ?_, ?_⟩ <;>
      simp [Operation.escalated?, apart]

/-- A process that is gone comes back by a launch only, and nothing is done to it. -/
theorem gone (course : Course s op s' changes kills begun) (fresh : s.launches? op ≠ some pid)
    (gone : s.state.isLive = true → s.info.map ProcessInfo.id ≠ some pid) :
    (s'.state.isLive = true → s'.info.map ProcessInfo.id ≠ some pid) ∧
      op.reported? ≠ some pid ∧ pid ∉ kills ∧
      (op = .escalate pid → s' = s ∧ changes = [] ∧ kills = []) := by
  -- Whatever an operation is done to lives and is known, so it is another process.
  have apart : ∀ p, s.state.isLive = true → s.info = some ⟨p, none⟩ → p ≠ pid := by
    rintro p live known rfl
    exact gone live (by simp [known])
  cases course with
  | startRefused | stopRefused =>
    refine ⟨gone, ?_, ?_, ?_⟩ <;> simp [Operation.reported?]
  | launch idle p =>
    have other : p ≠ pid := by simpa [launches?, permits_start, idle] using fresh
    refine ⟨?_, ?_, ?_, ?_⟩ <;> simp [Operation.reported?, other]
  | launchFailed => refine ⟨?_, ?_, ?_, ?_⟩ <;> simp [Operation.reported?]
  | kill running p known | ask running p known =>
    have other := apart p (by simp [running]) known
    refine ⟨?_, ?_, ?_, ?_⟩ <;> simp [Operation.reported?, known, other, other.symm]
  | exit live p known code =>
    have other := apart p live known
    refine ⟨?_, ?_, ?_, ?_⟩ <;> simp [Operation.reported?, exitState_isLive, other]
  | escalate stopping p known =>
    have other := apart p (by simp [stopping]) known
    refine ⟨?_, ?_, ?_, ?_⟩ <;> simp [Operation.reported?, known, other, other.symm]
  | escalateInVain p =>
    refine ⟨gone, ?_, ?_, ?_⟩ <;> simp [Operation.reported?]

end Course

theorem mem_escalationsOf_concat (pid : UInt32) (deeds : List Deed) (d : Deed) :
    pid ∈ escalationsOf (deeds ++ [d]) ↔
      pid ∈ escalationsOf deeds ∨ d.operation.escalated? = some pid := by
  simp [escalationsOf]

theorem forall_mem_concat {deeds : List Deed} {d : Deed} {p : Deed → Prop}
    (before : ∀ x ∈ deeds, p x) (last : p d) : ∀ x ∈ deeds ++ [d], p x :=
  List.forall_mem_append.mpr ⟨before, List.forall_mem_singleton.mpr last⟩

/-- One more operation that leaves the process being stopped. -/
theorem Undecided.concat {pid : UInt32} {deeds : List Deed} (undecided : Undecided pid deeds)
    {d : Deed} (unreported : d.operation.reported? ≠ some pid)
    (still : d.before.state = .stopping ∧ d.after.state = .stopping ∧ d.changes = [])
    (kills : d.kills = if d.operation.escalated? = some pid then [pid] else [])
    (marked : d.operation.escalated? = some pid → d.after.killed = true)
    (once : d.operation.escalated? = some pid → pid ∉ escalationsOf deeds) :
    Undecided pid (deeds ++ [d]) where
  unreported := forall_mem_concat undecided.unreported unreported
  still := forall_mem_concat undecided.still still
  kills := by
    simp only [List.flatMap_append, undecided.kills, List.flatMap_singleton, kills,
      mem_escalationsOf_concat]
    by_cases escalates : d.operation.escalated? = some pid
    · simp [escalates, once escalates]
    · simp [escalates]
  marked := by
    refine forall_mem_concat undecided.marked fun operation => ?_
    have escalates : d.operation.escalated? = some pid := by rw [operation]; rfl
    exact ⟨by rw [kills, if_pos escalates], marked escalates⟩

/-- One more operation, while a process is awaited or after it is gone. -/
theorem Race.concat {pid : UInt32} {deeds : List Deed} {d : Deed} (race : Race pid d.before deeds)
    (sound : d.Sound) (fresh : d.launched? ≠ some pid)
    (once : d.operation.escalated? = some pid → pid ∉ escalationsOf deeds) :
    Race pid d.after (deeds ++ [d]) := by
  cases race with
  | awaiting _ undecided state info killed =>
    rcases sound.course.stopping state info with
      ⟨code, operation, changes, verdict, mark, notLive⟩ |
      ⟨unreported, state', info', changes, kills, mark⟩
    · have decided : Decided pid code (pid ∈ escalationsOf deeds) d := by
        refine ⟨operation, changes, ?_, mark.trans killed⟩
        simp [verdict, Lifecycle.verdict, killed]
      have settled : Settled pid [] := by constructor <;> simp
      exact .ended deeds d code [] undecided decided settled (by simp [notLive])
    · have marked : d.operation.escalated? = some pid → d.after.killed = true := by
        intro escalates
        simp [mark, escalates]
      have longer := undecided.concat unreported ⟨state, state', changes⟩ kills marked once
      refine .awaiting _ longer state' info' ?_
      rw [mark, killed]
      simp only [mem_escalationsOf_concat, Bool.decide_or]
  | ended during x code later undecided decided settled gone =>
    obtain ⟨gone', unreported, spared, late⟩ := sound.course.gone fresh gone
    have longer : Settled pid (later ++ [d]) :=
      ⟨forall_mem_concat settled.unreported unreported, forall_mem_concat settled.spared spared,
        forall_mem_concat settled.late late⟩
    rw [List.append_assoc, List.cons_append]
    exact .ended during x code _ undecided decided longer gone'

namespace Traffic

/-- What was done since some moment is a race for a process, provided that it is not launched
again. -/
def Racing (pid : UInt32) (base : List Deed) (t : Traffic) : Prop :=
  ∃ deeds, t.log = base ++ deeds ∧ ((launchesOf t.log).Nodup → Race pid t.supervisor deeds)

theorem launchesOf_append (earlier later : List Deed) :
    launchesOf (earlier ++ later) = launchesOf earlier ++ launchesOf later :=
  List.filterMap_append

theorem Racing.complete {pid : UInt32} {base : List Deed} (launched : pid ∈ launchesOf base)
    {t : Traffic} (racing : t.Racing pid base) {op : Operation} (busy : t.executing = some op)
    (sound : t.Sound) (tallied : t.Tallied) : t.complete.Racing pid base := by
  obtain ⟨deeds, log, race⟩ := racing
  have deed := sound.deed busy
  have once := (tallied.complete busy deed).escalations_le_one
  rw [complete_eq busy] at once ⊢
  refine ⟨deeds ++ [⟨t.supervisor, op⟩], by rw [log, List.append_assoc], fun distinct => ?_⟩
  replace once := once distinct pid
  simp only [log, launchesOf_append, escalationsOf_append, List.count_append] at distinct once race
  have before : (launchesOf base ++ launchesOf deeds).Nodup := distinct.of_append_left
  refine (race before).concat deed ?_ ?_
  · intro again
    have last : pid ∈ launchesOf [⟨t.supervisor, op⟩] := by simp [launchesOf, again]
    exact List.disjoint_of_nodup_append distinct (List.mem_append_left _ launched) last
  · intro escalates member
    have counted := List.count_pos_iff.mpr member
    have last : (escalationsOf [⟨t.supervisor, op⟩]).count pid = 1 := by
      have escalates : op.escalated? = some pid := escalates
      simp [escalationsOf, escalates]
    omega

theorem Racing.advance {pid : UInt32} {base : List Deed} (launched : pid ∈ launchesOf base)
    {t : Traffic} (racing : t.Racing pid base) (sound : t.Sound) (tallied : t.Tallied) {e : Event}
    (admitted : t.admits e = true) : (t.advance e).Racing pid base := by
  rcases advance_cases admitted with aside | ⟨r, rest, outcome, rfl, free, queue⟩ | ⟨op, rfl, busy⟩
  · obtain ⟨deeds, log, race⟩ := racing
    obtain ⟨state, info, killed⟩ := aside.supervisor
    refine ⟨deeds, aside.log.trans log, fun distinct => ?_⟩
    rw [aside.log] at distinct
    exact (race distinct).congr state info killed
  · rw [Traffic.advance, take_eq queue]
    exact racing
  · exact racing.complete launched busy sound tallied

theorem tallied_execute (settings : Settings) {events : List Event}
    (admitted : (fresh settings).admitsAll events = true) :
    ((fresh settings).execute events).Tallied := by
  refine (execute_induction (motive := fun t => t.Sound ∧ t.Tallied)
    ⟨sound_fresh settings, tallied_fresh settings⟩ ?_ events admitted).2
  intro t e ⟨sound, tallied⟩ first
  exact ⟨sound.advance e first, tallied.advance sound first⟩

/-- A stop that leaves the process time asks it to exit and kills nothing. -/
theorem complete_ask {t : Traffic} (coherent : Coherent t.supervisor) {pid : UInt32}
    {limit : Duration} (busy : t.executing = some (.stop (some limit))) (positive : limit ≠ .zero)
    (running : t.supervisor.state = .running) (known : t.supervisor.info = some ⟨pid, none⟩) :
    t.complete.supervisor = { t.supervisor with state := .stopping } ∧
      t.complete.stops = t.stops ++ [⟨⟨pid, limit⟩, t.now, .asking⟩] := by
  obtain ⟨h, handle, info, _⟩ := coherent.live (by simp [running])
  obtain rfl : h.pid = pid := by simpa [known, eq_comm] using info
  have some : limit? (some limit) = some limit := by simp [limit?, positive]
  have stopped := stop_cooperatively running handle coherent.settled some
  rw [complete_eq busy]
  simp [Traffic.supervisor, Run.advance, perform, Deed.begun, stopped, begunOf]

/-- From a stop on that leaves the process time, the order of execution alone decides. Before the
report of the exit nothing moves, and the escalation asks for one kill, in vain or not, and marks
the process. The report makes one move, to the state of a kill if the escalation came first, and
else to that of the exit code. An escalation after it does nothing, whatever was started or stopped
meanwhile. -/
theorem execute_race (settings : Settings) (events : List Event)
    (admitted : (fresh settings).admitsAll events = true) {t : Traffic}
    (reached : (fresh settings).execute events = t) (pid : UInt32) (limit : Duration)
    (applied : t.executing = some (.stop (some limit))) (positive : limit ≠ .zero)
    (running : t.supervisor.state = .running) (known : t.supervisor.info = some ⟨pid, none⟩)
    (later : List Event) (admittedLater : t.complete.admitsAll later = true)
    (distinct : (launchesOf (t.complete.execute later).log).Nodup) :
    (∃ s ∈ t.complete.stops, s.stop = ⟨pid, limit⟩) ∧
      ∃ deeds, (t.complete.execute later).log = t.complete.log ++ deeds ∧
        Race pid (t.complete.execute later).supervisor deeds ∧
        (escalationsOf deeds).count pid ≤ 1 := by
  have sound := sound_execute settings admitted
  have tallied := tallied_execute settings admitted
  have recorded := recorded_execute settings admitted
  rw [reached] at sound tallied recorded
  obtain ⟨stopping, begun⟩ := complete_ask sound.run.coherent applied positive running known
  refine ⟨⟨_, by rw [begun]; exact List.mem_append_right _ (List.mem_singleton.mpr rfl), rfl⟩, ?_⟩
  have launched : pid ∈ launchesOf t.complete.log := by
    obtain ⟨done, since, _⟩ := recorded.present pid (by rw [known]; rfl)
    rw [complete_eq applied, launchesOf_append]
    exact List.mem_append_left _ (List.mem_of_getLast? since.getLast?)
  have begins : t.complete.Racing pid t.complete.log := by
    refine ⟨[], (List.append_nil _).symm, fun _ => ?_⟩
    refine .awaiting [] (.nil pid) ?_ ?_ ?_
    · rw [stopping]
    · rw [stopping, ← known]
    · have alive := sound.run.coherent.running running
      rw [stopping]
      simpa [escalationsOf] using alive
  obtain ⟨soundLater, talliedLater, deeds, log, race⟩ :=
    execute_induction (motive := fun u => u.Sound ∧ u.Tallied ∧ u.Racing pid t.complete.log)
      ⟨sound.complete applied, tallied.complete applied (sound.deed applied), begins⟩
      (fun _ e ⟨sound, tallied, racing⟩ first => ⟨sound.advance e first,
        tallied.advance sound first, racing.advance launched sound tallied first⟩)
      later admittedLater
  refine ⟨deeds, log, race distinct, ?_⟩
  have once := talliedLater.escalations_le_one distinct pid
  rw [log, escalationsOf_append, List.count_append] at once
  omega

/-- The process exits in time and is replaced; the stop of the new one is on when the old stop
escalates. In another order the escalation comes first, though the process is gone by then. -/
theorem execute_race_restarted :
    let settings : Settings := ⟨"", "/bin/server", "", .empty, false⟩
    let limit : Duration := .ofSeconds 5 (by decide)
    let events : List Event :=
      [.start, .stop (some limit), .take (.ok 7), .complete, .take (.ok 0)]
    let inTime : List Event := [
      .report 7 0, .start, .stop (some limit), .take (.ok 0), .complete, .take (.ok 8), .complete,
      .take (.ok 0), .complete, .elapse 5000, .tell 0 .passed, .take (.ok 0), .complete]
    let tooLate : List Event := [
      .elapse 5000, .tell 0 .passed, .collect 7, .start, .report 7 0, .take (.ok 0), .complete,
      .take (.ok 8), .complete, .take (.ok 0), .complete]
    let t := (fresh settings).execute events
    (((t.complete.execute inTime).supervisor.state = .stopping ∧
      (launchesOf (t.complete.execute inTime).log).Nodup) ∧
      ∃ deeds, (t.complete.execute inTime).log = t.complete.log ++ deeds ∧
        Race 7 (t.complete.execute inTime).supervisor deeds ∧ (escalationsOf deeds).count 7 ≤ 1) ∧
      ((t.complete.execute tooLate).supervisor.state = .exitedKilled ∧
        (launchesOf (t.complete.execute tooLate).log).Nodup) ∧
      ∃ deeds, (t.complete.execute tooLate).log = t.complete.log ++ deeds ∧
        Race 7 (t.complete.execute tooLate).supervisor deeds ∧
        (escalationsOf deeds).count 7 ≤ 1 := by
  intro settings limit events inTime tooLate t
  have admitted : (fresh settings).admitsAll events = true := by decide
  have applied : t.executing = some (.stop (some limit)) := rfl
  have known : t.supervisor.info = some ⟨7, none⟩ := rfl
  have race := execute_race settings events admitted (t := t) rfl 7 limit applied (by decide) rfl
    known
  exact ⟨⟨by decide, (race inTime (by decide) (by decide)).2⟩,
    by decide, (race tooLate (by decide) (by decide)).2⟩

end Traffic

end Overseer.Supervisor
