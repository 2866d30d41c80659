import Overseer.Proofs.Supervisor.Traffic

/-!
Which processes a supervisor asks to kill. A cooperative stop may outlive its process and escalate
in the lifetime of another; the history of what was done ties each kill and each stop that is under
way to the launch it belongs to.
-/
namespace Overseer.Supervisor

def launchesOf (log : List Deed) : List UInt32 := log.filterMap Deed.launched?

/-- A process was launched, and later on a stop was applied to it. -/
def StoppedSince (log : List Deed) (pid : UInt32) : Prop :=
  ∃ earlier launch later, log = earlier ++ launch :: later ∧ launch.launched? = some pid ∧
    ∃ d ∈ later, d.stopped? = some pid

/-- What was done since a process was launched, if it is the one launched last. -/
def Since (log : List Deed) (pid : UInt32) (later : List Deed) : Prop :=
  ∃ earlier launch, log = earlier ++ launch :: later ∧ launch.launched? = some pid ∧
    ∀ d ∈ later, d.launched? = none

theorem StoppedSince.append {log : List Deed} {pid : UInt32} (stopped : StoppedSince log pid)
    (more : List Deed) : StoppedSince (log ++ more) pid := by
  obtain ⟨earlier, launch, later, rfl, launched, d, member, stop⟩ := stopped
  exact ⟨earlier, launch, later ++ more, by simp, launched, d, List.mem_append_left _ member, stop⟩

theorem Since.append {log later : List Deed} {pid : UInt32} (since : Since log pid later) {d : Deed}
    (none : d.launched? = none) : Since (log ++ [d]) pid (later ++ [d]) := by
  obtain ⟨earlier, launch, rfl, launched, quiet⟩ := since
  refine ⟨earlier, launch, by simp, launched, fun d' member => ?_⟩
  rcases List.mem_append.mp member with old | new
  · exact quiet d' old
  · rw [List.mem_singleton.mp new, none]

theorem Since.stopped {log later : List Deed} {pid : UInt32} (since : Since log pid later)
    {d : Deed} (member : d ∈ later) (stop : d.stopped? = some pid) : StoppedSince log pid := by
  obtain ⟨earlier, launch, rfl, launched, _⟩ := since
  exact ⟨earlier, launch, later, rfl, launched, d, member, stop⟩

theorem Since.getLast? {log later : List Deed} {pid : UInt32} (since : Since log pid later) :
    (launchesOf log).getLast? = some pid := by
  obtain ⟨earlier, launch, rfl, launched, quiet⟩ := since
  have none : later.filterMap Deed.launched? = [] := List.filterMap_eq_nil_iff.mpr quiet
  simp [launchesOf, launched, none]

/-- Only a process that was launched is marked as killed. -/
theorem Coherent.known_of_killed {s : Supervisor} (coherent : Coherent s)
    (killed : s.killed = true) : ∃ pid, s.info.map ProcessInfo.id = some pid := by
  cases state : s.state with
  | notStarted => simp [(coherent.notStarted state).2.2.2] at killed
  | running => simp [coherent.running state] at killed
  | startFailed => simp [(coherent.startFailed state).2.2.1] at killed
  | stopping =>
    obtain ⟨h, _, info, _⟩ := coherent.live (by simp [state])
    exact ⟨h.pid, by simp [info]⟩
  | exitedSuccessfully | exitedWithError | exitedUnexpectedly | exitedKilled =>
    obtain ⟨pid, code, info, _⟩ := coherent.exited (by simp [state, State.isExited])
    exact ⟨pid, by simp [info]⟩

/-- Where there is no process none is killed. -/
theorem perform_of_handle_none {s : Supervisor} (none : s.handle = none) (op : Operation) :
    killsOf (s.perform op).2 = [] ∧ ((s.perform op).1.killed = true → s.killed = true) := by
  cases op with
  | start launched =>
    cases live : s.state.isLive with
    | true => simp [perform, start_of_isLive live, killsOf]
    | false =>
      cases launched with
      | ok pid => simp [perform, start_ok live, killsOf]
      | error cause => simp [perform, start_error live, killsOf]
  | stop timeout =>
    cases row : Lifecycle.next s.state .stop s.context <;> cases s.cooperativeStop <;>
      simp [perform, stop, fire, row, beginStop, none, handOver, killsOf]
  | exited pid code =>
    simp only [perform, reportExit, fire]
    repeat' split
    all_goals simp [killsOf]
  | escalate pid => simp [perform, escalate, none, killsOf]

theorem handle_drop (s : Supervisor) : s.drop.1.handle = none := by
  unfold drop
  split
  next none => exact none
  next => rfl

theorem killed_drop (s : Supervisor) : s.drop.1.killed = s.killed := by
  unfold drop
  split <;> rfl

namespace Course

variable {s s' : Supervisor} {op : Operation} {changes : List Change} {kills : List UInt32}
  {begun : List CooperativeStop} {pid : UInt32}

/-- A process that is known was launched just now, or it was known before and its stop and its kill
are those of before or of now. -/
theorem process (course : Course s op s' changes kills begun)
    (known : s'.info.map ProcessInfo.id = some pid) :
    s.launches? op = some pid ∧ s'.state ≠ .stopping ∧ s'.killed = false ∨
      s.launches? op = none ∧ s.info.map ProcessInfo.id = some pid ∧
        (s'.state = .stopping → s.state = .stopping ∨ s.stops? op = some pid) ∧
        (s'.killed = true → s.killed = true ∨ pid ∈ kills) := by
  cases course with
  | startRefused live launched =>
    refine .inr ⟨?_, known, .inl, .inl⟩
    cases launched <;> simp [launches?, permits_start, live]
  | launch idle new =>
    exact .inl ⟨by simpa [launches?, permits_start, idle] using known, by simp, rfl⟩
  | launchFailed => simp at known
  | stopRefused => exact .inr ⟨rfl, known, .inl, .inl⟩
  | kill running p info =>
    refine .inr ⟨rfl, known, fun _ => .inr ?_, fun _ => .inr ?_⟩
    · simp [stops?, permits_stop, running, known]
    · simpa [info, eq_comm] using known
  | ask running =>
    refine .inr ⟨rfl, known, fun _ => .inr ?_, .inl⟩
    simp [stops?, permits_stop, running, known]
  | exit live p info code =>
    refine .inr ⟨rfl, by simpa [info] using known, fun stopping => ?_, .inl⟩
    have gone := exitState_isLive (s := s) code
    simp only at stopping
    simp [stopping] at gone
  | escalate stopping p info =>
    refine .inr ⟨rfl, known, fun _ => .inl stopping, fun _ => .inr ?_⟩
    simpa [info, eq_comm] using known
  | escalateInVain => exact .inr ⟨rfl, known, .inl, .inl⟩

/-- Only the present process is killed, and only during its stop. -/
theorem kills_stopped (course : Course s op s' changes kills begun) (member : pid ∈ kills) :
    s.launches? op = none ∧ s.info.map ProcessInfo.id = some pid ∧
      (s.state = .stopping ∨ s.stops? op = some pid) := by
  cases course with
  | kill running p info timeout _ =>
    obtain rfl := List.mem_singleton.mp member
    exact ⟨rfl, by simp [info], .inr (by simp [stops?, permits_stop, running, info])⟩
  | escalate stopping p info =>
    obtain rfl := List.mem_singleton.mp member
    exact ⟨rfl, by simp [info], .inl stopping⟩
  | _ => simp at member

theorem begun_stopped (course : Course s op s' changes kills begun) {stop : CooperativeStop}
    (member : stop ∈ begun) :
    s.launches? op = none ∧ s.info.map ProcessInfo.id = some stop.pid ∧
      s.stops? op = some stop.pid := by
  cases course with
  | ask running p info timeout limit some =>
    obtain rfl := List.mem_singleton.mp member
    exact ⟨rfl, by simp [info], by simp [stops?, permits_stop, running, info]⟩
  | _ => simp at member

end Course

namespace Traffic

/-- What is known of the present process, what is under way and what was done goes back to launches
in the history. -/
structure Recorded (t : Traffic) : Prop where
  present : ∀ pid, t.supervisor.info.map ProcessInfo.id = some pid →
    ∃ later, Since t.log pid later ∧
      (t.supervisor.state = .stopping → ∃ d ∈ later, d.stopped? = some pid) ∧
      (t.supervisor.killed = true → ∃ d ∈ later, pid ∈ d.kills)
  pursued : ∀ pid ∈ t.pursued, StoppedSince t.log pid
  kills : ∀ earlier d later, t.log = earlier ++ d :: later →
    ∀ pid ∈ d.kills, StoppedSince (earlier ++ [d]) pid

theorem recorded_fresh (settings : Settings) : (fresh settings).Recorded where
  present := by simp [fresh, Run.fresh]
  pursued := by simp [fresh, Traffic.pursued]
  kills := by simp [fresh]

/-- The present process is being stopped now, or was stopped before. -/
theorem Recorded.stopped {t : Traffic} (recorded : t.Recorded) {op : Operation} {pid : UInt32}
    (known : t.supervisor.info.map ProcessInfo.id = some pid)
    (none : t.supervisor.launches? op = none)
    (stop : t.supervisor.state = .stopping ∨ t.supervisor.stops? op = some pid) :
    StoppedSince (t.log ++ [⟨t.supervisor, op⟩]) pid := by
  obtain ⟨later, since, stopped, _⟩ := recorded.present pid known
  rcases stop with stopping | now
  · obtain ⟨d, member, stop⟩ := stopped stopping
    exact (since.stopped member stop).append _
  · have longer := since.append (d := ⟨t.supervisor, op⟩) none
    exact longer.stopped (List.mem_append_right _ (List.mem_singleton.mpr rfl)) now

theorem Recorded.present_complete {t : Traffic} (recorded : t.Recorded) {op : Operation}
    (deed : (⟨t.supervisor, op⟩ : Deed).Sound) {pid : UInt32}
    (known : (t.supervisor.perform op).1.info.map ProcessInfo.id = some pid) :
    ∃ later, Since (t.log ++ [⟨t.supervisor, op⟩]) pid later ∧
      ((t.supervisor.perform op).1.state = .stopping → ∃ d ∈ later, d.stopped? = some pid) ∧
      ((t.supervisor.perform op).1.killed = true → ∃ d ∈ later, pid ∈ d.kills) := by
  rcases deed.course.process known with
    ⟨launched, notStopping, alive⟩ | ⟨none, old, stopped, killed⟩
  · refine ⟨[], ⟨t.log, _, rfl, launched, by simp⟩, ?_, ?_⟩
    · exact fun stopping => absurd stopping notStopping
    · exact fun marked => Bool.noConfusion (alive.symm.trans marked)
  · obtain ⟨later, since, stoppedBefore, killedBefore⟩ := recorded.present pid old
    refine ⟨later ++ [⟨t.supervisor, op⟩], since.append (d := ⟨t.supervisor, op⟩) none, ?_, ?_⟩
    · intro stopping
      rcases stopped stopping with before | now
      · obtain ⟨d, member, stop⟩ := stoppedBefore before
        exact ⟨d, List.mem_append_left _ member, stop⟩
      · exact ⟨_, List.mem_append_right _ (List.mem_singleton.mpr rfl), now⟩
    · intro marked
      rcases killed marked with before | now
      · obtain ⟨d, member, kill⟩ := killedBefore before
        exact ⟨d, List.mem_append_left _ member, kill⟩
      · exact ⟨_, List.mem_append_right _ (List.mem_singleton.mpr rfl), now⟩

theorem Recorded.complete {t : Traffic} (recorded : t.Recorded) {op : Operation}
    (busy : t.executing = some op) (deed : (⟨t.supervisor, op⟩ : Deed).Sound) :
    t.complete.Recorded := by
  have pursued : ∀ pid ∈ t.complete.pursued, StoppedSince (t.log ++ [⟨t.supervisor, op⟩]) pid := by
    intro pid member
    have earlier := (pursued_complete busy).subset (List.mem_append_left _ member)
    rcases List.mem_append.mp earlier with old | new
    · exact (recorded.pursued pid old).append _
    · obtain ⟨stop, begun, rfl⟩ := List.mem_map.mp new
      obtain ⟨none, known, now⟩ := deed.course.begun_stopped begun
      exact recorded.stopped known none (.inr now)
  rw [complete_eq busy] at pursued ⊢
  refine ⟨fun pid => recorded.present_complete deed, pursued, ?_⟩
  intro earlier d later split pid member
  rcases later.eq_nil_or_concat with rfl | ⟨later, last, rfl⟩
  · obtain ⟨rfl, rfl⟩ : t.log = earlier ∧ ⟨t.supervisor, op⟩ = d := by simpa using split
    obtain ⟨none, known, stop⟩ := deed.course.kills_stopped member
    exact recorded.stopped known none stop
  · rw [List.concat_eq_append, ← List.cons_append, ← List.append_assoc] at split
    exact recorded.kills earlier d later (List.append_inj' split rfl).1 pid member

theorem Recorded.aside {t u : Traffic} (recorded : t.Recorded) (aside : t.Aside u) :
    u.Recorded := by
  obtain ⟨state, info, killed⟩ := aside.supervisor
  constructor
  · rw [state, info, killed, aside.log]
    exact recorded.present
  · intro pid member
    rw [aside.log]
    apply recorded.pursued
    rw [← List.count_pos_iff] at member ⊢
    exact Nat.lt_of_lt_of_le member (aside.pursued pid)
  · rw [aside.log]
    exact recorded.kills

theorem Recorded.take {t : Traffic} (recorded : t.Recorded) (free : t.executing = none)
    {r : Request} {rest : List Request} (queue : t.queue = r :: rest)
    (launched : Except SystemError UInt32) : (t.take launched).Recorded := by
  have pursued := pursued_take free queue launched
  rw [take_eq queue] at pursued ⊢
  exact ⟨recorded.present, fun pid member => recorded.pursued pid (pursued.subset member),
    recorded.kills⟩

theorem recorded_execute (settings : Settings) {events : List Event}
    (admitted : (fresh settings).admitsAll events = true) :
    ((fresh settings).execute events).Recorded := by
  refine (execute_induction (motive := fun t => t.Sound ∧ t.Recorded)
    ⟨sound_fresh settings, recorded_fresh settings⟩ ?_ events admitted).2
  intro t e ⟨sound, recorded⟩ first
  refine ⟨sound.advance e first, ?_⟩
  rcases advance_cases first with aside | ⟨r, rest, launched, rfl, free, queue⟩ | ⟨op, rfl, busy⟩
  · exact recorded.aside aside
  · exact recorded.take free queue launched
  · exact recorded.complete busy (sound.deed busy)

/-- An escalation finds the process that it is after, or it does nothing. -/
theorem Sound.complete_stale {t : Traffic} (sound : t.Sound) {pid : UInt32}
    (busy : t.executing = some (.escalate pid))
    (other : t.supervisor.info.map ProcessInfo.id ≠ some pid) :
    t.complete.supervisor = t.supervisor ∧ t.complete.run.effects = t.run.effects := by
  have nothing : t.supervisor.escalate pid = (t.supervisor, []) :=
    sound.run.coherent.escalate_stale fun hit => other hit.2
  rw [complete_eq busy]
  simp only [Traffic.supervisor, Run.advance, perform, nothing, List.append_nil, and_self]

/-- Every kill that is asked for is of a process to which a stop was applied after its launch, and
the mark of a kill is that of such a request since the last launch. Every escalation that is under
way goes back to a stop. If no two launches give the same process id, an escalation does nothing
once its process was replaced. An operation that is executing while the supervisor is dropped asks
for no kill. -/
theorem execute_kills_stopped (settings : Settings) (events : List Event)
    (admitted : (fresh settings).admitsAll events = true)
    (distinct : (launchesOf ((fresh settings).execute events).log).Nodup) :
    let t := (fresh settings).execute events
    (∀ earlier d later, t.log = earlier ++ d :: later →
      ∀ pid ∈ d.kills, StoppedSince (earlier ++ [d]) pid) ∧
      (t.supervisor.killed = true → ∃ pid later, t.supervisor.info.map ProcessInfo.id = some pid ∧
        Since t.log pid later ∧ ∃ d ∈ later, pid ∈ d.kills) ∧
      (∀ pid ∈ t.pursued, StoppedSince t.log pid) ∧
      (∀ pid, t.executing = some (.escalate pid) →
        pid ∈ (launchesOf t.log).dropLast ∨ t.supervisor.info = none →
          t.complete.supervisor = t.supervisor ∧ t.complete.run.effects = t.run.effects) ∧
      ∀ op, t.executing = some op →
        killsOf (t.supervisor.drop.1.perform op).2 = [] ∧
          ((t.supervisor.drop.1.perform op).1.killed = true → t.supervisor.killed = true) := by
  intro t
  have sound : t.Sound := sound_execute settings admitted
  have recorded : t.Recorded := recorded_execute settings admitted
  refine ⟨recorded.kills, ?_, recorded.pursued, ?_, ?_⟩
  · intro killed
    obtain ⟨pid, known⟩ := sound.run.coherent.known_of_killed killed
    obtain ⟨later, since, _, kill⟩ := recorded.present pid known
    exact ⟨pid, later, known, since, kill killed⟩
  · intro pid busy earlier
    refine sound.complete_stale busy fun known => ?_
    rcases earlier with replaced | gone
    · obtain ⟨later, since, _⟩ := recorded.present pid known
      rw [← List.dropLast_append_getLast? pid since.getLast?, List.nodup_append] at distinct
      exact distinct.2.2 pid replaced pid (List.mem_singleton.mpr rfl) rfl
    · simp [gone] at known
  · intro op _
    have spared := perform_of_handle_none (handle_drop t.supervisor) op
    rwa [killed_drop] at spared

/-- A stop misses the exit of its process and escalates while the next one is being stopped. -/
theorem execute_kills_stopped_replaced :
    let settings : Settings := ⟨"", "/bin/server", "", .empty, false⟩
    let limit : Duration := .ofSeconds 5 (by decide)
    let events : List Event := [
      .start, .stop (some limit), .take (.ok 7), .complete, .take (.ok 0), .complete,
      .tell 0 .answered, .report 7 0, .start, .stop (some limit), .take (.ok 0), .complete,
      .take (.ok 8), .complete, .take (.ok 0), .complete, .elapse 5000, .tell 0 .passed,
      .take (.ok 0)]
    let t := (fresh settings).execute events
    (fresh settings).admitsAll events = true ∧ launchesOf t.log = [7, 8] ∧
      t.supervisor.state = .stopping ∧ t.executing = some (.escalate 7) ∧
      t.complete.supervisor = t.supervisor ∧ t.complete.run.effects = t.run.effects := by
  intro settings limit events t
  have admitted : (fresh settings).admitsAll events = true := by decide
  have launches : launchesOf t.log = [7, 8] := by decide
  have stopping : t.supervisor.state = .stopping := by decide
  have busy : t.executing = some (.escalate 7) := by
    simp only [t, events, limit, settings]
    rfl
  have distinct : (launchesOf t.log).Nodup := by simp [launches]
  have stale := (execute_kills_stopped settings events admitted distinct).2.2.2.1 7
  rw [show (fresh settings).execute events = t from rfl] at stale
  exact ⟨admitted, launches, stopping, busy, stale busy (.inl (by simp [launches]))⟩

end Traffic

end Overseer.Supervisor
