import Overseer.Proofs.Supervisor.Timeline

/-!
How long a stop is patient, and what becomes of its process. Where a stop stands on its timeline is
one of a few cases, which every step keeps; the law of escalation is read off them.
-/
namespace Overseer.Supervisor

namespace Timeline

open Traffic (View view_put view_take view_complete complete_stopping complete_gone)

variable {l : Timeline} {t : Traffic}

/-- Nothing is decided yet. -/
structure Awaited (l : Timeline) (v : View) (happenings : List Happening) : Prop where
  state : v.state = .stopping
  info : v.info = some ⟨l.pid, none⟩
  killed : v.killed = false
  kills : killTimes l.pid happenings = []
  exits : exitsOf l.pid happenings = []
  inTime : ∀ e, l.exit = some e → v.now ≤ l.start + e

/-- How the process came to its end. -/
inductive Ending (l : Timeline) (h : Happening) (kills : List Nat) : Prop where
  | byItself (e : Nat) (exit : l.exit = some e) (inTime : e ≤ l.patience)
      (time : h.time = l.start + e) (operation : h.deed.operation = .exited l.pid l.code)
      (state : h.deed.after.state = graceful l.code) (unkilled : h.deed.after.killed = false)
      (none : kills = [])
  | killed (code : Int32) (slow : ∀ e, l.exit = some e → l.patience ≤ e)
      (time : l.start + l.patience ≤ h.time) (operation : h.deed.operation = .exited l.pid code)
      (state : h.deed.after.state = .exitedKilled) (killed : h.deed.after.killed = true)
      (once : kills = [l.start + l.patience])

/-- How far the stop has come, what is seen of the supervisor, and what was done since the stop was
applied. -/
inductive Standing (l : Timeline) (v : View) (happenings : List Happening) : Prop where
  | asking (awaited : Awaited l v happenings)
      (mine : v.mine = [⟨⟨l.pid, l.limit⟩, l.start, .asking⟩]) (due : v.due = 0)
      (patient : v.now ≤ l.start + l.limit.toMillis)
      (unanswered : ∀ d, l.answer = some d → v.now ≤ l.start + d)
  | waiting (awaited : Awaited l v happenings) (d : Nat) (answered : l.answer = some d)
      (early : d < l.limit.toMillis)
      (mine : v.mine = [⟨⟨l.pid, l.limit⟩, l.start, .waiting (l.start + d)⟩]) (due : v.due = 0)
      (patient : v.now ≤ l.start + d + l.limit.toMillis)
  | escalating (awaited : Awaited l v happenings) (mine : v.mine = []) (due : v.due = 1)
      (now : v.now = l.start + l.patience)
  | killed (state : v.state = .stopping) (info : v.info = some ⟨l.pid, none⟩)
      (killed : v.killed = true) (mine : v.mine = []) (due : v.due = 0)
      (kills : killTimes l.pid happenings = [l.start + l.patience])
      (exits : exitsOf l.pid happenings = []) (late : l.start + l.patience ≤ v.now)
      (slow : ∀ e, l.exit = some e → l.patience ≤ e)
  | exited (h : Happening) (ending : Ending l h (killTimes l.pid happenings))
      (exits : exitsOf l.pid happenings = [h]) (past : h.time ≤ v.now)
      (gone : h.deed.after.state.isLive = false)
      (remains : v.info.map ProcessInfo.id = some l.pid →
        v.state = h.deed.after.state ∧ v.info = h.deed.after.info ∧
          v.killed = h.deed.after.killed)

/-- Nothing about the process happened. -/
theorem Standing.congr {v w : View} {happenings : List Happening}
    (standing : Standing l v happenings) (same : w = v) (others : List Happening)
    (noKill : killTimes l.pid others = []) (noExit : exitsOf l.pid others = []) :
    Standing l w (happenings ++ others) := by
  subst same
  have kills : killTimes l.pid (happenings ++ others) = killTimes l.pid happenings := by
    rw [killTimes_append, noKill, List.append_nil]
  have exits : exitsOf l.pid (happenings ++ others) = exitsOf l.pid happenings := by
    rw [exitsOf_append, noExit, List.append_nil]
  have awaits (awaited : Awaited l w happenings) : Awaited l w (happenings ++ others) :=
    ⟨awaited.state, awaited.info, awaited.killed, kills.trans awaited.kills,
      exits.trans awaited.exits, awaited.inTime⟩
  cases standing with
  | asking awaited mine due patient unanswered =>
    exact .asking (awaits awaited) mine due patient unanswered
  | waiting awaited d answered early mine due patient =>
    exact .waiting (awaits awaited) d answered early mine due patient
  | escalating awaited mine due now => exact .escalating (awaits awaited) mine due now
  | killed state info killed mine due kills' exits' late slow =>
    exact .killed state info killed mine due (kills.trans kills') (exits.trans exits') late slow
  | exited h ending exits' past gone remains =>
    exact .exited h (by rwa [kills]) (exits.trans exits') past gone remains

theorem Standing.elapse {ms : Nat} {happenings : List Happening}
    (standing : Standing l (t.view l.pid) happenings) (allowed : l.allows t (.elapse ms) = true) :
    Standing l ((t.advance (.elapse ms)).view l.pid) happenings := by
  obtain ⟨spares, due, exit⟩ := allows_elapse allowed
  have awaits (awaited : Awaited l (t.view l.pid) happenings) :
      Awaited l ((t.advance (.elapse ms)).view l.pid) happenings :=
    ⟨awaited.state, awaited.info, awaited.killed, awaited.kills, awaited.exits,
      exit awaited.info awaited.killed⟩
  cases standing with
  | asking awaited mine due patient unanswered =>
    have spared := spares _ (mine ▸ List.mem_singleton_self _)
    simp only [Timeline.spares, Stopping.deadline?, Option.all_some, Bool.and_eq_true,
      decide_eq_true_eq, bne_self_eq_false, Bool.false_or] at spared
    refine .asking (awaits awaited) mine due spared.1 fun d answer => ?_
    change t.now + ms ≤ _
    simpa [answer] using spared.2
  | waiting awaited d answered early mine due patient =>
    have spared := spares _ (mine ▸ List.mem_singleton_self _)
    simp only [Timeline.spares, Stopping.deadline?, Option.all_some, Bool.and_eq_true,
      decide_eq_true_eq] at spared
    exact .waiting (awaits awaited) d answered early mine due spared.1
  | escalating awaited mine pending now =>
    rw [show t.escalationsDue l.pid = _ from pending] at due
    contradiction
  | killed state info killed mine due kills exits late slow =>
    exact .killed state info killed mine due kills exits (Nat.le_add_right_of_le late) slow
  | exited h ending exits past gone remains =>
    exact .exited h ending exits (Nat.le_add_right_of_le past) gone remains

theorem patience_of_silent (l : Timeline) (silent : ∀ d, l.answer = some d → l.limit.toMillis < d) :
    l.patience = l.limit.toMillis := by
  unfold patience
  cases answer : l.answer with
  | none => rfl
  | some d => simp [silent d answer]

theorem patience_of_early {d : Nat} (answered : l.answer = some d) (early : d < l.limit.toMillis) :
    l.patience = d + l.limit.toMillis := by
  have notLate : ¬l.limit.toMillis < d := by omega
  simp [patience, answered, notLate]

theorem Awaited.tell {happenings : List Happening} (awaited : Awaited l (t.view l.pid) happenings)
    (mine : List Stopping) (due : Nat) : Awaited l { t.view l.pid with mine, due } happenings :=
  ⟨awaited.state, awaited.info, awaited.killed, awaited.kills, awaited.exits, awaited.inTime⟩

/-- What is seen once a stop is told of something, if no other is after the process. -/
def told (l : Timeline) (t : Traffic) (s : Stopping) (e : Stopping.Event) : View :=
  { t.view l.pid with
    mine := if (s.step t.now e).1.isFinished then [] else [(s.step t.now e).1]
    due := t.escalationsDue l.pid + (Stopping.escalationsOf (s.step t.now e).2).count l.pid }

/-- A stop that asks goes on to wait when it is answered, and gives up in time. -/
theorem Awaited.tell_asking {e : Stopping.Event} {happenings : List Happening}
    (awaited : Awaited l (t.view l.pid) happenings) (due : t.escalationsDue l.pid = 0)
    (patient : t.now ≤ l.start + l.limit.toMillis)
    (unanswered : ∀ d, l.answer = some d → t.now ≤ l.start + d)
    (untied : l.answer ≠ some l.limit.toMillis)
    (answers : e = .answered → ∃ d, l.answer = some d ∧ t.now = l.start + d) :
    Standing l (told l t ⟨⟨l.pid, l.limit⟩, l.start, .asking⟩ e) happenings := by
  have different (d : Nat) (answered : l.answer = some d) : d ≠ l.limit.toMillis := fun same =>
    untied (same ▸ answered)
  unfold told
  cases e with
  | answered =>
    obtain ⟨d, answered, now⟩ := answers rfl
    have apart := different d answered
    refine .waiting (awaited.tell _ _) d answered (by omega) ?_ due ?_
    · simp [Stopping.step, Stopping.isFinished, now]
    · change t.now ≤ _
      omega
  | seen state =>
    exact .asking (awaited.tell _ _) (by simp [Stopping.step, Stopping.isFinished]) due patient
      unanswered
  | passed =>
    rcases Stopping.step_passed (s := ⟨⟨l.pid, l.limit⟩, l.start, .asking⟩) rfl t.now with
      ⟨late, finished, escalates⟩ | ⟨_, same⟩
    · have late : l.start + l.limit.toMillis ≤ t.now := late
      have silent (d : Nat) (answered : l.answer = some d) : l.limit.toMillis < d := by
        have apart := different d answered
        have := unanswered d answered
        omega
      refine .escalating (awaited.tell _ _) (by simp [finished]) ?_ ?_
      · simp [escalates, due]
      · change t.now = _
        rw [l.patience_of_silent silent]
        omega
    · rw [same]
      exact .asking (awaited.tell _ _) rfl due patient unanswered

/-- A stop that waits sees that the process is still there, and gives up in time. -/
theorem Awaited.tell_waiting {e : Stopping.Event} {happenings : List Happening}
    (awaited : Awaited l (t.view l.pid) happenings) (due : t.escalationsDue l.pid = 0) {d : Nat}
    (answered : l.answer = some d) (early : d < l.limit.toMillis)
    (patient : t.now ≤ l.start + d + l.limit.toMillis)
    (sees : ∀ state, e = .seen state → state = .stopping) :
    Standing l (told l t ⟨⟨l.pid, l.limit⟩, l.start, .waiting (l.start + d)⟩ e) happenings := by
  have waits (same : Stopping.step ⟨⟨l.pid, l.limit⟩, l.start, .waiting (l.start + d)⟩ t.now e =
      (⟨⟨l.pid, l.limit⟩, l.start, .waiting (l.start + d)⟩, [])) :
      Standing l (told l t ⟨⟨l.pid, l.limit⟩, l.start, .waiting (l.start + d)⟩ e) happenings := by
    rw [told, same]
    exact .waiting (awaited.tell _ _) d answered early rfl due patient
  cases e with
  | answered => exact waits rfl
  | seen state =>
    obtain rfl := sees state rfl
    exact waits rfl
  | passed =>
    rcases Stopping.step_passed
        (s := ⟨⟨l.pid, l.limit⟩, l.start, .waiting (l.start + d)⟩) rfl t.now with
      ⟨late, finished, escalates⟩ | ⟨_, same⟩
    · have late : l.start + d + l.limit.toMillis ≤ t.now := late
      unfold told
      refine .escalating (awaited.tell _ _) (by simp [finished]) ?_ ?_
      · simp [escalates, due]
      · change t.now = _
        rw [l.patience_of_early answered early]
        omega
    · exact waits same

/-- A stop that is told of something goes on, or it is over and escalates, at the end of its
patience. -/
theorem Standing.tell {index : Nat} {e : Stopping.Event} {happenings : List Happening}
    (standing : Standing l (t.view l.pid) happenings) (untied : l.answer ≠ some l.limit.toMillis)
    (allowed : l.allows t (.tell index e) = true) :
    Standing l ((t.tell index e).view l.pid) happenings := by
  rcases t.view_tell l.pid index e with same | ⟨s, xs, ys, found, ours, mine, view_eq⟩
  · simpa using standing.congr same [] rfl rfl
  have only {s₀ : Stopping} (single : t.stopsAfter l.pid = [s₀]) :
      s = s₀ ∧ (t.tell index e).view l.pid = told l t s₀ e := by
    rw [single] at mine
    cases xs with
    | nil =>
      obtain ⟨rfl, rfl⟩ := by simpa using mine
      exact ⟨rfl, by simpa [told] using view_eq⟩
    | cons x xs => simp at mine
  cases standing with
  | asking awaited single due patient unanswered =>
    obtain ⟨rfl, after⟩ := only single
    rw [after]
    refine awaited.tell_asking due patient unanswered untied ?_
    rintro rfl
    exact allows_answered allowed found ours rfl
  | waiting awaited d answered early single due patient =>
    obtain ⟨rfl, after⟩ := only single
    rw [after]
    refine awaited.tell_waiting due answered early patient ?_
    rintro state rfl
    exact (of_decide_eq_true allowed).trans awaited.state
  | escalating _ none | killed _ _ _ none =>
    have none : t.stopsAfter l.pid = [] := none
    simp [none] at mine
  | exited h ending exits past gone remains =>
    rw [view_eq]
    exact .exited h ending exits past gone remains

/-- With the report of its exit it is over with the process. -/
theorem Standing.ended {happenings : List Happening} {op : Operation}
    (busy : t.executing = some op) {h : Happening} (done : h = ⟨t.now, t.supervisor, op⟩)
    (noExits : exitsOf l.pid happenings = []) (exits : exitsOf l.pid [h] = [h])
    (gone : h.deed.after.state.isLive = false)
    (ending : Ending l h (killTimes l.pid (happenings ++ [h]))) :
    Standing l (t.complete.view l.pid) (happenings ++ [h]) := by
  obtain ⟨due, _, view_eq⟩ := view_complete l.pid busy
  refine .exited h ending ?_ ?_ gone fun _ => ?_
  · rw [exitsOf_append, noExits, exits, List.nil_append]
  · exact Nat.le_of_eq (by rw [view_eq, done])
  · rw [view_eq, done]
    exact ⟨rfl, rfl, rfl⟩

/-- A process that is awaited ends by itself when it is due. -/
theorem Awaited.exit {happenings : List Happening} (awaited : Awaited l (t.view l.pid) happenings)
    (patient : t.now ≤ l.start + l.patience) {op : Operation} (busy : t.executing = some op)
    {h : Happening} (done : h = ⟨t.now, t.supervisor, op⟩) {code : Int32}
    (report : op = .exited l.pid code) (allowed : l.allows t .complete = true)
    (noKill : killTimes l.pid [h] = []) (exits : exitsOf l.pid [h] = [h])
    (state : h.deed.after.state = Lifecycle.verdict ⟨t.supervisor.killed, some code⟩)
    (killed : h.deed.after.killed = t.supervisor.killed)
    (gone : h.deed.after.state.isLive = false) :
    Standing l (t.complete.view l.pid) (happenings ++ [h]) := by
  have unkilled : t.supervisor.killed = false := awaited.killed
  obtain ⟨rfl, e, exit, now⟩ := allows_complete allowed (report ▸ busy) unkilled
  have none : killTimes l.pid (happenings ++ [h]) = [] := by
    rw [killTimes_append, awaited.kills, noKill, List.nil_append]
  refine .ended busy done awaited.exits exits gone ?_
  refine .byItself e exit (by omega) ?_ ?_ ?_ (killed.trans unkilled) none
  · rw [done]
    exact now
  · rw [done, report]
  · rw [state, unkilled, verdict_unkilled]

/-- The process goes on to be awaited, or it ends when it is due, or the escalation is executed. -/
theorem Awaited.complete {happenings : List Happening}
    (awaited : Awaited l (t.view l.pid) happenings)
    (standing : Standing l (t.view l.pid) happenings) (patient : t.now ≤ l.start + l.patience)
    (sound : t.Sound) (allowed : l.allows t .complete = true) {op : Operation}
    (busy : t.executing = some op) {h : Happening} (done : h = ⟨t.now, t.supervisor, op⟩) :
    Standing l (t.complete.view l.pid) (happenings ++ [h]) ∨
      t.complete.view l.pid =
          { t.view l.pid with due := t.escalationsDue l.pid - 1, killed := true } ∧
        0 < t.escalationsDue l.pid ∧ killTimes l.pid [h] = [t.now] ∧ exitsOf l.pid [h] = [] := by
  rcases complete_stopping l.pid busy sound awaited.state awaited.info done with
    ⟨same, noKill, noExit⟩ | escalated | ⟨code, report, noKill, exits, _, state, killed, gone⟩
  · exact .inl (standing.congr same [h] noKill noExit)
  · exact .inr escalated
  · exact .inl (awaited.exit patient busy done report allowed noKill exits state killed gone)

/-- The operation at hand is completed. -/
theorem Standing.complete {happenings : List Happening}
    (standing : Standing l (t.view l.pid) happenings) (sound : t.Sound)
    (allowed : l.allows t .complete = true) {op : Operation} (busy : t.executing = some op)
    (fresh : t.supervisor.launches? op ≠ some l.pid) {h : Happening}
    (done : h = ⟨t.now, t.supervisor, op⟩) :
    Standing l (t.complete.view l.pid) (happenings ++ [h]) := by
  have before := standing
  cases standing with
  | asking awaited mine due patient unanswered =>
    have patient : t.now ≤ l.start + l.patience :=
      Nat.le_trans patient (Nat.add_le_add_left l.limit_le_patience _)
    refine (awaited.complete before patient sound allowed busy done).resolve_right ?_
    exact fun ⟨_, pending, _⟩ => Nat.ne_of_gt pending due
  | waiting awaited d answered early mine due patient =>
    have patient : t.now ≤ l.start + l.patience := by
      rw [l.patience_of_early answered early, ← Nat.add_assoc]
      exact patient
    refine (awaited.complete before patient sound allowed busy done).resolve_right ?_
    exact fun ⟨_, pending, _⟩ => Nat.ne_of_gt pending due
  | escalating awaited mine due now =>
    have due : t.escalationsDue l.pid = 1 := due
    have now : t.now = l.start + l.patience := now
    rcases awaited.complete before (Nat.le_of_eq now) sound allowed busy done with
      after | ⟨after, _, kill, noExit⟩
    · exact after
    · rw [after]
      refine .killed awaited.state awaited.info rfl mine (by simp [due]) ?_ ?_
        (Nat.le_of_eq now.symm) fun e exit => ?_
      · rw [killTimes_append, awaited.kills, kill, now, List.nil_append]
      · rw [exitsOf_append, awaited.exits, noExit, List.nil_append]
      · have inTime : t.now ≤ l.start + e := awaited.inTime e exit
        omega
  | killed state info killed mine due kills noExits late slow =>
    rcases complete_stopping l.pid busy sound state info done with
      ⟨same, noKill, noExit⟩ | ⟨_, pending, _⟩ |
      ⟨code, report, noKill, exits, _, verdict, mark, gone⟩
    · exact before.congr same [h] noKill noExit
    · exact absurd due (Nat.ne_of_gt pending)
    · have killed : t.supervisor.killed = true := killed
      refine .ended busy done noExits exits gone (.killed code slow ?_ ?_ ?_ (mark.trans killed) ?_)
      · rw [done]
        exact late
      · rw [done, report]
      · rw [verdict, killed]
        rfl
      · rw [killTimes_append, kills, noKill, List.append_nil]
  | exited last ending exits past gone remains =>
    have idle (known : t.supervisor.info.map ProcessInfo.id = some l.pid) :
        t.supervisor.state.isLive = false := by
      rw [show t.supervisor.state = _ from (remains known).1, gone]
    obtain ⟨noKill, noExit, now, left⟩ := complete_gone l.pid busy sound fresh idle done
    refine .exited last ?_ ?_ (now ▸ past) gone fun known => ?_
    · rwa [killTimes_append, noKill, List.append_nil]
    · rw [exitsOf_append, noExit, exits, List.append_nil]
    · obtain ⟨info, state, killed⟩ := left known
      rw [info] at known
      rw [info, state, killed]
      exact remains known

theorem Standing.advance {e : Traffic.Event} {happenings : List Happening}
    (standing : Standing l (t.view l.pid) happenings) (untied : l.answer ≠ some l.limit.toMillis)
    (sound : t.Sound) (admitted : t.admits e = true) (allowed : l.allows t e = true)
    (fresh : ∀ h ∈ t.happens e, h.deed.launched? ≠ some l.pid) :
    Standing l ((t.advance e).view l.pid) (happenings ++ t.happens e) := by
  cases e with
  | start => exact standing.congr (view_put rfl) [] rfl rfl
  | stop timeout => exact standing.congr (view_put rfl) [] rfl rfl
  | collect pid => exact standing.congr rfl [] rfl rfl
  | report pid code => exact standing.congr (view_put rfl) [] rfl rfl
  | tell index e => simpa [Traffic.happens, Traffic.advance] using standing.tell untied allowed
  | elapse ms => simpa [Traffic.happens] using standing.elapse allowed
  | take launched =>
    obtain ⟨free, some⟩ : t.executing = none ∧ t.queue ≠ [] := by
      simpa [Traffic.admits] using admitted
    obtain ⟨r, rest, queue⟩ := List.exists_cons_of_ne_nil some
    exact standing.congr (view_take free queue launched) [] rfl rfl
  | complete =>
    obtain ⟨op, busy⟩ := Option.isSome_iff_exists.mp admitted
    have done : t.happens .complete = [⟨t.now, t.supervisor, op⟩] := by
      simp [Traffic.happens, busy]
    rw [done] at fresh ⊢
    exact standing.complete sound allowed busy (fresh _ (List.mem_singleton_self _)) rfl

theorem Standing.execute {happenings : List Happening}
    (standing : Standing l (t.view l.pid) happenings)
    (untied : l.answer ≠ some l.limit.toMillis) (sound : t.Sound) (events : List Traffic.Event)
    (admitted : t.admitsAll events = true) (timely : l.timely t events = true)
    (fresh : ∀ h ∈ t.chronicle events, h.deed.launched? ≠ some l.pid) :
    Standing l ((t.execute events).view l.pid) (happenings ++ t.chronicle events) := by
  induction events generalizing t happenings with
  | nil => simpa [Traffic.chronicle, Traffic.execute] using standing
  | cons e events ih =>
    obtain ⟨first, later⟩ : t.admits e = true ∧ (t.advance e).admitsAll events = true := by
      simpa [Traffic.admitsAll] using admitted
    obtain ⟨allowed, timely⟩ : l.allows t e = true ∧ l.timely (t.advance e) events = true := by
      simpa [Timeline.timely] using timely
    rw [Traffic.chronicle, List.forall_mem_append] at fresh
    rw [Traffic.chronicle, ← List.append_assoc]
    exact ih (standing.advance untied sound first allowed fresh.1) (sound.advance e first) later
      timely fresh.2

/-- The exit of the process was executed, and is the last that is known of it until it is launched
again. -/
structure Ended (l : Timeline) (t : Traffic) (happenings : List Happening) (h : Happening) :
    Prop where
  once : exitsOf l.pid happenings = [h]
  past : h.time ≤ t.now
  remains : t.supervisor.info.map ProcessInfo.id = some l.pid →
    t.supervisor.state = h.deed.after.state ∧ t.supervisor.info = h.deed.after.info ∧
      t.supervisor.killed = h.deed.after.killed

/-- The process ends by itself before the stop gives up. -/
structure Spared (l : Timeline) (e : Nat) (t : Traffic) (happenings : List Happening) : Prop where
  kills : killTimes l.pid happenings = []
  outcome :
    (exitsOf l.pid happenings = [] ∧ t.now ≤ l.start + e ∧ t.supervisor.state = .stopping ∧
        t.supervisor.killed = false) ∨
      ∃ h, l.Ended t happenings h ∧ h.time = l.start + e ∧
        h.deed.operation = .exited l.pid l.code ∧ h.deed.after.state = graceful l.code ∧
        h.deed.after.killed = false

theorem Awaited.spared {happenings : List Happening} (awaited : Awaited l (t.view l.pid) happenings)
    {e : Nat} (exit : l.exit = some e) : l.Spared e t happenings :=
  ⟨awaited.kills, .inl ⟨awaited.exits, awaited.inTime e exit, awaited.state, awaited.killed⟩⟩

end Timeline

namespace Traffic

end Traffic

end Overseer.Supervisor
