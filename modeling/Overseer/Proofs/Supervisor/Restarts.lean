import Overseer.Proofs.Supervisor.Parting

/-!
Two supervisors with the same settings and whatever pasts, each started anew. From then on they
cannot be told apart: what others see of them is the same after the same operations, although
stops that were begun in either past may still escalate.
-/
namespace Overseer.Supervisor

variable {s u : Supervisor}

structure Alike (s u : Supervisor) : Prop where
  settings : s.settings = u.settings
  face : s.face = u.face

namespace Alike

theorem state (alike : Alike s u) : s.state = u.state := congrArg Face.state alike.face

theorem info (alike : Alike s u) : s.info = u.info := congrArg Face.info alike.face

theorem killed (alike : Alike s u) : s.killed = u.killed := congrArg Face.killed alike.face

theorem startError (alike : Alike s u) : s.startError = u.startError :=
  congrArg Face.startError alike.face

theorem view (alike : Alike s u) : s.view = u.view := by
  simp only [Supervisor.view, context, alike.state, alike.info, alike.killed]

theorem symm (alike : Alike s u) : Alike u s := ⟨alike.settings.symm, alike.face.symm⟩

theorem awaited (alike : Alike s u) : s.awaited = u.awaited :=
  awaited_congr (congrArg State.isLive alike.state) alike.info

theorem launches? (alike : Alike s u) (op : Operation) : s.launches? op = u.launches? op := by
  cases op with
  | start launched => cases launched <;> simp [Supervisor.launches?, permits_start, alike.state]
  | _ => rfl

theorem face_start (alike : Alike s u) (launched : Except SystemError UInt32) :
    (s.start launched).1.face = (u.start launched).1.face := by
  cases live : s.state.isLive with
  | true =>
    rw [start_of_isLive live, start_of_isLive (alike.state ▸ live)]
    exact alike.face
  | false =>
    have idle : u.state.isLive = false := alike.state ▸ live
    cases launched with
    | ok pid =>
      rw [start_ok live, start_ok idle]
      rfl
    | error cause =>
      rw [start_error live, start_error idle]
      simp [Supervisor.face, alike.settings]

theorem face_stop (alike : Alike s u) (coherent : Coherent s) (coherent' : Coherent u)
    (timeout : Option Duration) : (s.stop timeout).1.face = (u.stop timeout).1.face := by
  rw [coherent.stop_fst, coherent'.stop_fst, alike.state]
  split
  · simp [Supervisor.face, alike.info, alike.killed, alike.startError]
  · exact alike.face

theorem face_escalate (alike : Alike s u) (coherent : Coherent s) (coherent' : Coherent u)
    (pid : UInt32) : (s.escalate pid).1.face = (u.escalate pid).1.face := by
  rw [coherent.escalate_fst, coherent'.escalate_fst, alike.state, alike.info]
  split
  · simp [Supervisor.face, alike.startError]
  · exact alike.face

/-- The same operation does the same to supervisors that are alike, as far as others see. -/
theorem perform (alike : Alike s u) (coherent : Coherent s) (coherent' : Coherent u)
    {op : Operation} (finds : s.Finds op) :
    Alike (s.perform op).1 (u.perform op).1 ∧
      changesOf (s.perform op).2 = changesOf (u.perform op).2 := by
  have known : ∀ pid code, op = .exited pid code → s.info = some ⟨pid, none⟩ :=
    fun pid code report => (finds pid code report).2
  have known' : ∀ pid code, op = .exited pid code → u.info = some ⟨pid, none⟩ :=
    fun pid code report => alike.info ▸ known pid code report
  refine ⟨⟨?_, ?_⟩, ?_⟩
  · rw [settings_perform, settings_perform, alike.settings]
  · cases op with
    | start launched => exact alike.face_start launched
    | stop timeout => exact alike.face_stop coherent coherent' timeout
    | exited pid code =>
      obtain ⟨live, info⟩ := finds pid code rfl
      have info' := known' pid code rfl
      simp only [Supervisor.perform, reportExit_of_isLive live info,
        reportExit_of_isLive (alike.state ▸ live) info']
      simp [Supervisor.face, exitState, alike.state, alike.killed, alike.startError]
    | escalate pid => exact alike.face_escalate coherent coherent' pid
  · rw [(moves_of_known known).changes, (moves_of_known known').changes, alike.view, alike.state]

end Alike

/-- A start forgets whatever was known of an earlier process, and whether it was killed. -/
theorem alike_start (settings : s.settings = u.settings) (idle : s.state.isLive = false)
    (idle' : u.state.isLive = false) (launched : Except SystemError UInt32) :
    Alike (s.start launched).1 (u.start launched).1 ∧
      ∃ changes, changesOf (s.start launched).2 = ⟨s.state, .running⟩ :: changes ∧
        changesOf (u.start launched).2 = ⟨u.state, .running⟩ :: changes := by
  cases launched with
  | ok pid =>
    rw [start_ok idle, start_ok idle']
    exact ⟨⟨settings, rfl⟩, [], rfl, rfl⟩
  | error cause =>
    rw [start_error idle, start_error idle']
    refine ⟨⟨settings, ?_⟩, [⟨.running, .startFailed⟩], rfl, rfl⟩
    simp [face, settings]

namespace Run

def launches (r : Run) : List Event → List UInt32
  | [] => []
  | .perform op :: events =>
    (r.supervisor.launches? op).toList ++ (r.advance (.perform op)).launches events
  | .collect pid :: events => (r.advance (.collect pid)).launches events

/-- What may happen in one of two runs only: an escalation against a process of old, and the
collection of an exit code. -/
inductive Stale (old : List UInt32) : Event → Prop where
  | escalate {pid : UInt32} (member : pid ∈ old) : Stale old (.perform (.escalate pid))
  | collect (pid : UInt32) : Stale old (.collect pid)

/-- The same operations in two runs, with what is stale in between, in either of them. -/
inductive Alongside (old : List UInt32) : List Event → List Event → Prop where
  | nil : Alongside old [] []
  | both (op : Operation) {events events' : List Event} (rest : Alongside old events events') :
      Alongside old (.perform op :: events) (.perform op :: events')
  | left {e : Event} (stale : Stale old e) {events events' : List Event}
      (rest : Alongside old events events') : Alongside old (e :: events) events'
  | right {e : Event} (stale : Stale old e) {events events' : List Event}
      (rest : Alongside old events events') : Alongside old events (e :: events')

/-- From `r` and `u` on to `r'` and `u'` others saw the same changes, and now they see the same. -/
structure Abreast (r u r' u' : Run) : Prop where
  face : r'.supervisor.face = u'.supervisor.face
  changes : ∃ changes, changesOf r'.effects = changesOf r.effects ++ changes ∧
    changesOf u'.effects = changesOf u.effects ++ changes

theorem Abreast.trans {r u r' u' r'' u'' : Run} (earlier : Abreast r u r' u')
    (later : Abreast r' u' r'' u'') : Abreast r u r'' u'' := by
  obtain ⟨_, first, ours, theirs⟩ := earlier
  obtain ⟨face, second, ours', theirs'⟩ := later
  refine ⟨face, first ++ second, ?_, ?_⟩
  · rw [ours', ours, List.append_assoc]
  · rw [theirs', theirs, List.append_assoc]

structure Level (old : List UInt32) (r u : Run) : Prop where
  left : r.Sound
  right : u.Sound
  alike : Alike r.supervisor u.supervisor
  present : ∀ pid, r.supervisor.info.map ProcessInfo.id = some pid → pid ∉ old

variable {r u : Run} {old : List UInt32} {e : Event} {op : Operation}

theorem Stale.admits (stale : Stale old e) (r : Run) : r.admits e = true := by
  cases stale <;> rfl

theorem Stale.launches (stale : Stale old e) (r : Run) (events : List Event) :
    r.launches (e :: events) = (r.advance e).launches events := by
  cases stale <;> rfl

/-- An escalation finds nothing to kill unless its process is there and being stopped. -/
theorem Stale.advance (stale : Stale old e) (coherent : Coherent r.supervisor)
    (present : ∀ pid, r.supervisor.info.map ProcessInfo.id = some pid → pid ∉ old) :
    Alike (r.advance e).supervisor r.supervisor ∧ (r.advance e).effects = r.effects := by
  cases stale with
  | @escalate pid member =>
    have vain : r.supervisor.perform (.escalate pid) = (r.supervisor, []) :=
      coherent.escalate_stale fun hit => present pid hit.2 member
    simp only [Run.advance, vain]
    exact ⟨⟨rfl, rfl⟩, List.append_nil _⟩
  | collect pid => exact ⟨⟨rfl, rfl⟩, rfl⟩

theorem Sound.finds (sound : r.Sound) (admitted : r.admits (.perform op) = true) :
    r.supervisor.Finds op := by
  rintro pid code rfl
  obtain ⟨live, info, _⟩ := sound.found (by simpa [Run.admits] using admitted)
  exact ⟨live, info⟩

/-- The process that is there was there before, or it was launched. -/
theorem Sound.present (sound : r.Sound) (admitted : r.admits (.perform op) = true)
    (present : ∀ pid, r.supervisor.info.map ProcessInfo.id = some pid → pid ∉ old)
    (new : ∀ pid, r.supervisor.launches? op = some pid → pid ∉ old) (pid : UInt32)
    (known : (r.advance (.perform op)).supervisor.info.map ProcessInfo.id = some pid) :
    pid ∉ old := by
  have course := sound.coherent.course (sound.finds admitted)
  rcases course.process known with ⟨launched, _⟩ | ⟨_, same, _⟩
  · exact new pid launched
  · exact present pid same

namespace Level

theorem symm (level : Level old r u) : Level old u r :=
  ⟨level.right, level.left, level.alike.symm, level.alike.info ▸ level.present⟩

theorem admits (level : Level old r u) (e : Event) : r.admits e = u.admits e :=
  admits_congr (by rw [level.left.unreported, level.right.unreported, level.alike.awaited]) e

theorem stale_left (level : Level old r u) (stale : Stale old e) :
    Level old (r.advance e) u ∧ Abreast r u (r.advance e) u := by
  obtain ⟨same, effects⟩ := stale.advance level.left.coherent level.present
  have face := same.face.trans level.alike.face
  refine ⟨⟨level.left.advance e (stale.admits r), level.right, ?_, ?_⟩, face, [], ?_, ?_⟩
  · exact ⟨same.settings.trans level.alike.settings, face⟩
  · rw [same.info]
    exact level.present
  · rw [effects, List.append_nil]
  · rw [List.append_nil]

theorem stale_right (level : Level old r u) (stale : Stale old e) :
    Level old r (u.advance e) ∧ Abreast r u r (u.advance e) := by
  obtain ⟨level', face, changes, theirs, ours⟩ := level.symm.stale_left stale
  exact ⟨level'.symm, face.symm, changes, ours, theirs⟩

theorem both (level : Level old r u) (admitted : r.admits (.perform op) = true)
    (new : ∀ pid, r.supervisor.launches? op = some pid → pid ∉ old) :
    Level old (r.advance (.perform op)) (u.advance (.perform op)) ∧
      Abreast r u (r.advance (.perform op)) (u.advance (.perform op)) := by
  obtain ⟨alike, changes⟩ :=
    level.alike.perform level.left.coherent level.right.coherent (level.left.finds admitted)
  refine ⟨⟨level.left.advance _ admitted, level.right.advance _ ?_, alike, ?_⟩, alike.face,
    changesOf (r.supervisor.perform op).2, ?_, ?_⟩
  · rwa [← level.admits]
  · exact level.left.present admitted level.present new
  · exact changesOf_append _ _
  · rw [changes]
    exact changesOf_append _ _

end Level

/-- The induction is on the events that are left. A process that is launched is launched in both
runs, and so it is of neither past. -/
theorem Level.execute {past past' : List UInt32} {later later' : List Event}
    (along : Alongside (past ++ past') later later') (level : Level (past ++ past') r u)
    (admitted : r.admitsAll later = true) (new : ∀ pid ∈ r.launches later, pid ∉ past)
    (new' : ∀ pid ∈ u.launches later', pid ∉ past') :
    u.admitsAll later' = true ∧ Abreast r u (r.execute later) (u.execute later') := by
  induction along generalizing r u with
  | nil => exact ⟨rfl, level.alike.face, [], (List.append_nil _).symm, (List.append_nil _).symm⟩
  | both op rest ih =>
    obtain ⟨first, following⟩ := Bool.and_eq_true_iff.mp admitted
    have launched : ∀ pid, r.supervisor.launches? op = some pid → pid ∉ past ++ past' := by
      intro pid launched member
      rcases List.mem_append.mp member with ours | theirs
      · exact new pid (by simp [launches, launched]) ours
      · exact new' pid (by simp [launches, ← level.alike.launches? op, launched]) theirs
    obtain ⟨level', step⟩ := level.both first launched
    obtain ⟨admitted', after⟩ := ih level' following
      (fun pid member => new pid (List.mem_append_right _ member))
      (fun pid member => new' pid (List.mem_append_right _ member))
    exact ⟨Bool.and_eq_true_iff.mpr ⟨level.admits _ ▸ first, admitted'⟩, step.trans after⟩
  | left stale rest ih =>
    obtain ⟨level', step⟩ := level.stale_left stale
    rw [stale.launches] at new
    obtain ⟨admitted', after⟩ := ih level' (Bool.and_eq_true_iff.mp admitted).2 new new'
    exact ⟨admitted', step.trans after⟩
  | right stale rest ih =>
    obtain ⟨level', step⟩ := level.stale_right stale
    rw [stale.launches] at new'
    obtain ⟨admitted', after⟩ := ih level' admitted new new'
    exact ⟨Bool.and_eq_true_iff.mpr ⟨stale.admits u, admitted'⟩, step.trans after⟩

/-- What becomes of two runs in which a start is permitted, and comes to the same launch. The
processes that were launched before, in the one and in the other, are `past` and `past'`. -/
structure Restarts (past past' : List UInt32) (r u : Run) (launched : Except SystemError UInt32) :
    Prop where
  face : (r.advance (.perform (.start launched))).supervisor.face =
    (u.advance (.perform (.start launched))).supervisor.face
  changes : ∃ changes,
    changesOf (r.advance (.perform (.start launched))).effects =
      changesOf r.effects ++ ⟨r.supervisor.state, .running⟩ :: changes ∧
    changesOf (u.advance (.perform (.start launched))).effects =
      changesOf u.effects ++ ⟨u.supervisor.state, .running⟩ :: changes
  /-- The same operations are possible from then on, and come to the same. -/
  onward : ∀ later later',
    let r' := r.advance (.perform (.start launched))
    let u' := u.advance (.perform (.start launched))
    Alongside (past ++ past') later later' → r'.admitsAll later = true →
      (∀ pid ∈ r.launches (.perform (.start launched) :: later), pid ∉ past) →
      (∀ pid ∈ u.launches (.perform (.start launched) :: later'), pid ∉ past') →
        u'.admitsAll later' = true ∧ Abreast r' u' (r'.execute later) (u'.execute later')

/-- The only process that a supervisor knows after a start is the one that was launched. -/
theorem Sound.restarts (sound : r.Sound) (sound' : u.Sound)
    (settings : r.supervisor.settings = u.supervisor.settings)
    (idle : r.supervisor.permits .start = true) (idle' : u.supervisor.permits .start = true)
    (launched : Except SystemError UInt32) (past past' : List UInt32) :
    Restarts past past' r u launched := by
  have dead : r.supervisor.state.isLive = false := by simpa [permits_start] using idle
  have dead' : u.supervisor.state.isLive = false := by simpa [permits_start] using idle'
  obtain ⟨alike, changes, ours, theirs⟩ := alike_start settings dead dead' launched
  refine ⟨alike.face, ⟨changes, ?_, ?_⟩, fun later later' => ?_⟩
  · rw [← ours]
    exact changesOf_append _ _
  · rw [← theirs]
    exact changesOf_append _ _
  · intro r' u' along admitted new new'
    refine Level.execute along ⟨sound.advance _ rfl, sound'.advance _ rfl, alike, ?_⟩ admitted
      (fun pid member => new pid (List.mem_append_right _ member))
      (fun pid member => new' pid (List.mem_append_right _ member))
    intro pid known member
    cases launched with
    | error cause => simp [r', Run.advance, Supervisor.perform, start_error dead] at known
    | ok first =>
      obtain rfl : first = pid := by
        simpa [r', Run.advance, Supervisor.perform, start_ok dead] using known
      rcases List.mem_append.mp member with ours | theirs
      · exact new first (by simp [launches, Supervisor.launches?, idle]) ours
      · exact new' first (by simp [launches, Supervisor.launches?, idle']) theirs

/-- A supervisor that is started anew forgets its past: two of them with the same settings are from
then on the same to all who look, whatever became of the processes that they had before. -/
theorem restart_forgets (settings : Settings) (before before' : List Event)
    (admitted : (fresh settings).admitsAll before = true)
    (admitted' : (fresh settings).admitsAll before' = true)
    (idle : ((fresh settings).execute before).supervisor.permits .start = true)
    (idle' : ((fresh settings).execute before').supervisor.permits .start = true)
    (launched : Except SystemError UInt32) :
    Restarts ((fresh settings).launches before) ((fresh settings).launches before')
      ((fresh settings).execute before) ((fresh settings).execute before') launched :=
  (sound_execute settings admitted).restarts (sound_execute settings admitted')
    ((settings_execute _ before).trans (settings_execute _ before').symm) idle idle' launched _ _

/-- A process that was killed, and a launch that failed. The stop of the former still escalates once
another process is there, and is being stopped itself. -/
theorem restart_forgets_killed :
    let settings : Settings := ⟨"", "/bin/server", "", .empty, false⟩
    let patient : Option Duration := some (.ofSeconds 5 (by decide))
    let killed : List Event := [.perform (.start (.ok 7)), .perform (.stop patient),
      .perform (.escalate 7), .collect 7, .perform (.exited 7 9)]
    let failed : List Event := [.perform (.start (.error (.errno ⟨2⟩)))]
    let later : List Event := [.perform (.escalate 7), .perform (.stop patient),
      .perform (.escalate 7), .perform (.exited 8 0)]
    let later' : List Event := [.perform (.stop patient), .collect 8, .perform (.exited 8 0)]
    let r := ((fresh settings).execute killed).advance (.perform (.start (.ok 8)))
    let u := ((fresh settings).execute failed).advance (.perform (.start (.ok 8)))
    r.supervisor.face = u.supervisor.face ∧ Abreast r u (r.execute later) (u.execute later') ∧
      (r.execute later).supervisor.state = .exitedSuccessfully := by
  intro settings patient killed failed later later' r u
  have restarts := restart_forgets settings killed failed (by decide) (by decide) (by decide)
    (by decide) (.ok 8)
  have past : (fresh settings).launches killed = [7] := by decide
  have past' : (fresh settings).launches failed = [] := by decide
  have ours : ((fresh settings).execute killed).launches (.perform (.start (.ok 8)) :: later) =
    [8] := by decide
  rw [past, past'] at restarts
  refine ⟨restarts.face, (restarts.onward _ _ ?_ (by decide) ?_ (by simp)).2, by decide⟩
  · exact .left (.escalate (by decide)) (.both _ (.left (.escalate (by decide))
      (.right (.collect 8) (.both _ .nil))))
  · rw [ours]
    simp

end Run

end Overseer.Supervisor
