import Overseer.Proofs.Supervisor.Exits
import Overseer.Proofs.Supervisor.Pursuit

/-!
What a supervisor makes of the end of a process that it is stopping, with its exit status as it was
reported. Unless a limit ran out before, the process counts as not killed.
-/
namespace Overseer.Supervisor

/-- Only a stop whose limit has run out escalates. -/
theorem Stopping.step_escalates {s : Stopping} {now : Nat} {e : Stopping.Event}
    (escalates : Stopping.escalationsOf (s.step now e).2 ≠ []) :
    e = .passed ∧ s.isOverdue now = true := by
  cases e with
  | passed =>
    refine ⟨rfl, ?_⟩
    by_contra early
    simp [step, early, escalationsOf] at escalates
  | answered | seen =>
    unfold step at escalates
    repeat' split at escalates
    all_goals simp_all [escalationsOf]

theorem verdict_isLive (context : Lifecycle.Context) :
    (Lifecycle.verdict context).isLive = false :=
  State.isLive_of_isExited (Lifecycle.isExited_verdict context)

namespace Traffic

def expires (t : Traffic) (pid : UInt32) : Event → Bool
  | .tell index .passed => t.stops[index]?.any fun s => s.isAfter pid && s.isOverdue t.now
  | _ => false

/-- A limit runs out while the process is still being stopped. -/
def expiresInTime (t : Traffic) (pid : UInt32) (e : Event) : Bool :=
  t.supervisor.state = .stopping && t.expires pid e

def strikes (t : Traffic) (pid : UInt32) (e : Event) : Bool :=
  !(killTimes pid (t.happens e)).isEmpty

/-- Where the supervisor stands. It is still stopping the process, or it has taken note of its end,
which is all that it knows until another process is launched. -/
inductive Reckoned (pid : UInt32) (exit : Option Int32) (struck expired : Bool) (v : View) :
    Prop where
  | stopping (state : v.state = .stopping) (info : v.info = some ⟨pid, none⟩)
      (marked : v.killed = struck) (late : 0 < v.due ∨ struck = true → expired = true)
  | gone (code : Int32) (ended : exit = some code) (late : struck = true → expired = true)
      (remains : v.info.map ProcessInfo.id = some pid →
        v.state = Lifecycle.verdict ⟨struck, some code⟩ ∧ v.info = some ⟨pid, some code⟩ ∧
          v.killed = struck)

variable {pid : UInt32} {exit : Option Int32} {struck expired : Bool} {t : Traffic}

namespace Reckoned

/-- The end of the process changes nothing for the supervisor. -/
theorem ends {v : View} (reckoned : Reckoned pid none struck expired v) (exit : Option Int32) :
    Reckoned pid exit struck expired v := by
  cases reckoned with
  | stopping state info marked late => exact .stopping state info marked late
  | gone _ ended => cases ended

/-- What does not touch the process may go with a limit that runs out. -/
theorem congr {v w : View} (reckoned : Reckoned pid exit struck expired v) (now : Nat)
    (mine : List Stopping) (same : w = { v with now, mine }) (expired' : Bool) :
    Reckoned pid exit struck (expired || expired') w := by
  subst same
  have later (early : expired = true) : (expired || expired') = true := by simp [early]
  cases reckoned with
  | stopping state info marked late =>
    exact .stopping state info marked fun some => later (late some)
  | gone code ended late remains => exact .gone code ended (fun some => later (late some)) remains

theorem tell (reckoned : Reckoned pid exit struck expired (t.view pid)) (index : Nat)
    (e : Stopping.Event) :
    Reckoned pid exit struck (expired || t.expiresInTime pid (.tell index e))
      ((t.tell index e).view pid) := by
  rcases t.view_tell pid index e with same | ⟨s, xs, ys, found, ours, _, after⟩
  · exact reckoned.congr _ _ same _
  · by_cases escalates : Stopping.escalationsOf (s.step t.now e).2 = []
    · rw [escalates, List.count_nil, Nat.add_zero] at after
      exact reckoned.congr _ _ after _
    · obtain ⟨rfl, overdue⟩ := Stopping.step_escalates escalates
      rw [after]
      cases reckoned with
      | stopping state info marked late =>
        have state' : t.supervisor.state = .stopping := state
        refine .stopping state info marked fun _ => ?_
        simp [expiresInTime, expires, found, ours, overdue, state']
      | gone code ended late remains =>
        exact .gone code ended (fun hit => by simp [late hit]) remains

theorem complete {op : Operation} (reckoned : Reckoned pid exit struck expired (t.view pid))
    (sound : t.Sound) (busy : t.executing = some op) (fresh : t.supervisor.launches? op ≠ some pid)
    (reports : ∀ code, op = .exited pid code → exit = some code) :
    Reckoned pid exit (struck || t.strikes pid .complete) expired (t.complete.view pid) := by
  have done : t.happens .complete = [⟨t.now, t.supervisor, op⟩] := by simp [happens, busy]
  rw [strikes, done]
  cases reckoned with
  | stopping state info marked late =>
    rcases complete_stopping pid busy sound state info rfl with
      ⟨same, noKill, _⟩ | ⟨after, pending, kill, _⟩ |
      ⟨code, report, noKill, _, known, verdict, mark, _⟩
    · rw [same, noKill, List.isEmpty_nil, Bool.not_true, Bool.or_false]
      exact .stopping state info marked late
    · rw [after, kill]
      exact .stopping state info (by simp) fun _ => late (.inl pending)
    · obtain ⟨due, _, view_eq⟩ := view_complete pid busy
      have marked : t.supervisor.killed = struck := marked
      rw [marked] at verdict mark
      rw [view_eq, noKill, List.isEmpty_nil, Bool.not_true, Bool.or_false]
      exact .gone code (reports code report) (fun hit => late (.inr hit)) fun _ =>
        ⟨verdict, known, mark⟩
  | gone code ended late remains =>
    have idle (known : t.supervisor.info.map ProcessInfo.id = some pid) :
        t.supervisor.state.isLive = false := by
      rw [show t.supervisor.state = _ from (remains known).1, verdict_isLive]
    obtain ⟨noKill, _, _, left⟩ := complete_gone pid busy sound fresh idle rfl
    rw [noKill, List.isEmpty_nil, Bool.not_true, Bool.or_false]
    refine .gone code ended late fun known => ?_
    obtain ⟨info, state, killed⟩ := left known
    rw [info] at known
    rw [info, state, killed]
    exact remains known

/-- Whatever happens, the supervisor goes on to stand so. -/
theorem advance (reckoned : Reckoned pid exit struck expired (t.view pid)) (sound : t.Sound)
    {e : Event} (admitted : t.admits e = true)
    (fresh : ∀ op, t.executing = some op → t.supervisor.launches? op ≠ some pid)
    (reports : ∀ code, t.executing = some (.exited pid code) → exit = some code) :
    Reckoned pid exit (struck || t.strikes pid e) (expired || t.expiresInTime pid e)
      ((t.advance e).view pid) := by
  have unstruck {expired' : Bool} (none : t.happens e = [])
      (after : Reckoned pid exit struck expired' ((t.advance e).view pid)) :
      Reckoned pid exit (struck || t.strikes pid e) expired' ((t.advance e).view pid) := by
    simpa [strikes, none, killTimes] using after
  cases e with
  | start => exact unstruck rfl (reckoned.congr _ _ (view_put rfl) _)
  | stop timeout => exact unstruck rfl (reckoned.congr _ _ (view_put rfl) _)
  | collect p => exact unstruck rfl (reckoned.congr _ _ rfl _)
  | report p code => exact unstruck rfl (reckoned.congr _ _ (view_put rfl) _)
  | tell index e => exact unstruck rfl (reckoned.tell index e)
  | elapse ms => exact unstruck rfl (reckoned.congr (t.now + ms) _ rfl _)
  | take launched =>
    obtain ⟨free, some⟩ : t.executing = none ∧ t.queue ≠ [] := by
      simpa [Traffic.admits] using admitted
    obtain ⟨r, rest, queue⟩ := List.exists_cons_of_ne_nil some
    exact unstruck rfl (reckoned.congr _ _ (view_take free queue launched) _)
  | complete =>
    obtain ⟨op, busy⟩ := Option.isSome_iff_exists.mp admitted
    have after := reckoned.complete sound busy (fresh op busy) fun code report =>
      reports code (report ▸ busy)
    exact after.congr _ _ rfl _

end Reckoned

def Reporting (t : Traffic) (pid : UInt32) (code : Int32) : Prop :=
  .exited pid code ∈ t.queue ∨ t.executing = some (.exited pid code)

theorem reporting_take {r : Request} {rest : List Request} (queue : t.queue = r :: rest)
    (launched : Except SystemError UInt32) {code : Int32}
    (reporting : (t.take launched).Reporting pid code) : t.Reporting pid code := by
  rw [take_eq queue] at reporting
  left
  rw [queue]
  rcases reporting with waits | taken
  · exact List.mem_cons_of_mem _ waits
  · have taken : r.operation launched = .exited pid code := Option.some.inj taken
    cases r with
    | exited =>
      cases taken
      exact List.mem_cons_self
    | start | stop | escalate => cases taken

/-- Exits are reported by reapers only. -/
theorem reporting_advance {e : Event} {code : Int32} (admitted : t.admits e = true)
    (reporting : (t.advance e).Reporting pid code) :
    t.Reporting pid code ∨ e = .report pid code := by
  cases e with
  | start | stop =>
    left
    simpa [Traffic.advance, put, Reporting] using reporting
  | collect | elapse => exact .inl reporting
  | report p c =>
    simp only [Traffic.advance, put, Reporting, List.mem_append, List.mem_singleton,
      Request.exited.injEq] at reporting
    rcases reporting with (waits | ⟨rfl, rfl⟩) | busy
    · exact .inl (.inl waits)
    · exact .inr rfl
    · exact .inl (.inr busy)
  | tell index e =>
    left
    simp only [Traffic.advance, Traffic.tell] at reporting
    split at reporting
    · exact reporting
    · simpa [Reporting] using reporting
  | take launched =>
    obtain ⟨_, some⟩ : t.executing = none ∧ t.queue ≠ [] := by
      simpa [Traffic.admits] using admitted
    obtain ⟨r, rest, queue⟩ := List.exists_cons_of_ne_nil some
    exact .inl (reporting_take queue launched reporting)
  | complete =>
    obtain ⟨op, busy⟩ := Option.isSome_iff_exists.mp admitted
    rw [Traffic.advance, complete_eq busy] at reporting
    exact .inl (.inl (reporting.resolve_right (by simp)))

/-- What is executed was taken, with what its launch comes to. -/
theorem launching_advance {e : Event} (admitted : t.admits e = true)
    (launching : (t.advance e).executing = some (.start (.ok pid))) :
    t.executing = some (.start (.ok pid)) ∨ e = .take (.ok pid) := by
  rcases advance_cases admitted with aside | ⟨r, rest, launched, rfl, free, queue⟩ | ⟨op, rfl, busy⟩
  · exact .inl (aside.executing ▸ launching)
  · right
    rw [Traffic.advance, take_eq queue] at launching
    have taken : r.operation launched = .start (.ok pid) := Option.some.inj launching
    cases r with
    | start =>
      cases taken
      rfl
    | stop | exited | escalate => cases taken
  · rw [Traffic.advance, complete_eq busy] at launching
    cases launching

/-- The exit of a process that is there is yet to be reported or executed. -/
theorem Sound.mem_outstanding (sound : t.Sound) (live : t.supervisor.state.isLive = true)
    (known : t.supervisor.info = some ⟨pid, none⟩) : pid ∈ t.outstanding := by
  rw [sound.outstanding_eq, sound.run.unreported, Supervisor.awaited]
  simp [live, known]

/-- While the reaper of a process waits, its exit is not reported. -/
theorem Sound.not_reporting (sound : t.Sound) (idle : t.launching = []) (alive : pid ∈ t.reapers)
    (code : Int32) : ¬t.Reporting pid code := by
  have few : t.outstanding.length ≤ 1 := by
    rw [sound.outstanding_eq, idle, List.append_nil]
    exact sound.length_unreported
  have waits := List.length_pos_of_mem alive
  simp only [Traffic.outstanding, List.length_append] at few
  rintro (queued | busy)
  · have reported : pid ∈ t.queue.filterMap Request.reported? :=
      List.mem_filterMap.mpr ⟨_, queued, rfl⟩
    have := List.length_pos_of_mem reported
    omega
  · rw [busy] at few
    have executed :
        ((some (Operation.exited pid code)).bind Operation.reported?).toList.length = 1 := rfl
    omega

end Traffic

end Overseer.Supervisor
