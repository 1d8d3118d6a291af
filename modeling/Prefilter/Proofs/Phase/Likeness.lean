import Prefilter.Proofs.Phase.Congruence

namespace Prefilter

def Event.isLog : Event → Bool
  | .log _ => true
  | _ => false

/-- The probe as it was sent. -/
def Probe.asSent (p : Probe) : Probe := { p with listener := {} }

namespace Coordinator

variable {c c' c'' : Coordinator} {a : Attempt}

/-- What has happened, log lines apart. -/
def events (c : Coordinator) : List Event := c.trace.toList.filter (!·.isLog)

/-- The coordinators differ in log lines and in the marks of listeners at most. -/
structure Alike (c c' : Coordinator) : Prop where
  policy : c'.policy = c.policy
  phases : c'.phases = c.phases
  tasks : c'.tasks = c.tasks
  stack : c'.stack = c.stack
  probes : c'.probes.map Probe.asSent = c.probes.map Probe.asSent
  events : c'.events = c.events

namespace Alike

theorem refl (c : Coordinator) : Alike c c := ⟨rfl, rfl, rfl, rfl, rfl, rfl⟩

theorem symm (h : Alike c c') : Alike c' c :=
  ⟨h.policy.symm, h.phases.symm, h.tasks.symm, h.stack.symm, h.probes.symm, h.events.symm⟩

theorem trans (h : Alike c c') (h' : Alike c' c'') : Alike c c'' where
  policy := h'.policy.trans h.policy
  phases := h'.phases.trans h.phases
  tasks := h'.tasks.trans h.tasks
  stack := h'.stack.trans h.stack
  probes := h'.probes.trans h.probes
  events := h'.events.trans h.events

theorem log_right (h : Alike c c') (n : Notice) : Alike c (c'.log n) where
  policy := h.policy
  phases := h.phases
  tasks := h.tasks
  stack := h.stack
  probes := h.probes
  events := by
    rw [← h.events]
    simp [Coordinator.events, Coordinator.log, Coordinator.emit, Event.isLog]

theorem setStack (h : Alike c c') (stack : List Frame) :
    Alike { c with stack } { c' with stack } :=
  ⟨h.policy, h.phases, h.tasks, rfl, h.probes, h.events⟩

theorem useListener (h : Alike c c') (q : Nat) : Alike c (c'.useListener q) := by
  refine ⟨h.policy, h.phases, h.tasks, h.stack, ?_, h.events⟩
  rw [← h.probes]
  apply Array.ext
  · simp [Coordinator.useListener]
  · intro j hj hj'
    simp only [Coordinator.useListener, Array.getElem_map, Array.getElem_modify]
    split <;> rfl

end Alike

theorem congruence_alike : Congruence Alike where
  policy h := h.policy
  phases h := h.phases
  tasks h := h.tasks
  attempts h := by
    have hattempts := congrArg (·.map Probe.attempt) h.probes
    simp only [Array.map_map] at hattempts
    exact hattempts
  emit h e := by
    refine ⟨h.policy, h.phases, h.tasks, h.stack, h.probes, ?_⟩
    have hevents := h.events
    simp only [events, Coordinator.emit] at hevents ⊢
    simp [List.filter_append, hevents]
  setPhases h _ := ⟨h.policy, rfl, h.tasks, h.stack, h.probes, h.events⟩
  setTasks h _ := ⟨h.policy, h.phases, rfl, h.stack, h.probes, h.events⟩
  push h f := ⟨h.policy, h.phases, h.tasks, congrArg (f :: ·) h.stack, h.probes, h.events⟩
  pop h _ stack top := ⟨stack, h.stack.trans top, h.setStack stack⟩
  addProbe h _ := ⟨h.policy, h.phases, h.tasks, h.stack, by simp [h.probes], h.events⟩

theorem Alike.isCurrent (h : Alike c c') (a : Attempt) : c'.isCurrent a = c.isCurrent a :=
  congruence_alike.isCurrent h a

theorem alike_log (c : Coordinator) (n : Notice) : Alike c (c.log n) := (Alike.refl c).log_right n

theorem alike_finish (stale : c.isCurrent a = false) (outcome : Outcome) (caller : Caller) :
    Alike (c.resume a.phase caller).coordinator (c.finish a outcome caller).coordinator := by
  simp only [finish]
  cases hp : c.phases[a.phase]? with
  | none => exact .refl _
  | some p =>
      cases hs : c.slot? a.phase a.slot with
      | none => exact .refl _
      | some s =>
          have hne : s.cursor ≠ .copy a.copy := by
            rintro heq
            simp [isCurrent, hs, heq] at stale
          simp only [if_neg hne]
          exact congruence_alike.resume (alike_log c _) a.phase caller

theorem alike_fail (stale : c.isCurrent a = false) (error : ProbeError) :
    Alike c (c.fail a error).coordinator := by
  simp only [fail]
  cases c.destination? a with
  | none => exact .refl c
  | some destination =>
      have hlog := alike_log c (.attemptFailed a destination.1 destination.2 error)
      simp only [hlog.isCurrent, stale]
      exact hlog

theorem alike_settle (stale : c.isCurrent a = false) (result : ProbeResult) :
    Alike c (c.settle a result).coordinator := by
  cases result with
  | ok response => exact alike_finish stale response.outcome .entry
  | error error => exact alike_fail stale error

theorem alike_settle_dropped (stale : c.isCurrent a = false) :
    Alike c (c.settleDropped a).coordinator := by
  have hlog := alike_log c .listenerDropped
  exact hlog.trans (alike_settle ((hlog.isCurrent a).trans stale) _)

/-- To refuse the task of a shard whose first attempt is not current is like taking it. -/
theorem alike_refuse {task : Dispatch} (stale : c.isCurrent ⟨task.phase, task.slot, 0⟩ = false)
    (error : DispatchError) : Alike (c.submit task.phase (task.slot + 1)).coordinator
      (c.refuse task error).coordinator := by
  simp only [refuse]
  cases c.target? task.phase task.slot with
  | none => exact alike_finish stale .failure (.start (task.slot + 1))
  | some target =>
      have hlog := alike_log c (.dispatchRefused task.phase task.slot target error)
      exact (congruence_alike.submit hlog _ _).trans
        (alike_finish ((hlog.isCurrent _).trans stale) .failure (.start (task.slot + 1)))

theorem alike_discard {task : Dispatch} (stale : c.isCurrent ⟨task.phase, task.slot, 0⟩ = false) :
    Alike c (c.discard task).coordinator := by
  simp only [discard]
  cases c.target? task.phase task.slot with
  | none => exact alike_finish stale .failure .entry
  | some target =>
      have hlog := alike_log c (.dispatchDropped task.phase task.slot target)
      exact hlog.trans (alike_finish ((hlog.isCurrent _).trans stale) .failure .entry)

/-- The attempts whose listeners are resolved are not current. -/
def ListenersSpent (c : Coordinator) : Prop :=
  ∀ {q : Nat} {p : Probe}, c.probes[q]? = some p → p.listener.resolved = true →
    c.isCurrent p.attempt = false

section Listener

variable {q : Nat} {use : Attempt → Coordinator → Turn}

theorem withListener_of_unresolved {p : Probe} (found : c.probes[q]? = some p)
    (unresolved : p.listener.resolved = false) :
    c.withListener q use = use p.attempt (c.useListener q) := by
  simp [withListener, takeListener?, found, unresolved, useListener]

theorem alike_withListener
    (stale : ∀ {c : Coordinator} {a : Attempt}, c.isCurrent a = false → Alike c (use a c).coordinator)
    (ended : ∀ p, c.probes[q]? = some p → c.isCurrent p.attempt = false) :
    Alike c (c.withListener q use).coordinator := by
  cases hp : c.probes[q]? with
  | none =>
      have hnone : c.takeListener? q = none := by simp [takeListener?, hp]
      simp only [withListener, hnone]
      exact .refl c
  | some p =>
      cases hr : p.listener.resolved with
      | true =>
          have hnone : c.takeListener? q = none := by simp [takeListener?, hp, hr]
          simp only [withListener, hnone]
          exact .refl c
      | false =>
          rw [withListener_of_unresolved hp hr]
          have hused := (Alike.refl c).useListener q
          exact hused.trans (stale (hused.isCurrent p.attempt ▸ ended p hp))

/-- A listener that one of two like coordinators may have used already does the same to both. -/
theorem Alike.withListener (h : Alike c c') (spent : c.ListenersSpent) (spent' : c'.ListenersSpent)
    (congr : ∀ {c c' : Coordinator} (a : Attempt), Alike c c' →
      Alike (use a c).coordinator (use a c').coordinator)
    (stale : ∀ {c : Coordinator} {a : Attempt}, c.isCurrent a = false →
      Alike c (use a c).coordinator) :
    Alike (c.withListener q use).coordinator (c'.withListener q use).coordinator := by
  -- The listener of a current attempt is unused in both; that of any other has no effect.
  by_cases hcur : ∃ p, c.probes[q]? = some p ∧ c.isCurrent p.attempt = true
  · obtain ⟨p, hp, current⟩ := hcur
    obtain ⟨p', hp', hattempt⟩ := congruence_alike.exists_probe h hp
    have hu : p.listener.resolved = false := by
      rw [← Bool.not_eq_true]
      intro hr
      simp [spent hp hr] at current
    have hu' : p'.listener.resolved = false := by
      rw [← Bool.not_eq_true]
      intro hr
      have hstale := spent' hp' hr
      rw [h.isCurrent, hattempt] at hstale
      simp [hstale] at current
    rw [withListener_of_unresolved hp hu, withListener_of_unresolved hp' hu', hattempt]
    exact congr p.attempt ((h.symm.useListener q).symm.useListener q)
  · have hended : ∀ p, c.probes[q]? = some p → c.isCurrent p.attempt = false := by
      intro p hp
      rw [← Bool.not_eq_true]
      exact fun current => hcur ⟨p, hp, current⟩
    have hended' : ∀ p, c'.probes[q]? = some p → c'.isCurrent p.attempt = false := by
      intro p hp
      obtain ⟨p', hp', hattempt⟩ := congruence_alike.exists_probe h.symm hp
      rw [h.isCurrent, ← hattempt]
      exact hended p' hp'
    exact (alike_withListener stale hended).symm.trans
      (h.trans (alike_withListener stale hended'))

end Listener

theorem Alike.step (h : Alike c c') (spent : c.ListenersSpent) (spent' : c'.ListenersSpent)
    (m : Move) : Alike (c.step m).coordinator (c'.step m).coordinator :=
  congruence_alike.step h (fun _ hidle => h.stack.trans hidle)
    (fun _ result => h.withListener spent spent' (fun a h => congruence_alike.settle h a result)
      (alike_settle · result))
    fun _ => h.withListener spent spent'
      (fun a h => congruence_alike.settle (congruence_alike.log h _) a _) alike_settle_dropped

end Coordinator
end Prefilter
