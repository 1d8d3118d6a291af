import Prefilter.Proofs.Phase.Sound

/-!
Likenesses of coordinators that no act sees through. Like coordinators agree in all that the acts look
at, and stay alike where the same is done to both; so they are alike after the same move
(`Congruence.step`).
-/

namespace Prefilter

namespace Coordinator

/-- What is done with a listener, if it is still to be used. -/
def withListener (c : Coordinator) (q : Nat) (use : Attempt → Coordinator → Turn) : Turn :=
  match c.takeListener? q with
  | some (a, c) => use a c
  | none => c.rest

/-- What a listener does as it is dropped. -/
def settleDropped (c : Coordinator) (a : Attempt) : Turn :=
  (c.log .listenerDropped).settle a (.error .listenerDropped)

/-- Like coordinators are alike after the same change. They differ in the trace, in the marks of listeners
and below the calls that one of them is in. -/
structure Congruence (R : Coordinator → Coordinator → Prop) : Prop where
  policy {c c' : Coordinator} : R c c' → c'.policy = c.policy
  phases {c c' : Coordinator} : R c c' → c'.phases = c.phases
  tasks {c c' : Coordinator} : R c c' → c'.tasks = c.tasks
  attempts {c c' : Coordinator} : R c c' → c'.probes.map (·.attempt) = c.probes.map (·.attempt)
  emit {c c' : Coordinator} : R c c' → ∀ e, R (c.emit e) (c'.emit e)
  setPhases {c c' : Coordinator} : R c c' → ∀ phases, R { c with phases } { c' with phases }
  setTasks {c c' : Coordinator} : R c c' → ∀ tasks, R { c with tasks } { c' with tasks }
  push {c c' : Coordinator} : R c c' →
    ∀ f, R { c with stack := f :: c.stack } { c' with stack := f :: c'.stack }
  pop {c c' : Coordinator} : R c c' → ∀ {f stack}, c.stack = f :: stack →
    ∃ stack', c'.stack = f :: stack' ∧ R { c with stack } { c' with stack := stack' }
  addProbe {c c' : Coordinator} : R c c' →
    ∀ p, R { c with probes := c.probes.push p } { c' with probes := c'.probes.push p }

namespace Congruence

variable {R : Coordinator → Coordinator → Prop} {c c' : Coordinator}

theorem rel_ite {e e' : Coordinator} (h : R c c') (h' : R e e') (p : Prop) [Decidable p] :
    R (if p then c else e) (if p then c' else e') := by
  split
  · exact h
  · exact h'

theorem rel_foldl {α : Type} {f : Coordinator → α → Coordinator}
    (hf : ∀ {c c' : Coordinator} (x : α), R c c' → R (f c x) (f c' x)) (h : R c c') (xs : List α) :
    R (xs.foldl f c) (xs.foldl f c') := by
  induction xs generalizing c c' with
  | nil => exact h
  | cons x xs ih => exact ih (hf x h)

theorem rel_withListener (h : R c c') (probes : c'.probes = c.probes)
    (setProbes : ∀ probes, R { c with probes } { c' with probes }) (q : Nat)
    {use : Attempt → Coordinator → Turn}
    (congr : ∀ {c c'} a, R c c' → R (use a c).coordinator (use a c').coordinator) :
    R (c.withListener q use).coordinator (c'.withListener q use).coordinator := by
  simp only [Coordinator.withListener, takeListener?, probes]
  cases c.probes[q]? with
  | none => exact h
  | some p =>
      cases hr : p.listener.resolved <;> simp only [hr]
      · exact congr p.attempt (setProbes _)
      · exact h

variable (hR : Congruence R)

include hR

theorem log (h : R c c') (n : Notice) : R (c.log n) (c'.log n) := hR.emit h (.log n)

theorem updatePhase (h : R c c') (k : Nat) (f : Phase → Phase) :
    R { c with phases := c.phases.modify k f } { c' with phases := c'.phases.modify k f } := by
  rw [hR.phases h]
  exact hR.setPhases h _

theorem addPhase (h : R c c') (p : Phase) :
    R { c with phases := c.phases.push p } { c' with phases := c'.phases.push p } := by
  rw [hR.phases h]
  exact hR.setPhases h _

theorem call (h : R c c') (f : Frame) : R (c.call f).coordinator (c'.call f).coordinator :=
  hR.push h f

theorem probe_eq_none (h : R c c') {q : Nat} (hq : c.probes[q]? = none) : c'.probes[q]? = none := by
  have hat := congrArg (·[q]?) (hR.attempts h)
  simpa [hq] using hat

theorem exists_probe (h : R c c') {q : Nat} {p : Probe} (hq : c.probes[q]? = some p) :
    ∃ p', c'.probes[q]? = some p' ∧ p'.attempt = p.attempt := by
  have hat := congrArg (·[q]?) (hR.attempts h)
  simpa [hq] using hat

theorem probes_size (h : R c c') : c'.probes.size = c.probes.size := by
  simpa using congrArg Array.size (hR.attempts h)

theorem slot? (h : R c c') (k i : Nat) : c'.slot? k i = c.slot? k i := by
  rw [Coordinator.slot?, hR.phases h, ← Coordinator.slot?]

theorem isCurrent (h : R c c') (a : Attempt) : c'.isCurrent a = c.isCurrent a := by
  rw [Coordinator.isCurrent, hR.slot? h, ← Coordinator.isCurrent]

theorem target? (h : R c c') (k i : Nat) : c'.target? k i = c.target? k i := by
  rw [Coordinator.target?, hR.phases h, ← Coordinator.target?]

theorem destination? (h : R c c') (a : Attempt) : c'.destination? a = c.destination? a := by
  rw [Coordinator.destination?, hR.target? h, ← Coordinator.destination?]

theorem modifySlot (h : R c c') (k i : Nat) (f : Slot → Slot) :
    R (c.modifySlot k i f) (c'.modifySlot k i f) :=
  hR.updatePhase h k _

theorem submit (h : R c c') (k i : Nat) :
    R (c.submit k i).coordinator (c'.submit k i).coordinator := by
  rw [Coordinator.submit, Coordinator.submit, hR.target? h, hR.tasks h]
  cases c.target? k i with
  | none => exact h
  | some target => exact hR.call (hR.setTasks h _) _

theorem resume (h : R c c') (k : Nat) (caller : Caller) :
    R (c.resume k caller).coordinator (c'.resume k caller).coordinator := by
  cases caller with
  | entry | exhausted => exact h
  | start slot => exact hR.submit h k slot

theorem complete (h : R c c') (k : Nat) (caller : Caller) :
    R (c.complete k caller).coordinator (c'.complete k caller).coordinator := by
  simp only [Coordinator.complete, hR.phases h]
  cases c.phases[k]? with
  | none => exact hR.resume h k caller
  | some p =>
      simp only
      split
      · exact hR.resume (hR.emit h _) k caller
      · have hslots := rel_foldl (R := R) (f := fun c slot => c.emit (.breach k slot .missingOutcome))
          (fun _ h => hR.emit h _) h p.openSlots
        rw [hR.policy hslots]
        have hremarks := rel_foldl (R := R) (f := fun c remark => c.log (.ordering remark))
          (fun _ h => hR.log h _) hslots
        exact hR.call (hR.emit (hR.updatePhase (hR.log (hremarks _) _) k _) _) _

theorem finish (h : R c c') (a : Attempt) (outcome : Outcome) (caller : Caller) :
    R (c.finish a outcome caller).coordinator (c'.finish a outcome caller).coordinator := by
  simp only [Coordinator.finish, hR.phases h, hR.slot? h]
  cases c.phases[a.phase]? with
  | none => exact hR.resume h a.phase caller
  | some p =>
      cases c.slot? a.phase a.slot with
      | none => exact hR.resume h a.phase caller
      | some s =>
          simp only
          split
          · have htwice := rel_ite (hR.emit h (.breach a.phase a.slot .outcomeRecordedTwice)) h
              (s.outcome.isSome = true)
            have hunder := rel_ite (hR.emit htwice (.breach a.phase a.slot .outstandingUnderflow))
              htwice (p.outstanding = 0)
            have hslot := hR.modifySlot hunder a.phase a.slot fun s =>
              { cursor := .done, outcome := s.outcome.or (some outcome) }
            have hrecord := hR.updatePhase hslot a.phase
              fun p => { p with outstanding := p.outstanding - 1 }
            split
            · exact hR.complete hrecord a.phase caller
            · exact hR.resume hrecord a.phase caller
          · exact hR.resume (hR.log h _) a.phase caller

theorem dispatch (h : R c c') (a : Attempt) :
    R (c.dispatch a).coordinator (c'.dispatch a).coordinator := by
  simp only [Coordinator.dispatch, hR.target? h]
  cases c.target? a.phase a.slot with
  | none => exact h
  | some target =>
      simp only
      cases target.copies[a.copy]? with
      | some node => exact hR.call h _
      | none => exact hR.finish (hR.log h _) a _ _

theorem fail (h : R c c') (a : Attempt) (error : ProbeError) :
    R (c.fail a error).coordinator (c'.fail a error).coordinator := by
  simp only [Coordinator.fail, hR.destination? h]
  cases c.destination? a with
  | none => exact h
  | some destination =>
      have hlog := hR.log h (.attemptFailed a destination.1 destination.2 error)
      simp only [hR.isCurrent hlog]
      split
      · exact hR.dispatch (hR.modifySlot hlog _ _ _) a.next
      · exact hlog

theorem settle (h : R c c') (a : Attempt) (result : ProbeResult) :
    R (c.settle a result).coordinator (c'.settle a result).coordinator := by
  cases result with
  | ok response => exact hR.finish h a _ _
  | error error => exact hR.fail h a error

theorem send (h : R c c') (a : Attempt) (connection : Connection) :
    R (c.send a connection).coordinator (c'.send a connection).coordinator := by
  simp only [Coordinator.send, hR.phases h, hR.destination? h]
  cases c.phases[a.phase]? with
  | none => exact h
  | some p =>
      cases c.destination? a with
      | none => exact h
      | some destination =>
          simp only [Coordinator.emit, hR.probes_size h]
          have hresolved := hR.emit h (.resolved a destination.1.cluster destination.2 true)
          have hsent := hR.emit hresolved
            (.sent c.probes.size a connection (p.probeRequest destination.1 destination.2))
          exact hR.call (hR.addProbe hsent _) _

theorem unreachable (h : R c c') (a : Attempt) (error : ProbeError) :
    R (c.unreachable a error).coordinator (c'.unreachable a error).coordinator := by
  simp only [Coordinator.unreachable, hR.destination? h]
  cases c.destination? a with
  | none => exact h
  | some destination => exact hR.fail (hR.emit h _) a error

theorem refuse (h : R c c') (task : Dispatch) (error : DispatchError) :
    R (c.refuse task error).coordinator (c'.refuse task error).coordinator := by
  simp only [Coordinator.refuse, hR.target? h]
  cases c.target? task.phase task.slot with
  | none => exact hR.finish h _ _ _
  | some target => exact hR.finish (hR.log h _) _ _ _

theorem discard (h : R c c') (task : Dispatch) :
    R (c.discard task).coordinator (c'.discard task).coordinator := by
  simp only [Coordinator.discard, hR.target? h]
  cases c.target? task.phase task.slot with
  | none => exact hR.finish h _ _ _
  | some target => exact hR.finish (hR.log h _) _ _ _

theorem start (h : R c c') (targets : List ShardTarget) (request : SearchRequest) :
    R (c.start targets request).coordinator (c'.start targets request).coordinator := by
  simp only [Coordinator.start]
  have hspan := hR.log h (.startSpan targets.length request.sort.isSome)
  cases startFault? targets request with
  | some fault => exact hR.emit hspan _
  | none =>
      simp only [hR.phases hspan]
      have hstarted := hR.log (hR.log hspan (.phaseSpan (c.log (.startSpan targets.length
        request.sort.isSome)).phases.size targets.length (request.sort.map (·.field)))) (.phaseStarted
          (c.log (.startSpan targets.length request.sort.isSome)).phases.size)
      have hopened := hR.addPhase hstarted (.ofTargets targets request)
      split
      · exact hR.complete hopened _ _
      · exact hR.submit hopened _ _

theorem takeTask? (h : R c c') (task : Nat) {use : Dispatch → Coordinator → Turn}
    (congr : ∀ {c c'} d, R c c' → R (use d c).coordinator (use d c').coordinator) :
    R (match c.takeTask? task with | some (d, c) => use d c | none => c.rest).coordinator
      (match c'.takeTask? task with | some (d, c) => use d c | none => c'.rest).coordinator := by
  simp only [Coordinator.takeTask?, hR.tasks h]
  cases c.tasks[task]? with
  | none => exact h
  | some d =>
      cases hd : d.pending <;> simp only [hd]
      · exact h
      · exact congr d (hR.setTasks h _)

theorem step_of_returns (h : R c c') {m : Move} (returns : m.returns = true)
    (idle : c.stack = [] → c'.stack = []) : R (c.step m).coordinator (c'.step m).coordinator := by
  rcases hs : c.stack with _ | ⟨f, stack⟩
  · have hs' := idle hs
    cases m <;> simp only [Move.returns, Bool.false_eq_true] at returns
    all_goals
      simp only [Coordinator.step, hs, hs']
      exact h
  obtain ⟨stack', hs', hpop⟩ := hR.pop h hs
  cases m with
  | start | run | discard | answer | abandon => cases returns
  | accepted =>
      cases f <;> simp only [Coordinator.step, hs, hs']
      case submitting task =>
        have htask : c'.tasks[task]? = c.tasks[task]? := by rw [hR.tasks h]
        rw [htask]
        cases c.tasks[task]? with
        | none => exact hpop
        | some d => exact hR.submit hpop _ _
      all_goals exact h
  | refused error =>
      cases f <;> simp only [Coordinator.step, hs, hs']
      case submitting task =>
        have htask : c'.tasks[task]? = c.tasks[task]? := by rw [hR.tasks h]
        rw [htask]
        cases c.tasks[task]? with
        | none => exact hpop
        | some d => exact hR.refuse hpop d error
      all_goals exact h
  | connected connection =>
      cases f <;> simp only [Coordinator.step, hs, hs']
      case connecting a => exact hR.send hpop a connection
      all_goals exact h
  | unreachable error =>
      cases f <;> simp only [Coordinator.step, hs, hs']
      case connecting a => exact hR.unreachable hpop a error
      all_goals exact h
  | sent =>
      cases f <;> simp only [Coordinator.step, hs, hs']
      case sending probe => exact hpop
      all_goals exact h
  | unsent error =>
      cases f <;> simp only [Coordinator.step, hs, hs']
      case sending probe =>
        cases hp : c.probes[probe]? with
        | none =>
            rw [hR.probe_eq_none h hp]
            exact hpop
        | some p =>
            obtain ⟨p', hp', hattempt⟩ := hR.exists_probe h hp
            simp only [hp', hattempt]
            exact hR.fail hpop p.attempt error
      all_goals exact h
  | returned =>
      cases f <;> simp only [Coordinator.step, hs, hs']
      case delivering phase caller => exact hR.resume hpop phase caller
      all_goals exact h

/-- Like coordinators are alike after the same move, if they are so after each use of a listener. -/
theorem step (h : R c c') {m : Move} (idle : m.returns = true → c.stack = [] → c'.stack = [])
    (settle : ∀ q result, R (c.withListener q fun a c => c.settle a result).coordinator
      (c'.withListener q fun a c => c.settle a result).coordinator)
    (abandon : ∀ q, R (c.withListener q fun a c => c.settleDropped a).coordinator
      (c'.withListener q fun a c => c.settleDropped a).coordinator) :
    R (c.step m).coordinator (c'.step m).coordinator := by
  cases m with
  | start targets request => exact hR.start h targets request
  | run task => exact hR.takeTask? h task fun d h => hR.dispatch h _
  | discard task => exact hR.takeTask? h task fun d h => hR.discard h d
  | answer probe result => exact settle probe result
  | abandon probe => exact abandon probe
  | _ => exact hR.step_of_returns h rfl (idle rfl)

theorem step_of_probes (h : R c c') {m : Move} (idle : m.returns = true → c.stack = [] → c'.stack = [])
    (probes : c'.probes = c.probes) (setProbes : ∀ probes, R { c with probes } { c' with probes }) :
    R (c.step m).coordinator (c'.step m).coordinator := by
  refine hR.step h idle (fun q result => ?_) fun q => ?_
  · exact rel_withListener h probes setProbes q fun a h => hR.settle h a result
  · exact rel_withListener h probes setProbes q fun a h => hR.settle (hR.log h _) a _

end Congruence
end Coordinator
end Prefilter
