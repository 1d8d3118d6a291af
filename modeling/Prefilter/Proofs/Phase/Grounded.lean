import Prefilter.Proofs.Phase.Extension

namespace Prefilter

/-- The call is about something that is on record. -/
def Frame.Supported (c : Coordinator) : Frame → Prop
  | .submitting task => ∃ d, c.tasks[task]? = some d
  | .connecting a => ∃ target node, c.destination? a = some (target, node)
  | .sending probe => ∃ p, c.probes[probe]? = some p
  | .delivering phase _ => ∃ p, c.phases[phase]? = some p

/-- The duty is about something that is on record. -/
def Duty.Supported (c : Coordinator) : Duty → Prop
  | .rest _ => True
  | .submit phase _ | .complete phase _ => ∃ p, c.phases[phase]? = some p
  | .finish a .. | .dispatch a => ∃ target, c.target? a.phase a.slot = some target
  | .fail a _ | .send a _ => ∃ target node, c.destination? a = some (target, node)

theorem Caller.supported_duty {c : Coordinator} {phase : Nat} {p : Phase} (caller : Caller)
    (h : c.phases[phase]? = some p) : (caller.duty phase).Supported c := by
  cases caller with
  | entry => trivial
  | start slot => exact ⟨p, h⟩
  | exhausted slot copy => trivial

namespace Coordinator

variable {c c' : Coordinator} {d d' : Duty} {m : Move}

theorem exists_phase_of_target? {phase slot : Nat} {target : ShardTarget}
    (h : c.target? phase slot = some target) :
    ∃ p, c.phases[phase]? = some p ∧ p.targets[slot]? = some target :=
  Option.bind_eq_some_iff.mp h

theorem exists_target?_of_destination? {a : Attempt} {target : ShardTarget} {node : NodeId}
    (h : c.destination? a = some (target, node)) :
    c.target? a.phase a.slot = some target ∧ target.copies[a.copy]? = some node := by
  simp only [destination?, Option.bind_eq_some_iff, Option.map_eq_some_iff] at h
  obtain ⟨t, ht, n, hn, heq⟩ := h
  obtain ⟨rfl, rfl⟩ := Prod.mk.inj heq
  exact ⟨ht, hn⟩

theorem Extends.frame (e : Extends c c') {f : Frame} (h : f.Supported c) : f.Supported c' := by
  cases f with
  | submitting task =>
      obtain ⟨d, hd⟩ := h
      obtain ⟨d', hd', -⟩ := e.tasks hd
      exact ⟨d', hd'⟩
  | connecting a =>
      obtain ⟨target, node, h⟩ := h
      exact ⟨target, node, e.destination? h⟩
  | sending probe =>
      obtain ⟨p, hp⟩ := h
      obtain ⟨p', hp', -⟩ := e.probes hp
      exact ⟨p', hp'⟩
  | delivering phase caller =>
      obtain ⟨p, hp⟩ := h
      obtain ⟨p', hp', -⟩ := e.phases hp
      exact ⟨p', hp'⟩

/-- The probe is one for a copy of a shard, and asks what the phase asks. -/
def Asks (c : Coordinator) (probe : Probe) : Prop :=
  ∃ p target node, c.phases[probe.attempt.phase]? = some p ∧
    c.destination? probe.attempt = some (target, node) ∧
    probe.request = p.probeRequest target node

theorem Extends.asks (e : Extends c c') {probe probe' : Probe} (h : c.Asks probe)
    (hattempt : probe'.attempt = probe.attempt) (hrequest : probe'.request = probe.request) :
    c'.Asks probe' := by
  obtain ⟨p, target, node, hp, hd, hr⟩ := h
  obtain ⟨p', hp', htargets, hreq⟩ := e.phases hp
  refine ⟨p', target, node, hattempt ▸ hp', hattempt ▸ e.destination? hd, ?_⟩
  rw [hrequest, hr]
  simp only [Phase.probeRequest, htargets, hreq]

/-- All that is on record refers to what is there. -/
structure Grounded (c : Coordinator) : Prop where
  tasks : ∀ {t : Nat} {task : Dispatch}, c.tasks[t]? = some task →
    ∃ target, c.target? task.phase task.slot = some target
  probes : ∀ {q : Nat} {probe : Probe}, c.probes[q]? = some probe → c.Asks probe
  frames : ∀ {f : Frame}, f ∈ c.stack → f.Supported c

namespace Grounded

theorem extend (h : c.Grounded) (e : Extends c c')
    (tasks : ∀ {t : Nat} {task : Dispatch}, c'.tasks[t]? = some task →
      (∃ target, c'.target? task.phase task.slot = some target) ∨
        ∃ old, c.tasks[t]? = some old ∧ task.phase = old.phase ∧ task.slot = old.slot)
    (probes : ∀ {q : Nat} {probe : Probe}, c'.probes[q]? = some probe → c'.Asks probe ∨
      ∃ old, c.probes[q]? = some old ∧ probe.attempt = old.attempt ∧ probe.request = old.request)
    (frames : ∀ {f : Frame}, f ∈ c'.stack → f.Supported c' ∨ f ∈ c.stack) : c'.Grounded where
  tasks ht := by
    rcases tasks ht with htarget | ⟨old, hold, hphase, hslot⟩
    · exact htarget
    · obtain ⟨target, htarget⟩ := h.tasks hold
      exact ⟨target, by rw [hphase, hslot]; exact e.target? htarget⟩
  probes hq := by
    rcases probes hq with hasks | ⟨old, hold, hattempt, hrequest⟩
    · exact hasks
    · exact e.asks (h.probes hold) hattempt hrequest
  frames hf := by
    rcases frames hf with hsupported | hold
    · exact hsupported
    · exact e.frame (h.frames hold)

theorem update (h : c.Grounded) (e : Extends c c') (tasks : c'.tasks = c.tasks)
    (probes : c'.probes = c.probes)
    (frames : ∀ {f : Frame}, f ∈ c'.stack → f.Supported c' ∨ f ∈ c.stack) : c'.Grounded :=
  h.extend e (fun ht => .inr ⟨_, tasks ▸ ht, rfl, rfl⟩) (fun hq => .inr ⟨_, probes ▸ hq, rfl, rfl⟩)
    frames

theorem progress (h : c.Grounded) (hp : Progress c d c' d') : c'.Grounded := by
  have e := hp.extends
  cases hp with
  | submit found =>
      refine h.extend e (fun {t task} ht => ?_) (fun hq => .inr ⟨_, hq, rfl, rfl⟩) fun {f} hf => ?_
      · rw [Coordinator.push, Coordinator.addTask, Array.getElem?_push] at ht
        split at ht
        · obtain rfl := Option.some.inj ht
          exact .inl ⟨_, e.target? found⟩
        · exact .inr ⟨_, ht, rfl, rfl⟩
      · rcases List.mem_cons.mp hf with rfl | hf
        · exact .inl ⟨_, Array.getElem?_push_size⟩
        · exact .inr hf
  | complete found =>
      refine h.update e rfl rfl fun {f} hf => ?_
      rcases List.mem_cons.mp hf with rfl | hf
      · obtain ⟨p', hp', -⟩ := e.phases found
        exact .inl ⟨p', hp'⟩
      · exact .inr hf
  | connect found =>
      refine h.update e rfl rfl fun {f} hf => ?_
      rcases List.mem_cons.mp hf with rfl | hf
      · exact .inl ⟨_, _, e.destination? found⟩
      · exact .inr hf
  | send phase found =>
      refine h.extend e (fun ht => .inr ⟨_, ht, rfl, rfl⟩) (fun {q probe} hq => ?_) fun {f} hf => ?_
      · rw [Coordinator.push, Coordinator.addProbe, Array.getElem?_push] at hq
        split at hq
        · obtain rfl := Option.some.inj hq
          exact .inl ⟨_, _, _, phase, found, rfl⟩
        · exact .inr ⟨_, hq, rfl, rfl⟩
      · rcases List.mem_cons.mp hf with rfl | hf
        · exact .inl ⟨_, Array.getElem?_push_size⟩
        · exact .inr hf
  | _ => exact h.update e rfl rfl fun hf => .inr hf

theorem intake (h : c.Grounded) (hi : Intake c m c' d) : c'.Grounded := by
  have e := hi.extends
  have useTask {task t : Nat} {d : Dispatch} (ht : (c.useTask task).tasks[t]? = some d) :
      ∃ old, c.tasks[t]? = some old ∧ d.phase = old.phase ∧ d.slot = old.slot := by
    obtain ⟨old, hold, rfl⟩ := getElem?_modify_eq_some.mp ht
    exact ⟨old, hold, by split <;> rfl, by split <;> rfl⟩
  have useListener {probe q : Nat} {p : Probe} (hq : (c.useListener probe).probes[q]? = some p) :
      ∃ old, c.probes[q]? = some old ∧ p.attempt = old.attempt ∧ p.request = old.request := by
    obtain ⟨old, hold, rfl⟩ := getElem?_modify_eq_some.mp hq
    exact ⟨old, hold, by split <;> rfl, by split <;> rfl⟩
  have keep {q : Nat} {p : Probe} (hq : c.probes[q]? = some p) :
      ∃ old, c.probes[q]? = some old ∧ p.attempt = old.attempt ∧ p.request = old.request :=
    ⟨p, hq, rfl, rfl⟩
  cases hi with
  | run => exact h.extend e (fun ht => .inr (useTask ht)) (fun hq => .inr (keep hq)) .inr
  | discard => exact h.extend e (fun ht => .inr (useTask ht)) (fun hq => .inr (keep hq)) .inr
  | answer =>
      exact h.extend e (fun ht => .inr ⟨_, ht, rfl, rfl⟩) (fun hq => .inr (useListener hq)) .inr
  | answerError =>
      exact h.extend e (fun ht => .inr ⟨_, ht, rfl, rfl⟩) (fun hq => .inr (useListener hq)) .inr
  | abandon =>
      exact h.extend e (fun ht => .inr ⟨_, ht, rfl, rfl⟩) (fun hq => .inr (useListener hq)) .inr
  | accepted top | refused top | connected top | unreachable top | sent top | unsent top
  | returned top => exact h.update e rfl rfl fun hf => .inr (top ▸ List.mem_cons_of_mem _ hf)
  | _ => exact h.update e rfl rfl .inr

end Grounded

end Coordinator

namespace Duty

open Coordinator

variable {c c' : Coordinator} {d d' : Duty} {m : Move}

theorem Supported.progress (h : d.Supported c) (hp : Progress c d c' d') :
    d'.Supported c' := by
  have e := hp.extends
  cases hp with
  | supersede =>
      obtain ⟨target, htarget⟩ := h
      obtain ⟨p, hp, -⟩ := exists_phase_of_target? htarget
      exact Caller.supported_duty _ hp
  | record found =>
      obtain ⟨p', hp', -⟩ := e.phases found
      split
      · exact ⟨p', hp'⟩
      · exact Caller.supported_duty _ hp'
  | exhaust found => exact ⟨_, found⟩
  | advance found => exact ⟨_, e.target? (exists_target?_of_destination? found).1⟩
  | _ => trivial

theorem supported_of_intake (h : c.Grounded) (hi : Intake c m c' d) : d.Supported c' := by
  have e := hi.extends
  cases hi with
  | start =>
      split
      · exact ⟨_, Array.getElem?_push_size⟩
      · exact ⟨_, Array.getElem?_push_size⟩
  | run found => exact h.tasks found
  | discard found => exact h.tasks found
  | answer found =>
      obtain ⟨p, target, node, -, hd, -⟩ := h.probes found
      exact ⟨target, (exists_target?_of_destination? hd).1⟩
  | answerError found | abandon found | unsent _ found =>
      obtain ⟨p, target, node, -, hd, -⟩ := h.probes found
      exact ⟨target, node, hd⟩
  | accepted top found =>
      obtain ⟨target, ht⟩ := h.tasks found
      obtain ⟨p, hp, -⟩ := exists_phase_of_target? ht
      exact ⟨p, hp⟩
  | refused top found => exact h.tasks found
  | connected top | unreachable top =>
      have hf : Frame.Supported c (.connecting _) := h.frames (top ▸ List.mem_cons_self)
      exact hf
  | returned top =>
      have hf : Frame.Supported c (.delivering _ _) := h.frames (top ▸ List.mem_cons_self)
      obtain ⟨p, hp⟩ := hf
      exact Caller.supported_duty _ hp
  | _ => trivial

end Duty
end Prefilter
