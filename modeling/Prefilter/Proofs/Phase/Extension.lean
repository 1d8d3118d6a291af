import Prefilter.Proofs.Phase.Balance

namespace Prefilter

namespace Coordinator

variable {c c' c'' : Coordinator} {d d' : Duty} {m : Move}

/-- Phases keep their targets and requests, and tasks and probes stay on record. -/
structure Extends (c c' : Coordinator) : Prop where
  phases : ∀ {k : Nat} {p : Phase}, c.phases[k]? = some p →
    ∃ p', c'.phases[k]? = some p' ∧ p'.targets = p.targets ∧ p'.request = p.request
  tasks : ∀ {t : Nat} {d : Dispatch}, c.tasks[t]? = some d →
    ∃ d', c'.tasks[t]? = some d' ∧ d'.phase = d.phase ∧ d'.slot = d.slot
  probes : ∀ {q : Nat} {p : Probe}, c.probes[q]? = some p →
    ∃ p', c'.probes[q]? = some p' ∧ p'.attempt = p.attempt ∧ p'.request = p.request

namespace Extends

theorem of_eq (hphases : c'.phases = c.phases) (htasks : c'.tasks = c.tasks)
    (hprobes : c'.probes = c.probes) : Extends c c' where
  phases h := ⟨_, hphases ▸ h, rfl, rfl⟩
  tasks h := ⟨_, htasks ▸ h, rfl, rfl⟩
  probes h := ⟨_, hprobes ▸ h, rfl, rfl⟩

theorem refl (c : Coordinator) : Extends c c := of_eq rfl rfl rfl

theorem trans (h : Extends c c') (h' : Extends c' c'') : Extends c c'' where
  phases hp := by
    obtain ⟨p, hp, ht, hr⟩ := h.phases hp
    obtain ⟨p', hp', ht', hr'⟩ := h'.phases hp
    exact ⟨p', hp', ht'.trans ht, hr'.trans hr⟩
  tasks hd := by
    obtain ⟨d, hd, hk, hi⟩ := h.tasks hd
    obtain ⟨d', hd', hk', hi'⟩ := h'.tasks hd
    exact ⟨d', hd', hk'.trans hk, hi'.trans hi⟩
  probes hp := by
    obtain ⟨p, hp, ha, hr⟩ := h.probes hp
    obtain ⟨p', hp', ha', hr'⟩ := h'.probes hp
    exact ⟨p', hp', ha'.trans ha, hr'.trans hr⟩

theorem emit (h : Extends c c') (e : Event) : Extends c (c'.emit e) := h.trans (of_eq rfl rfl rfl)

theorem log (h : Extends c c') (n : Notice) : Extends c (c'.log n) := h.emit _

theorem logAll (h : Extends c c') (ns : List Notice) : Extends c (c'.logAll ns) :=
  h.trans (of_eq rfl rfl rfl)

theorem push (h : Extends c c') (f : Frame) : Extends c (c'.push f) := h.trans (of_eq rfl rfl rfl)

theorem updatePhase (h : Extends c c') (k : Nat) {f : Phase → Phase}
    (htargets : ∀ p, (f p).targets = p.targets) (hrequest : ∀ p, (f p).request = p.request) :
    Extends c (c'.updatePhase k f) := by
  refine h.trans ⟨fun {j p} hp => ?_, fun hd => ⟨_, hd, rfl, rfl⟩, fun hp => ⟨_, hp, rfl, rfl⟩⟩
  refine ⟨_, getElem?_modify_eq_some.mpr ⟨p, hp, rfl⟩, ?_⟩
  split
  · exact ⟨htargets p, hrequest p⟩
  · exact ⟨rfl, rfl⟩

theorem openPhase (h : Extends c c') (targets : List ShardTarget) (request : SearchRequest) :
    Extends c (c'.openPhase targets request) := by
  refine h.trans ⟨fun {k p} hp => ?_, fun hd => ⟨_, hd, rfl, rfl⟩, fun hp => ⟨_, hp, rfl, rfl⟩⟩
  exact ⟨p, getElem?_push_eq_some hp, rfl, rfl⟩

theorem addTask (h : Extends c c') (phase slot : Nat) : Extends c (c'.addTask phase slot) := by
  refine h.trans ⟨fun hp => ⟨_, hp, rfl, rfl⟩, fun {t d} hd => ?_, fun hp => ⟨_, hp, rfl, rfl⟩⟩
  exact ⟨d, getElem?_push_eq_some hd, rfl, rfl⟩

theorem addProbe (h : Extends c c') (probe : Probe) : Extends c (c'.addProbe probe) := by
  refine h.trans ⟨fun hp => ⟨_, hp, rfl, rfl⟩, fun hd => ⟨_, hd, rfl, rfl⟩, fun {q p} hp => ?_⟩
  exact ⟨p, getElem?_push_eq_some hp, rfl, rfl⟩

theorem useTask (h : Extends c c') (task : Nat) : Extends c (c'.useTask task) := by
  refine h.trans ⟨fun hp => ⟨_, hp, rfl, rfl⟩, fun {t d} hd => ?_, fun hp => ⟨_, hp, rfl, rfl⟩⟩
  refine ⟨_, getElem?_modify_eq_some.mpr ⟨d, hd, rfl⟩, ?_⟩
  split <;> exact ⟨rfl, rfl⟩

theorem useListener (h : Extends c c') (probe : Nat) : Extends c (c'.useListener probe) := by
  refine h.trans ⟨fun hp => ⟨_, hp, rfl, rfl⟩, fun hd => ⟨_, hd, rfl, rfl⟩, fun {q p} hp => ?_⟩
  refine ⟨_, getElem?_modify_eq_some.mpr ⟨p, hp, rfl⟩, ?_⟩
  split <;> exact ⟨rfl, rfl⟩

theorem target? (h : Extends c c') {k i : Nat} {t : ShardTarget} (ht : c.target? k i = some t) :
    c'.target? k i = some t := by
  simp only [Coordinator.target?, Option.bind_eq_some_iff] at ht ⊢
  obtain ⟨p, hp, hpt⟩ := ht
  obtain ⟨p', hp', htargets, -⟩ := h.phases hp
  exact ⟨p', hp', htargets ▸ hpt⟩

theorem destination? (h : Extends c c') {a : Attempt} {t : ShardTarget} {n : NodeId}
    (ht : c.destination? a = some (t, n)) : c'.destination? a = some (t, n) := by
  simp only [Coordinator.destination?, Option.bind_eq_some_iff] at ht ⊢
  obtain ⟨target, htarget, hcopy⟩ := ht
  exact ⟨target, h.target? htarget, hcopy⟩

end Extends

theorem Progress.extends (h : Progress c d c' d') : Extends c c' := by
  cases h with
  | submitLast => exact .refl c
  | submit => exact ((Extends.refl c).addTask _ _).push _
  | complete =>
      refine ((((Extends.refl c).logAll _).updatePhase _ ?_ ?_).emit _).push _
      · exact fun _ => rfl
      · exact fun _ => rfl
  | supersede => exact (Extends.refl c).log _
  | record =>
      refine (Extends.refl c).updatePhase _ ?_ ?_
      · exact fun _ => rfl
      · exact fun _ => rfl
  | connect => exact (Extends.refl c).push _
  | exhaust => exact (Extends.refl c).log _
  | ignore => exact (Extends.refl c).log _
  | advance =>
      refine ((Extends.refl c).log _).updatePhase _ ?_ ?_
      · exact fun _ => rfl
      · exact fun _ => rfl
  | send => exact ((((Extends.refl c).emit _).emit _).addProbe _).push _

theorem Intake.extends (h : Intake c m c' d) : Extends c c' := by
  cases h with
  | reject => exact ((Extends.refl c).log _).emit _
  | start => exact ((Extends.refl c).logAll _).openPhase _ _
  | run => exact (Extends.refl c).useTask _
  | discard => exact ((Extends.refl c).useTask _).log _
  | answer => exact (Extends.refl c).useListener _
  | answerError => exact (Extends.refl c).useListener _
  | abandon => exact ((Extends.refl c).useListener _).log _
  | _ => exact .of_eq rfl rfl rfl

end Coordinator
end Prefilter
