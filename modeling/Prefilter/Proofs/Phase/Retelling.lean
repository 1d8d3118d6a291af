import Mathlib.Data.List.Basic
import Prefilter.Proofs.Phase.Journal
import Prefilter.Proofs.Phase.Likeness
import Prefilter.Proofs.Phase.Passage

namespace Prefilter

open Relation

/-- How a resolution is left out: a listener is neither resolved nor dropped, and a call that failed
succeeds. Whether a copy is found decides whether its probe is sent, and a task that is dropped is not
run, so these stay as they are. -/
def Move.quietly : Move → List Move
  | .answer .. | .abandon _ => []
  | .unsent _ => [.sent]
  | .refused _ => [.accepted]
  | m => [m]

namespace Coordinator

variable {c c' c'' : Coordinator} {m : Move} {a : Attempt} {call call' : Option Frame}
  {policy : OrderingPolicy} {moves moves' : List Move}

/-- A move resolves an attempt: its probe is answered or cannot be sent, its listener is dropped, its
copy is not found, or the task of its shard is refused or dropped. -/
inductive Resolves (c : Coordinator) : Move → Attempt → Prop where
  | answer {probe : Nat} {p : Probe} {result : ProbeResult} (found : c.probes[probe]? = some p) :
      Resolves c (.answer probe result) p.attempt
  | abandon {probe : Nat} {p : Probe} (found : c.probes[probe]? = some p) :
      Resolves c (.abandon probe) p.attempt
  | unsent {probe : Nat} {p : Probe} {error : ProbeError} {stack : List Frame}
      (top : c.stack = .sending probe :: stack) (found : c.probes[probe]? = some p) :
      Resolves c (.unsent error) p.attempt
  | unreachable {a : Attempt} {error : ProbeError} {stack : List Frame}
      (top : c.stack = .connecting a :: stack) : Resolves c (.unreachable error) a
  | refused {task : Nat} {d : Dispatch} {error : DispatchError} {stack : List Frame}
      (top : c.stack = .submitting task :: stack) (found : c.tasks[task]? = some d) :
      Resolves c (.refused error) ⟨d.phase, d.slot, 0⟩
  | discard {task phase slot : Nat} (pending : c.IsPending task phase slot) :
      Resolves c (.discard task) ⟨phase, slot, 0⟩

theorem Timely.listenersSpent (h : c.Timely (.rest call)) : c.ListenersSpent := by
  intro q p hq resolved
  rcases h.settled hq resolved with hover | ends
  · exact hover.isCurrent_eq_false
  · exact ends.elim

theorem Reachable.listenersSpent (h : Reachable policy moves c) : c.ListenersSpent := by
  obtain ⟨call, -, timely⟩ := h.timely
  exact timely.listenersSpent

namespace Resolves

theorem isReached (h : Resolves c m a) (sound : c.Sound (.rest call))
    (timely : c.Timely (.rest call')) : c.IsReached a := by
  cases h with
  | answer found | abandon found | unsent _ found => exact timely.probes found
  | unreachable top => exact timely.resolver (top ▸ List.mem_cons_self)
  | refused _ found | discard found =>
      obtain ⟨target, ht⟩ := sound.grounded.tasks found
      obtain ⟨s, hs⟩ := sound.exists_slot? ht
      exact isReached_of_slot? hs

theorem exists_ends (h : Resolves c m a) (sound : c.Sound (.rest call)) (spent : c.ListenersSpent)
    (current : c.isCurrent a = true) :
    ∃ c' d, Intake c m c' d ∧ c.step m = c'.perform d ∧ d.Ends a := by
  have unresolved {q : Nat} {p : Probe} (found : c.probes[q]? = some p)
      (hcur : c.isCurrent p.attempt = true) : p.listener.resolved = false := by
    rw [← Bool.not_eq_true]
    intro resolved
    simp [spent found resolved] at hcur
  cases h with
  | @answer probe p result found =>
      have hu := unresolved found current
      cases result with
      | ok response => exact ⟨_, _, .answer found hu, step_answer found hu, rfl⟩
      | error error => exact ⟨_, _, .answerError found hu, step_answerError found hu, rfl⟩
  | abandon found =>
      have hu := unresolved found current
      exact ⟨_, _, .abandon found hu,
        by simp [step, takeListener?_eq_some found hu, settle, perform], rfl⟩
  | unsent top found => exact ⟨_, _, .unsent top found, by simp [step, top, found, perform], rfl⟩
  | @unreachable a error stack top =>
      obtain ⟨target, node, hdest⟩ : Frame.Supported c (.connecting a) :=
        sound.grounded.frames (top ▸ List.mem_cons_self)
      have hpopped : ({ c with stack } : Coordinator).destination? a = some (target, node) := hdest
      exact ⟨_, _, .unreachable top hdest,
        by simp [step, top, Coordinator.unreachable, hpopped, perform], rfl⟩
  | @refused task d error stack top found =>
      obtain ⟨target, ht⟩ := sound.grounded.tasks found
      have hpopped : ({ c with stack } : Coordinator).target? d.phase d.slot = some target := ht
      exact ⟨_, _, .refused top found ht, by simp [step, top, found, refuse, hpopped, perform], rfl⟩
  | discard pending =>
      obtain ⟨target, ht⟩ := sound.grounded.tasks pending
      exact ⟨_, _, .discard pending rfl ht, step_discard pending rfl ht, rfl⟩

theorem isOver (h : Resolves c m a) (sound : c.Sound (.rest call))
    (timely : c.Timely (.rest call')) : (c.step m).coordinator.IsOver a := by
  rcases h.isReached sound timely with current | hover
  · obtain ⟨c', d, hi, heq, ends⟩ := h.exists_ends sound timely.listenersSpent current
    obtain ⟨s, hs, hcopy⟩ := isCurrent_iff_slot?.mp current
    rw [heq]
    exact (sound.intake hi).isOver_perform
      (isCurrent_iff_slot?.mpr ⟨s, hi.slot?_of_some hs, hcopy⟩) ends
  · have hstep : Run (fun _ _ => True) c ([] ++ [m]) (c.step m).coordinator := .move .nil trivial
    exact hover.run hstep sound

theorem alike_quietly (h : Resolves c m a) (stale : c.isCurrent a = false) :
    Alike (c.run m.quietly) (c.step m).coordinator := by
  cases h with
  | @answer probe p result found =>
      refine alike_withListener (alike_settle · result) fun p' hp' => ?_
      obtain rfl := Option.some.inj (found.symm.trans hp')
      exact stale
  | @abandon probe p found =>
      refine alike_withListener alike_settle_dropped fun p' hp' => ?_
      obtain rfl := Option.some.inj (found.symm.trans hp')
      exact stale
  | @unsent probe p error stack top found =>
      have hsent : c.run [.sent] = { c with stack } := by simp [run, step, top, rest]
      have hunsent : c.step (.unsent error) = ({ c with stack } : Coordinator).fail p.attempt error := by
        simp [step, top, found]
      rw [Move.quietly, hsent, hunsent]
      exact alike_fail (c := { c with stack }) stale error
  | @refused task d error stack top found =>
      have haccepted : c.run [.accepted] =
          (({ c with stack } : Coordinator).submit d.phase (d.slot + 1)).coordinator := by
        simp [run, step, top, found]
      have hrefused : c.step (.refused error) = ({ c with stack } : Coordinator).refuse d error := by
        simp [step, top, found]
      rw [Move.quietly, haccepted, hrefused]
      exact alike_refuse (c := { c with stack }) stale error
  | unreachable | discard => exact .refl _

end Resolves

/-- Nothing has changed about the phases: no cursor, no outcome, no counter and no gate. Nothing was sent
or handed over either. -/
structure Unmoved (c c' : Coordinator) : Prop where
  phases : c'.phases = c.phases
  sendings : c'.sendings = c.sendings
  deliveries : ∀ k, c'.deliveries k = c.deliveries k

namespace Unmoved

theorem trans (h : Unmoved c c') (h' : Unmoved c' c'') : Unmoved c c'' where
  phases := h'.phases.trans h.phases
  sendings := h'.sendings.trans h.sendings
  deliveries k := (h'.deliveries k).trans (h.deliveries k)

theorem of_eq (phases : c'.phases = c.phases) (trace : c'.trace = c.trace) : Unmoved c c' where
  phases := phases
  sendings := by rw [Coordinator.sendings, trace, ← Coordinator.sendings]
  deliveries k := by rw [Coordinator.deliveries, trace, ← Coordinator.deliveries]

theorem emit_resolved (c : Coordinator) (a : Attempt) (cluster : Option String) (node : NodeId)
    (found : Bool) : Unmoved c (c.emit (.resolved a cluster node found)) where
  phases := rfl
  sendings := sendings_emit_resolved
  deliveries k := by simp [Coordinator.deliveries, emit, Event.delivery?]

theorem submit (c : Coordinator) (k i : Nat) : Unmoved c (c.submit k i).coordinator := by
  rw [Coordinator.submit]
  cases c.target? k i with
  | none => exact .of_eq rfl rfl
  | some target => exact .of_eq rfl rfl

end Unmoved

theorem filterMap_events {α : Type} {f : Event → Option α} (h : ∀ n, f (.log n) = none)
    (c : Coordinator) : c.events.filterMap f = c.trace.toList.filterMap f := by
  rw [events, List.filterMap_filter]
  refine List.filterMap_congr fun e _ => ?_
  cases e <;> simp [Event.isLog, h]

theorem Alike.unmoved (h : Alike c c') : Unmoved c c' where
  phases := h.phases
  sendings := by
    rw [sendings, ← filterMap_events (fun _ => rfl), h.events, filterMap_events fun _ => rfl,
      ← sendings]
  deliveries k := by
    rw [deliveries, ← filterMap_events (fun _ => rfl), h.events, filterMap_events fun _ => rfl,
      ← deliveries]

theorem unmoved_unreachable (stale : c.isCurrent a = false) (error : ProbeError) :
    Unmoved c (c.unreachable a error).coordinator := by
  rw [Coordinator.unreachable]
  cases c.destination? a with
  | none => exact .of_eq rfl rfl
  | some destination =>
      have hresolved := Unmoved.emit_resolved c a destination.1.cluster destination.2 false
      have hstale : (c.emit (.resolved a destination.1.cluster destination.2 false)).isCurrent a =
          false := stale
      exact hresolved.trans (alike_fail hstale error).unmoved

/-- A resolution of an attempt that is not current changes nothing. -/
theorem Resolves.unmoved (h : Resolves c m a) (stale : c.isCurrent a = false) :
    Unmoved c (c.step m).coordinator := by
  have hquiet := (h.alike_quietly stale).unmoved
  have hpopped (stack : List Frame) : Unmoved c { c with stack } := .of_eq rfl rfl
  cases h with
  | answer | abandon => exact hquiet
  | @unsent probe p error stack top =>
      have hsent : Unmoved c (c.run [.sent]) := by
        simp only [run, List.foldl_cons, List.foldl_nil, step, top]
        exact hpopped stack
      exact hsent.trans hquiet
  | @refused task d error stack top found =>
      have haccepted : Unmoved c (c.run [.accepted]) := by
        simp only [run, List.foldl_cons, List.foldl_nil, step, top, found]
        exact (hpopped stack).trans (.submit _ _ _)
      exact haccepted.trans hquiet
  | @unreachable a error stack top =>
      simp only [step, top]
      exact (hpopped stack).trans (unmoved_unreachable (c := { c with stack }) stale error)
  | @discard task phase slot pending =>
      have hstep : c.step (.discard task) = (c.useTask task).discard { phase, slot } := by
        simp [step, takeTask?_eq_some pending rfl]
      have hused : Unmoved c (c.useTask task) := .of_eq rfl rfl
      rw [hstep]
      exact hused.trans (alike_discard stale).unmoved

/-- Two tellings of one run. They make the same moves, but the second one also resolves attempts that are
not current: listeners are resolved or dropped in it that are not in the first, and calls fail that
succeed there. -/
inductive Retold (policy : OrderingPolicy) :
    List Move → Coordinator → List Move → Coordinator → Prop where
  | nil : Retold policy [] { policy } [] { policy }
  | move {moves moves' : List Move} {c c' : Coordinator} (told : Retold policy moves c moves' c')
      (m : Move) :
      Retold policy (moves ++ [m]) (c.step m).coordinator (moves' ++ [m]) (c'.step m).coordinator
  | late {moves moves' : List Move} {c c' : Coordinator} {m : Move} {a : Attempt}
      (told : Retold policy moves c moves' c') (resolves : Resolves c' m a)
      (stale : c'.isCurrent a = false) :
      Retold policy (moves ++ m.quietly) (c.run m.quietly) (moves' ++ [m]) (c'.step m).coordinator
  | reorder {moves moves' : List Move} {c c' : Coordinator} {stack : List Frame}
      (told : Retold policy moves c moves' c') (perm : stack.Perm c.stack) :
      Retold policy moves { c with stack } moves' { c' with stack }

theorem Alike.run (h : Alike c c') (reachable : Reachable policy moves c)
    (reachable' : Reachable policy moves' c') (more : List Move) :
    Alike (c.run more) (c'.run more) := by
  induction more generalizing c c' moves moves' with
  | nil => exact h
  | cons m more ih =>
      exact ih (h.step reachable.listenersSpent reachable'.listenersSpent m)
        (Run.move reachable trivial) (Run.move reachable' trivial)

theorem Reachable.run (h : Reachable policy moves c) (more : List Move) :
    Reachable policy (moves ++ more) (c.run more) :=
  Run.append h (run_of_permitted (permitted_of_forall (fun _ _ => trivial) c more))

/-- Both tellings are runs, and lead to coordinators that are alike. -/
theorem Retold.alike (h : Retold policy moves c moves' c') :
    Reachable policy moves c ∧ Reachable policy moves' c' ∧ Alike c c' := by
  -- A late resolution is like its omission, and that does the same to both.
  induction h with
  | nil => exact ⟨.nil, .nil, .refl _⟩
  | move told m ih =>
      obtain ⟨hc, hc', halike⟩ := ih
      exact ⟨Run.move hc trivial, Run.move hc' trivial,
        halike.step hc.listenersSpent hc'.listenersSpent m⟩
  | late told resolves stale ih =>
      obtain ⟨hc, hc', halike⟩ := ih
      exact ⟨hc.run _, Run.move hc' trivial,
        (halike.run hc hc' _).trans (resolves.alike_quietly stale)⟩
  | reorder told perm ih =>
      obtain ⟨hc, hc', halike⟩ := ih
      exact ⟨Run.reorder hc perm, Run.reorder hc' (halike.stack ▸ perm), halike.setStack _⟩

theorem Retold.append (h : Retold policy moves c moves' c') (more : List Move) :
    Retold policy (moves ++ more) (c.run more) (moves' ++ more) (c'.run more) := by
  induction more generalizing c c' moves moves' with
  | nil => simpa [run] using h
  | cons m more ih =>
      have hrest := ih (h.move m)
      rwa [List.append_assoc, List.append_assoc] at hrest

/-- The first resolution of an attempt wins. The cursor of a shard sets out at the first copy and goes on
from where it is, copy by copy and then to its end, so an attempt that was left is never current again.
Whatever resolves an attempt leaves it over for good, and to resolve one that is not current changes
nothing. So a run that is told with further resolutions of attempts that are over sends the same probes
and hands over the same results. -/
theorem first_resolution_wins (run : Reachable policy moves c) :
    (∀ (k i : Nat) (s : Slot), c.slot? k i = some s → ∃ target, c.target? k i = some target ∧
      ReflTransGen (Cursor.Advances target.copies.length) (.copy 0) s.cursor ∧
      ∀ later c', Run (fun _ _ => True) c later c' → ∃ s', c'.slot? k i = some s' ∧
        ReflTransGen (Cursor.Advances target.copies.length) s.cursor s'.cursor) ∧
    (∀ (a : Attempt) later c', c.isCurrent a = true → Run (fun _ _ => True) c later c' →
      c'.isCurrent a = false → ∀ further c'', Run (fun _ _ => True) c' further c'' →
        c''.isCurrent a = false) ∧
    (∀ (m : Move) (a : Attempt), Resolves c m a →
      (∀ later c', Run (fun _ _ => True) (c.step m).coordinator later c' →
        c'.isCurrent a = false) ∧
      (c.isCurrent a = false → Unmoved c (c.step m).coordinator)) ∧
    ∀ moves' c', Retold policy moves c moves' c' → Reachable policy moves' c' ∧ Unmoved c c' := by
  obtain ⟨call, sound, timely⟩ := run.timely
  refine ⟨?_, ?_, ?_, ?_⟩
  · intro k i s hs
    obtain ⟨target, ht, path⟩ := run.exists_path hs
    exact ⟨target, ht, path, fun later c' rest => rest.exists_path sound hs ht⟩
  · intro a later c' current rest left further c'' beyond
    obtain ⟨call', sound'⟩ := Reachable.sound (Run.append run rest)
    exact ((rest.isOver_of_left sound current left).run beyond sound').isCurrent_eq_false
  · intro m a resolves
    refine ⟨fun later c' rest => ?_, resolves.unmoved⟩
    exact ((resolves.isOver sound timely).run rest (sound.step m)).isCurrent_eq_false
  · intro moves' c' told
    obtain ⟨-, hrun', halike⟩ := told.alike
    exact ⟨hrun', halike.unmoved⟩

/-- The probe of the first copy is answered while it is still being sent. -/
def answeredInline : List Move :=
  [.start [{ shard := default, copies := [default, default] }] {}, .accepted, .run 0,
    .connected default, .answer 0 (.ok { canMatch := false }), .returned]

/-- The transport then says that it has not sent the probe, and drops the listener. -/
def contradictedInline : List Move := answeredInline ++ [.unsent .listenerDropped, .abandon 0]

theorem first_resolution_wins_answeredInline :
    Unmoved (run {} (answeredInline ++ [.sent])) (run {} contradictedInline) ∧
      (run {} contradictedInline).sendings.map (·.attempt.copy) = [0] ∧
      ((run {} contradictedInline).deliveries 0).map (·.summary.failed) = [0] := by
  have hprobe : (run {} answeredInline).probes[0]?.map (·.attempt) = some ⟨0, 0, 0⟩ := by
    decide +kernel
  obtain ⟨p, hp, hattempt⟩ := Option.map_eq_some_iff.mp hprobe
  have hstack : (run {} answeredInline).stack = [.sending 0] := by decide +kernel
  have hstale : (run {} answeredInline).isCurrent p.attempt = false := by
    rw [hattempt]
    decide +kernel
  have hunsent := (Retold.nil.append answeredInline).late (m := .unsent .listenerDropped)
    (.unsent hstack hp) hstale
  have hprobe' : (run {} (answeredInline ++ [.unsent .listenerDropped])).probes[0]?.map (·.attempt) =
      some ⟨0, 0, 0⟩ := by decide +kernel
  obtain ⟨p', hp', hattempt'⟩ := Option.map_eq_some_iff.mp hprobe'
  have hstale' : (run {} (answeredInline ++ [.unsent .listenerDropped])).isCurrent p'.attempt =
      false := by
    rw [hattempt']
    decide +kernel
  have hdropped := hunsent.late (.abandon hp') hstale'
  obtain ⟨-, -, -, hretold⟩ := first_resolution_wins (reachable_run {} (answeredInline ++ [.sent]))
  obtain ⟨-, hunmoved⟩ := hretold _ _ hdropped
  exact ⟨hunmoved, by decide +kernel, by decide +kernel⟩

end Coordinator
end Prefilter
