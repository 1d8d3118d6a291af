import Prefilter.Proofs.Dispatch.Occupancy
import Prefilter.Proofs.Dispatch.Ready
import Prefilter.Proofs.Stack.Exchange

namespace Prefilter

/-- A phase over a stack: what it is about, its number and that of its first task, what pool and what
carrier it meets, and when. -/
structure Course where
  policy : OrderingPolicy
  targets : List ShardTarget
  request : SearchRequest
  phase : Nat
  firstTask : Nat
  permits : Nat
  room : Nat
  timeout : Option Nat
  delay : Nat
  began : Nat

namespace Course

/-- The phase is on record with its targets and its request. -/
def IsOpen (x : Course) (c : Coordinator) : Prop :=
  ∃ p, c.phases[x.phase]? = some p ∧ p.targets = x.targets.toArray ∧ p.request = x.request

variable {x : Course} {c c' : Coordinator} {i : Nat} {target : ShardTarget}

theorem IsOpen.extends (h : x.IsOpen c) (e : c.Extends c') : x.IsOpen c' := by
  obtain ⟨p, hp, htargets, hrequest⟩ := h
  obtain ⟨p', hp', htargets', hrequest'⟩ := e.phases hp
  exact ⟨p', hp', htargets'.trans htargets, hrequest'.trans hrequest⟩

theorem IsOpen.target?_eq (h : x.IsOpen c) (i : Nat) : c.target? x.phase i = x.targets[i]? := by
  obtain ⟨p, hp, htargets, -⟩ := h
  simp [Coordinator.target?, hp, htargets]

end Course

open Coordinator Backend

variable {σ : Type} {b : Backend σ} {x : Course} {r r₀ : Runtime σ} {c : Coordinator} {i fuel : Nat}

/-- Nothing is under way: no call is open, no task queued and no probe sent that could still come to
something. -/
structure Stack.Idle (policy : OrderingPolicy) (permits room : Nat) (timeout : Option Nat)
    (s : Stack σ) : Prop where
  reached : ∃ moves, Reachable policy moves s.coordinator
  returned : s.coordinator.stack = []
  pool : s.runtime.pool.Ready permits room []
  size_eq : s.runtime.pool.stages.size = s.coordinator.tasks.size
  carrier : s.runtime.carrier = { now := s.runtime.carrier.now, limit := timeout }

/-- The tasks of the first shards have been handed over. -/
structure HandedOver (x : Course) (r₀ : Runtime σ) (i : Nat) (r : Runtime σ) (c : Coordinator) :
    Prop where
  opened : x.IsOpen c
  returned : c.stack = []
  runtime_eq : r = { r₀ with pool := r.pool }
  pool : r.pool.Ready x.permits x.room (List.range' x.firstTask (min i x.room))
  size_eq : r.pool.stages.size = c.tasks.size
  tasks_size : c.tasks.size = x.firstTask + i
  tasks : ∀ l, l < i → l < x.room → c.tasks[x.firstTask + l]? = some { phase := x.phase, slot := l }
  slots : ∀ l < x.targets.length, c.slot? x.phase l =
    some (if l < x.room ∨ i ≤ l then {} else { cursor := .done, outcome := some .failure })

theorem getElem?_push_of_size {α : Type} {xs : Array α} {a : α} {j n : Nat} (hn : xs.size = n) :
    (xs.push a)[j]? = if j = n then some a else xs[j]? := by
  rw [Array.getElem?_push, hn]

theorem HandedOver.queue (h : HandedOver x r₀ i r c) (room : i < x.room) :
    (r.pool.submit false).2 = .queued ∧
      HandedOver x r₀ (i + 1) { r with pool := (r.pool.submit false).1 }
        (c.addTask x.phase i) := by
  have hmin : min i x.room = i := Nat.min_eq_left (Nat.le_of_lt room)
  have hmin' : min (i + 1) x.room = i + 1 := Nat.min_eq_left room
  have hpool := h.pool
  rw [hmin] at hpool
  obtain ⟨hqueued, hready⟩ := hpool.submit (by simpa using room)
  refine ⟨hqueued, ?_⟩
  constructor
  case opened => exact h.opened.extends ((Extends.refl c).addTask x.phase i)
  case returned => exact h.returned
  case runtime_eq => rw [h.runtime_eq]
  case pool =>
    rw [hmin', List.range'_concat]
    simpa [h.size_eq, h.tasks_size] using hready
  case size_eq =>
    have hstages := @Pool.submit_stages r.pool false
    simp [hstages, addTask, h.size_eq]
  case tasks_size => simp [addTask, h.tasks_size, Nat.add_assoc]
  case tasks =>
    intro l hl hroom
    rw [addTask, getElem?_push_of_size h.tasks_size]
    split
    · obtain rfl : l = i := by omega
      rfl
    · exact h.tasks l (by omega) hroom
  case slots =>
    intro l hl
    have hslot : (c.addTask x.phase i).slot? x.phase l = c.slot? x.phase l := rfl
    rw [hslot, h.slots l hl]
    congr 2
    simp only [eq_iff_iff]
    omega

theorem HandedOver.refuse (h : HandedOver x r₀ i r c) (target : ShardTarget) (full : x.room ≤ i) :
    (r.pool.submit false).2 = .refused (.rejected x.room x.room) ∧
      HandedOver x r₀ (i + 1) { r with pool := (r.pool.submit false).1 }
        (c.turnedAway x.phase i target (.rejected x.room x.room)) := by
  have hmin : min i x.room = x.room := Nat.min_eq_right full
  have hmin' : min (i + 1) x.room = x.room := Nat.min_eq_right (Nat.le_succ_of_le full)
  have hpool := h.pool
  rw [hmin] at hpool
  obtain ⟨hrefused, hready⟩ := hpool.submit_full (by simp)
  refine ⟨by simpa using hrefused, ?_⟩
  constructor
  case opened =>
    refine h.opened.extends (((((((Extends.refl c).addTask x.phase i).useTask c.tasks.size).log
      _).updatePhase x.phase ?_ ?_).log _).log _)
    · exact fun _ => rfl
    · exact fun _ => rfl
  case returned => exact h.returned
  case runtime_eq => rw [h.runtime_eq]
  case pool => rwa [hmin']
  case size_eq =>
    have hstages := @Pool.submit_stages r.pool false
    simp [hstages, turnedAway, addTask, useTask, log, emit, updatePhase, h.size_eq]
  case tasks_size => simp [turnedAway, addTask, useTask, log, emit, updatePhase, h.tasks_size,
      Nat.add_assoc]
  case tasks =>
    intro l hl hroom
    have hold := h.tasks l (by omega) hroom
    have hne : c.tasks.size ≠ x.firstTask + l := by
      rw [h.tasks_size]
      omega
    exact getElem?_modify_eq_some.mpr ⟨_, getElem?_push_eq_some hold, if_neg hne⟩
  case slots =>
    intro l hl
    rw [slot?_turnedAway, h.slots l hl]
    by_cases hil : i = l
    · subst hil
      simp [Nat.not_lt.mpr full]
    · rw [if_neg (by simpa using hil)]
      congr 2
      simp only [eq_iff_iff]
      omega

theorem HandedOver.conclude {p : Phase} (h : HandedOver x r₀ i r c) :
    HandedOver x r₀ i r (c.concluded x.phase p) where
  opened := by
    refine h.opened.extends ((((Extends.refl c).logAll _).updatePhase x.phase ?_ ?_).emit _)
    · exact fun _ => rfl
    · exact fun _ => rfl
  returned := h.returned
  runtime_eq := h.runtime_eq
  pool := h.pool
  size_eq := h.size_eq
  tasks_size := h.tasks_size
  tasks := h.tasks
  slots := by
    intro l hl
    rw [← h.slots l hl]
    exact slot?_conclude

theorem HandedOver.submit (h : HandedOver x r₀ i r c) (sound : c.Sound (.submit x.phase i))
    (room : 0 < x.room) (hi : i < x.targets.length) :
    ∃ r' c' used, HandedOver x r₀ (i + 1) r' c' ∧ c'.Sound (.submit x.phase (i + 1)) ∧ used ≤ 2 ∧
      ∀ fuel, follow b.reply (fuel + used) r (c.perform (.submit x.phase i)) [] =
        follow b.reply fuel r' (c'.perform (.submit x.phase (i + 1))) [] := by
  have htarget : c.target? x.phase i = some x.targets[i] := by
    rw [h.opened.target?_eq, List.getElem?_eq_getElem hi]
  by_cases hroom : i < x.room
  · obtain ⟨hqueued, hnext⟩ := h.queue hroom
    have hsubmitted := sound.progress (.submit htarget)
    have haccepted := hsubmitted.intake (.accepted rfl Array.getElem?_push_size)
    exact ⟨_, _, 1, hnext, haccepted, by omega, fun fuel => follow_submit htarget hqueued⟩
  · obtain ⟨hrefused, hnext⟩ := h.refuse x.targets[i] (Nat.le_of_not_lt hroom)
    obtain ⟨p, hp, -, -⟩ := h.opened
    obtain ⟨q, hq, hslot⟩ := slot?_eq_some.mp (h.slots i hi)
    obtain rfl := Option.some.inj (hp.symm.trans hq)
    rw [if_pos (.inr (Nat.le_refl i))] at hslot
    -- The first shard is still open, so this one is not the last.
    have hothers : p.outstanding ≠ 1 := by
      intro hone
      have hrecord : (p.record i .failure).Balanced := (sound.books.balanced hp).record hslot rfl
      obtain ⟨q, hq, hfirst⟩ := slot?_eq_some.mp (h.slots 0 (by omega))
      obtain rfl := Option.some.inj (hp.symm.trans hq)
      rw [if_pos (.inl room)] at hfirst
      have hkept : (p.record i .failure).slots[0]? = some ({} : Slot) :=
        getElem?_modify_eq_some.mpr ⟨_, hfirst, if_neg (by omega)⟩
      have hdone := hrecord.cursor_eq_done (by simp [Phase.record, hone]) hkept
      cases hdone
    have hfollow (fuel : Nat) := @follow_submit_refused σ b r c [] p _ x.phase fuel x.targets[i] i _
      sound htarget hrefused hp hslot rfl hothers
    exact ⟨_, _, 2, hnext, (hfollow 0).1, Nat.le_refl 2, fun fuel => (hfollow fuel).2⟩

/-- The start goes on until the tasks of all shards have been handed over. -/
theorem HandedOver.submitAll {n : Nat} (room : 0 < x.room) (h : HandedOver x r₀ i r c)
    (sound : c.Sound (.submit x.phase i)) (left : i + n = x.targets.length) (hfuel : 2 * n ≤ fuel) :
    ∃ r' c', follow b.reply fuel r (c.perform (.submit x.phase i)) [] = (r', c') ∧
      HandedOver x r₀ x.targets.length r' c' := by
  induction n generalizing i r c fuel with
  | zero =>
      obtain rfl : i = x.targets.length := left
      have htarget : c.target? x.phase x.targets.length = none := by
        simp [h.opened.target?_eq]
      refine ⟨r, c, ?_, h⟩
      simp [perform, Coordinator.submit, htarget, rest, follow, playFor_nil]
  | succ n ih =>
      obtain ⟨r', c', used, hnext, hsound, hused, hfollow⟩ := h.submit (b := b) sound room (by omega)
      obtain ⟨rest, rfl⟩ := Nat.exists_eq_add_of_le' (show used ≤ fuel by omega)
      rw [hfollow]
      exact ih hnext hsound (by omega) (by omega)

/-- The course of a phase that starts over an idle stack. -/
def Stack.course (s : Stack σ) (policy : OrderingPolicy) (permits room : Nat) (timeout : Option Nat)
    (delay : Nat) (targets : List ShardTarget) (request : SearchRequest) : Course where
  policy
  targets
  request
  phase := s.coordinator.phases.size
  firstTask := s.coordinator.tasks.size
  permits
  room
  timeout
  delay
  began := s.runtime.carrier.now

variable {s : Stack σ} {policy : OrderingPolicy} {permits room : Nat} {timeout : Option Nat}
  {delay : Nat} {targets : List ShardTarget} {request : SearchRequest}

theorem Stack.Idle.start (idle : s.Idle policy permits room timeout) (hroom : 0 < room)
    (admitted : startFault? targets request = none) :
    HandedOver (s.course policy permits room timeout delay targets request) s.runtime targets.length
      (s.start b targets request).runtime (s.start b targets request).coordinator := by
  obtain ⟨moves, reached⟩ := idle.reached
  obtain ⟨call, sound⟩ := reached.sound
  let x := s.course policy permits room timeout delay targets request
  let opened := (s.coordinator.logAll [.startSpan targets.length request.sort.isSome,
    .phaseSpan s.coordinator.phases.size targets.length (request.sort.map (·.field)),
    .phaseStarted s.coordinator.phases.size]).openPhase targets request
  have hintake := sound.intake (.start admitted)
  have hphase : opened.phases[x.phase]? = some (.ofTargets targets request) :=
    Array.getElem?_push_size
  have hopened : HandedOver x s.runtime 0 s.runtime opened := by
    constructor
    case opened => exact ⟨_, hphase, rfl, rfl⟩
    case returned => exact idle.returned
    case runtime_eq => rfl
    case pool =>
      rw [Nat.zero_min]
      exact idle.pool
    case size_eq => exact idle.size_eq
    case tasks_size => rfl
    case tasks => exact fun l hl => absurd hl (Nat.not_lt_zero l)
    case slots =>
      intro l hl
      have hslot : opened.slot? x.phase l = some {} :=
        slot?_openPhase.trans ((if_pos rfl).trans (if_pos hl))
      rw [hslot, if_pos (.inr (Nat.zero_le l))]
  obtain ⟨fuel, hbudget, hfuel⟩ : ∃ fuel, s.coordinator.moveBudget (.start targets request) = fuel + 1 ∧
      2 * targets.length + 1 ≤ fuel := by
    have hcalls := two_mul_length_le_callBudget targets
    refine ⟨s.coordinator.phases.foldl (fun n p => n + callBudget p.targets.toList) 0 +
      callBudget targets, ?_, by omega⟩
    simp only [moveBudget, ← Array.foldl_toList, foldl_add_eq_sum]
    omega
  obtain ⟨r', c', hfollow, hhanded⟩ : ∃ r' c', follow b.reply fuel s.runtime
      (s.coordinator.step (.start targets request)) [] = (r', c') ∧
        HandedOver x s.runtime targets.length r' c' := by
    rw [step_start admitted]
    by_cases hempty : targets.isEmpty
    · rw [if_pos hempty] at hintake ⊢
      obtain ⟨fuel, rfl⟩ := Nat.exists_eq_add_of_le' (show 1 ≤ fuel by omega)
      obtain rfl := List.isEmpty_iff.mp hempty
      exact ⟨_, _, (follow_complete hintake hphase).trans (playFor_nil fuel _ _), hopened.conclude⟩
    · rw [if_neg hempty] at hintake ⊢
      exact hopened.submitAll (n := targets.length) hroom hintake (Nat.zero_add _) (by omega)
  have hmove : s.start b targets request = { runtime := r', coordinator := c' } := by
    rw [Stack.start, Stack.move, play, hbudget, playFor_cons, hfollow]
  rw [hmove]
  exact hhanded

end Prefilter
