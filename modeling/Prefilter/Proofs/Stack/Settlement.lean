import Prefilter.Proofs.Dispatch.Occupancy
import Prefilter.Proofs.Phase.Obligation
import Prefilter.Proofs.Stack.Work

/-!
Exchanges come to an end. Whatever state the pool and the carrier are in, the answers to a call leave
no call open, all tasks and listeners that are still to be used are in somebody's hands, and there are
never more moves to make than were counted before the first one (`Runtime.Holds.move`).
-/

namespace Prefilter

namespace Move

/-- The task that a move runs or drops. -/
def task? : Move → Option Nat
  | .run task | .discard task => some task
  | _ => none

/-- The probe whose listener a move resolves or drops. -/
def probe? : Move → Option Nat
  | .answer probe _ | .abandon probe => some probe
  | _ => none

end Move

namespace Coordinator

section plays

variable {σ : Type} {reply : σ → Coordinator → Frame → σ × List Move} {s s' : σ}
  {c c' : Coordinator} {t : Turn} {m : Move} {moves : List Move} {frame : Frame}
  {P Q : Nat → σ → Coordinator → Prop}

/-- Moves, each followed by the answers to its call, come to an end. The assertion is about how many
moves were made in all and what they leave. -/
def Plays (reply : σ → Coordinator → Frame → σ × List Move) (s : σ) (c : Coordinator)
    (moves : List Move) (P : Nat → σ → Coordinator → Prop) : Prop :=
  ∃ n s' c', P n s' c' ∧ ∀ fuel later,
    playFor reply (fuel + n) s c (moves ++ later) = playFor reply fuel s' c' later

/-- The answers to the call in which a turn ends come to an end. -/
def Comes (reply : σ → Coordinator → Frame → σ × List Move) (s : σ) (t : Turn)
    (P : Nat → σ → Coordinator → Prop) : Prop :=
  ∃ n s' c', P n s' c' ∧ ∀ fuel later,
    follow reply (fuel + n) s t later = playFor reply fuel s' c' later

namespace Comes

theorem mono (h : Comes reply s t P) (imp : ∀ n s' c', P n s' c' → Q n s' c') :
    Comes reply s t Q := by
  obtain ⟨n, s', c', hP, hplay⟩ := h
  exact ⟨n, s', c', imp n s' c' hP, hplay⟩

theorem rest (h : P 0 s c) : Comes reply s { coordinator := c } P := ⟨0, s, c, h, fun _ _ => rfl⟩

theorem call (answers : reply s c frame = (s', moves)) (h : Plays reply s' c moves P) :
    Comes reply s { coordinator := c, call := some frame } P := by
  obtain ⟨n, s'', c', hP, hplay⟩ := h
  refine ⟨n, s'', c', hP, fun fuel later => ?_⟩
  simp only [follow, answers]
  exact hplay fuel later

end Comes

namespace Plays

theorem nil (h : P 0 s c) : Plays reply s c [] P := ⟨0, s, c, h, fun _ _ => rfl⟩

theorem cons (h : Comes reply s (c.step m) fun n s' c' =>
      Plays reply s' c' moves fun k => P (n + k + 1)) :
    Plays reply s c (m :: moves) P := by
  obtain ⟨n, s', c', ⟨k, s'', c'', hP, hrest⟩, hfirst⟩ := h
  refine ⟨n + k + 1, s'', c'', hP, fun fuel later => ?_⟩
  have hfuel : fuel + (n + k + 1) = fuel + k + n + 1 := by omega
  rw [hfuel, List.cons_append, playFor_cons, hfirst, hrest]

theorem one (h : Comes reply s (c.step m) fun n => P (n + 1)) : Plays reply s c [m] P :=
  .cons (h.mono fun _ _ _ hP => .nil hP)

theorem exists_of_le {fuel : Nat} (h : Plays reply s c moves P)
    (le : ∀ n s' c', P n s' c' → n ≤ fuel) :
    ∃ n, P n (playFor reply fuel s c moves).1 (playFor reply fuel s c moves).2 := by
  obtain ⟨n, s', c', hP, hplay⟩ := h
  refine ⟨n, ?_⟩
  have hrest := hplay (fuel - n) []
  rw [Nat.sub_add_cancel (le n s' c' hP), List.append_nil, playFor_nil] at hrest
  rwa [hrest]

end Plays

end plays

variable {c c' : Coordinator} {d d' : Duty} {k i : Nat} {a : Attempt}

theorem Progress.isPending_cases {task : Nat} (hp : Progress c d c' d') (h : c'.IsPending task k i) :
    c.IsPending task k i ∨ d'.call? = some (.submitting task) := by
  cases hp with
  | submit =>
      by_cases htask : task = c.tasks.size
      · exact .inr (by rw [htask]; rfl)
      · refine .inl ?_
        rwa [IsPending, push, addTask, Array.getElem?_push, if_neg htask] at h
  | _ => exact .inl h

theorem Progress.isUnresolved_cases {probe : Nat} (hp : Progress c d c' d')
    (h : c'.IsUnresolved probe a) : c.IsUnresolved probe a ∨ d'.call? = some (.sending probe) := by
  cases hp with
  | send =>
      obtain ⟨p, hp, hu⟩ := h
      by_cases hprobe : probe = c.probes.size
      · exact .inr (by rw [hprobe]; rfl)
      · simp only [push, addProbe, emit, Array.getElem?_push, if_neg hprobe] at hp
        exact .inl ⟨p, hp, hu⟩
  | _ => exact .inl h

end Coordinator

/-- While the executor is asked to take a task, and while the transport is asked to send a probe, the
task and the probe are in their hands; they may come to nothing. -/
def Frame.hands : Frame → List Move
  | .submitting task => [.discard task]
  | .sending probe => [.abandon probe]
  | .connecting _ | .delivering .. => []

namespace Duty

/-- What is in the hands of those that have just been called. -/
def hands (d : Duty) : List Move := (d.call?.map Frame.hands).getD []

/-- The tasks on record are those that were handed to the pool; the last one may be on its way there. -/
def Numbered (c : Coordinator) (size : Nat) (d : Duty) : Prop :=
  match d.call? with
  | some (.submitting task) => task = size ∧ c.tasks.size = size + 1
  | _ => c.tasks.size = size

theorem numbered_iff {c : Coordinator} {size : Nat} {d : Duty} (h : d.call? = none) :
    d.Numbered c size ↔ c.tasks.size = size := by
  rw [Numbered, h]

end Duty

open Coordinator

variable {σ : Type} {b : Backend σ} {max n : Nat} {hands : List Move} {stack : List Frame}
  {r r' r₁ : Runtime σ} {c c' c₁ : Coordinator} {d d' : Duty} {m : Move} {call : Option Frame}
  {used used' n' : Nat}

/-- All tasks and listeners that are still to be used are in place: the tasks are queued in the pool
and the probes under way, but for those that are in hand. -/
structure Runtime.Holds (max : Nat) (hands : List Move) (r : Runtime σ) (c : Coordinator) : Prop where
  pool : r.pool.Consistent max []
  carrier : r.carrier.alive = false → r.carrier.flights = []
  tasks : ∀ task phase slot, c.IsPending task phase slot →
    task ∈ r.pool.queuedTasks ∨ ∃ m ∈ hands, m.task? = some task
  listeners : ∀ probe a, c.IsUnresolved probe a →
    (∃ f ∈ r.carrier.flights, f.id = probe) ∨ ∃ m ∈ hands, m.probe? = some probe

theorem Runtime.Holds.progress (h : r.Holds max hands c) (hp : Progress c d c' d') :
    r.Holds max (d'.hands ++ hands) c' where
  pool := h.pool
  carrier := h.carrier
  tasks := by
    intro task phase slot hpending
    rcases hp.isPending_cases hpending with hbefore | hcall
    · refine (h.tasks task phase slot hbefore).imp_right ?_
      rintro ⟨m, hm, htask⟩
      exact ⟨m, List.mem_append_right _ hm, htask⟩
    · exact .inr ⟨.discard task, by simp [Duty.hands, hcall, Frame.hands], rfl⟩
  listeners := by
    intro probe a hunresolved
    rcases hp.isUnresolved_cases hunresolved with hbefore | hcall
    · refine (h.listeners probe a hbefore).imp_right ?_
      rintro ⟨m, hm, hprobe⟩
      exact ⟨m, List.mem_append_right _ hm, hprobe⟩
    · exact .inr ⟨.abandon probe, by simp [Duty.hands, hcall, Frame.hands], rfl⟩

/-- A duty in an exchange: the calls that were open before it are left alone, and no more moves are
left to make than were counted. -/
structure Engaged (max : Nat) (hands : List Move) (stack : List Frame) (n : Nat) (r : Runtime σ)
    (c : Coordinator) (d : Duty) : Prop where
  holds : r.Holds max (d.hands ++ hands) c
  stack_eq : c.stack = d.call?.toList ++ stack
  numbered : d.Numbered c r.pool.stages.size
  work_le : d.work c + c.unfinished ≤ n

theorem Engaged.progress (h : Engaged max hands stack n r c d) (sound : c.Sound d)
    (hp : Progress c d c' d') : Engaged max hands stack n r c' d' := by
  have hholds := h.holds
  have hstack := h.stack_eq
  have hnumbered := (Duty.numbered_iff hp.call?_eq_none).mp h.numbered
  rw [Duty.hands, hp.call?_eq_none] at hholds
  rw [hp.call?_eq_none] at hstack
  refine ⟨hholds.progress hp, ?_, ?_, Nat.le_trans (hp.work_le sound) h.work_le⟩
  · cases hp with
    | supersede => rwa [Caller.call?_duty]
    | record =>
        split
        · exact hstack
        · rwa [Caller.call?_duty]
    | submit | complete | connect | send => exact congrArg _ hstack
    | _ => exact hstack
  · cases hp with
    | supersede => exact (Duty.numbered_iff (Caller.call?_duty _ _)).mpr hnumbered
    | record =>
        split
        · exact hnumbered
        · exact (Duty.numbered_iff (Caller.call?_duty _ _)).mpr hnumbered
    | submit => exact ⟨hnumbered, (Array.size_push ..).trans (congrArg (· + 1) hnumbered)⟩
    | _ => exact hnumbered

/-- What an exchange leaves that has come to its end. -/
structure Aftermath (max : Nat) (hands : List Move) (stack : List Frame) (n : Nat) (r : Runtime σ)
    (c : Coordinator) (used : Nat) (r' : Runtime σ) (c' : Coordinator) : Prop where
  sound : c'.Sound (.rest none)
  extend : Extends c c'
  holds : r'.Holds max hands c'
  stack_eq : c'.stack = stack
  size_eq : c'.tasks.size = r'.pool.stages.size
  used_le : used + c'.unfinished ≤ n
  pool_alive : r'.pool.alive = r.pool.alive
  carrier_alive : r'.carrier.alive = r.carrier.alive

theorem Aftermath.of (h : Aftermath max hands stack n r₁ c₁ used r' c') (e : Extends c c₁)
    (pool : r₁.pool.alive = r.pool.alive) (carrier : r₁.carrier.alive = r.carrier.alive)
    (used_le : used' + c'.unfinished ≤ n') : Aftermath max hands stack n' r c used' r' c' where
  sound := h.sound
  extend := e.trans h.extend
  holds := h.holds
  stack_eq := h.stack_eq
  size_eq := h.size_eq
  used_le := used_le
  pool_alive := h.pool_alive.trans pool
  carrier_alive := h.carrier_alive.trans carrier

theorem Aftermath.le (h : Aftermath max hands stack n r c used r' c') (le : n ≤ n') :
    Aftermath max hands stack n' r c used r' c' :=
  h.of (.refl c) rfl rfl (Nat.le_trans h.used_le le)

namespace Runtime.Holds

theorem release (h : r.Holds max (m :: hands) c)
    (tasks : ∀ {t k i}, c'.IsPending t k i → c.IsPending t k i ∧ m.task? ≠ some t)
    (listeners : ∀ {q a}, c'.IsUnresolved q a → c.IsUnresolved q a ∧ m.probe? ≠ some q) :
    r.Holds max hands c' where
  pool := h.pool
  carrier := h.carrier
  tasks := by
    intro task phase slot hpending
    obtain ⟨hbefore, hother⟩ := tasks hpending
    refine (h.tasks task phase slot hbefore).imp_right ?_
    rintro ⟨m', hm', htask⟩
    rcases List.mem_cons.mp hm' with rfl | hm'
    · exact absurd htask hother
    · exact ⟨m', hm', htask⟩
  listeners := by
    intro probe a hunresolved
    obtain ⟨hbefore, hother⟩ := listeners hunresolved
    refine (h.listeners probe a hbefore).imp_right ?_
    rintro ⟨m', hm', hprobe⟩
    rcases List.mem_cons.mp hm' with rfl | hm'
    · exact absurd hprobe hother
    · exact ⟨m', hm', hprobe⟩

theorem congr (h : r.Holds max hands c) (tasks : c'.tasks = c.tasks) (probes : c'.probes = c.probes) :
    r.Holds max hands c' where
  pool := h.pool
  carrier := h.carrier
  tasks := by
    intro task phase slot hpending
    rw [IsPending, tasks] at hpending
    exact h.tasks task phase slot hpending
  listeners := by
    rintro probe a ⟨p, hp, hu⟩
    exact h.listeners probe a ⟨p, probes ▸ hp, hu⟩

theorem releaseTask {task : Nat} (h : r.Holds max (m :: hands) c) (uses : m.task? = some task)
    (other : m.probe? = none) : r.Holds max hands (c.useTask task) := by
  refine h.release (fun hpending => ⟨isPending_of_useTask hpending, ?_⟩) fun hu => ⟨hu, by simp [other]⟩
  rintro htask
  obtain rfl := Option.some.inj (uses.symm.trans htask)
  exact not_isPending_useTask hpending

theorem releaseListener {probe : Nat} (h : r.Holds max (m :: hands) c) (uses : m.probe? = some probe)
    (other : m.task? = none) : r.Holds max hands (c.useListener probe) := by
  refine h.release (fun hpending => ⟨hpending, by simp [other]⟩) fun hu =>
    ⟨isUnresolved_of_useListener hu, ?_⟩
  rintro hprobe
  obtain rfl := Option.some.inj (uses.symm.trans hprobe)
  exact not_isUnresolved_useListener hu

theorem releaseVoid (h : r.Holds max (m :: hands) c)
    (task : ∀ task, m.task? = some task → c.takeTask? task = none)
    (probe : ∀ probe, m.probe? = some probe → c.takeListener? probe = none) : r.Holds max hands c := by
  refine h.release (fun hpending => ⟨hpending, fun htask => ?_⟩) fun hu => ⟨hu, fun hprobe => ?_⟩
  · have hnone := task _ htask
    rw [takeTask?_eq_some hpending rfl] at hnone
    cases hnone
  · obtain ⟨p, hp, hunresolved, -⟩ := hu
    have hnone := probe _ hprobe
    rw [takeListener?_eq_some hp hunresolved] at hnone
    cases hnone

end Runtime.Holds

/-- A move is taken up among collaborators that hold what is still to be used. -/
structure Taken (max : Nat) (hands : List Move) (r : Runtime σ) (c : Coordinator) (m : Move)
    (c' : Coordinator) (d : Duty) : Prop where
  intake : Intake c m c' d
  step_eq : c.step m = c'.perform d
  holds : r.Holds max hands c'
  stack_eq : c'.stack = c.stack
  size_eq : c'.tasks.size = c.tasks.size
  call?_eq_none : d.call? = none
  work_le : d.work c' + c'.unfinished ≤ m.work c + c.unfinished

theorem Taken.void (step_eq : c.step m = c.rest) (holds : r.Holds max hands c) :
    Taken max hands r c m c (.rest none) :=
  ⟨.void, step_eq, holds, rfl, rfl, rfl, Nat.add_le_add_right (Nat.zero_le _) _⟩

theorem Runtime.Holds.start {targets : List ShardTarget} {request : SearchRequest}
    (h : r.Holds max (.start targets request :: hands) c) :
    ∃ c' d, Taken max hands r c (.start targets request) c' d := by
  have hholds : r.Holds max hands c := h.releaseVoid (by simp [Move.task?]) (by simp [Move.probe?])
  cases hfault : startFault? targets request with
  | some fault =>
      refine ⟨_, _, .reject hfault, by simp [step, Coordinator.start, hfault, rest, perform],
        hholds.congr rfl rfl, rfl, rfl, rfl, ?_⟩
      exact Nat.add_le_add_right (Nat.zero_le _) _
  | none =>
      let opened := (c.logAll [.startSpan targets.length request.sort.isSome,
        .phaseSpan c.phases.size targets.length (request.sort.map (·.field)),
        .phaseStarted c.phases.size]).openPhase targets request
      have hphase : opened.phases[c.phases.size]? = some (.ofTargets targets request) :=
        Array.getElem?_push_size
      have hunfinished : opened.unfinished = c.unfinished + 1 := by
        simp [opened, unfinished, openPhase, logAll, Phase.ofTargets]
      refine ⟨_, _, .start hfault, step_start hfault, hholds.congr rfl rfl, rfl, rfl, ?_, ?_⟩
      · split <;> rfl
      · change _ + opened.unfinished ≤ _
        split
        · simp only [Duty.work, Caller.work, Move.work, hunfinished]
          omega
        · simp only [Duty.work, shardsFrom, Move.work, hunfinished]
          change 2 * (((opened.phases[c.phases.size]?.map _).getD 0) - 0) + _ ≤ _
          simp only [hphase, Option.map_some, Option.getD_some, Phase.ofTargets, List.size_toArray]
          omega

/-- Moves that do not return from a call are made by those who hold what they use. -/
theorem Runtime.Holds.take (h : r.Holds max (m :: hands) c) (sound : c.Sound (.rest call))
    (fresh : m.returns = false) : ∃ c' d, Taken max hands r c m c' d := by
  cases m with
  | start targets request => exact h.start
  | run task =>
      rcases c.takeTask?_cases task with hn | ⟨d, hd, hp, ht⟩
      · have hholds := h.releaseVoid (by simp [Move.task?, hn]) (by simp [Move.probe?])
        exact ⟨_, _, .void (by simp [step, hn]) hholds⟩
      · refine ⟨_, _, .run hd hp, by simp [step, ht, perform], h.releaseTask rfl rfl, rfl,
          Array.size_modify, rfl, ?_⟩
        simp only [Duty.work, Move.work, hd, Option.map_some, Option.getD_some]
        exact Nat.le_refl _
  | discard task =>
      rcases c.takeTask?_cases task with hn | ⟨d, hd, hp, ht⟩
      · have hholds := h.releaseVoid (by simp [Move.task?, hn]) (by simp [Move.probe?])
        exact ⟨_, _, .void (by simp [step, hn]) hholds⟩
      · obtain ⟨target, htarget⟩ := sound.grounded.tasks hd
        refine ⟨_, _, .discard hd hp htarget, step_discard hd hp htarget,
          (h.releaseTask rfl rfl).congr rfl rfl, rfl, Array.size_modify, rfl, ?_⟩
        exact Nat.le_refl _
  | answer probe result =>
      rcases c.takeListener?_cases probe with hn | ⟨p, hp, hu, ht⟩
      · have hholds := h.releaseVoid (by simp [Move.task?]) (by simp [Move.probe?, hn])
        exact ⟨_, _, .void (by simp [step, hn]) hholds⟩
      · cases result with
        | ok response =>
            refine ⟨_, _, .answer hp hu, step_answer hp hu, h.releaseListener rfl rfl, rfl, rfl, rfl, ?_⟩
            exact Nat.add_le_add_right (Nat.zero_le _) _
        | error error =>
            refine ⟨_, _, .answerError hp hu, step_answerError hp hu, h.releaseListener rfl rfl, rfl,
              rfl, rfl, ?_⟩
            simp only [Duty.work, Move.work, hp, Option.map_some, Option.getD_some]
            exact Nat.le_refl _
  | abandon probe =>
      rcases c.takeListener?_cases probe with hn | ⟨p, hp, hu, ht⟩
      · have hholds := h.releaseVoid (by simp [Move.task?]) (by simp [Move.probe?, hn])
        exact ⟨_, _, .void (by simp [step, hn]) hholds⟩
      · refine ⟨_, _, .abandon hp hu, by simp [step, ht, settle, perform],
          (h.releaseListener rfl rfl).congr rfl rfl, rfl, rfl, rfl, ?_⟩
        simp only [Duty.work, Move.work, hp, Option.map_some, Option.getD_some]
        exact Nat.le_refl _
  | _ => cases fresh

theorem Runtime.launch_alive {probe : Nat} {connection : Connection} {request : ProbeRequest} :
    (r.launch b probe connection request).carrier.alive = r.carrier.alive := by
  simp only [launch, Carrier.send]
  split <;> rfl

theorem Runtime.Holds.launch {probe : Nat} {connection : Connection} {request : ProbeRequest}
    (h : r.Holds max (.abandon probe :: hands) c) (b : Backend σ) (alive : r.carrier.alive = true) :
    (r.launch b probe connection request).Holds max hands c where
  pool := h.pool
  carrier := by
    intro hdead
    rw [Runtime.launch_alive, alive] at hdead
    cases hdead
  tasks := by
    intro task phase slot hpending
    refine (h.tasks task phase slot hpending).imp_right ?_
    rintro ⟨m, hm, htask⟩
    rcases List.mem_cons.mp hm with rfl | hm
    · cases htask
    · exact ⟨m, hm, htask⟩
  listeners := by
    intro other a hunresolved
    obtain ⟨g, hflights, hg⟩ : ∃ g : Flight (Connection × ProbeRequest),
        (r.launch b probe connection request).carrier.flights = r.carrier.flights ++ [g] ∧
          g.id = probe := by
      simp only [Runtime.launch, Carrier.send, alive, if_true]
      exact ⟨_, rfl, rfl⟩
    rw [hflights]
    rcases h.listeners other a hunresolved with ⟨f, hf, hid⟩ | ⟨m, hm, hprobe⟩
    · exact .inl ⟨f, List.mem_append_left _ hf, hid⟩
    · rcases List.mem_cons.mp hm with rfl | hm
      · exact .inl ⟨g, List.mem_append_right _ (List.mem_singleton_self g),
          hg.trans (Option.some.inj hprobe)⟩
      · exact .inr ⟨m, hm, hprobe⟩

/-- The runtime once a task has been submitted. -/
def Runtime.submit (r : Runtime σ) : Runtime σ := { r with pool := (r.pool.submit false).1 }

theorem Runtime.size_submit : r.submit.pool.stages.size = r.pool.stages.size + 1 := by
  have hstages := @Pool.submit_stages r.pool false
  simp [submit, hstages]

theorem Runtime.queuedTasks_submit : r.submit.pool.queuedTasks = r.pool.queuedTasks ++
    if (r.pool.submit false).2.stage.isQueued then [r.pool.stages.size] else [] :=
  Pool.queuedTasks_push Pool.submit_stages

theorem Runtime.Holds.submit (h : r.Holds max hands c) : r.submit.Holds max hands c where
  pool := h.pool.submit
  carrier := h.carrier
  tasks task phase slot hpending := by
    rw [Runtime.queuedTasks_submit]
    exact (h.tasks task phase slot hpending).imp_left (List.mem_append_left _)
  listeners := h.listeners

theorem Runtime.Holds.queue (h : r.Holds max (.discard r.pool.stages.size :: hands) c)
    (queued : (r.pool.submit false).2 = .queued) : r.submit.Holds max hands c where
  pool := h.pool.submit
  carrier := h.carrier
  tasks task phase slot hpending := by
    rw [Runtime.queuedTasks_submit, queued]
    rcases h.tasks task phase slot hpending with hqueued | ⟨m, hm, htask⟩
    · exact .inl (List.mem_append_left _ hqueued)
    · rcases List.mem_cons.mp hm with rfl | hm
      · obtain rfl := Option.some.inj htask
        exact .inl (List.mem_append_right _ (List.mem_singleton_self _))
      · exact .inr ⟨m, hm, htask⟩
  listeners := by
    intro probe a hunresolved
    refine (h.listeners probe a hunresolved).imp_right ?_
    rintro ⟨m, hm, hprobe⟩
    rcases List.mem_cons.mp hm with rfl | hm
    · cases hprobe
    · exact ⟨m, hm, hprobe⟩

/-- Whatever is left to do, the exchange comes to an end within so many moves. -/
def Backend.Closes (b : Backend σ) (max : Nat) (hands : List Move) (n : Nat) : Prop :=
  ∀ {stack : List Frame} {r : Runtime σ} {c : Coordinator} {d : Duty}, c.Sound d →
    Engaged max hands stack n r c d →
      Comes b.reply r (c.perform d) (Aftermath max hands stack n r c)

namespace Backend.Closes

variable (ih : ∀ k < n, b.Closes max hands k)

include ih

theorem take (sound : c.Sound (.rest call)) (h : r.Holds max (m :: hands) c)
    (fresh : m.returns = false) (size_eq : c.tasks.size = r.pool.stages.size)
    (work_lt : m.work c + c.unfinished < n) :
    Comes b.reply r (c.step m) fun used =>
      Aftermath max hands c.stack (m.work c + c.unfinished + 1) r c (used + 1) := by
  obtain ⟨c', d, taken⟩ := h.take sound fresh
  have hwork := taken.work_le
  have hengaged : Engaged max hands c.stack (m.work c + c.unfinished) r c' d := by
    refine ⟨?_, ?_, (Duty.numbered_iff taken.call?_eq_none).mpr (taken.size_eq.trans size_eq), hwork⟩
    · rw [Duty.hands, taken.call?_eq_none]
      exact taken.holds
    · rw [taken.call?_eq_none]
      exact taken.stack_eq
  rw [taken.step_eq]
  refine (ih _ work_lt (sound.intake taken.intake) hengaged).mono fun used r' c' h => ?_
  have hused := h.used_le
  exact h.of taken.intake.extends rfl rfl (by omega)

theorem resume (sound : c.Sound (.rest call)) (h : r.Holds max hands c)
    (size_eq : c.tasks.size = r.pool.stages.size) (hi : Intake c m c' d)
    (step_eq : c.step m = c'.perform d) (tasks : c'.tasks = c.tasks)
    (probes : c'.probes = c.probes) (stack_eq : c'.stack = stack) (silent : d.call? = none)
    (work_lt : d.work c' + c'.unfinished < n) :
    Comes b.reply r (c.step m) fun used =>
      Aftermath max hands stack (d.work c' + c'.unfinished + 1) r c (used + 1) := by
  have hengaged : Engaged max hands stack (d.work c' + c'.unfinished) r c' d := by
    refine ⟨?_, ?_, (Duty.numbered_iff silent).mpr ((congrArg _ tasks).trans size_eq), Nat.le_refl _⟩
    · rw [Duty.hands, silent]
      exact h.congr tasks probes
    · rw [silent]
      exact stack_eq
  rw [step_eq]
  refine (ih _ work_lt (sound.intake hi) hengaged).mono fun used r' c' h => ?_
  have hused := h.used_le
  exact h.of hi.extends rfl rfl (by omega)

theorem delivering {phase : Nat} {caller : Caller}
    (sound : c.Sound (.rest (some (.delivering phase caller))))
    (h : Engaged max hands stack n r c (.rest (some (.delivering phase caller)))) :
    Comes b.reply r { coordinator := c, call := some (.delivering phase caller) }
      (Aftermath max hands stack n r c) := by
  have top : c.stack = .delivering phase caller :: stack := h.stack_eq
  have hwork : caller.work c phase + 1 + c.unfinished ≤ n := h.work_le
  have hstep : c.step .returned = ({ c with stack } : Coordinator).perform (caller.duty phase) := by
    simp [step, top, resume_eq_perform]
  have hreply : b.reply r c (.delivering phase caller) = (r, [.returned]) := rfl
  have hlt : (caller.duty phase).work c + c.unfinished < n := by
    rw [Caller.work_duty]
    omega
  refine .call hreply (.one ?_)
  exact (resume ih sound h.holds h.numbered (.returned top) hstep rfl rfl rfl
    (Caller.call?_duty _ _) hlt).mono fun _ _ _ h => h.le hlt

theorem connecting {a : Attempt} (sound : c.Sound (.rest (some (.connecting a))))
    (h : Engaged max hands stack n r c (.rest (some (.connecting a)))) :
    Comes b.reply r { coordinator := c, call := some (.connecting a) }
      (Aftermath max hands stack n r c) := by
  have top : c.stack = .connecting a :: stack := h.stack_eq
  have hwork : 3 * c.copiesFrom a + c.unfinished ≤ n := h.work_le
  obtain ⟨target, node, hdest⟩ : Frame.Supported c (.connecting a) :=
    sound.grounded.frames (top ▸ List.mem_cons_self)
  have hcopies := copiesFrom_of_destination? hdest
  cases hresolve : b.directory.resolve target.cluster node with
  | ok connection =>
      have hreply : b.reply r c (.connecting a) = (r, [.connected connection]) := by
        simp [reply, hdest, hresolve]
      have hstep : c.step (.connected connection) =
          ({ c with stack } : Coordinator).perform (.send a connection) := by
        simp [step, top, perform]
      have hlt : 3 * c.copiesFrom a.next + 2 + c.unfinished < n := by omega
      refine .call hreply (.one ?_)
      exact (resume ih sound h.holds h.numbered (.connected top) hstep rfl rfl rfl rfl hlt).mono
        fun _ _ _ h => h.le hlt
  | error error =>
      have hreply : b.reply r c (.connecting a) = (r, [.unreachable error]) := by
        simp [reply, hdest, hresolve]
      have hpopped : ({ c with stack } : Coordinator).destination? a = some (target, node) := hdest
      have hstep : c.step (.unreachable error) = (({ c with stack } : Coordinator).emit
          (.resolved a target.cluster node false)).perform (.fail a error) := by
        simp [step, top, unreachable, hpopped, perform]
      have hlt : 3 * c.copiesFrom a.next + c.unfinished < n := by omega
      refine .call hreply (.one ?_)
      exact (resume ih sound h.holds h.numbered (.unreachable top hdest) hstep rfl rfl rfl rfl
        hlt).mono fun _ _ _ h => h.le hlt

theorem sending {probe : Nat} (sound : c.Sound (.rest (some (.sending probe))))
    (h : Engaged max hands stack n r c (.rest (some (.sending probe)))) :
    Comes b.reply r { coordinator := c, call := some (.sending probe) }
      (Aftermath max hands stack n r c) := by
  have top : c.stack = .sending probe :: stack := h.stack_eq
  obtain ⟨p, hp⟩ : Frame.Supported c (.sending probe) :=
    sound.grounded.frames (top ▸ List.mem_cons_self)
  have hwork : 3 * c.copiesFrom p.attempt.next + 2 + c.unfinished ≤ n := by
    have hle := h.work_le
    simpa only [Duty.work, Option.map_some, Option.getD_some, Frame.work, hp] using hle
  have hstep {c : Coordinator} (top : c.stack = .sending probe :: stack) :
      c.step .sent = ({ c with stack } : Coordinator).perform (.rest none) := by
    simp [step, top, perform, Coordinator.rest]
  cases halive : r.carrier.alive with
  | true =>
      have hreply : b.reply r c (.sending probe) = (r.launch b probe p.connection p.request, [.sent]) := by
        simp [reply, hp, Carrier.send, halive, Runtime.launch]
      have hlt : 0 + c.unfinished < n := by omega
      refine .call hreply (.one ?_)
      refine (resume ih sound (h.holds.launch b halive) h.numbered (.sent top) (hstep top) rfl rfl rfl
        rfl hlt).mono fun _ _ _ h => (h.le hlt).of (.refl c) rfl ?_ (h.le hlt).used_le
      exact Runtime.launch_alive
  | false =>
      have hreply : b.reply r c (.sending probe) = (r, [.abandon probe, .sent]) := by
        simp [reply, hp, Carrier.send, halive]
      have hmove : Move.work c (.abandon probe) = 3 * c.copiesFrom p.attempt.next := by
        simp [Move.work, hp]
      refine .call hreply (.cons ?_)
      refine (take ih sound h.holds rfl h.numbered (by omega)).mono fun used r₁ c₁ h₁ => .one ?_
      have hused := h₁.used_le
      have top₁ : c₁.stack = .sending probe :: stack := h₁.stack_eq.trans top
      have hlt : 0 + c₁.unfinished < n := by omega
      refine (resume ih h₁.sound h₁.holds h₁.size_eq (.sent top₁) (hstep top₁) rfl rfl rfl rfl
        hlt).mono fun used' r' c' h => h.of h₁.extend h₁.pool_alive h₁.carrier_alive ?_
      have hused' : used' + 1 + c'.unfinished ≤ 0 + c₁.unfinished + 1 := h.used_le
      omega

theorem answered {task : Nat} {e : Dispatch} (sound : c.Sound (.rest call))
    (h : r.Holds max hands c) (size_eq : c.tasks.size = r.pool.stages.size)
    (top : c.stack = .submitting task :: stack) (found : c.tasks[task]? = some e)
    (verdict : m = .accepted ∨ ∃ error, m = .refused error)
    (work_lt : 2 * c.shardsFrom e.phase (e.slot + 1) + c.unfinished < n) :
    Comes b.reply r (c.step m) fun used => Aftermath max hands stack
      (2 * c.shardsFrom e.phase (e.slot + 1) + c.unfinished + 1) r c (used + 1) := by
  rcases verdict with rfl | ⟨error, rfl⟩
  · have hstep : c.step .accepted =
        ({ c with stack } : Coordinator).perform (.submit e.phase (e.slot + 1)) := by
      simp [step, top, found, perform]
    exact resume ih sound h size_eq (.accepted top found) hstep rfl rfl rfl rfl work_lt
  · obtain ⟨target, htarget⟩ := sound.grounded.tasks found
    have hpopped : ({ c with stack } : Coordinator).target? e.phase e.slot = some target := htarget
    have hstep : c.step (.refused error) = (({ c with stack } : Coordinator).log
        (.dispatchRefused e.phase e.slot target error)).perform
          (.finish ⟨e.phase, e.slot, 0⟩ .failure (.start (e.slot + 1))) := by
      simp [step, top, found, refuse, hpopped, perform]
    exact resume ih sound h size_eq (.refused top found htarget) hstep rfl rfl rfl rfl work_lt

theorem turnedAway {e : Dispatch} (sound : c.Sound (.rest call))
    (h : r.Holds max (.discard r.pool.stages.size :: hands) c)
    (size_eq : c.tasks.size = r.pool.stages.size + 1)
    (top : c.stack = .submitting r.pool.stages.size :: stack)
    (found : c.tasks[r.pool.stages.size]? = some e)
    (verdict : m = .accepted ∨ ∃ error, m = .refused error)
    (work_le : 2 * c.shardsFrom e.phase (e.slot + 1) + 2 + c.unfinished ≤ n) :
    Plays b.reply r.submit c [.discard r.pool.stages.size, m] (Aftermath max hands stack n r c) := by
  have hsize : c.tasks.size = r.submit.pool.stages.size := size_eq.trans Runtime.size_submit.symm
  have hlt : Move.work c (.discard r.pool.stages.size) + c.unfinished < n := by
    change 0 + c.unfinished < n
    omega
  refine .cons ((take ih sound h.submit rfl hsize hlt).mono fun used r₁ c₁ h₁ => .one ?_)
  have hused : used + 1 + c₁.unfinished ≤ 0 + c.unfinished + 1 := h₁.used_le
  obtain ⟨e₁, he₁, hphase, hslot⟩ := h₁.extend.tasks found
  obtain ⟨target, htarget⟩ := sound.grounded.tasks found
  obtain ⟨p, hp, -⟩ := exists_phase_of_target? htarget
  have hshards : c₁.shardsFrom e₁.phase (e₁.slot + 1) = c.shardsFrom e.phase (e.slot + 1) := by
    rw [hphase, hslot]
    exact h₁.extend.shardsFrom_eq hp _
  refine (answered ih h₁.sound h₁.holds h₁.size_eq (h₁.stack_eq.trans top) he₁ verdict
    (by omega)).mono fun used' r' c' h => h.of h₁.extend (h₁.pool_alive.trans ?_) h₁.carrier_alive ?_
  · exact Pool.submit_alive
  · have hused' := h.used_le
    omega

theorem submitting {task : Nat} (sound : c.Sound (.rest (some (.submitting task))))
    (h : Engaged max hands stack n r c (.rest (some (.submitting task)))) :
    Comes b.reply r { coordinator := c, call := some (.submitting task) }
      (Aftermath max hands stack n r c) := by
  have top : c.stack = .submitting task :: stack := h.stack_eq
  have hholds : r.Holds max (.discard task :: hands) c := h.holds
  obtain ⟨rfl, hsize⟩ := h.numbered
  obtain ⟨e, he⟩ : Frame.Supported c (.submitting r.pool.stages.size) :=
    sound.grounded.frames (top ▸ List.mem_cons_self)
  obtain ⟨target, htarget⟩ := sound.grounded.tasks he
  have hwork : 2 * c.shardsFrom e.phase (e.slot + 1) + 2 + c.unfinished ≤ n := by
    have hle := h.work_le
    simp only [Duty.work, Option.map_some, Option.getD_some, Frame.work, he,
      shardsFrom_of_target? htarget] at hle
    omega
  have hreply : b.reply r c (.submitting r.pool.stages.size) =
      (r.submit, (r.pool.submit false).2.moves r.pool.stages.size) := rfl
  refine .call hreply ?_
  cases hverdict : (r.pool.submit false).2 with
  | queued =>
      refine .one ((answered ih sound (hholds.queue hverdict) (hsize.trans Runtime.size_submit.symm) top
        he (.inl rfl) (by omega)).mono fun used r' c' h => h.of (.refl c) Pool.submit_alive rfl ?_)
      have hused := h.used_le
      omega
  | dropped => exact turnedAway ih sound hholds hsize top he (.inl rfl) hwork
  | refused error => exact turnedAway ih sound hholds hsize top he (.inr ⟨error, rfl⟩) hwork

end Backend.Closes

theorem Backend.closes (b : Backend σ) (max : Nat) (hands : List Move) (n : Nat) :
    b.Closes max hands n := by
  induction n using Nat.strongRecOn with
  | ind n ih =>
      intro stack r c d sound h
      have hengaged : Engaged max hands stack n r (c.perform d).coordinator
          (.rest (c.perform d).call) :=
        sound.perform_induction (fun sound h hp => h.progress sound hp) h
      have hsound : (c.perform d).coordinator.Sound (.rest (c.perform d).call) :=
        sound.perform_induction (fun hs _ hp => hs.progress hp) sound
      refine Comes.mono (P := Aftermath max hands stack n r (c.perform d).coordinator) ?_
        fun _ _ _ h => h.of sound.extends_perform rfl rfl h.used_le
      generalize c.perform d = t at hengaged hsound
      obtain ⟨c, call⟩ := t
      rcases call with _ | ⟨task | a | probe | ⟨phase, caller⟩⟩
      · exact .rest ⟨hsound, .refl c, hengaged.holds, hengaged.stack_eq, hengaged.numbered,
          hengaged.work_le, rfl, rfl⟩
      · exact Closes.submitting ih hsound hengaged
      · exact Closes.connecting ih hsound hengaged
      · exact Closes.sending ih hsound hengaged
      · exact Closes.delivering ih hsound hengaged

/-- Once a move has been answered in full, no call is open that was not before, and the tasks and
listeners that are still to be used are in place again. -/
theorem Runtime.Holds.move {s : Stack σ} (h : s.runtime.Holds max (m :: hands) s.coordinator)
    (sound : s.coordinator.Sound (.rest call)) (fresh : m.returns = false)
    (size_eq : s.coordinator.tasks.size = s.runtime.pool.stages.size) (b : Backend σ) :
    ∃ n used, Aftermath max hands s.coordinator.stack n s.runtime s.coordinator used
      (s.move b m).runtime (s.move b m).coordinator := by
  have hbudget := sound.work_lt_moveBudget m
  have hcomes := Backend.Closes.take (fun k _ => b.closes max hands k) sound h fresh size_eq
    (Nat.lt_succ_self _)
  obtain ⟨used, hafter⟩ := (Plays.one hcomes).exists_of_le fun n _ _ hafter =>
    Nat.le_trans (Nat.le_trans (Nat.le_add_right n _) hafter.used_le) hbudget
  exact ⟨_, used, hafter⟩

end Prefilter
