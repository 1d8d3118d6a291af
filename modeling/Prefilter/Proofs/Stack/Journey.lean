import Prefilter.Proofs.Phase.Environment
import Prefilter.Proofs.Probe.Landing
import Prefilter.Proofs.Stack.Handover

/-!
The way of a phase from its start to its result, over a stack whose backend finds every copy and
answers every probe alike whenever it is asked. Of every shard that the pool took, one probe is under
way at any time, and each probe that resolves brings its shard on to the next copy or to its outcome.
-/

namespace Prefilter

open Coordinator Backend

namespace Course

/-- How long a probe takes. -/
def span (x : Course) : Nat := (Carrier.duration x.timeout x.delay).1

/-- Whether every probe runs into the limit. -/
def late (x : Course) : Bool := (Carrier.duration x.timeout x.delay).2

def probeRequest (x : Course) (target : ShardTarget) (node : NodeId) : ProbeRequest :=
  (Phase.ofTargets x.targets x.request).probeRequest target node

theorem probeRequest_eq {x : Course} {p : Phase} (targets : p.targets = x.targets.toArray)
    (request : p.request = x.request) (target : ShardTarget) (node : NodeId) :
    p.probeRequest target node = x.probeRequest target node := by
  simp [Course.probeRequest, Phase.probeRequest, Phase.ofTargets, targets, request]

end Course

variable {σ : Type}

/-- The backend finds all copies of the shards of a phase, and its probes all take as long and come to
what an environment says. -/
structure Backend.Steady (b : Backend σ) (x : Course) (env : Environment) : Prop where
  delay_eq : ∀ connection request, b.delay connection request = x.delay
  fate_eq : ∀ i, env.fate i = if i < x.room then .run else .refused
  allocated : ∀ target ∈ x.targets, target.copies ≠ []
  resolves : ∀ target ∈ x.targets, ∀ node ∈ target.copies,
    ∃ connection, b.directory.resolve target.cluster node = .ok connection
  late : x.late = true → ∀ i target j, x.targets[i]? = some target → env.answer? target i j = none
  answers : x.late = false → ∀ i target j node connection state, x.targets[i]? = some target →
    target.copies[j]? = some node → b.directory.resolve target.cluster node = .ok connection →
    ∃ result, (b.answer state connection (x.probeRequest target node)).2 = some result ∧
      env.answer? target i j = result.toOption

/-- A probe of a copy of a shard is under way, and all copies before that one have failed. -/
structure Aloft (b : Backend σ) (x : Course) (env : Environment) (c : Coordinator)
    (f : Flight (Connection × ProbeRequest)) (i j : Nat) : Prop where
  probe : c.probes[f.id]? =
    some { attempt := ⟨x.phase, i, j⟩, connection := f.load.1, request := f.load.2 }
  slot : c.slot? x.phase i = some { cursor := .copy j }
  room : i < x.room
  bound : ∃ target node, x.targets[i]? = some target ∧ target.copies[j]? = some node ∧
    b.directory.resolve target.cluster node = .ok f.load.1 ∧ f.load.2 = x.probeRequest target node ∧
    ∀ l < j, env.answer? target i l = none
  due_le : f.due ≤ x.began + (j + 1) * x.span
  late_eq : f.late = x.late

namespace Course

/-- The outcome of a shard is on record. -/
def IsSettled (x : Course) (env : Environment) (c : Coordinator) (i : Nat) : Prop :=
  ∃ target, x.targets[i]? = some target ∧
    c.slot? x.phase i = some { cursor := .done, outcome := some (env.outcome target i) }

/-- Control is with the collaborators, and the tasks from some shard on are still to be polled. -/
structure AtRest (x : Course) (n : Nat) (s : Stack σ) : Prop where
  reached : ∃ moves, Reachable x.policy moves s.coordinator
  opened : x.IsOpen s.coordinator
  returned : s.coordinator.stack = []
  pool : s.runtime.pool.Ready x.permits x.room
    (List.range' (x.firstTask + n) (min x.targets.length x.room - n))
  size_eq : s.runtime.pool.stages.size = s.coordinator.tasks.size
  alive : s.runtime.carrier.alive = true
  limit : s.runtime.carrier.limit = x.timeout

end Course

/-- Where the shards of a phase stand once so many of its tasks have been polled. -/
structure Underway (b : Backend σ) (x : Course) (env : Environment) (n : Nat) (s : Stack σ) : Prop
    extends x.AtRest n s where
  clock : ∀ f ∈ s.runtime.carrier.flights, s.runtime.carrier.now ≤ f.due
  waiting : ∀ i < x.targets.length, n ≤ i → i < x.room →
    s.coordinator.tasks[x.firstTask + i]? = some { phase := x.phase, slot := i } ∧
      s.coordinator.slot? x.phase i = some {}
  flight : ∀ f ∈ s.runtime.carrier.flights, ∃ i j, i < n ∧ Aloft b x env s.coordinator f i j
  apart : ∀ f ∈ s.runtime.carrier.flights, ∀ g ∈ s.runtime.carrier.flights, ∀ i j l,
    Aloft b x env s.coordinator f i j → Aloft b x env s.coordinator g i l → f.id = g.id
  shard : ∀ i < x.targets.length, (n ≤ i ∧ i < x.room) ∨
    (∃ f ∈ s.runtime.carrier.flights, ∃ j, Aloft b x env s.coordinator f i j) ∨
    x.IsSettled env s.coordinator i

variable {b : Backend σ} {x : Course} {env : Environment} {s s' : Stack σ} {c c' : Coordinator}
  {f : Flight (Connection × ProbeRequest)} {i j n : Nat}

namespace Aloft

theorem unique {i' j' : Nat} (h : Aloft b x env c f i j) (h' : Aloft b x env c f i' j') :
    i = i' ∧ j = j' := by
  have heq := Option.some.inj (h.probe.symm.trans h'.probe)
  simpa using congrArg Probe.attempt heq

theorem answer?_eq_none {target : ShardTarget} (h : Aloft b x env c f i j)
    (listed : x.targets[i]? = some target) (verdict : env.answer? target i j = none) {l : Nat}
    (hl : l < j + 1) : env.answer? target i l = none := by
  obtain ⟨t, -, htarget, -, -, -, hbefore⟩ := h.bound
  obtain rfl := Option.some.inj (htarget.symm.trans listed)
  rcases Nat.lt_succ_iff_lt_or_eq.mp hl with hlt | rfl
  · exact hbefore l hlt
  · exact verdict

theorem keep (h : Aloft b x env c f i j) (probe : c'.probes[f.id]? = c.probes[f.id]?)
    (slot : c'.slot? x.phase i = c.slot? x.phase i) : Aloft b x env c' f i j where
  probe := probe.trans h.probe
  slot := slot.trans h.slot
  room := h.room
  bound := h.bound
  due_le := h.due_le
  late_eq := h.late_eq

end Aloft

/-- A change that concerns one shard only: what was under way for it is gone, and something new may be
under way for it instead. -/
theorem Underway.update {n' : Nat} (h : Underway b x env n s) (i : Nat)
    (new : Option (Flight (Connection × ProbeRequest))) (rest : x.AtRest n' s') (hn : n ≤ n')
    (next : ∀ l, n ≤ l → l ≠ i → n' ≤ l) (hi : i < n')
    (clock : ∀ f ∈ s'.runtime.carrier.flights, s'.runtime.carrier.now ≤ f.due)
    (tasks : ∀ l, n' ≤ l →
      s'.coordinator.tasks[x.firstTask + l]? = s.coordinator.tasks[x.firstTask + l]?)
    (slots : ∀ l ≠ i, s'.coordinator.slot? x.phase l = s.coordinator.slot? x.phase l)
    (probes : ∀ f ∈ s.runtime.carrier.flights, (∀ j, ¬ Aloft b x env s.coordinator f i j) →
      s'.coordinator.probes[f.id]? = s.coordinator.probes[f.id]?)
    (flights : ∀ f, f ∈ s'.runtime.carrier.flights ↔
      (f ∈ s.runtime.carrier.flights ∧ ∀ j, ¬ Aloft b x env s.coordinator f i j) ∨ f ∈ new)
    (aloft : ∀ f ∈ new, ∃ j, Aloft b x env s'.coordinator f i j)
    (settled : new = none → x.IsSettled env s'.coordinator i) : Underway b x env n' s' := by
  -- What is under way for another shard stays under way.
  have hkeep {g : Flight (Connection × ProbeRequest)} {l m : Nat} (hg : g ∈ s.runtime.carrier.flights)
      (hl : l ≠ i) (ha : Aloft b x env s.coordinator g l m) :
      g ∈ s'.runtime.carrier.flights ∧ Aloft b x env s'.coordinator g l m := by
    have hother : ∀ j, ¬ Aloft b x env s.coordinator g i j := fun j hj => hl (ha.unique hj).1
    exact ⟨(flights g).mpr (.inl ⟨hg, hother⟩), ha.keep (probes g hg hother) (slots l hl)⟩
  have hold {g : Flight (Connection × ProbeRequest)} (hg : g ∈ s.runtime.carrier.flights)
      (hother : ∀ j, ¬ Aloft b x env s.coordinator g i j) :
      ∃ l m, l < n ∧ l ≠ i ∧ Aloft b x env s.coordinator g l m ∧ Aloft b x env s'.coordinator g l m := by
    obtain ⟨l, m, hl, ha⟩ := h.flight g hg
    have hne : l ≠ i := fun heq => hother m (heq ▸ ha)
    exact ⟨l, m, hl, hne, ha, (hkeep hg hne ha).2⟩
  refine { toAtRest := rest, clock, waiting := ?_, flight := ?_, apart := ?_, shard := ?_ }
  · intro l hl hn' hroom
    obtain ⟨htask, hslot⟩ := h.waiting l hl (Nat.le_trans hn hn') hroom
    exact ⟨(tasks l hn').trans htask, (slots l (by omega)).trans hslot⟩
  · intro g hg
    rcases (flights g).mp hg with ⟨hmem, hother⟩ | hnew
    · obtain ⟨l, m, hl, -, -, ha⟩ := hold hmem hother
      exact ⟨l, m, Nat.lt_of_lt_of_le hl hn, ha⟩
    · obtain ⟨j, ha⟩ := aloft g hnew
      exact ⟨i, j, hi, ha⟩
  · intro g hg g' hg' l m m' ha ha'
    rcases (flights g).mp hg with ⟨hmem, hother⟩ | hnew <;>
      rcases (flights g').mp hg' with ⟨hmem', hother'⟩ | hnew'
    · obtain ⟨l₁, m₁, -, -, hb, hb'⟩ := hold hmem hother
      obtain ⟨l₂, m₂, -, -, hc, hc'⟩ := hold hmem' hother'
      obtain ⟨rfl, rfl⟩ := hb'.unique ha
      obtain ⟨rfl, rfl⟩ := hc'.unique ha'
      exact h.apart g hmem g' hmem' _ _ _ hb hc
    · obtain ⟨l₁, m₁, -, hne, -, hb'⟩ := hold hmem hother
      obtain ⟨j, hc⟩ := aloft g' hnew'
      exact absurd ((hb'.unique ha).1.trans (ha'.unique hc).1) hne
    · obtain ⟨l₁, m₁, -, hne, -, hb'⟩ := hold hmem' hother'
      obtain ⟨j, hc⟩ := aloft g hnew
      exact absurd ((hb'.unique ha').1.trans (ha.unique hc).1) hne
    · rw [Option.some.inj ((Option.mem_def.mp hnew).symm.trans hnew')]
  · intro l hl
    by_cases hli : l = i
    · subst hli
      cases hnew : new with
      | none => exact .inr (.inr (settled hnew))
      | some g =>
          obtain ⟨j, ha⟩ := aloft g hnew
          exact .inr (.inl ⟨g, (flights g).mpr (.inr hnew), j, ha⟩)
    · rcases h.shard l hl with ⟨hn', hroom⟩ | ⟨g, hg, m, ha⟩ | ⟨target, ht, hs⟩
      · exact .inl ⟨next l hn' hli, hroom⟩
      · obtain ⟨hg, ha⟩ := hkeep hg hli ha
        exact .inr (.inl ⟨g, hg, m, ha⟩)
      · exact .inr (.inr ⟨target, ht, (slots l hli).trans hs⟩)

theorem Course.reached_run {made : List Move} (reached : ∃ moves, Reachable x.policy moves c)
    (opened : x.IsOpen c) (run : Run (fun _ _ => True) c made c') :
    (∃ moves, Reachable x.policy moves c') ∧ x.IsOpen c' := by
  obtain ⟨moves, reached⟩ := reached
  obtain ⟨call, sound⟩ := reached.sound
  exact ⟨⟨_, reached.append run⟩, opened.extends (run.extends sound)⟩

/-- The flight of a probe that is sent now. -/
def Course.flight (x : Course) (now id : Nat) (connection : Connection) (request : ProbeRequest) :
    Flight (Connection × ProbeRequest) :=
  { id, load := (connection, request), due := now + x.span, late := x.late }

theorem Aloft.launched {target : ShardTarget} {node : NodeId} {connection : Connection} {now id : Nat}
    (size : c.probes.size = id) (slot : c.slot? x.phase i = some { cursor := .copy j })
    (room : i < x.room) (listed : x.targets[i]? = some target) (copy : target.copies[j]? = some node)
    (resolved : b.directory.resolve target.cluster node = .ok connection)
    (before : ∀ l < j, env.answer? target i l = none) (now_le : now ≤ x.began + j * x.span) :
    Aloft b x env (c.launched ⟨x.phase, i, j⟩ target node connection (x.probeRequest target node))
      (x.flight now id connection (x.probeRequest target node)) i j where
  probe := by
    rw [← size]
    exact Array.getElem?_push_size
  slot := slot
  room := room
  bound := ⟨target, node, listed, copy, resolved, rfl, before⟩
  due_le := by
    have hdue := Nat.add_le_add_right now_le x.span
    rwa [Nat.add_assoc, ← Nat.succ_mul] at hdue
  late_eq := rfl

theorem Runtime.launch_carrier {r : Runtime σ} {id : Nat} {connection : Connection}
    {request : ProbeRequest} (steady : b.Steady x env) (alive : r.carrier.alive = true)
    (limit : r.carrier.limit = x.timeout) :
    r.launch b id connection request =
      { r with carrier := { r.carrier with
          flights := r.carrier.flights ++ [x.flight r.carrier.now id connection request] } } := by
  simp [launch, Carrier.send, alive, limit, steady.delay_eq, Course.flight, Course.span, Course.late]

theorem Stack.exists_run_poll (b : Backend σ) (s : Stack σ) (t : Nat) :
    ∃ made, Run (fun _ _ => True) s.coordinator made (s.poll b t).coordinator := by
  rw [Stack.poll]
  split
  · rename_i pool _
    exact (s.setPool pool).exists_run_move b (.run t)
  · exact ⟨[], .nil⟩
  · rename_i pool _
    exact (s.setPool pool).exists_run_move b (.discard t)

theorem Underway.poll_eq (steady : b.Steady x env) (h : Underway b x env n s)
    (hn : n < x.targets.length) (room : n < x.room)
    (starts : (s.runtime.pool.turn.1.poll (x.firstTask + n)).2 = .starts) :
    ∃ target node connection, x.targets[n]? = some target ∧ target.copies[0]? = some node ∧
      b.directory.resolve target.cluster node = .ok connection ∧
      (s.setPool s.runtime.pool.turn.1).poll b (x.firstTask + n) =
        { runtime := { s.runtime with
            pool := (s.runtime.pool.turn.1.poll (x.firstTask + n)).1.finish (x.firstTask + n)
            carrier := { s.runtime.carrier with flights := s.runtime.carrier.flights ++
              [x.flight s.runtime.carrier.now s.coordinator.probes.size connection
                (x.probeRequest target node)] } }
          coordinator := (s.coordinator.useTask (x.firstTask + n)).launched ⟨x.phase, n, 0⟩ target node
            connection (x.probeRequest target node) } := by
  obtain ⟨htask, -⟩ := h.waiting n hn (Nat.le_refl n) room
  obtain ⟨p, hp, htargets, hrequest⟩ := h.opened
  have hlisted : x.targets[n]? = some x.targets[n] := List.getElem?_eq_getElem hn
  have hmem : x.targets[n] ∈ x.targets := List.getElem_mem hn
  obtain ⟨node, hcopy⟩ : ∃ node, x.targets[n].copies[0]? = some node :=
    ⟨_, List.getElem?_eq_getElem (List.length_pos_iff.mpr (steady.allocated _ hmem))⟩
  obtain ⟨connection, hresolved⟩ := steady.resolves _ hmem node (List.mem_of_getElem? hcopy)
  refine ⟨_, node, connection, hlisted, hcopy, hresolved, ?_⟩
  generalize hpolled : s.runtime.pool.turn.1.poll (x.firstTask + n) = polled at starts
  obtain ⟨pool, poll⟩ := polled
  obtain rfl : poll = .starts := starts
  let polled := s.setPool pool
  have halive : polled.runtime.carrier.alive = true := h.alive
  have hlimit : polled.runtime.carrier.limit = x.timeout := h.limit
  have hmove := Stack.move_run (b := b) (s := polled) halive htask hp
    (show p.targets[n]? = some x.targets[n] by simp [htargets, hlisted]) hcopy hresolved
  rw [Course.probeRequest_eq htargets hrequest, Runtime.launch_carrier steady halive hlimit] at hmove
  rw [Stack.poll]
  simp only [Stack.setPool, hpolled]
  exact congrArg (fun s => s.setPool (s.runtime.pool.finish (x.firstTask + n))) hmove

theorem Underway.poll (steady : b.Steady x env) (h : Underway b x env n s) (permits : 0 < x.permits)
    (hn : n < x.targets.length) (room : n < x.room) (now : s.runtime.carrier.now = x.began) :
    s.runtime.pool.turn.2 = some (x.firstTask + n) ∧
      Underway b x env (n + 1) ((s.setPool s.runtime.pool.turn.1).poll b (x.firstTask + n)) ∧
      ((s.setPool s.runtime.pool.turn.1).poll b (x.firstTask + n)).runtime.carrier.now = x.began ∧
      ∀ i, ((s.setPool s.runtime.pool.turn.1).poll b (x.firstTask + n)).coordinator.slot? x.phase i =
        s.coordinator.slot? x.phase i := by
  have hlist : List.range' (x.firstTask + n) (min x.targets.length x.room - n) =
      (x.firstTask + n) ::
        List.range' (x.firstTask + (n + 1)) (min x.targets.length x.room - (n + 1)) := by
    rw [show min x.targets.length x.room - n = min x.targets.length x.room - (n + 1) + 1 by omega,
      List.range'_succ, Nat.add_assoc]
  obtain ⟨hturn, hstarts, hready, hsize⟩ := (hlist ▸ h.pool).run permits
  obtain ⟨target, node, connection, hlisted, hcopy, hresolved, hpoll⟩ :=
    h.poll_eq steady hn room hstarts
  obtain ⟨made, hmade⟩ := (s.setPool s.runtime.pool.turn.1).exists_run_poll b (x.firstTask + n)
  rw [hpoll] at hmade ⊢
  obtain ⟨hreached, hopened⟩ := Course.reached_run h.reached h.opened hmade
  obtain ⟨-, hslot⟩ := h.waiting n hn (Nat.le_refl n) room
  let sent := x.flight s.runtime.carrier.now s.coordinator.probes.size connection
    (x.probeRequest target node)
  have hsent : Aloft b x env ((s.coordinator.useTask (x.firstTask + n)).launched ⟨x.phase, n, 0⟩ target
      node connection (x.probeRequest target node)) sent n 0 :=
    .launched rfl hslot room hlisted hcopy hresolved (fun l hl => absurd hl (Nat.not_lt_zero l))
      (by rw [now]; exact Nat.le_add_right _ _)
  -- Nothing was under way for this shard.
  have hnone {f : Flight (Connection × ProbeRequest)} (hf : f ∈ s.runtime.carrier.flights) (j : Nat) :
      ¬ Aloft b x env s.coordinator f n j := by
    intro ha
    obtain ⟨i, l, hi, ha'⟩ := h.flight f hf
    exact Nat.ne_of_lt hi (ha'.unique ha).1
  refine ⟨hturn, ?_, now, fun _ => rfl⟩
  refine h.update n (some sent) ?_ (Nat.le_succ n) (by omega) (Nat.lt_succ_self n) ?_ ?_
    (fun _ _ => rfl) ?_ ?_ ?_ nofun
  · exact ⟨hreached, hopened, h.returned, hready, by simpa [launched, useTask, emit, addProbe, hsize]
      using h.size_eq, h.alive, h.limit⟩
  · intro f hf
    rcases List.mem_append.mp hf with hold | hnew
    · exact h.clock f hold
    · obtain rfl := List.mem_singleton.mp hnew
      exact Nat.le_add_right _ _
  · intro l hl
    exact (Array.getElem?_modify ..).trans (if_neg (by omega))
  · intro f hf _
    obtain ⟨i, l, -, ha⟩ := h.flight f hf
    exact (getElem?_push_eq_some ha.probe).trans ha.probe.symm
  · intro f
    simp only [List.mem_append, List.mem_singleton, Option.mem_some]
    constructor
    · rintro (hold | hnew)
      · exact .inl ⟨hold, hnone hold⟩
      · exact .inr hnew.symm
    · rintro (⟨hold, -⟩ | hnew)
      · exact .inl hold
      · exact .inr hnew.symm
  · intro f hf
    obtain rfl := Option.mem_some.mp hf
    exact ⟨0, hsent⟩

/-- How many copies of a shard are left, the one that is being probed included. -/
def Course.leftAt (x : Course) (c : Coordinator) (i : Nat) : Nat :=
  match x.targets[i]?, (c.slot? x.phase i).map Slot.cursor with
  | some target, some (.copy j) => target.copies.length - j
  | _, _ => 0

def Course.left (x : Course) (c : Coordinator) : Nat :=
  ((List.range x.targets.length).map (x.leftAt c)).sum

theorem Course.leftAt_of_copy {target : ShardTarget} {cursor : Nat} {outcome : Option Outcome}
    (listed : x.targets[i]? = some target)
    (slot : c.slot? x.phase i = some { cursor := .copy cursor, outcome }) :
    x.leftAt c i = target.copies.length - cursor := by
  simp [leftAt, listed, slot]

/-- Where a shard goes from one of its copies: on to the next one, or away once it has its outcome. -/
def Environment.after (env : Environment) (target : ShardTarget) (slot copy : Nat) : Cursor :=
  if (env.answer? target slot copy).isNone ∧ copy + 1 < target.copies.length then .copy (copy + 1)
  else .done

/-- One shard has gone somewhere else, and all others are where they were. -/
structure Course.Shifts (x : Course) (i : Nat) (cursor : Cursor) (c c' : Coordinator) : Prop where
  shard : (c'.slot? x.phase i).map Slot.cursor = some cursor
  others : ∀ l ≠ i, c'.slot? x.phase l = c.slot? x.phase l

theorem Course.Shifts.left_lt {target : ShardTarget} {node : NodeId}
    (h : x.Shifts i (env.after target i j) c c') (listed : x.targets[i]? = some target)
    (copy : target.copies[j]? = some node) (slot : c.slot? x.phase i = some { cursor := .copy j }) :
    x.left c' < x.left c := by
  have hcopy := (List.getElem?_eq_some_iff.mp copy).1
  have hless : x.leftAt c' i < x.leftAt c i := by
    rw [leftAt_of_copy listed slot, leftAt, listed, h.shard, Environment.after]
    split_ifs <;> simp only <;> omega
  apply List.sum_lt_sum
  · intro l hl
    by_cases hli : l = i
    · subst hli
      exact Nat.le_of_lt hless
    · rw [leftAt, h.others l hli, leftAt]
  · exact ⟨i, List.mem_range.mpr (List.getElem?_eq_some_iff.mp listed).1, hless⟩

/-- The stack as a flight lands. -/
def Stack.landed (s : Stack σ) (f : Flight (Connection × ProbeRequest)) (backend : σ) : Stack σ :=
  { s with runtime := { s.runtime with
      backend
      carrier := { s.runtime.carrier with
        now := f.due
        flights := s.runtime.carrier.flights.filter (·.id != f.id) } } }

theorem Underway.not_aloft_iff (h : Underway b x env n s) (hf : f ∈ s.runtime.carrier.flights)
    (ha : Aloft b x env s.coordinator f i j) {g : Flight (Connection × ProbeRequest)}
    (hg : g ∈ s.runtime.carrier.flights) :
    (∀ l, ¬ Aloft b x env s.coordinator g i l) ↔ g.id ≠ f.id := by
  constructor
  · intro hnone heq
    obtain ⟨l, m, -, ha'⟩ := h.flight g hg
    have hprobe := Option.some.inj (ha'.probe.symm.trans (heq ▸ ha.probe))
    obtain rfl : l = i := by simpa using congrArg (·.attempt.slot) hprobe
    exact hnone m ha'
  · intro hne l ha'
    exact hne (h.apart g hg f hf i l j ha' ha)

/-- A flight lands, and its shard gets its outcome or another flight. -/
theorem Underway.land (h : Underway b x env n s) (backend : σ) (hf : f ∈ s.runtime.carrier.flights)
    (first : ∀ g ∈ s.runtime.carrier.flights, f.due ≤ g.due) (ha : Aloft b x env s.coordinator f i j)
    (new : Option (Flight (Connection × ProbeRequest)))
    (runtime : s'.runtime = { (s.landed f backend).runtime with
      carrier := { (s.landed f backend).runtime.carrier with
        flights := (s.landed f backend).runtime.carrier.flights ++ new.toList } })
    (reached : ∃ moves, Reachable x.policy moves s'.coordinator) (opened : x.IsOpen s'.coordinator)
    (returned : s'.coordinator.stack = []) (tasks : s'.coordinator.tasks = s.coordinator.tasks)
    (probes : ∀ q p, s.coordinator.probes[q]? = some p → q ≠ f.id →
      s'.coordinator.probes[q]? = some p)
    (slots : ∀ l ≠ i, s'.coordinator.slot? x.phase l = s.coordinator.slot? x.phase l)
    (aloft : ∀ g ∈ new, f.due ≤ g.due ∧ ∃ l, Aloft b x env s'.coordinator g i l)
    (settled : new = none → x.IsSettled env s'.coordinator i) : Underway b x env n s' := by
  have hi : i < n := by
    obtain ⟨l, m, hl, ha'⟩ := h.flight f hf
    exact (ha'.unique ha).1 ▸ hl
  refine h.update i new ?_ (Nat.le_refl n) (fun l hl _ => hl) hi ?_ (fun l _ => by rw [tasks]) slots
    ?_ ?_ (fun g hg => (aloft g hg).2) settled
  · refine ⟨reached, opened, returned, ?_, ?_, ?_, ?_⟩
    · rw [runtime]
      exact h.pool
    · rw [runtime, tasks]
      exact h.size_eq
    · rw [runtime]
      exact h.alive
    · rw [runtime]
      exact h.limit
  · intro g hg
    rw [runtime] at hg ⊢
    rcases List.mem_append.mp hg with hold | hnew
    · exact first g (List.mem_filter.mp hold).1
    · exact (aloft g (by simpa using hnew)).1
  · intro g hg hother
    obtain ⟨l, m, -, ha'⟩ := h.flight g hg
    exact (probes g.id _ ha'.probe ((h.not_aloft_iff hf ha hg).mp hother)).trans ha'.probe.symm
  · intro g
    rw [runtime]
    simp only [Stack.landed, List.mem_append, List.mem_filter, bne_iff_ne, Option.mem_toList]
    refine or_congr_left (and_congr_right fun hg => ?_)
    exact (h.not_aloft_iff hf ha hg).symm

theorem Underway.settle {target : ShardTarget} (h : Underway b x env n s) (backend : σ)
    (hf : f ∈ s.runtime.carrier.flights) (first : ∀ g ∈ s.runtime.carrier.flights, f.due ≤ g.due)
    (ha : Aloft b x env s.coordinator f i j) (listed : x.targets[i]? = some target)
    (reached : ∃ moves, Reachable x.policy moves c) (opened : x.IsOpen c) (returned : c.stack = [])
    (tasks : c.tasks = s.coordinator.tasks)
    (probes : c.probes = (s.coordinator.useListener f.id).probes)
    (slots : ∀ l, c.slot? x.phase l =
      if l = i then some { cursor := .done, outcome := some (env.outcome target i) }
      else s.coordinator.slot? x.phase l) :
    Underway b x env n { s.landed f backend with coordinator := c } ∧
      x.Shifts i .done s.coordinator c := by
  have hother : ∀ l ≠ i, c.slot? x.phase l = s.coordinator.slot? x.phase l := fun l hl =>
    (slots l).trans (if_neg hl)
  have hdone := (slots i).trans (if_pos rfl)
  refine ⟨h.land backend hf first ha none ?_ reached opened returned tasks ?_ hother nofun
    fun _ => ⟨target, listed, hdone⟩, ⟨by rw [hdone, Option.map_some], hother⟩⟩
  · simp
  · intro q probe hq hne
    rw [probes]
    exact getElem?_modify_eq_some.mpr ⟨probe, hq, if_neg hne.symm⟩

section answers

variable {target : ShardTarget} {response : ProbeResponse} {error : ProbeError}
  (steady : b.Steady x env) (h : Underway b x env n s) (backend : σ)
  (hf : f ∈ s.runtime.carrier.flights) (first : ∀ g ∈ s.runtime.carrier.flights, f.due ≤ g.due)
  (ha : Aloft b x env s.coordinator f i j) (listed : x.targets[i]? = some target)

include h ha in
theorem Underway.exists_phase :
    ∃ call p, s.coordinator.Sound (.rest call) ∧ s.coordinator.phases[x.phase]? = some p ∧
      p.targets = x.targets.toArray ∧ p.request = x.request ∧
      p.slots[i]? = some { cursor := .copy j } := by
  obtain ⟨moves, reached⟩ := h.reached
  obtain ⟨call, sound⟩ := reached.sound
  obtain ⟨p, hp, htargets, hrequest⟩ := h.opened
  obtain ⟨q, hq, hs⟩ := slot?_eq_some.mp ha.slot
  obtain rfl := Option.some.inj (hp.symm.trans hq)
  exact ⟨call, p, sound, hp, htargets, hrequest, hs⟩

include h in
variable (f) in
theorem Underway.reached_move (m : Move) :
    (∃ moves, Reachable x.policy moves ((s.landed f backend).move b m).coordinator) ∧
      x.IsOpen ((s.landed f backend).move b m).coordinator := by
  obtain ⟨made, hmade⟩ := (s.landed f backend).exists_run_move b m
  exact Course.reached_run h.reached h.opened hmade

include h hf first ha listed

include steady in
theorem Underway.answer_ok (verdict : env.answer? target i j = some response) :
    Underway b x env n ((s.landed f backend).move b (.answer f.id (.ok response))) ∧
      x.Shifts i (env.after target i j) s.coordinator
        ((s.landed f backend).move b (.answer f.id (.ok response))).coordinator := by
  obtain ⟨call, p, sound, hp, -, -, hslot⟩ := h.exists_phase ha
  obtain ⟨hreached, hopened⟩ := h.reached_move (b := b) f backend (.answer f.id (.ok response))
  obtain ⟨t, node, htarget, -, -, -, hbefore⟩ := ha.bound
  obtain rfl := Option.some.inj (htarget.symm.trans listed)
  have hmove := @Stack.move_answer_ok σ b (s.landed f backend) p f.id _ _ call response sound
    ha.probe hp rfl hslot rfl
  have hrun : env.fate i = .run := by rw [steady.fate_eq, if_pos ha.room]
  have hafter : env.after t i j = .done := if_neg (by simp [verdict])
  rw [hmove] at hreached hopened ⊢
  rw [hafter]
  refine h.settle backend hf first ha listed hreached hopened (recorded_stack.trans h.returned)
    recorded_tasks recorded_probes fun l => ?_
  rw [env.outcome_of_answer hrun hbefore verdict]
  exact @slot?_recorded_of_copy (s.coordinator.useListener f.id) ⟨x.phase, i, j⟩ p response.outcome
    j ha.slot l

theorem Underway.answer_last (verdict : env.answer? target i j = none)
    (beyond : target.copies[j + 1]? = none) :
    Underway b x env n ((s.landed f backend).move b (.answer f.id (.error error))) ∧
      x.Shifts i (env.after target i j) s.coordinator
        ((s.landed f backend).move b (.answer f.id (.error error))).coordinator := by
  obtain ⟨call, p, sound, hp, -, -, hslot⟩ := h.exists_phase ha
  obtain ⟨hreached, hopened⟩ := h.reached_move (b := b) f backend (.answer f.id (.error error))
  obtain ⟨t, node, htarget, hcopy, -⟩ := ha.bound
  obtain rfl := Option.some.inj (htarget.symm.trans listed)
  have hdestination : s.coordinator.destination? ⟨x.phase, i, j⟩ = some (t, node) := by
    simp [destination?, h.opened.target?_eq, listed, hcopy]
  have hmove := @Stack.move_answer_last σ b (s.landed f backend) p f.id t node _ _ call error sound
    ha.probe hp rfl hslot rfl hdestination beyond
  have houtcome : env.outcome t i = .failure := by
    apply env.outcome_of_no_answer
    intro l hl
    have hlast := List.getElem?_eq_none_iff.mp beyond
    exact ha.answer?_eq_none listed verdict (Nat.lt_of_lt_of_le hl hlast)
  have hafter : env.after t i j = .done :=
    if_neg fun h => Nat.not_lt.mpr (List.getElem?_eq_none_iff.mp beyond) h.2
  rw [hmove] at hreached hopened ⊢
  rw [hafter]
  refine h.settle backend hf first ha listed hreached hopened (exhausted_stack.trans h.returned)
    exhausted_tasks exhausted_probes fun l => ?_
  rw [houtcome]
  exact @slot?_exhausted_of_copy (s.coordinator.useListener f.id) ⟨x.phase, i, j⟩ p t node error
    ha.slot l

include steady in
theorem Underway.answer_next {next : NodeId} (verdict : env.answer? target i j = none)
    (copy : target.copies[j + 1]? = some next) :
    Underway b x env n ((s.landed f backend).move b (.answer f.id (.error error))) ∧
      x.Shifts i (env.after target i j) s.coordinator
        ((s.landed f backend).move b (.answer f.id (.error error))).coordinator := by
  obtain ⟨call, p, sound, hp, htargets, hrequest, hslot⟩ := h.exists_phase ha
  obtain ⟨hreached, hopened⟩ := h.reached_move (b := b) f backend (.answer f.id (.error error))
  obtain ⟨t, node, htarget, hcopy, -⟩ := ha.bound
  obtain rfl := Option.some.inj (htarget.symm.trans listed)
  obtain ⟨connection, hresolved⟩ := steady.resolves t (List.mem_of_getElem? listed) next
    (List.mem_of_getElem? copy)
  have hdestination : s.coordinator.destination? ⟨x.phase, i, j⟩ = some (t, node) := by
    simp [destination?, h.opened.target?_eq, listed, hcopy]
  have hmove := @Stack.move_answer_next σ b (s.landed f backend) p f.id t node connection _ _ call error
    sound ha.probe hp rfl hslot rfl hdestination next h.alive copy hresolved
  rw [Course.probeRequest_eq htargets hrequest,
    Runtime.launch_carrier (r := (s.landed f backend).runtime) steady h.alive h.limit] at hmove
  rw [hmove] at hreached hopened ⊢
  let passed := (s.coordinator.useListener f.id).passed ⟨x.phase, i, j⟩ t node error
  let launched := passed.launched ⟨x.phase, i, j + 1⟩ t next connection (x.probeRequest t next)
  let sent := x.flight f.due s.coordinator.probes.size connection (x.probeRequest t next)
  have hpassed (l : Nat) : passed.slot? x.phase l = _ :=
    @slot?_passed_of_copy (s.coordinator.useListener f.id) ⟨x.phase, i, j⟩ t node error ha.slot l
  have hprobes {q : Nat} {probe : Probe} (hq : s.coordinator.probes[q]? = some probe) (hne : q ≠ f.id) :
      passed.probes[q]? = some probe :=
    getElem?_modify_eq_some.mpr ⟨probe, hq, if_neg hne.symm⟩
  have hsent : Aloft b x env launched sent i (j + 1) :=
    .launched Array.size_modify ((hpassed i).trans (if_pos rfl)) ha.room listed copy hresolved
      (fun l hl => ha.answer?_eq_none listed verdict hl) ha.due_le
  have hother : ∀ l ≠ i, launched.slot? x.phase l = s.coordinator.slot? x.phase l :=
    fun l hl => (hpassed l).trans (if_neg hl)
  have hafter : env.after t i j = .copy (j + 1) :=
    if_pos ⟨by simp [verdict], (List.getElem?_eq_some_iff.mp copy).1⟩
  have hshifts : x.Shifts i (env.after t i j) s.coordinator launched :=
    ⟨by rw [hafter, hsent.slot, Option.map_some], hother⟩
  refine ⟨h.land backend hf first ha (some sent) rfl hreached hopened h.returned rfl ?_ hother ?_ (by simp),
    hshifts⟩
  · intro q probe hq hne
    exact getElem?_push_eq_some (hprobes hq hne)
  · intro g hg
    obtain rfl := Option.mem_some.mp hg
    exact ⟨Nat.le_add_right _ _, j + 1, hsent⟩

end answers

theorem Underway.land_first {target : ShardTarget} (steady : b.Steady x env) (h : Underway b x env n s)
    (hf : f ∈ s.runtime.carrier.flights) (first : ∀ g ∈ s.runtime.carrier.flights, f.due ≤ g.due)
    (ha : Aloft b x env s.coordinator f i j) (listed : x.targets[i]? = some target) :
    Underway b x env n ((s.landed f s.runtime.backend).land b f) ∧
      x.Shifts i (env.after target i j) s.coordinator
        ((s.landed f s.runtime.backend).land b f).coordinator := by
  obtain ⟨t, node, htarget, copy, resolved, load, -⟩ := ha.bound
  obtain rfl := Option.some.inj (htarget.symm.trans listed)
  have hanswer {backend : σ} {result : ProbeResult} (verdict : env.answer? t i j = result.toOption) :
      Underway b x env n ((s.landed f backend).move b (.answer f.id result)) ∧
        x.Shifts i (env.after t i j) s.coordinator
          ((s.landed f backend).move b (.answer f.id result)).coordinator := by
    cases result with
    | ok response => exact h.answer_ok steady backend hf first ha listed verdict
    | error error =>
        cases hnext : t.copies[j + 1]? with
        | none => exact h.answer_last backend hf first ha listed verdict hnext
        | some next => exact h.answer_next steady backend hf first ha listed verdict hnext
  cases hlate : x.late with
  | true =>
      have hland : (s.landed f s.runtime.backend).land b f =
          (s.landed f s.runtime.backend).move b (.answer f.id s.runtime.carrier.lateResult) := by
        rw [Stack.land, ha.late_eq, hlate]
        rfl
      rw [hland]
      exact hanswer (steady.late hlate i t j listed)
  | false =>
      obtain ⟨result, hresult, hverdict⟩ := steady.answers hlate i t j node f.load.1
        s.runtime.backend listed copy resolved
      have hland : (s.landed f s.runtime.backend).land b f =
          (s.landed f (b.answer s.runtime.backend f.load.1 f.load.2).1).move b
            (.answer f.id result) := by
        rw [← load] at hresult
        rw [Stack.land, ha.late_eq, hlate]
        simp only [Stack.landed, Bool.false_eq_true, if_false, hresult]
      rw [hland]
      exact hanswer hverdict

end Prefilter
