import Prefilter.Proofs.Phase.FailOpen
import Prefilter.Proofs.Probe.Landing
import Prefilter.Proofs.Stack.Settlement

namespace Prefilter

/-- An order in which a runtime that goes drops what it holds. -/
structure DropOrder where
  arrange : List Move → List Move
  perm : ∀ moves, (arrange moves).Perm moves

open Coordinator

variable {σ : Type}

namespace Stack

/-- What a runtime drops as it goes: the queued tasks and the probes under way. -/
def holdings (s : Stack σ) : List Move :=
  s.runtime.pool.queuedTasks.map .discard ++ s.runtime.carrier.flights.map (.abandon ·.id)

def withoutRuntime (s : Stack σ) : Stack σ :=
  { s with runtime := { s.runtime with
      pool := s.runtime.pool.dropRuntime.1
      carrier := s.runtime.carrier.dropRuntime.1 } }

/-- The runtime goes and drops, in some order, what it holds; whatever this leads to finds no
runtime. -/
def tearDown (b : Backend σ) (order : DropOrder) (s : Stack σ) : Stack σ :=
  (order.arrange s.holdings).foldl (fun s m => s.move b m) s.withoutRuntime

theorem tearDown_eq_dropRuntime (b : Backend σ) (s : Stack σ) :
    s.tearDown b ⟨id, fun _ => .refl _⟩ = s.dropRuntime b := by
  simp only [tearDown, holdings, id_eq, List.foldl_append, List.foldl_map]
  rfl

theorem mem_arrange_holdings {order : DropOrder} {s : Stack σ} {m : Move} :
    m ∈ order.arrange s.holdings ↔ (∃ task ∈ s.runtime.pool.queuedTasks, .discard task = m) ∨
      ∃ f ∈ s.runtime.carrier.flights, .abandon f.id = m := by
  rw [(order.perm _).mem_iff, holdings, List.mem_append, List.mem_map, List.mem_map]

/-- What can be done to a stack from outside. -/
inductive Act where
  | start (targets : List ShardTarget) (request : SearchRequest)
  /-- The pool takes so many turns, or fewer if no future is ready. -/
  | turns (count : Nat)
  | drive
  /-- So many probes are resolved, or all that are due within a time. -/
  | land (count ms : Nat)
  | advance (ms : Nat)
  | await (phase ms : Nat)
  | shutdown
  | tearDown (order : DropOrder)

/-- Something is done to a stack. The nodes may have changed since the act before. -/
def act (s : Stack σ) (x : Backend σ × Act) : Stack σ :=
  match x.2 with
  | .start targets request => s.start x.1 targets request
  | .turns count => driveFor x.1 count s
  | .drive => s.drive x.1
  | .land count ms => s.landWhile x.1 (fun _ => true) (s.runtime.carrier.now + ms) count
  | .advance ms => s.advance x.1 ms
  | .await phase ms => s.await x.1 phase ms
  | .shutdown => s.shutdown
  | .tearDown order => s.tearDown x.1 order

/-- Control is with the collaborators; all tasks and listeners that are still to be used are in place,
but for those that are in hand. -/
structure Poised (policy : OrderingPolicy) (max : Nat) (hands : List Move) (s : Stack σ) : Prop where
  reached : ∃ moves, Reachable policy moves s.coordinator
  returned : s.coordinator.stack = []
  size_eq : s.coordinator.tasks.size = s.runtime.pool.stages.size
  holds : s.runtime.Holds max hands s.coordinator

variable {policy : OrderingPolicy} {max : Nat} {hands : List Move} {s s' : Stack σ} {m : Move}
  {b : Backend σ} {pool : Pool} {task time : Nat} {f : Flight (Connection × ProbeRequest)}
  {carrier : Carrier (Connection × ProbeRequest)} {order : DropOrder}

/-- No runtime is left. -/
structure IsDead (s : Stack σ) : Prop where
  pool : s.runtime.pool.alive = false
  carrier : s.runtime.carrier.alive = false

namespace Poised

theorem exists_aftermath (h : s.Poised policy max (m :: hands)) (fresh : m.returns = false)
    (b : Backend σ) : ∃ n used, Aftermath max hands s.coordinator.stack n s.runtime s.coordinator used
      (s.move b m).runtime (s.move b m).coordinator := by
  obtain ⟨moves, reached⟩ := h.reached
  obtain ⟨call, sound⟩ := reached.sound
  exact h.holds.move sound fresh h.size_eq b

theorem move (h : s.Poised policy max (m :: hands)) (fresh : m.returns = false) (b : Backend σ) :
    (s.move b m).Poised policy max hands := by
  obtain ⟨moves, reached⟩ := h.reached
  obtain ⟨made, run⟩ := s.exists_run_move b m
  obtain ⟨n, used, hafter⟩ := h.exists_aftermath fresh b
  exact ⟨⟨_, reached.append run⟩, hafter.stack_eq.trans h.returned, hafter.size_eq, hafter.holds⟩

theorem isDead_move (h : s.Poised policy max (m :: hands)) (fresh : m.returns = false)
    (dead : s.IsDead) (b : Backend σ) : (s.move b m).IsDead := by
  obtain ⟨n, used, hafter⟩ := h.exists_aftermath fresh b
  exact ⟨hafter.pool_alive.trans dead.pool, hafter.carrier_alive.trans dead.carrier⟩

theorem moves {moves : List Move} (h : s.Poised policy max moves)
    (fresh : ∀ m ∈ moves, m.returns = false) (b : Backend σ) :
    (moves.foldl (fun s m => s.move b m) s).Poised policy max [] ∧
      (s.IsDead → (moves.foldl (fun s m => s.move b m) s).IsDead) := by
  induction moves generalizing s with
  | nil => exact ⟨h, id⟩
  | cons m moves ih =>
      obtain ⟨hm, hmoves⟩ := List.forall_mem_cons.mp fresh
      obtain ⟨hpoised, hdead⟩ := ih (h.move hm b) hmoves
      exact ⟨hpoised, fun dead => hdead (h.isDead_move hm dead b)⟩

theorem update {hands' : List Move} {r : Runtime σ} (h : s.Poised policy max hands)
    (size_eq : r.pool.stages.size = s.runtime.pool.stages.size) (pool : r.pool.Consistent max [])
    (carrier : r.carrier.alive = false → r.carrier.flights = [])
    (queued : ∀ task ∈ s.runtime.pool.queuedTasks,
      task ∈ r.pool.queuedTasks ∨ ∃ m ∈ hands', m.task? = some task)
    (flights : ∀ f ∈ s.runtime.carrier.flights,
      f ∈ r.carrier.flights ∨ ∃ m ∈ hands', m.probe? = some f.id)
    (kept : ∀ m ∈ hands, m ∈ hands') : ({ s with runtime := r } : Stack σ).Poised policy max hands' where
  reached := h.reached
  returned := h.returned
  size_eq := h.size_eq.trans size_eq.symm
  holds := by
    refine ⟨pool, carrier, ?_, ?_⟩
    · intro task phase slot hpending
      rcases h.holds.tasks task phase slot hpending with hqueued | ⟨m, hm, htask⟩
      · exact queued task hqueued
      · exact .inr ⟨m, kept m hm, htask⟩
    · intro probe a hunresolved
      rcases h.holds.listeners probe a hunresolved with ⟨f, hf, rfl⟩ | ⟨m, hm, hprobe⟩
      · exact (flights f hf).imp_left fun hf => ⟨f, hf, rfl⟩
      · exact .inr ⟨m, kept m hm, hprobe⟩

theorem inHand (h : s.Poised policy max []) (m : Move) : s.Poised policy max [m] :=
  h.update rfl h.holds.pool h.holds.carrier (fun _ => .inl) (fun _ => .inl) (by simp)

theorem setPool {hands' : List Move} (h : s.Poised policy max hands) (consistent : pool.Consistent max [])
    (size_eq : pool.stages.size = s.runtime.pool.stages.size)
    (queued : ∀ task ∈ s.runtime.pool.queuedTasks,
      task ∈ pool.queuedTasks ∨ ∃ m ∈ hands', m.task? = some task)
    (kept : ∀ m ∈ hands, m ∈ hands') : (s.setPool pool).Poised policy max hands' :=
  h.update size_eq consistent h.holds.carrier queued (fun _ hf => .inl hf) kept

theorem finish (h : s.Poised policy max []) (task : Nat) :
    (s.setPool (s.runtime.pool.finish task)).Poised policy max [] := by
  by_cases hrunning : s.runtime.pool.stages[task]? = some .running
  · refine h.setPool (h.holds.pool.finish hrunning) (Pool.finish_size hrunning) ?_ (fun _ => id)
    exact fun other hother => .inl ((h.holds.pool.mem_queuedTasks_finish hrunning).mpr hother)
  · have hsame : s.runtime.pool.finish task = s.runtime.pool := by simp [Pool.finish, hrunning]
    rw [hsame]
    exact h

theorem poll (h : s.Poised policy max []) (consistent : pool.Consistent max [task])
    (size_eq : pool.stages.size = s.runtime.pool.stages.size)
    (queued : pool.queuedTasks = s.runtime.pool.queuedTasks) (b : Backend σ) :
    ((s.setPool pool).poll b task).Poised policy max [] := by
  have hpool := consistent.poll
  have hsize := consistent.size_poll.trans size_eq
  have hqueued {other : Nat} (hother : other ∈ s.runtime.pool.queuedTasks) :=
    consistent.mem_queuedTasks_of_poll (queued ▸ hother)
  have heq : (s.setPool pool).runtime.pool.poll task = pool.poll task := rfl
  rw [Stack.poll, heq]
  generalize pool.poll task = result at hpool hsize hqueued
  obtain ⟨after, verdict⟩ := result
  have huse {m : Move} (uses : m.task? = some task) :
      ((s.setPool pool).setPool after).Poised policy max [m] := by
    refine h.setPool hpool hsize (fun other hother => (hqueued hother).imp_right ?_) (by simp)
    rintro ⟨rfl, -⟩
    exact ⟨m, List.mem_singleton_self m, uses⟩
  cases verdict with
  | starts => exact ((huse (m := .run task) rfl).move rfl b).finish task
  | waits =>
      refine h.setPool hpool hsize (fun other hother => .inl ((hqueued hother).resolve_right ?_)) (by simp)
      rintro ⟨-, hwaits⟩
      exact hwaits rfl
  | gaveUp => exact (huse (m := .discard task) rfl).move rfl b

theorem driveFor (h : s.Poised policy max []) (b : Backend σ) (fuel : Nat) :
    (s.driveFor b fuel).Poised policy max [] := by
  induction fuel generalizing s with
  | zero => exact h
  | succ fuel ih =>
      have hturn := h.holds.pool.turn
      rw [Stack.driveFor]
      rcases s.runtime.pool.turn_cases with ⟨-, -, hcase⟩ | ⟨task, inner, outer, -, hcase⟩
      · rw [hcase] at hturn ⊢
        exact h.setPool hturn rfl (fun _ => .inl) fun _ => id
      · rw [hcase] at hturn ⊢
        exact ih (h.poll hturn rfl rfl b)

theorem land (h : s.Poised policy max []) (landed : s.runtime.carrier.land? time = some (f, carrier))
    (b : Backend σ) :
    (({ s with runtime := { s.runtime with carrier } } : Stack σ).land b f).Poised policy max [] := by
  obtain ⟨now, rfl⟩ := Carrier.exists_of_land?_eq_some landed
  have huse {m : Move} (backend : σ) (uses : m.probe? = some f.id) :
      ({ s with runtime := { s.runtime with
          carrier := { s.runtime.carrier with
            now, flights := s.runtime.carrier.flights.filter (·.id != f.id) }
          backend } } : Stack σ).Poised policy max [m] := by
    refine h.update rfl h.holds.pool ?_ (fun _ => .inl) ?_ (by simp)
    · intro hdead
      simp [h.holds.carrier hdead]
    · intro g hg
      by_cases hid : g.id = f.id
      · exact .inr ⟨m, List.mem_singleton_self m, hid ▸ uses⟩
      · exact .inl (List.mem_filter.mpr ⟨hg, by simpa using hid⟩)
  simp only [Stack.land]
  split
  · exact (huse (m := .answer f.id _) _ rfl).move rfl b
  · split
    · exact (huse (m := .answer f.id _) _ rfl).move rfl b
    · exact (huse (m := .abandon f.id) _ rfl).move rfl b

theorem landWhile (h : s.Poised policy max []) (b : Backend σ) (going : Coordinator → Bool)
    (time fuel : Nat) : (s.landWhile b going time fuel).Poised policy max [] := by
  induction fuel generalizing s with
  | zero => exact h
  | succ fuel ih =>
      rw [Stack.landWhile]
      split
      · split
        · exact h
        · rename_i landed
          exact ih (h.land landed b)
      · exact h

theorem setNow (h : s.Poised policy max []) (now : Nat) : (s.setNow now).Poised policy max [] :=
  h.update rfl h.holds.pool h.holds.carrier (fun _ => .inl) (fun _ => .inl) fun _ => id

/-- The runtime goes; what it held is in hand, in the order in which it is to be dropped. -/
theorem withoutRuntime (h : s.Poised policy max []) (order : DropOrder) :
    s.withoutRuntime.Poised policy max (order.arrange s.holdings) := by
  refine h.update Array.size_map h.holds.pool.dropRuntime (fun _ => rfl) ?_ ?_ (by simp)
  · intro task htask
    exact .inr ⟨.discard task, mem_arrange_holdings.mpr (.inl ⟨task, htask, rfl⟩), rfl⟩
  · intro f hf
    exact .inr ⟨.abandon f.id, mem_arrange_holdings.mpr (.inr ⟨f, hf, rfl⟩), rfl⟩

theorem tearDown (h : s.Poised policy max []) (b : Backend σ) (order : DropOrder) :
    (s.tearDown b order).Poised policy max [] ∧ (s.tearDown b order).IsDead := by
  have hfresh : ∀ m ∈ order.arrange s.holdings, m.returns = false := by
    intro m hm
    rcases mem_arrange_holdings.mp hm with ⟨task, -, rfl⟩ | ⟨f, -, rfl⟩ <;> rfl
  obtain ⟨hpoised, hdead⟩ := (h.withoutRuntime order).moves hfresh b
  exact ⟨hpoised, hdead ⟨rfl, rfl⟩⟩

/-- Nothing that is done to a stack leaves a task or a listener unaccounted for. -/
theorem act (h : s.Poised policy max []) (x : Backend σ × Act) : (s.act x).Poised policy max [] := by
  obtain ⟨b, act⟩ := x
  cases act with
  | start targets request => exact (h.inHand (.start targets request)).move rfl b
  | turns count => exact h.driveFor b count
  | drive => exact h.driveFor b _
  | land count ms => exact h.landWhile b _ _ count
  | advance ms => exact (h.landWhile b _ _ _).setNow _
  | await phase ms =>
      simp only [Stack.act, Stack.await]
      split
      · exact h.landWhile b _ _ _
      · exact (h.landWhile b _ _ _).setNow _
  | shutdown =>
      refine h.setPool h.holds.pool.shutdown (congrArg _ Pool.shutdown_stages) ?_ fun _ => id
      exact fun task htask => .inl (by rwa [Pool.shutdown_queuedTasks])
  | tearDown order => exact (h.tearDown b order).1

theorem acts (h : s.Poised policy max []) (acts : List (Backend σ × Act)) :
    (acts.foldl Stack.act s).Poised policy max [] := by
  induction acts generalizing s with
  | nil => exact h
  | cons x acts ih => exact ih (h.act x)

theorem isSettled (h : s.Poised policy max []) (dead : s.IsDead) (phase : Nat) :
    s.coordinator.IsSettled phase where
  idle := by
    intro f hf
    rw [h.returned] at hf
    cases hf
  tasks := by
    intro task slot hpending
    have hqueued := h.holds.tasks task phase slot hpending
    simp [h.holds.pool.dead dead.pool] at hqueued
  listeners := by
    intro probe a _ hunresolved
    have hflight := h.holds.listeners probe a hunresolved
    simp [h.holds.carrier dead.carrier] at hflight

theorem deliveries_eq {k : Nat} {p : Phase} (h : s.Poised policy max []) (dead : s.IsDead)
    (found : s.coordinator.phases[k]? = some p) :
    s.coordinator.deliveries k = [policy.order p.outcomes p.request.sort] := by
  obtain ⟨moves, reached⟩ := h.reached
  obtain ⟨call, sound⟩ := reached.sound
  obtain ⟨-, r, hr⟩ := reached.delivered_of_isSettled found (h.isSettled dead k)
  obtain ⟨q, hq, -, rfl⟩ := sound.books.exists_of_mem_deliveries (hr ▸ List.mem_singleton_self r)
  obtain rfl := Option.some.inj (found.symm.trans hq)
  rw [hr, resultOf, reached.policy_eq]

end Poised

end Stack

/-- The move does not tell what a copy has answered. -/
def Move.IsSilent (m : Move) : Prop := ∀ probe response, m ≠ .answer probe (.ok response)

theorem Backend.isSilent_of_mem_reply (b : Backend σ) (r : Runtime σ) (c : Coordinator) (f : Frame) :
    ∀ m ∈ (b.reply r c f).2, m.IsSilent := by
  rintro m hm probe response rfl
  cases f with
  | submitting task =>
      simp only [reply] at hm
      cases hverdict : (r.pool.submit false).2 <;> simp [hverdict, Admission.moves] at hm
  | connecting a =>
      simp only [reply] at hm
      split at hm
      · simp at hm
      · split at hm <;> simp at hm
  | sending probe =>
      simp only [reply] at hm
      split at hm
      · simp at hm
      · split at hm <;> simp at hm
  | delivering phase caller => simp [reply] at hm

namespace Stack

variable {policy : OrderingPolicy} {max : Nat} {s : Stack σ} {m : Move} {b : Backend σ}

theorem exists_silent_move (silent : m.IsSilent) (b : Backend σ) (s : Stack σ) :
    ∃ made, Run (fun _ => Move.IsSilent) s.coordinator made (s.move b m).coordinator :=
  exists_run_playFor_of b.isSilent_of_mem_reply _ _ _ _ (by simpa using silent)

theorem exists_silent_moves {moves : List Move} (silent : ∀ m ∈ moves, m.IsSilent) (b : Backend σ)
    (s : Stack σ) : ∃ made, Run (fun _ => Move.IsSilent) s.coordinator made
      (moves.foldl (fun s m => s.move b m) s).coordinator := by
  induction moves generalizing s with
  | nil => exact ⟨[], .nil⟩
  | cons m moves ih =>
      obtain ⟨hm, hmoves⟩ := List.forall_mem_cons.mp silent
      obtain ⟨made, run⟩ := exists_silent_move hm b s
      obtain ⟨more, rest⟩ := ih hmoves (s.move b m)
      exact ⟨_, run.append rest⟩

theorem exists_silent_tearDown (b : Backend σ) (order : DropOrder) (s : Stack σ) :
    ∃ made, Run (fun _ => Move.IsSilent) s.coordinator made (s.tearDown b order).coordinator := by
  refine exists_silent_moves (fun m hm => ?_) b s.withoutRuntime
  rcases mem_arrange_holdings.mp hm with ⟨task, -, rfl⟩ | ⟨f, -, rfl⟩ <;>
    exact fun _ _ heq => by cases heq

namespace Poised

variable (h : s.Poised policy max []) (dead : s.IsDead)

include h dead

theorem turn_of_isDead : s.runtime.pool.turn =
    ({ s.runtime.pool with turns := s.runtime.pool.turns + 1 }, none) := by
  rcases s.runtime.pool.turn_cases with ⟨-, -, hcase⟩ | ⟨task, inner, outer, hperm, -⟩
  · exact hcase
  · have hfutures := h.holds.pool.futures_perm
    rw [h.holds.pool.dead dead.pool, List.nil_append, Pool.futures] at hfutures
    have hready := (List.append_eq_nil_iff.mp hfutures.eq_nil).1
    rw [hready] at hperm
    exact absurd hperm.eq_nil (List.cons_ne_nil _ _)

theorem driveFor_of_isDead (b : Backend σ) (fuel : Nat) :
    s.driveFor b fuel = s ∨ s.driveFor b fuel = s.setPool s.runtime.pool.turn.1 := by
  cases fuel with
  | zero => exact .inl rfl
  | succ fuel => exact .inr (by rw [Stack.driveFor, h.turn_of_isDead dead])

theorem landWhile_of_isDead (b : Backend σ) (going : Coordinator → Bool) (time fuel : Nat) :
    s.landWhile b going time fuel = s := by
  cases fuel with
  | zero => rfl
  | succ fuel =>
      rw [Stack.landWhile, Carrier.land?_of_flights_eq_nil (h.holds.carrier dead.carrier)]
      split <;> rfl

theorem act_of_isDead (x : Backend σ × Act) : (s.act x).IsDead ∧
    ∃ made, Run (fun _ => Move.IsSilent) s.coordinator made (s.act x).coordinator := by
  obtain ⟨b, act⟩ := x
  have hdrive (fuel : Nat) : (s.driveFor b fuel).IsDead ∧ ∃ made,
      Run (fun _ => Move.IsSilent) s.coordinator made (s.driveFor b fuel).coordinator := by
    rcases h.driveFor_of_isDead dead b fuel with heq | heq <;> rw [heq]
    · exact ⟨dead, [], .nil⟩
    · exact ⟨⟨Pool.turn_alive.trans dead.pool, dead.carrier⟩, [], .nil⟩
  cases act with
  | start targets request =>
      exact ⟨(h.inHand (.start targets request)).isDead_move rfl dead b,
        exists_silent_move (fun _ _ heq => by cases heq) b s⟩
  | turns count => exact hdrive count
  | drive => exact hdrive _
  | land count ms =>
      simp only [Stack.act, h.landWhile_of_isDead dead]
      exact ⟨dead, [], .nil⟩
  | advance ms =>
      simp only [Stack.act, Stack.advance, h.landWhile_of_isDead dead]
      exact ⟨⟨dead.pool, dead.carrier⟩, [], .nil⟩
  | await phase ms =>
      simp only [Stack.act, Stack.await, h.landWhile_of_isDead dead]
      split
      · exact ⟨dead, [], .nil⟩
      · exact ⟨⟨dead.pool, dead.carrier⟩, [], .nil⟩
  | shutdown => exact ⟨⟨Pool.shutdown_alive.trans dead.pool, dead.carrier⟩, [], .nil⟩
  | tearDown order => exact ⟨(h.tearDown b order).2, exists_silent_tearDown b order s⟩

theorem acts_of_isDead (acts : List (Backend σ × Act)) : (acts.foldl Stack.act s).IsDead ∧
    ∃ made, Run (fun _ => Move.IsSilent) s.coordinator made (acts.foldl Stack.act s).coordinator := by
  induction acts generalizing s with
  | nil => exact ⟨dead, [], .nil⟩
  | cons x acts ih =>
      obtain ⟨hdead, made, run⟩ := h.act_of_isDead dead x
      obtain ⟨hend, more, rest⟩ := ih (h.act x) hdead
      exact ⟨hend, _, run.append rest⟩

omit dead in
theorem acts_of_tearDown (b : Backend σ) (order : DropOrder) (acts : List (Backend σ × Act)) :
    (acts.foldl Stack.act (s.tearDown b order)).Poised policy max [] ∧
      (acts.foldl Stack.act (s.tearDown b order)).IsDead ∧
      ∃ made, Run (fun _ => Move.IsSilent) s.coordinator made
        (acts.foldl Stack.act (s.tearDown b order)).coordinator := by
  obtain ⟨htorn, hdead⟩ := h.tearDown b order
  obtain ⟨made, run⟩ := exists_silent_tearDown b order s
  obtain ⟨hend, more, rest⟩ := htorn.acts_of_isDead hdead acts
  exact ⟨htorn.acts acts, hend, _, run.append rest⟩

end Poised
end Stack

namespace Coordinator

variable {policy : OrderingPolicy} {c c' : Coordinator} {made moves : List Move} {call : Option Frame}
  {k i copy : Nat} {p : Phase} {slot : Slot} {o : Outcome} {target : ShardTarget}
  {response : ProbeResponse}

/-- While no answers become known, shards can only fail. -/
theorem Run.outcome_cases (run : Run (fun _ => Move.IsSilent) c made c')
    (sound : c.Sound (.rest call)) (hs : c'.slot? k i = some slot) (ho : slot.outcome = some o) :
    o = .failure ∨ ∃ slot, c.slot? k i = some slot ∧ slot.outcome = some o := by
  induction run generalizing slot with
  | nil => exact .inr ⟨slot, hs, ho⟩
  | move run silent ih =>
      obtain ⟨_, hsound, -⟩ := preserved_extends.run run sound (.refl c)
      rcases hsound.outcome_cases hs ho with ⟨slot, hs, ho⟩ | ⟨copy, hfailure | hresponse⟩
      · exact ih hs ho
      · exact .inl hfailure
      · obtain ⟨probe, response, rfl, -⟩ := hresponse
        exact absurd rfl (silent probe response)
  | reorder run perm ih => exact ih hs ho

theorem Run.outcomes_of_heard {allowed : Coordinator → Move → Prop} (run : Run allowed c made c')
    (heard : Heard policy ⟨k, i, copy⟩ target response moves c) (found : c'.phases[k]? = some p)
    (listed : p.targets[i]? = some target) : p.outcomes[i]? = some (target, response.outcome) := by
  obtain ⟨call, sound⟩ := heard.reachable.sound
  obtain ⟨-, -, hdone⟩ := preserved_done.run run sound heard.slot?_eq
  obtain ⟨q, hq, hslot⟩ := slot?_eq_some.mp hdone
  obtain rfl := Option.some.inj (found.symm.trans hq)
  exact Phase.getElem?_outcomes.mpr ⟨_, listed, hslot, rfl⟩

theorem Run.outcomes_of_not_heard (run : Run (fun _ => Move.IsSilent) c made c')
    (reached : Reachable policy moves c)
    (unheard : ∀ copy response moves, ¬ Heard policy ⟨k, i, copy⟩ target response moves c)
    (found : c'.phases[k]? = some p) (listed : p.targets[i]? = some target) :
    p.outcomes[i]? = some (target, .failure) := by
  obtain ⟨call, sound⟩ := reached.sound
  obtain ⟨_, hsound, hextends⟩ := preserved_extends.run run sound (.refl c)
  obtain ⟨slot, hs⟩ := hsound.exists_slot? (Option.bind_eq_some_iff.mpr ⟨p, found, listed⟩)
  obtain ⟨q, hq, hslot⟩ := slot?_eq_some.mp hs
  obtain rfl := Option.some.inj (found.symm.trans hq)
  refine Phase.getElem?_outcomes.mpr ⟨slot, listed, hslot, ?_⟩
  cases ho : slot.outcome with
  | none => rfl
  | some o =>
      rcases run.outcome_cases sound hs ho with rfl | ⟨slot, hbefore, ho⟩
      · rfl
      · rcases reached.outcome_eq hbefore ho with rfl | ⟨copy, target', response, -, heard⟩
        · rfl
        · have htarget : c'.target? k i = some target' := hextends.target? heard.target?_eq
          obtain rfl : target' = target := by simpa [target?, found, listed] using htarget.symm
          exact absurd heard (unheard copy response _)

end Coordinator

namespace Stack

variable {policy : OrderingPolicy} {permits limit : Nat} {pool : Pool}

/-- A stack with an empty pool and no probe under way. -/
def fresh (policy : OrderingPolicy) (pool : Pool) (timeout : Option Nat) (backend : σ) : Stack σ where
  runtime := { pool, carrier := { limit := timeout }, backend }
  coordinator := { policy }

/-- A response for a shard of a phase has been accepted: it was given to a probe of a copy while that
copy was the current one. -/
def HasAccepted (s : Stack σ) (policy : OrderingPolicy) (phase slot : Nat) (target : ShardTarget)
    (response : ProbeResponse) : Prop :=
  ∃ copy moves, Heard policy ⟨phase, slot, copy⟩ target response moves s.coordinator

theorem poised_fresh (made : Pool.ofLimits? permits limit = some pool) (timeout : Option Nat)
    (backend : σ) : (fresh policy pool timeout backend).Poised policy permits [] where
  reached := ⟨[], .nil⟩
  returned := rfl
  size_eq := by
    obtain ⟨-, rfl⟩ : permits ≤ Pool.maxPermits ∧ ({ permits, limit } : Pool) = pool := by
      simpa [Pool.ofLimits?] using made
    rfl
  holds := by
    refine ⟨.ofLimits made, fun _ => rfl, ?_, ?_⟩
    · intro task phase slot hpending
      simp [IsPending, fresh] at hpending
    · rintro probe a ⟨q, hq, -⟩
      simp [fresh] at hq

/-- The end of the runtime completes all phases. Whatever is done to a stack before, with the runtime
going in any order and whatever is done afterwards, each phase has been given to its next phase just
once, with each of its targets once. The shards for which a response had been accepted before the end
keep that outcome; all others have failed and are not skipped. -/
theorem teardown_completes (made : Pool.ofLimits? permits limit = some pool)
    (policy : OrderingPolicy) (timeout : Option Nat) (backend : σ)
    (before after : List (Backend σ × Act)) (b : Backend σ) (order : DropOrder) :
    let dropped := before.foldl act (fresh policy pool timeout backend)
    let ended := after.foldl act (dropped.tearDown b order)
    (∀ (k : Nat) (p : Phase), dropped.coordinator.phases[k]? = some p →
      ∃ q, ended.coordinator.phases[k]? = some q ∧ q.targets = p.targets ∧ q.request = p.request) ∧
    ∀ (k : Nat) (p : Phase), ended.coordinator.phases[k]? = some p →
      ∃ (outcomes : List (ShardTarget × Outcome)) (r : OrderedShards),
        ended.coordinator.deliveries k = [r] ∧ r = policy.order outcomes p.request.sort ∧
        outcomes.map Prod.fst = p.targets.toList ∧ p.targets.toList.Nodup ∧
        (r.shards.map (·.target)).Perm p.targets.toList ∧
        r.summary.failed = outcomes.countP (·.2.failed) ∧
        ∀ (i : Nat) (target : ShardTarget), p.targets[i]? = some target →
          (∀ response, dropped.HasAccepted policy k i target response →
            outcomes[i]? = some (target, .success response.canMatch response.bound)) ∧
          ((¬ ∃ response, dropped.HasAccepted policy k i target response) →
            outcomes[i]? = some (target, .failure) ∧
            ∀ x ∈ r.shards, x.target = target → x.skip = false) := by
  intro dropped ended
  have hdropped : dropped.Poised policy permits [] := (poised_fresh made timeout backend).acts before
  obtain ⟨hended, hdead, moves, run⟩ := hdropped.acts_of_tearDown b order after
  obtain ⟨earlier, reached⟩ := hdropped.reached
  obtain ⟨call, sound⟩ := reached.sound
  obtain ⟨_, hsound, hextends⟩ := preserved_extends.run run sound (.refl dropped.coordinator)
  refine ⟨fun k p hp => hextends.phases hp, ?_⟩
  intro k p hp
  have hfst := (hsound.books.balanced hp).map_fst_outcomes
  have hnodup : p.targets.toList.Nodup := by
    obtain ⟨all, hreached⟩ := hended.reached
    exact nodup_of_startFault?_eq_none (hreached.admitted hp)
  refine ⟨p.outcomes, _, hended.deliveries_eq hdead hp, rfl, hfst, hnodup, ?_, ?_, ?_⟩
  · exact hfst ▸ OrderingPolicy.map_target_order_shards_perm ..
  · exact OrderingPolicy.order_failed ..
  · intro i target listed
    refine ⟨?_, ?_⟩
    · rintro response ⟨copy, moves, heard⟩
      exact run.outcomes_of_heard heard hp listed
    · intro unheard
      have hfailure : p.outcomes[i]? = some (target, .failure) :=
        run.outcomes_of_not_heard reached
          (fun copy response moves heard => unheard ⟨response, copy, moves, heard⟩) hp listed
      refine ⟨hfailure, ?_⟩
      intro x hx htarget
      obtain ⟨j, rfl⟩ := OrderingPolicy.eq_routed_of_mem (hfst ▸ hnodup)
        (List.mem_of_getElem? hfailure) hx htarget
      rfl

/-- The node of all copies. It answers for the second shard at once, and for the others later. -/
def slowNode : Backend Unit where
  directory := .ofNodes [default]
  delay _ request := if request.shard.ordinal = 1 then 0 else 100
  answer _ _ _ := ((), some (.ok { canMatch := true, bound := some (.long 3 9) }))

def copiedTwice (ordinal : UInt32) : ShardTarget where
  shard := { index := default, ordinal }
  copies := [default, default]

def fourShards : List (Backend Unit × Act) :=
  [.start [copiedTwice 0, copiedTwice 1, copiedTwice 2, copiedTwice 3]
    { sort := some { field := "time" } }, .turns 2, .advance 0].map (slowNode, ·)

/-- Of four shards, the first is being probed, the second has its answer, the third is queued, and the
fourth was refused. -/
def midway : Stack Unit :=
  fourShards.foldl act (fresh {} { permits := 1, limit := 3 } (some 50) ())

def lastFirst : DropOrder := ⟨List.reverse, List.reverse_perm⟩

theorem teardown_completes_midway : Pool.ofLimits? 1 3 = some { permits := 1, limit := 3 } ∧
    midway.runtime.pool.queuedTasks = [2] ∧ midway.runtime.carrier.flights.map (·.id) = [0] ∧
    midway.HasAccepted {} 0 1 (copiedTwice 1) { canMatch := true, bound := some (.long 3 9) } ∧
    ∃ (outcomes : List (ShardTarget × Outcome)) (r : OrderedShards),
      (midway.tearDown slowNode lastFirst).coordinator.deliveries 0 = [r] ∧
      r = OrderingPolicy.order {} outcomes (some { field := "time" }) ∧
      outcomes[1]? = some (copiedTwice 1, .success true (some (.long 3 9))) ∧
      r.summary.failed = 3 ∧
      r.shards.map (fun x => (x.target.shard.ordinal, x.skip)) =
        [(1, false), (0, false), (2, false), (3, false)] := by
  have made : Pool.ofLimits? 1 3 = some { permits := 1, limit := 3 } := rfl
  have hdelivered : (midway.tearDown slowNode lastFirst).coordinator.deliveries 0 =
      [{ shards := [⟨copiedTwice 1, false⟩, ⟨copiedTwice 0, false⟩, ⟨copiedTwice 2, false⟩,
          ⟨copiedTwice 3, false⟩]
         summary := { total := 4, failed := 3, sorted := true } }] := by cbv
  have hphase : (midway.tearDown slowNode lastFirst).coordinator.phases[0]?.map
      (fun p => (p.targets[1]?, p.request.sort)) =
        some (some (copiedTwice 1), some { field := "time" }) := by decide +kernel
  have hslot : midway.coordinator.slot? 0 1 =
      some ⟨.done, some (.success true (some (.long 3 9)))⟩ := by decide +kernel
  have htarget : midway.coordinator.target? 0 1 = some (copiedTwice 1) := by decide +kernel
  have hpoised : midway.Poised {} 1 [] := (poised_fresh made (some 50) ()).acts fourShards
  have hcompletes := (teardown_completes made {} (some 50) () fourShards [] slowNode lastFirst).2 0
  rw [List.foldl_nil, ← midway] at hcompletes
  refine ⟨made, by decide +kernel, by decide +kernel, ?_⟩
  generalize midway = dropped at *
  have haccepted : dropped.HasAccepted {} 0 1 (copiedTwice 1)
      { canMatch := true, bound := some (.long 3 9) } := by
    obtain ⟨moves, reached⟩ := hpoised.reached
    rcases reached.outcome_eq hslot rfl with hfailure | ⟨copy, target, response, houtcome, heard⟩
    · cases hfailure
    · obtain rfl : target = copiedTwice 1 := Option.some.inj (heard.target?_eq.symm.trans htarget)
      obtain ⟨canMatch, bound⟩ := response
      cases houtcome
      exact ⟨copy, moves, heard⟩
  obtain ⟨p, hp, hlisted⟩ := Option.map_eq_some_iff.mp hphase
  obtain ⟨hfound, hsort⟩ := Prod.mk.inj hlisted
  obtain ⟨outcomes, r, hr, horder, -, -, -, -, hshards⟩ := hcompletes p hp
  obtain rfl := List.singleton_inj.mp (hdelivered.symm.trans hr)
  have houtcome := (hshards 1 _ hfound).1 _ haccepted
  exact ⟨haccepted, outcomes, _, hdelivered, hsort ▸ horder, houtcome, rfl, rfl⟩

end Stack
end Prefilter
