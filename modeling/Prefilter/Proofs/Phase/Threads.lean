import Mathlib.Logic.Function.Basic
import Mathlib.Data.List.Perm.Basic
import Prefilter.Proofs.Phase.Congruence
import Prefilter.Proofs.Phase.Obligation

/-!
Threads. Each has its own calls to collaborators under way, the latest of which returns first; all move
one coordinator. A call of one thread does not matter to the others, so that what they do together is a
run of the coordinator (`Threaded.exists_run`).
-/

namespace Prefilter

/-- The call is one to a resolver or to a transport. -/
def Frame.isProbing : Frame → Bool
  | .connecting _ | .sending _ => true
  | .submitting _ | .delivering .. => false

namespace Coordinator

variable {c c' : Coordinator} {m : Move} {thread rest : List Frame} {policy : OrderingPolicy}
  {threads : Nat → List Frame} {i j : Nat}

/-- An executor has run or dropped a task by the time it refuses it. -/
def Disposes (c : Coordinator) (m : Move) : Prop :=
  ∀ {error : DispatchError} {task k i : Nat} {rest : List Frame},
    m = .refused error → c.stack = .submitting task :: rest → ¬ c.IsPending task k i

/-- What can come next on a thread, by the call that it is in. -/
inductive InTurn (c : Coordinator) : List Frame → Move → Prop where
  /-- A resolver answers. -/
  | connected {a : Attempt} {rest : List Frame} {connection : Connection} :
      InTurn c (.connecting a :: rest) (.connected connection)
  | unreachable {a : Attempt} {rest : List Frame} {error : ProbeError} :
      InTurn c (.connecting a :: rest) (.unreachable error)
  /-- A transport resolves the listener that it has just been given, or drops it. -/
  | answer {probe : Nat} {a : Attempt} {rest : List Frame} {result : ProbeResult}
      (unresolved : c.IsUnresolved probe a) : InTurn c (.sending probe :: rest) (.answer probe result)
  | abandon {probe : Nat} {a : Attempt} {rest : List Frame} (unresolved : c.IsUnresolved probe a) :
      InTurn c (.sending probe :: rest) (.abandon probe)
  /-- It returns, whatever has become of the listener. -/
  | sent {probe : Nat} {rest : List Frame} : InTurn c (.sending probe :: rest) .sent
  | unsent {probe : Nat} {rest : List Frame} {error : ProbeError} :
      InTurn c (.sending probe :: rest) (.unsent error)
  /-- An executor, the next phase and whoever is in no call do as they like. -/
  | free {thread : List Frame} {m : Move} (control : ∀ f ∈ thread.head?, f.isProbing = false)
      (idle : m.returns = true → thread ≠ []) (disposed : Disposes { c with stack := thread } m) :
      InTurn c thread m

theorem InTurn.ne_nil (turn : InTurn c thread m) (returns : m.returns = true) : thread ≠ [] := by
  cases turn with
  | free _ idle _ => exact idle returns
  | _ => exact List.cons_ne_nil _ _

/-- Only who is in no call to a resolver or a transport starts phases, or runs or drops tasks. -/
theorem InTurn.control (turn : InTurn c thread m) (returns : m.returns = false)
    (listener : ∀ q, (∀ result, m ≠ .answer q result) ∧ m ≠ .abandon q) :
    ∀ f ∈ thread.head?, f.isProbing = false := by
  cases turn with
  | free control => exact control
  | answer => exact absurd rfl ((listener _).1 _)
  | abandon => exact absurd rfl (listener _).2
  | _ => cases returns

theorem exists_inTurn_returns (c : Coordinator) (busy : thread ≠ []) :
    ∃ m, m.returns = true ∧ InTurn c thread m := by
  obtain ⟨f, rest, rfl⟩ := List.exists_cons_of_ne_nil busy
  have hfree {m : Move} (control : f.isProbing = false) (accepts : ∀ error, m ≠ .refused error) :
      InTurn c (f :: rest) m := by
    refine .free ?_ (fun _ => busy) fun heq => absurd heq (accepts _)
    rintro _ hf
    obtain rfl := Option.some.inj hf
    exact control
  cases f with
  | submitting => exact ⟨.accepted, rfl, hfree rfl nofun⟩
  | connecting a => exact ⟨.unreachable default, rfl, .unreachable⟩
  | sending => exact ⟨.sent, rfl, .sent⟩
  | delivering => exact ⟨.returned, rfl, hfree rfl nofun⟩

theorem InTurn.onThread (turn : InTurn c thread m) : InTurn { c with stack := thread } thread m := by
  cases turn with
  | connected => exact .connected
  | unreachable => exact .unreachable
  | answer unresolved => exact .answer unresolved
  | abandon unresolved => exact .abandon unresolved
  | sent => exact .sent
  | unsent => exact .unsent
  | free control idle disposed => exact .free control idle disposed

/-- A move of a thread, with its calls as the stack. -/
def stepOn (c : Coordinator) (thread : List Frame) (m : Move) : Coordinator :=
  (({ c with stack := thread } : Coordinator).step m).coordinator

/-- What threads make of a new coordinator, each with its calls under way. -/
inductive Threaded (policy : OrderingPolicy) : Coordinator → (Nat → List Frame) → Prop where
  | start : Threaded policy { policy } fun _ => []
  | move {c : Coordinator} {threads : Nat → List Frame} {m : Move}
      (run : Threaded policy c threads) (i : Nat) (turn : InTurn c (threads i) m) :
      Threaded policy (c.stepOn (threads i) m)
        (Function.update threads i (c.stepOn (threads i) m).stack)

theorem Threaded.alone {moves : List Move} (h : Threaded policy c (Function.update (fun _ => []) i c.stack))
    (permitted : Permitted (fun c m => InTurn c c.stack m) c moves) :
    Threaded policy (c.run moves) (Function.update (fun _ => []) i (c.run moves).stack) := by
  induction moves generalizing c with
  | nil => exact h
  | cons m moves ih =>
      have hmove := h.move i (m := m) (by rw [Function.update_self]; exact permitted.1)
      rw [Function.update_self, Function.update_idem] at hmove
      exact ih hmove permitted.2

theorem congruence_below (rest : List Frame) :
    Congruence fun c c' => c' = { c with stack := c.stack ++ rest } where
  policy := by
    rintro c _ rfl
    rfl
  phases := by
    rintro c _ rfl
    rfl
  tasks := by
    rintro c _ rfl
    rfl
  attempts := by
    rintro c _ rfl
    rfl
  emit := by
    rintro c _ rfl e
    rfl
  setPhases := by
    rintro c _ rfl phases
    rfl
  setTasks := by
    rintro c _ rfl tasks
    rfl
  push := by
    rintro c _ rfl f
    rfl
  pop := by
    rintro c _ rfl f stack top
    exact ⟨stack ++ rest, congrArg (· ++ rest) top, rfl⟩
  addProbe := by
    rintro c _ rfl p
    rfl

theorem step_append (idle : m.returns = true → c.stack ≠ []) :
    (({ c with stack := c.stack ++ rest } : Coordinator).step m).coordinator =
      { (c.step m).coordinator with stack := (c.step m).coordinator.stack ++ rest } :=
  (congruence_below rest).step_of_probes rfl (fun returns hnil => absurd hnil (idle returns)) rfl
    fun _ => rfl

theorem InTurn.disposes (turn : InTurn c thread m) : Disposes { c with stack := thread ++ rest } m := by
  rintro error task k i below rfl top
  cases turn with
  | free _ idle disposed =>
      obtain ⟨f, others, rfl⟩ := List.exists_cons_of_ne_nil (idle rfl)
      obtain ⟨rfl, -⟩ := List.cons.inj top
      exact disposed rfl rfl

/-- What threads do together is a run. The stack of the coordinator is then made up of theirs. -/
theorem Threaded.exists_run (h : Threaded policy c threads) :
    ∃ (moves : List Move) (busy : List Nat), busy.Nodup ∧ (∀ j ∉ busy, threads j = []) ∧
      Run Disposes { policy } moves { c with stack := busy.flatMap threads } := by
  induction h with
  | start => exact ⟨[], [], .nil, fun _ _ => rfl, .nil⟩
  | @move c threads m _ i turn ih =>
      obtain ⟨moves, busy, nodup, idle, run⟩ := ih
      have hother : i ∉ busy.erase i := nodup.not_mem_erase
      have hperm : (threads i ++ (busy.erase i).flatMap threads).Perm (busy.flatMap threads) := by
        by_cases hi : i ∈ busy
        · exact ((List.perm_cons_erase hi).flatMap_right threads).symm
        · rw [List.erase_of_not_mem hi, idle i hi, List.nil_append]
      have hrun := (run.reorder hperm).move turn.disposes
      rw [step_append (c := { c with stack := threads i }) fun returns => turn.ne_nil returns] at hrun
      refine ⟨moves ++ [m], i :: busy.erase i, List.nodup_cons.mpr ⟨hother, nodup.erase i⟩, ?_, ?_⟩
      · intro j hj
        obtain ⟨hne, hj⟩ := not_or.mp (mt List.mem_cons.mpr hj)
        rw [Function.update_of_ne hne]
        exact idle j fun hmem => hj ((List.mem_erase_of_ne hne).mpr hmem)
      · have hrest : (busy.erase i).flatMap (Function.update threads i (c.stepOn (threads i) m).stack) =
            (busy.erase i).flatMap threads := by
          refine List.flatMap_congr fun j hj => ?_
          have hne : j ≠ i := fun heq => hother (heq ▸ hj)
          rw [Function.update_of_ne hne]
        rw [List.flatMap_cons, Function.update_self, hrest]
        exact hrun

theorem mem_flatMap_of_mem {busy : List Nat} (idle : ∀ j ∉ busy, threads j = []) {f : Frame}
    (hf : f ∈ threads i) : f ∈ busy.flatMap threads := by
  refine List.mem_flatMap.mpr ⟨i, ?_, hf⟩
  by_contra hi
  simp [idle i hi] at hf

end Coordinator
end Prefilter
