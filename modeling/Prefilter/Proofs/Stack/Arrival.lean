import Prefilter.Proofs.Phase.Admission
import Prefilter.Proofs.Stack.Journey

namespace Prefilter

open Coordinator Backend

variable {σ : Type} {b : Backend σ} {x : Course} {env : Environment} {s s₀ : Stack σ} {c : Coordinator}
  {f : Flight (Connection × ProbeRequest)} {i j n : Nat}

namespace Course

theorem leftAt_le {target : ShardTarget} (c : Coordinator) (listed : x.targets[i]? = some target) :
    x.leftAt c i ≤ target.copies.length := by
  rw [leftAt, listed]
  split
  · rename_i heq _
    obtain rfl := Option.some.inj heq
    exact Nat.sub_le _ _
  · exact Nat.zero_le _

theorem left_le_attemptBudget (h : x.IsOpen c) : x.left c ≤ Stack.attemptBudget c := by
  obtain ⟨p, hp, htargets, -⟩ := h
  have hlist : x.targets.map (·.copies.length) =
      (List.range x.targets.length).map fun i => (x.targets[i]?).elim 0 (·.copies.length) := by
    apply List.ext_getElem
    · simp
    · intro i hi hi'
      simp at hi hi' ⊢
      simp [hi]
  have hcopies : x.left c ≤ (p.targets.toList.map (·.copies.length)).sum := by
    rw [htargets, List.toList_toArray, hlist]
    apply List.sum_le_sum
    intro i hi
    have hi := List.mem_range.mp hi
    simpa [hi] using leftAt_le c (List.getElem?_eq_getElem hi)
  have hphase := add_le_foldl_of_getElem?
    (fun p : Phase => (p.targets.toList.map (·.copies.length)).sum) 0 hp
  have hbudget : Stack.attemptBudget c = c.phases.foldl (fun n p =>
      n + (p.targets.toList.map (·.copies.length)).sum) 0 := by
    simp only [Stack.attemptBudget, ← Array.foldl_toList, foldl_add_eq_sum]
  omega

end Course

namespace Underway

theorem isSome_result (h : Underway b x env n s) (all : min x.targets.length x.room ≤ n)
    (landed : s.runtime.carrier.flights = []) : (s.result? x.phase).isSome := by
  obtain ⟨moves, reached⟩ := h.reached
  obtain ⟨call, sound⟩ := reached.sound
  obtain ⟨p, hp, htargets, -⟩ := h.opened
  have hbalanced := sound.books.balanced hp
  have hclosed : p.openCount = 0 := by
    rw [Phase.openCount, Array.countP_eq_zero]
    intro slot hslot
    obtain ⟨i, hi⟩ := Array.getElem?_of_mem hslot
    have hlt : i < x.targets.length := by
      have hsize := (Array.getElem?_eq_some_iff.mp hi).1
      simpa [hbalanced.slots_size, htargets] using hsize
    rcases h.shard i hlt with ⟨hn, hroom⟩ | ⟨f, hf, -⟩ | ⟨target, -, hdone⟩
    · omega
    · simp [landed] at hf
    · have hs : s.coordinator.slot? x.phase i = some slot := slot?_eq_some.mpr ⟨p, hp, hi⟩
      obtain rfl := Option.some.inj (hs.symm.trans hdone)
      simp [Slot.isOpen_done]
  have hcompleted : p.completed = true := by
    rw [sound.books.completed_iff hp]
    exact ⟨hbalanced.outstanding_eq.trans hclosed, by simp [Duty.completes]⟩
  simp [Stack.result?, hp, sound.books.result_eq hp, hcompleted]

theorem pos_left_of_aloft (h : Underway b x env n s) (under : s.runtime.carrier.flights ≠ []) :
    0 < x.left s.coordinator := by
  obtain ⟨f, hf⟩ := List.exists_mem_of_ne_nil _ under
  obtain ⟨i, j, -, ha⟩ := h.flight f hf
  obtain ⟨target, node, listed, copy, -⟩ := ha.bound
  have hlt := (List.getElem?_eq_some_iff.mp copy).1
  have hmem : x.leftAt s.coordinator i ∈ (List.range x.targets.length).map (x.leftAt s.coordinator) :=
    List.mem_map_of_mem (List.mem_range.mpr (List.getElem?_eq_some_iff.mp listed).1)
  have hle := List.single_le_sum (fun _ _ => Nat.zero_le _) _ hmem
  rw [Course.leftAt_of_copy listed ha.slot] at hle
  exact Nat.lt_of_lt_of_le (Nat.sub_pos_of_lt hlt) hle

section found

variable (h : Underway b x env n s) (found : (s.result? x.phase).isSome)

include h found

theorem cursor_eq_done {slot : Slot} (hs : s.coordinator.slot? x.phase i = some slot) :
    slot.cursor = .done := by
  obtain ⟨moves, reached⟩ := h.reached
  obtain ⟨call, sound⟩ := reached.sound
  obtain ⟨p, hp, hslot⟩ := slot?_eq_some.mp hs
  have hcompleted : p.completed = true := by
    by_contra hopen
    simp [Stack.result?, hp, sound.books.result_eq hp, hopen] at found
  exact (sound.books.balanced hp).cursor_eq_done ((sound.books.completed_iff hp).mp hcompleted).1 hslot

theorem flights_eq_nil : s.runtime.carrier.flights = [] := by
  by_contra under
  obtain ⟨f, hf⟩ := List.exists_mem_of_ne_nil _ under
  obtain ⟨i, j, -, ha⟩ := h.flight f hf
  cases h.cursor_eq_done found ha.slot

theorem all_polled : min x.targets.length x.room ≤ n := by
  by_contra hlt
  obtain ⟨-, hslot⟩ := h.waiting n (by omega) (Nat.le_refl n) (by omega)
  cases h.cursor_eq_done found hslot

theorem isSettled (hi : i < x.targets.length) : x.IsSettled env s.coordinator i := by
  have hall := h.all_polled found
  rcases h.shard i hi with ⟨hn, hroom⟩ | ⟨f, hf, -⟩ | hsettled
  · omega
  · simp [h.flights_eq_nil found] at hf
  · exact hsettled

end found

/-- A result is that of the outcomes which the environment determines, and with it the stack is idle. -/
theorem result_eq (h : Underway b x env n s) {result : OrderedShards}
    (found : s.result? x.phase = some result) :
    result = x.policy.order (env.outcomes x.targets) x.request.sort ∧
      s.Idle x.policy x.permits x.room x.timeout := by
  have hfound : (s.result? x.phase).isSome := Option.isSome_of_eq_some found
  obtain ⟨moves, reached⟩ := h.reached
  obtain ⟨call, sound⟩ := reached.sound
  obtain ⟨p, hp, htargets, hrequest⟩ := h.opened
  have hbalanced := sound.books.balanced hp
  have hresult : result = s.coordinator.resultOf p := by
    have hdelivered : p.result = some result := by simpa [Stack.result?, hp] using found
    rw [sound.books.result_eq hp] at hdelivered
    split at hdelivered
    · exact (Option.some.inj hdelivered).symm
    · cases hdelivered
  have houtcomes : p.outcomes = env.outcomes x.targets := by
    have hsize : p.slots.size = x.targets.length := by rw [hbalanced.slots_size, htargets]; simp
    apply List.ext_getElem?
    intro i
    rw [Environment.getElem?_outcomes]
    by_cases hi : i < x.targets.length
    · obtain ⟨target, hlisted, hslot⟩ := h.isSettled hfound hi
      obtain ⟨q, hq, hslot⟩ := slot?_eq_some.mp hslot
      obtain rfl := Option.some.inj (hp.symm.trans hq)
      rw [hlisted, Option.map_some, Phase.getElem?_outcomes]
      exact ⟨_, by simpa [htargets] using hlisted, hslot, rfl⟩
    · have hnone : p.outcomes[i]? = none := by
        simp only [Phase.outcomes, List.getElem?_map, Option.map_eq_none_iff, List.getElem?_eq_none_iff]
        simp [htargets, hsize]
        omega
      rw [hnone, List.getElem?_eq_none_iff.mpr (Nat.le_of_not_lt hi), Option.map_none]
  refine ⟨by rw [hresult, resultOf, Reachable.policy_eq reached, houtcomes, hrequest], ?_⟩
  have hlanded := h.flights_eq_nil hfound
  have hpool := h.pool
  rw [Nat.sub_eq_zero_of_le (h.all_polled hfound)] at hpool
  refine ⟨h.reached, h.returned, hpool, h.size_eq, ?_⟩
  have halive := h.alive
  have hlimit := h.limit
  generalize s.runtime.carrier = carrier at halive hlimit hlanded
  cases carrier
  simp_all

theorem pause (h : Underway b x env n s) (all : min x.targets.length x.room ≤ n) :
    s.runtime.pool.turn.2 = none ∧ Underway b x env n (s.setPool s.runtime.pool.turn.1) := by
  have hpool := h.pool
  rw [Nat.sub_eq_zero_of_le all] at hpool
  obtain ⟨hturn, hready, hstages⟩ := hpool.turn_nil
  refine ⟨hturn, { h with pool := ?_, size_eq := (congrArg Array.size hstages).trans h.size_eq }⟩
  rw [Nat.sub_eq_zero_of_le all]
  exact hready

end Underway

/-- How a stack comes about from the one at which a phase has started: its tasks are polled in turn, and
its probes land in the order in which they are due. -/
inductive Way (b : Backend σ) (x : Course) (s₀ : Stack σ) : Nat → Stack σ → Prop
  | start : Way b x s₀ 0 s₀
  | poll {n : Nat} {s : Stack σ} (before : Way b x s₀ n s) (listed : n < x.targets.length)
      (room : n < x.room) (now : s.runtime.carrier.now = x.began) :
      Way b x s₀ (n + 1) ((s.setPool s.runtime.pool.turn.1).poll b (x.firstTask + n))
  | pause {n : Nat} {s : Stack σ} (before : Way b x s₀ n s) (all : min x.targets.length x.room ≤ n) :
      Way b x s₀ n (s.setPool s.runtime.pool.turn.1)
  | land {n : Nat} {s : Stack σ} {f : Flight (Connection × ProbeRequest)} (before : Way b x s₀ n s)
      (mem : f ∈ s.runtime.carrier.flights) (first : ∀ g ∈ s.runtime.carrier.flights, f.due ≤ g.due) :
      Way b x s₀ n ((s.landed f s.runtime.backend).land b f)

namespace Way

variable (steady : b.Steady x env) (permits : 0 < x.permits) (started : Underway b x env 0 s₀)
  (way : Way b x s₀ n s)

include steady permits started way

theorem underway : Underway b x env n s := by
  induction way with
  | start => exact started
  | poll _ listed room now ih => exact (ih.poll steady permits listed room now).2.1
  | pause _ all ih => exact (ih.pause all).2
  | land _ mem first ih =>
      obtain ⟨i, j, -, ha⟩ := ih.flight _ mem
      obtain ⟨target, -, listed, -⟩ := ha.bound
      exact (ih.land_first steady mem first ha listed).1

theorem landWhile {going : Coordinator → Bool} {time fuel : Nat}
    (hgoing : ∀ c, going c = (c.phases[x.phase]?.bind (·.result)).isNone)
    (intime : ∀ target ∈ x.targets, x.began + target.copies.length * x.span ≤ time)
    (all : min x.targets.length x.room ≤ n) (hfuel : x.left s.coordinator ≤ fuel) :
    Way b x s₀ n (s.landWhile b going time fuel) ∧
      ((s.landWhile b going time fuel).result? x.phase).isSome := by
  induction fuel generalizing s with
  | zero =>
      have h := way.underway steady permits started
      refine ⟨way, h.isSome_result all ?_⟩
      by_contra under
      exact Nat.not_lt.mpr hfuel (h.pos_left_of_aloft under)
  | succ fuel ih =>
      have h := way.underway steady permits started
      by_cases hresult : (s.result? x.phase).isSome
      · have hstop : going s.coordinator = false := by
          rw [hgoing]
          simpa [Stack.result?] using hresult
        rw [Stack.landWhile, hstop]
        exact ⟨way, hresult⟩
      · have hgo : going s.coordinator = true := by
          rw [hgoing]
          simpa [Stack.result?] using hresult
        have hunder : s.runtime.carrier.flights ≠ [] := fun hnil => hresult (h.isSome_result all hnil)
        have hdue : ∀ f ∈ s.runtime.carrier.flights, f.due ≤ time := by
          intro f hf
          obtain ⟨i, j, -, ha⟩ := h.flight f hf
          obtain ⟨target, node, listed, copy, -⟩ := ha.bound
          have hcopies : (j + 1) * x.span ≤ target.copies.length * x.span :=
            Nat.mul_le_mul_right _ (List.getElem?_eq_some_iff.mp copy).1
          have htime := intime target (List.mem_of_getElem? listed)
          have hle := ha.due_le
          omega
        obtain ⟨f, hf, hfirst, hland⟩ := Carrier.land?_of_due hunder hdue
        obtain ⟨i, j, -, ha⟩ := h.flight f hf
        obtain ⟨target, node, listed, copy, -⟩ := ha.bound
        have hless := (h.land_first steady hf hfirst ha listed).2.left_lt listed copy ha.slot
        have hstep : s.landWhile b going time (fuel + 1) =
            ((s.landed f s.runtime.backend).land b f).landWhile b going time fuel := by
          rw [Stack.landWhile, hgo, hland, Nat.max_eq_right (h.clock f hf)]
          rfl
        rw [hstep]
        exact ih (way.land hf hfirst) (by omega)

theorem await {limit : Nat} (now : s.runtime.carrier.now = x.began)
    (all : min x.targets.length x.room ≤ n)
    (intime : ∀ target ∈ x.targets, target.copies.length * x.span < limit) :
    Way b x s₀ n (s.await b x.phase limit) ∧ ((s.await b x.phase limit).result? x.phase).isSome := by
  have htime (target : ShardTarget) (hmem : target ∈ x.targets) :
      x.began + target.copies.length * x.span ≤ x.began + limit - 1 := by
    have hlt := intime target hmem
    omega
  obtain ⟨hlanded, hfound⟩ := way.landWhile steady permits started (fun _ => rfl) htime all
    (Course.left_le_attemptBudget (way.underway steady permits started).opened)
  rw [Stack.await, now, if_pos hfound]
  exact ⟨hlanded, hfound⟩

theorem driveFor {fuel m : Nat} (now : s.runtime.carrier.now = x.began)
    (left : n + m = min x.targets.length x.room) (hfuel : m < fuel) :
    Way b x s₀ (n + m) (s.driveFor b fuel) ∧ (s.driveFor b fuel).runtime.carrier.now = x.began := by
  induction m generalizing n s fuel with
  | zero =>
      obtain ⟨fuel, rfl⟩ := Nat.exists_eq_add_of_le' hfuel
      have hall : min x.targets.length x.room ≤ n := Nat.le_of_eq left.symm
      obtain ⟨hturn, -⟩ := (way.underway steady permits started).pause hall
      have hstop : s.driveFor b (fuel + 1) = s.setPool s.runtime.pool.turn.1 := by
        rw [Stack.driveFor, show s.runtime.pool.turn = (s.runtime.pool.turn.1, none) from
          Prod.ext rfl hturn]
      rw [hstop]
      exact ⟨way.pause hall, now⟩
  | succ m ih =>
      obtain ⟨fuel, rfl⟩ := Nat.exists_eq_add_of_le' (show 1 ≤ fuel by omega)
      have hlisted : n < x.targets.length := by omega
      have hroom : n < x.room := by omega
      obtain ⟨hturn, -, hnow, -⟩ :=
        (way.underway steady permits started).poll steady permits hlisted hroom now
      have hstep : s.driveFor b (fuel + 1) =
          ((s.setPool s.runtime.pool.turn.1).poll b (x.firstTask + n)).driveFor b fuel := by
        rw [Stack.driveFor, show s.runtime.pool.turn =
          (s.runtime.pool.turn.1, some (x.firstTask + n)) from Prod.ext rfl hturn]
      rw [hstep, show n + (m + 1) = n + 1 + m by omega]
      exact ih (way.poll hlisted hroom now) hnow (by omega) (by omega)

end Way

theorem HandedOver.underway {r₀ : Runtime σ} (steady : b.Steady x env)
    (handed : HandedOver x r₀ x.targets.length s.runtime s.coordinator)
    (reached : ∃ moves, Reachable x.policy moves s.coordinator)
    (carrier : s.runtime.carrier = { now := x.began, limit := x.timeout }) :
    Underway b x env 0 s := by
  have hflights : s.runtime.carrier.flights = [] := by rw [carrier]
  have hnone (f : Flight (Connection × ProbeRequest)) : f ∉ s.runtime.carrier.flights := by
    rw [hflights]
    exact List.not_mem_nil
  constructor
  case toAtRest =>
    refine ⟨reached, handed.opened, handed.returned, ?_, handed.size_eq, ?_, ?_⟩
    · exact handed.pool
    · rw [carrier]
    · rw [carrier]
  case clock => exact fun f hf => absurd hf (hnone f)
  case waiting =>
    intro i hi _ hroom
    exact ⟨handed.tasks i hi hroom, by rw [handed.slots i hi, if_pos (.inl hroom)]⟩
  case flight => exact fun f hf => absurd hf (hnone f)
  case apart => exact fun f hf => absurd hf (hnone f)
  case shard =>
    intro i hi
    by_cases hroom : i < x.room
    · exact .inl ⟨Nat.zero_le i, hroom⟩
    · refine .inr (.inr ⟨x.targets[i], List.getElem?_eq_getElem hi, ?_⟩)
      have hfate : env.fate i ≠ .run := by
        rw [steady.fate_eq, if_neg hroom]
        nofun
      rw [handed.slots i hi, if_neg (by omega), env.outcome_of_not_run hfate]

namespace Stack

variable {policy : OrderingPolicy} {permits room limit delay : Nat} {timeout : Option Nat}
  {targets : List ShardTarget} {request : SearchRequest}

theorem advance_zero (landed : s.runtime.carrier.flights = []) : s.advance b 0 = s := by
  have hstop (fuel : Nat) :
      s.landWhile b (fun _ => true) (s.runtime.carrier.now + 0) fuel = s := by
    cases fuel with
    | zero => rfl
    | succ fuel => rw [landWhile, if_pos rfl, Carrier.land?_of_flights_eq_nil landed]
  rw [advance, hstop]
  rfl

theorem Idle.exists_way (idle : s.Idle policy permits room timeout) (hpermits : 0 < permits)
    (hroom : 0 < room) (admitted : startFault? targets request = none)
    (steady : b.Steady (s.course policy permits room timeout delay targets request) env)
    (intime : ∀ target ∈ targets,
      target.copies.length * (Carrier.duration timeout delay).1 < limit) :
    let started := s.start b targets request
    let ended := if (started.result? s.coordinator.phases.size).isSome then started
      else ((started.advance b 0).drive b).await b s.coordinator.phases.size limit
    Underway b (s.course policy permits room timeout delay targets request) env 0 started ∧
      ∃ n, Way b (s.course policy permits room timeout delay targets request) started n ended ∧
        (ended.result? s.coordinator.phases.size).isSome := by
  intro started ended
  let x := s.course policy permits room timeout delay targets request
  have hhanded : HandedOver x s.runtime targets.length started.runtime started.coordinator :=
    idle.start hroom admitted
  obtain ⟨made, hmade⟩ := s.exists_run_move b (.start targets request)
  have hreached : ∃ moves, Reachable policy moves started.coordinator := by
    obtain ⟨moves, reached⟩ := idle.reached
    exact ⟨_, reached.append hmade⟩
  have hcarrier : started.runtime.carrier = { now := x.began, limit := x.timeout } := by
    have heq := congrArg (·.carrier) hhanded.runtime_eq
    exact heq.trans idle.carrier
  have hstarted : Underway b x env 0 started := HandedOver.underway steady hhanded hreached hcarrier
  refine ⟨hstarted, ?_⟩
  -- If nothing was handed over, the result is there at once.
  by_cases hdone : (started.result? x.phase).isSome
  · have heq : ended = started := if_pos hdone
    exact ⟨0, heq ▸ .start, heq ▸ hdone⟩
  · have heq : ended = (started.drive b).await b x.phase limit := by
      rw [← advance_zero (b := b) (show started.runtime.carrier.flights = [] by rw [hcarrier])]
      exact if_neg hdone
    have hturns : min x.targets.length x.room < started.runtime.pool.turnBudget := by
      have hsize := hhanded.size_eq.trans hhanded.tasks_size
      have hmin := Nat.min_le_left x.targets.length x.room
      rw [Pool.turnBudget, hsize]
      change _ < 2 * (x.firstTask + x.targets.length) + 1
      omega
    obtain ⟨hdriven, hnow⟩ := Way.driveFor steady hpermits hstarted .start (by rw [hcarrier])
      (Nat.zero_add _) hturns
    rw [Nat.zero_add] at hdriven
    rw [heq]
    exact ⟨_, hdriven.await steady hpermits hstarted hnow (Nat.le_refl _) intime⟩

/-- A phase over an idle stack comes to the outcomes that its copies give, and leaves the stack idle. -/
theorem Idle.settles (idle : s.Idle policy permits room timeout) (hpermits : 0 < permits)
    (hroom : 0 < room) (admitted : startFault? targets request = none)
    (steady : b.Steady (s.course policy permits room timeout delay targets request) env)
    (intime : ∀ target ∈ targets,
      target.copies.length * (Carrier.duration timeout delay).1 < limit) :
    let started := s.start b targets request
    let ended := if (started.result? s.coordinator.phases.size).isSome then started
      else ((started.advance b 0).drive b).await b s.coordinator.phases.size limit
    ended.result? s.coordinator.phases.size =
        some (policy.order (env.outcomes targets) request.sort) ∧
      ended.Idle policy permits room timeout := by
  intro started ended
  obtain ⟨hstarted, n, hway, hfound⟩ := idle.exists_way hpermits hroom admitted steady intime
  obtain ⟨result, hresult⟩ := Option.isSome_iff_exists.mp hfound
  obtain ⟨rfl, hidle⟩ := (hway.underway steady hpermits hstarted).result_eq hresult
  exact ⟨hresult, hidle⟩

end Stack
end Prefilter
