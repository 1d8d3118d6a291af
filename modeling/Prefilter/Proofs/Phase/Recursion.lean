import Prefilter.Proofs.Phase.Cost

namespace Prefilter.Coordinator

variable {c c' : Coordinator} {m : Move} {f : Frame} {a b : Attempt} {k s i n t budget : Nat}
  {target : ShardTarget} {policy : OrderingPolicy} {threads threads' : Nat → List Frame}
  {call call' : Option Frame} {base thread nested own : List Frame}

/-- The next phase has been called on top of some calls, and a move is not its return. -/
def InNextPhase (base thread : List Frame) (m : Move) : Prop :=
  ∃ above phase caller below, thread = above ++ .delivering phase caller :: (below ++ base) ∧
    (above = [] → m ≠ .returned)

/-- What threads do once a dispatch has begun on one of them, on top of its calls. The moves are counted
that the dispatch makes before it is over; what other threads and the next phase do is left aside. -/
inductive Dispatching (i : Nat) (base : List Frame) (start : Coordinator)
    (calls : Nat → List Frame) : Nat → Coordinator → (Nat → List Frame) → Prop where
  | begun : Dispatching i base start calls 0 start calls
  | aside {n : Nat} {c : Coordinator} {threads : Nat → List Frame} {m : Move}
      (run : Dispatching i base start calls n c threads) (j : Nat) (turn : InTurn c (threads j) m)
      (other : j ≠ i ∨ InNextPhase base (threads i) m) :
      Dispatching i base start calls n (c.stepOn (threads j) m)
        (Function.update threads j (c.stepOn (threads j) m).stack)
  | own {n : Nat} {c : Coordinator} {threads : Nat → List Frame} {m : Move}
      (run : Dispatching i base start calls n c threads) (turn : InTurn c (threads i) m)
      (going : threads i ≠ base) (within : ¬ InNextPhase base (threads i) m) :
      Dispatching i base start calls (n + 1) (c.stepOn (threads i) m)
        (Function.update threads i (c.stepOn (threads i) m).stack)

theorem Dispatching.threaded {start : Coordinator} {calls : Nat → List Frame}
    (h : Dispatching i base start calls n c threads) (first : Threaded policy start calls) :
    Threaded policy c threads := by
  induction h with
  | begun => exact first
  | aside _ j turn _ ih => exact ih.move j turn
  | own _ turn _ _ ih => exact ih.move i turn

theorem Progress.exists_stack {d d' : Duty} (hp : Progress c d c' d') :
    ∃ pushed, c'.stack = pushed ++ c.stack := by
  cases hp with
  | submit | complete | connect | send => exact ⟨[_], rfl⟩
  | _ => exact ⟨[], rfl⟩

/-- What a move leaves of the calls under way: all of them, or all but the latest, which is one to the
next phase only if the move is its return. -/
def Leaves (m : Move) (thread rest : List Frame) : Prop :=
  rest = thread ∨ ∃ f, thread = f :: rest ∧ ∀ phase caller, f = .delivering phase caller → m = .returned

theorem Intake.leaves {d : Duty} (hi : Intake c m c' d) : Leaves m c.stack c'.stack := by
  cases hi with
  | accepted top | refused top | connected top | unreachable top | sent top | unsent top =>
      exact .inr ⟨_, top, fun _ _ => nofun⟩
  | returned top => exact .inr ⟨_, top, fun _ _ _ => rfl⟩
  | _ => exact .inl rfl

theorem Sound.exists_leaves (sound : c.Sound (.rest call)) (m : Move) :
    ∃ pushed rest, (c.step m).coordinator.stack = pushed ++ rest ∧ Leaves m c.stack rest := by
  refine sound.step_induction
    (P := fun c' _ => ∃ pushed rest, c'.stack = pushed ++ rest ∧ Leaves m c.stack rest) ?_ ?_
  · rintro _ _ _ _ - ⟨pushed, rest, hstack, hleaves⟩ hp
    obtain ⟨more, hmore⟩ := hp.exists_stack
    exact ⟨more ++ pushed, rest, by rw [hmore, hstack, List.append_assoc], hleaves⟩
  · exact fun hi => ⟨[], _, rfl, hi.leaves⟩

/-- A dispatch is under way on a thread, on top of `base`, with what the next phase has called on top of
that. -/
structure Occupied (c : Coordinator) (k s budget : Nat) (base thread nested own : List Frame) :
    Prop where
  thread_eq : thread = nested ++ (own ++ base)
  above : nested ≠ [] → ∃ phase caller below, own = .delivering phase caller :: below
  calls : Calls c.probes k s (.rest none) own
  cost_le : c.cost k s (.rest none) own ≤ budget

theorem Calls.of_marksStay {probes probes' : Array Probe} (h : Calls probes k s (.rest call) own)
    (hmarks : MarksStay probes probes') : Calls probes' k s (.rest call') own := by
  cases h with
  | probing _ busy => exact .probing trivial fun f hf => hmarks.isBusyAt (busy f hf)
  | delivering last busy => exact .delivering last fun f hf => hmarks.isBusyAt (busy f hf)

theorem cost_rest_le (hmarks : MarksStay c.probes c'.probes) (hle : c'.outlook k s ≤ c.outlook k s)
    (own : List Frame) : c'.cost k s (.rest call') own ≤ c.cost k s (.rest call) own :=
  Nat.add_le_add (Nat.add_le_add_left (hmarks.sum_toll_le own) 0) hle

theorem Occupied.carry {thread' nested' : List Frame}
    (h : c.Occupied k s budget base thread nested own) (hmarks : MarksStay c.probes c'.probes)
    (hle : c'.outlook k s ≤ c.outlook k s) (thread_eq : thread' = nested' ++ (own ++ base))
    (above : nested' ≠ [] → ∃ phase caller below, own = .delivering phase caller :: below) :
    c'.Occupied k s budget base thread' nested' own where
  thread_eq := thread_eq
  above := above
  calls := h.calls.of_marksStay hmarks
  cost_le := Nat.le_trans (cost_rest_le hmarks hle own) h.cost_le

theorem Underway.occupied (h : c.Underway k s budget base (.rest call)) :
    ∃ own, c.Occupied k s budget base c.stack [] own := by
  obtain ⟨own, hstack, hcalls, hcost⟩ := h
  exact ⟨own, hstack, nofun, hcalls.of_marksStay (.refl _), hcost⟩

theorem Calls.above_eq_nil {probes : Array Probe} (h : Calls probes k s (.rest call) own)
    {above below : List Frame} {phase : Nat} {caller : Caller}
    (eq : own = above ++ .delivering phase caller :: below) : above = [] := by
  have hnot {g : Frame} (busy : g.IsBusyAt probes k s) : g ≠ .delivering phase caller := by
    rintro rfl
    obtain ⟨a, ha, -⟩ := busy
    cases ha
  have hmem : .delivering phase caller ∈ above ++ .delivering phase caller :: below :=
    List.mem_append_right _ List.mem_cons_self
  cases h with
  | probing _ busy => exact absurd rfl (hnot (busy _ (eq ▸ hmem)))
  | delivering _ busy =>
      cases above with
      | nil => rfl
      | cons g above =>
          obtain ⟨-, rfl⟩ := List.cons.inj eq
          exact absurd rfl (hnot (busy _ (List.mem_append_right _ List.mem_cons_self)))

/-- The next phase stays above the dispatch that has called it. -/
theorem Occupied.exists_nested {rest : List Frame}
    (h : c.Occupied k s budget base thread nested own) (pushed : List Frame)
    (inNext : InNextPhase base thread m) (leaves : Leaves m thread rest) :
    ∃ nested', pushed ++ rest = nested' ++ (own ++ base) ∧
      ∃ phase caller below, own = .delivering phase caller :: below := by
  cases nested with
  | nil =>
      obtain ⟨above, phase, caller, below, hthread, hreturn⟩ := inNext
      have hsame : own ++ base = (above ++ .delivering phase caller :: below) ++ base := by
        rw [← List.nil_append (own ++ base), ← h.thread_eq, hthread, List.append_assoc]
        rfl
      have hown := List.append_cancel_right hsame
      obtain rfl := h.calls.above_eq_nil hown
      refine ⟨pushed, ?_, phase, caller, below, hown⟩
      rcases leaves with rfl | ⟨f, htop, hreturned⟩
      · exact congrArg (pushed ++ ·) h.thread_eq
      · rw [hthread] at htop
        obtain ⟨rfl, -⟩ := List.cons.inj htop
        exact absurd (hreturned _ _ rfl) (hreturn rfl)
  | cons g nested =>
      have habove := h.above (List.cons_ne_nil _ _)
      rcases leaves with rfl | ⟨f, htop, -⟩
      · exact ⟨pushed ++ g :: nested, by rw [h.thread_eq, List.append_assoc], habove⟩
      · rw [h.thread_eq] at htop
        obtain ⟨-, rfl⟩ := List.cons.inj htop
        exact ⟨pushed ++ nested, (List.append_assoc ..).symm, habove⟩

theorem Occupied.spend (h : c.Occupied k s budget base thread nested own)
    (sound : Sound { c with stack := thread } (.rest none)) (ht : c.target? k s = some target)
    (turn : InTurn c thread m) (going : thread ≠ base) (within : ¬ InNextPhase base thread m) :
    ∃ left own', left + 1 ≤ budget ∧
      (c.stepOn thread m).Occupied k s left base (c.stepOn thread m).stack [] own' := by
  -- Were there calls above the dispatch, the move would be one in the next phase.
  have hnested : nested = [] := by
    by_contra hne
    obtain ⟨phase, caller, below, rfl⟩ := h.above hne
    exact within ⟨nested, phase, caller, below, h.thread_eq, fun hnil => absurd hnil hne⟩
  subst hnested
  cases own with
  | nil => exact absurd h.thread_eq going
  | cons f own =>
      obtain ⟨pays, busy⟩ : Pays { c with stack := thread } m k s f (own ++ base) ∧
          ∀ g ∈ own, g.IsBusyAt c.probes k s := by
        cases h.calls with
        | probing _ busy =>
            obtain ⟨hf, hown⟩ := List.forall_mem_cons.mp busy
            exact ⟨InTurn.pays (c := { c with stack := thread }) turn.onThread sound h.thread_eq hf, hown⟩
        | @delivering _ caller _ last busy =>
            obtain rfl : m = .returned := by
              by_contra hne
              exact within ⟨[], k, caller, own, h.thread_eq, fun _ => hne⟩
            exact ⟨pays_returned (c := { c with stack := thread }) h.thread_eq last, busy⟩
      obtain ⟨left, hleft, underway⟩ := Underway.move sound ht pays busy
      obtain ⟨own', occupied⟩ := underway.occupied
      exact ⟨left, own', Nat.le_trans hleft h.cost_le, occupied⟩

/-- A dispatch stays within its budget for as long as it goes on. -/
theorem Dispatching.occupied {start : Coordinator} {calls : Nat → List Frame}
    (h : Dispatching i base start calls n c threads) (threaded : Threaded policy start calls)
    (ht : start.target? k s = some target)
    (first : ∃ own, start.Occupied k s budget base (calls i) [] own) :
    c.target? k s = some target ∧ ∃ left nested own, left + n ≤ budget ∧
      c.Occupied k s left base (threads i) nested own := by
  induction h with
  | begun =>
      obtain ⟨own, occupied⟩ := first
      exact ⟨ht, budget, [], own, Nat.le_refl _, occupied⟩
  | @aside n c threads m run j turn other ih =>
      obtain ⟨ht, left, nested, own, hle, occupied⟩ := ih
      have hthreaded := run.threaded threaded
      have sound := (hthreaded.orderly j).sound
      obtain ⟨hmarks, houtlook⟩ := sound.outlook_step m ht
      refine ⟨(hthreaded.extends_stepOn j m).target? ht, left, ?_⟩
      by_cases hj : j = i
      · -- The next phase moves: it calls and returns, but not from the call of the dispatch.
        subst hj
        have inNext := other.resolve_left fun hne => hne rfl
        obtain ⟨pushed, rest, hstack, leaves⟩ := sound.exists_leaves m
        obtain ⟨nested', hnested, above⟩ := occupied.exists_nested pushed inNext leaves
        refine ⟨nested', own, hle, ?_⟩
        rw [Function.update_self]
        exact occupied.carry hmarks houtlook (hstack.trans hnested) fun _ => above
      · refine ⟨nested, own, hle, ?_⟩
        rw [Function.update_of_ne (Ne.symm hj)]
        exact occupied.carry hmarks houtlook occupied.thread_eq occupied.above
  | @own n c threads m run turn going within ih =>
      obtain ⟨ht, left, nested, own, hle, occupied⟩ := ih
      have hthreaded := run.threaded threaded
      obtain ⟨left', own', hless, hoccupied⟩ :=
        occupied.spend (hthreaded.orderly i).sound ht turn going within
      refine ⟨(hthreaded.extends_stepOn i m).target? ht, left', [], own', by omega, ?_⟩
      rw [Function.update_self]
      exact hoccupied

/-- A dispatch makes three moves for each copy at most, and one for the end of its phase. -/
theorem Threaded.dispatching_le (h : Threaded policy c threads) (turn : InTurn c (threads i) (.run t))
    (pending : c.IsPending t k s)
    (run : Dispatching i (threads i) (c.stepOn (threads i) (.run t))
      (Function.update threads i (c.stepOn (threads i) (.run t)).stack) n c' threads') :
    (∃ above, threads' i = above ++ threads i ∧
      (above ≠ [] → ∃ next, next.returns = true ∧ InTurn c' (threads' i) next)) ∧
      n ≤ 3 * c.copyCount k s + 1 := by
  obtain ⟨sound, -, fresh⟩ := h.orderly i
  obtain ⟨target, ht⟩ : ∃ target, c.target? k s = some target := sound.grounded.tasks pending
  have hstart : ∃ own, (c.stepOn (threads i) (.run t)).Occupied k s (3 * target.copies.length + 1)
      (threads i) (Function.update threads i (c.stepOn (threads i) (.run t)).stack i) [] own := by
    rw [Function.update_self]
    exact (underway_run sound pending (fresh pending) ht).occupied
  obtain ⟨-, left, nested, own, hle, occupied⟩ :=
    run.occupied (h.move i turn) ((h.extends_stepOn i _).target? ht) hstart
  have hthread : threads' i = nested ++ own ++ threads i := by
    rw [occupied.thread_eq, List.append_assoc]
  refine ⟨⟨nested ++ own, hthread, fun going => exists_inTurn_returns c' ?_⟩, ?_⟩
  · rw [hthread]
    exact List.append_ne_nil_of_left_ne_nil going _
  · rw [copyCount_of_target? ht]
    omega

theorem Begins.copy_le (h : Begins c m a) (sound : c.Sound (.rest call)) :
    a.copy ≤ c.copyCount a.phase a.slot := by
  have hnext {q : Nat} {b : Attempt} (unresolved : c.IsUnresolved q b) :
      b.next.copy ≤ c.copyCount b.next.phase b.next.slot := by
    obtain ⟨p, hp, -, rfl⟩ := unresolved
    obtain ⟨-, target, node, -, hdest, -⟩ := sound.grounded.probes hp
    obtain ⟨ht, hcopy⟩ := exists_target?_of_destination? hdest
    rw [copyCount_of_target? (k := p.attempt.next.phase) (i := p.attempt.next.slot) ht]
    exact (List.getElem?_eq_some_iff.mp hcopy).1
  cases h with
  | run => exact Nat.zero_le _
  | answer unresolved | abandon unresolved => exact hnext unresolved

theorem length_filter_le {attempts : List Attempt} {copy : Nat}
    (down : attempts.Pairwise fun a b => b.phase = a.phase → b.slot = a.slot ∧ b.copy < a.copy)
    (below : ∀ b ∈ attempts, b.phase = k → b.copy < copy) :
    (attempts.filter (·.phase = k)).length ≤ copy := by
  have hnodup : ((attempts.filter (·.phase = k)).map (·.copy)).Nodup := by
    refine List.pairwise_map.mpr (List.Pairwise.imp_of_mem ?_ (down.filter _))
    intro a b ha hb hdown
    have hphase : b.phase = a.phase := by
      simpa using (of_decide_eq_true (List.mem_filter.mp hb).2).trans
        (of_decide_eq_true (List.mem_filter.mp ha).2).symm
    exact Nat.ne_of_gt (hdown hphase).2
  have hsub : (attempts.filter (·.phase = k)).map (·.copy) ⊆ List.range copy := by
    intro n hn
    obtain ⟨b, hb, rfl⟩ := List.mem_map.mp hn
    obtain ⟨hmem, hphase⟩ := List.mem_filter.mp hb
    exact List.mem_range.mpr (below b hmem (of_decide_eq_true hphase))
  simpa using (List.subperm_of_subset hnodup hsub).length_le

theorem Threaded.begins (h : Threaded policy c threads) (turn : InTurn c (threads i) m)
    (begins : Begins c m a) :
    (∀ b ∈ dispatches c.probes (threads i), b.phase = a.phase → b.slot = a.slot ∧ b.copy < a.copy) ∧
      ((dispatches c.probes (threads i)).filter (·.phase = a.phase)).length + 1 ≤
        c.copyCount a.phase a.slot + 1 := by
  have orderly := h.orderly i
  have hthread : Begins { c with stack := threads i } m a := by
    cases begins with
    | run pending => exact .run pending
    | answer unresolved current => exact .answer unresolved current
    | abandon unresolved current => exact .abandon unresolved current
  have fits := InTurn.fits (c := { c with stack := threads i }) turn.onThread (h.nested i) orderly hthread
  have hinner := fits.inner a rfl
  refine ⟨hinner, Nat.succ_le_succ (Nat.le_trans ?_ (hthread.copy_le orderly.sound))⟩
  exact length_filter_le (h.nested i).pairwise_dispatches fun b hb hphase => (hinner b hb hphase).2

/-- Failover is bounded by the copies. Of the dispatches of one phase that are open on a thread, the
inner ones are of the same shard as the outer ones, at later copies; the one that begins is no exception,
and there is one more of them than the shard has copies at most. A task that is run makes three moves for
each copy at most, and one for the end of its phase, what the next phase does left aside; until it is over
it only waits for calls to return. An executor that runs a task as it is handed it finds no dispatch of
its phase open. -/
theorem failover_bounded (h : Threaded policy c threads) (i : Nat) (turn : InTurn c (threads i) m) :
    ((dispatches c.probes (threads i)).Pairwise fun inner outer =>
      outer.phase = inner.phase → outer.slot = inner.slot ∧ outer.copy < inner.copy) ∧
    (∀ a, Begins c m a →
      (∀ b ∈ dispatches c.probes (threads i), b.phase = a.phase →
        b.slot = a.slot ∧ b.copy < a.copy) ∧
      ((dispatches c.probes (threads i)).filter (·.phase = a.phase)).length + 1 ≤
        c.copyCount a.phase a.slot + 1) ∧
    (∀ t k s n c' threads', m = .run t → c.IsPending t k s →
      Dispatching i (threads i) (c.stepOn (threads i) m)
        (Function.update threads i (c.stepOn (threads i) m).stack) n c' threads' →
      (∃ above, threads' i = above ++ threads i ∧
        (above ≠ [] → ∃ next, next.returns = true ∧ InTurn c' (threads' i) next)) ∧
      n ≤ 3 * c.copyCount k s + 1) ∧
    (∀ t k s rest, threads i = .submitting t :: rest → c.IsPending t k s →
      InTurn c (threads i) (.run t) ∧ ∀ b ∈ dispatches c.probes (threads i), b.phase ≠ k) := by
  refine ⟨(h.nested i).pairwise_dispatches, fun a begins => h.begins turn begins, ?_, ?_⟩
  · rintro t k s n c' threads' rfl pending run
    exact h.dispatching_le turn pending run
  · intro t k s rest top pending
    have hrun : InTurn c (threads i) (.run t) := by
      refine .free ?_ nofun fun heq => nomatch heq
      rw [top]
      rintro f hf
      obtain rfl := Option.some.inj hf
      rfl
    refine ⟨hrun, fun b hb hphase => ?_⟩
    exact Nat.not_lt_zero _ ((h.begins hrun (.run pending)).1 b hb hphase).2

/-- A shard with two copies. -/
def startsOne : List Move :=
  [.start [{ shard := ⟨⟨"logs"⟩, 0⟩, copies := [⟨"a"⟩, ⟨"b"⟩] }] {}]

/-- The executor runs its task as it is handed it, and the transport drops its listeners. -/
def dropsInline : List Move :=
  startsOne ++ [.run 0, .connected { node := ⟨"a"⟩ }, .abandon 0, .connected { node := ⟨"b"⟩ }]

theorem failover_bounded_dropped :
    ((run {} dropsInline).stack = [.sending 1, .sending 0, .submitting 0] ∧
      dispatches (run {} dropsInline).probes (run {} dropsInline).stack = [⟨0, 0, 1⟩, ⟨0, 0, 0⟩] ∧
      Begins (run {} dropsInline) (.abandon 1) ⟨0, 0, 2⟩ ∧ (run {} dropsInline).copyCount 0 0 = 2 ∧
      ((dispatches (run {} dropsInline).probes (run {} dropsInline).stack).filter
        (·.phase = 0)).length + 1 ≤ (run {} dropsInline).copyCount 0 0 + 1) ∧
    ∀ n c threads, Dispatching 0 [.submitting 0] ((run {} startsOne).stepOn [.submitting 0] (.run 0))
      (Function.update (fun _ => []) 0 ((run {} startsOne).stepOn [.submitting 0] (.run 0)).stack)
        n c threads → (∃ above, threads 0 = above ++ [.submitting 0] ∧
          (above ≠ [] → ∃ next, next.returns = true ∧ InTurn c (threads 0) next)) ∧ n ≤ 7 := by
  have hfree : ∀ f ∈ [Frame.submitting 0].head?, f.isProbing = false := by decide
  have hidle : Threaded {} {} (Function.update (fun _ => []) 0 (({} : Coordinator).stack)) := by
    rw [Function.update_eq_self]
    exact .start
  constructor
  · have hpermitted : Permitted (fun c m => InTurn c c.stack m) {} dropsInline :=
      ⟨.free nofun nofun (fun heq => nomatch heq), .free hfree nofun (fun heq => nomatch heq),
        .connected, .abandon ⟨_, rfl, rfl, rfl⟩, .connected, trivial⟩
    have hturn : InTurn (run {} dropsInline)
        (Function.update (fun _ => []) 0 (run {} dropsInline).stack 0) (.abandon 1) := by
      rw [Function.update_self]
      exact .abandon ⟨_, rfl, rfl, rfl⟩
    have hbegins : Begins (run {} dropsInline) (.abandon 1) ⟨0, 0, 2⟩ :=
      .abandon (a := ⟨0, 0, 1⟩) ⟨_, rfl, rfl, rfl⟩ (by decide +kernel)
    obtain ⟨-, hdepth, -⟩ := failover_bounded (hidle.alone hpermitted) 0 hturn
    have hle := (hdepth _ hbegins).2
    rw [Function.update_self] at hle
    exact ⟨by decide +kernel, by decide +kernel, hbegins, by decide +kernel, hle⟩
  · intro n c threads dispatching
    have hpermitted : Permitted (fun c m => InTurn c c.stack m) {} startsOne :=
      ⟨.free nofun nofun (fun heq => nomatch heq), trivial⟩
    have hstack : (run {} startsOne).stack = [.submitting 0] := rfl
    have hcount : (run {} startsOne).copyCount 0 0 = 2 := by decide +kernel
    have hthread : Function.update (fun _ => []) 0 (run {} startsOne).stack 0 = [.submitting 0] := by
      rw [Function.update_self, hstack]
    have hturn : InTurn (run {} startsOne)
        (Function.update (fun _ => []) 0 (run {} startsOne).stack 0) (.run 0) := by
      rw [hthread]
      exact .free hfree nofun fun heq => nomatch heq
    obtain ⟨-, -, hbounded, -⟩ := failover_bounded (hidle.alone hpermitted) 0 hturn
    have hle := hbounded 0 0 0 n c threads rfl rfl
    rw [Function.update_idem, hthread, hcount] at hle
    exact hle dispatching

end Prefilter.Coordinator
