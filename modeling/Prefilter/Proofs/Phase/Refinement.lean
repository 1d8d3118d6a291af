import Mathlib
import Prefilter.Proofs.Phase.Admission
import Prefilter.Proofs.Phase.Environment
import Prefilter.Proofs.Phase.Obligation

namespace Prefilter

namespace Environment

variable {env : Environment} {targets : List ShardTarget} {target : ShardTarget} {slot copy : Nat}
  {response : ProbeResponse} {a : Attempt}

/-- The slot of a shard is at the first copy that may still respond, or has the outcome. -/
structure Explains (env : Environment) (target : ShardTarget) (slot : Nat) (s : Slot) : Prop where
  cursor : ∀ {copy : Nat}, s.cursor = .copy copy → ∀ l < copy, env.answer? target slot l = none
  outcome : ∀ {o : Outcome}, s.outcome = some o → o = env.outcome target slot

/-- The probe of an attempt can have been sent. -/
def Sends (env : Environment) (targets : List ShardTarget) (a : Attempt) : Prop :=
  env.fate a.slot = .run ∧ ∃ target node connection, targets[a.slot]? = some target ∧
    target.copies[a.copy]? = some node ∧ env.resolve target.cluster node = .ok connection

/-- An attempt can have failed. -/
def Fails (env : Environment) (targets : List ShardTarget) (a : Attempt) : Prop :=
  env.fate a.slot = .run ∧
    ∀ target, targets[a.slot]? = some target → env.answer? target a.slot a.copy = none

/-- What is left to do for a phase fits the environment. -/
def Fits (env : Environment) (targets : List ShardTarget) (phase : Nat) (c : Coordinator) :
    Duty → Prop
  | .rest _ | .submit .. | .complete .. => True
  | .finish a o _ => a.phase = phase → c.isCurrent a = true →
      ∀ target, targets[a.slot]? = some target → o = env.outcome target a.slot
  | .dispatch a => a.phase = phase → env.fate a.slot = .run
  | .fail a _ => a.phase = phase → env.Fails targets a
  | .send a _ => a.phase = phase → env.Sends targets a

theorem fits_duty {c : Coordinator} {phase other : Nat} (caller : Caller) :
    env.Fits targets phase c (caller.duty other) := by
  cases caller <;> trivial

theorem Sends.fails (h : env.Sends targets a)
    (reply : ∀ response, env.reply a.slot a.copy ≠ .response response) : env.Fails targets a :=
  ⟨h.1, fun _ _ => answer?_of_no_response reply⟩

theorem Sends.answer? (h : env.Sends targets a) (listed : targets[a.slot]? = some target)
    (reply : env.reply a.slot a.copy = .response response) :
    env.answer? target a.slot a.copy = some response := by
  obtain ⟨-, target', node, connection, htarget, hnode, hresolve⟩ := h
  obtain rfl := Option.some.inj (htarget.symm.trans listed)
  exact answer?_of_response hnode hresolve reply

end Environment

namespace Coordinator

variable {env : Environment} {c c' : Coordinator} {d d' : Duty} {m : Move} {k i : Nat} {a : Attempt}
  {targets : List ShardTarget} {request : SearchRequest} {target : ShardTarget}
  {call : Option Frame} {policy : OrderingPolicy} {moves : List Move}

/-- A phase over these targets is as its environment makes it. -/
structure Follows (env : Environment) (k : Nat) (targets : List ShardTarget) (request : SearchRequest)
    (c : Coordinator) (d : Duty) : Prop where
  phase : ∃ p, c.phases[k]? = some p ∧ p.targets = targets.toArray ∧ p.request = request
  slot : ∀ {i : Nat} {target : ShardTarget} {s : Slot}, targets[i]? = some target →
    c.slot? k i = some s → env.Explains target i s
  probe : ∀ {q : Nat} {p : Probe}, c.probes[q]? = some p → p.attempt.phase = k →
    env.Sends targets p.attempt
  resolver : ∀ {a : Attempt}, .connecting a ∈ c.stack → a.phase = k → env.fate a.slot = .run
  duty : env.Fits targets k c d

namespace Follows

theorem target?_eq (h : Follows env k targets request c d) (i : Nat) :
    c.target? k i = targets[i]? := by
  obtain ⟨p, hp, htargets, -⟩ := h.phase
  simp [target?, hp, htargets]

theorem extend (h : Follows env k targets request c d) (e : Extends c c') :
    ∃ p, c'.phases[k]? = some p ∧ p.targets = targets.toArray ∧ p.request = request := by
  obtain ⟨p, hp, htargets, hrequest⟩ := h.phase
  obtain ⟨p', hp', htargets', hrequest'⟩ := e.phases hp
  exact ⟨p', hp', htargets'.trans htargets, hrequest'.trans hrequest⟩

theorem answer?_eq_none (h : Follows env k targets request c d) (current : c.isCurrent a = true)
    (phase : a.phase = k) (listed : targets[a.slot]? = some target) :
    ∀ l < a.copy, env.answer? target a.slot l = none := by
  obtain ⟨s, hs, hc⟩ := isCurrent_iff_slot?.mp current
  exact (h.slot listed (phase ▸ hs)).cursor hc

theorem slot_progress (h : Follows env k targets request c d) (sound : c.Sound d)
    (hp : Progress c d c' d') {s : Slot} (listed : targets[i]? = some target)
    (hs : c'.slot? k i = some s) : env.Explains target i s := by
  cases hp.slotChange sound k i with
  | same eq => exact h.slot listed (eq ▸ hs)
  | @recorded a outcome caller duty phase slot before after =>
      obtain rfl := Option.some.inj (after.symm.trans hs)
      subst phase slot duty
      have current : c.isCurrent a = true := isCurrent_iff_slot?.mpr ⟨_, before, rfl⟩
      have houtcome := h.duty rfl current target listed
      constructor
      · intro copy hc
        cases hc
      · intro o ho
        exact (Option.some.inj ho).symm.trans houtcome
  | @advanced a error duty phase slot before after next =>
      obtain rfl := Option.some.inj (after.symm.trans hs)
      subst phase slot duty
      -- No copy before this one responds, and now this one does not either.
      constructor
      · intro copy hc l hl
        obtain rfl := Cursor.copy.inj hc
        rcases Nat.lt_succ_iff_lt_or_eq.mp hl with hlt | rfl
        · exact (h.slot listed before).cursor rfl l hlt
        · exact (h.duty rfl).2 target listed
      · intro o ho
        cases ho

theorem probe_progress (h : Follows env k targets request c d) (hp : Progress c d c' d') {q : Nat}
    {p : Probe} (hq : c'.probes[q]? = some p) (phase : p.attempt.phase = k) :
    env.Sends targets p.attempt := by
  cases hp with
  | send =>
      rw [push, addProbe, Array.getElem?_push] at hq
      split at hq
      · obtain rfl := Option.some.inj hq
        exact h.duty phase
      · exact h.probe hq phase
  | _ => exact h.probe hq phase

theorem resolver_progress (h : Follows env k targets request c d) (hp : Progress c d c' d')
    (under : .connecting a ∈ c'.stack) (phase : a.phase = k) : env.fate a.slot = .run := by
  cases hp with
  | connect =>
      rcases List.mem_cons.mp under with heq | hunder
      · obtain rfl := Frame.connecting.inj heq
        exact h.duty phase
      · exact h.resolver hunder phase
  | submit | complete | send =>
      rcases List.mem_cons.mp under with heq | hunder
      · cases heq
      · exact h.resolver hunder phase
  | _ => exact h.resolver under phase

theorem duty_progress (h : Follows env k targets request c d) (hp : Progress c d c' d') :
    env.Fits targets k c' d' := by
  cases hp with
  | supersede => exact Environment.fits_duty _
  | record =>
      split
      · trivial
      · exact Environment.fits_duty _
  | @exhaust a target found beyond =>
      intro phase current target' listed
      have htarget : targets[a.slot]? = some target := h.target?_eq a.slot ▸ phase ▸ found
      obtain rfl := Option.some.inj (htarget.symm.trans listed)
      have hle : target.copies.length ≤ a.copy := List.getElem?_eq_none_iff.mp beyond
      exact (Environment.outcome_of_no_answer fun l hl =>
        h.answer?_eq_none current phase listed l (Nat.lt_of_lt_of_le hl hle)).symm
  | advance => exact fun phase => (h.duty phase).1
  | _ => trivial

theorem progress (h : Follows env k targets request c d) (sound : c.Sound d)
    (hp : Progress c d c' d') : Follows env k targets request c' d' where
  phase := h.extend hp.extends
  slot listed hs := h.slot_progress sound hp listed hs
  probe hq phase := h.probe_progress hp hq phase
  resolver under phase := h.resolver_progress hp under phase
  duty := h.duty_progress hp

theorem slot_intake (h : Follows env k targets request c (.rest call)) (hi : Intake c m c' d)
    {s : Slot} (listed : targets[i]? = some target) (hs : c'.slot? k i = some s) :
    env.Explains target i s := by
  rcases hi.slot?_cases k i with heq | ⟨_, _, -, -, hk, -⟩
  · exact h.slot listed (heq ▸ hs)
  · obtain ⟨p, hp, -⟩ := h.phase
    exact absurd (Array.getElem?_eq_some_iff.mp hp).1 (hk ▸ Nat.lt_irrefl _)

theorem probe_intake (h : Follows env k targets request c (.rest call)) (hi : Intake c m c' d)
    {q : Nat} {p : Probe} (hq : c'.probes[q]? = some p) (phase : p.attempt.phase = k) :
    env.Sends targets p.attempt := by
  cases hi with
  | answer | answerError | abandon =>
      obtain ⟨old, hold, heq⟩ := getElem?_modify_eq_some.mp hq
      have hattempt : old.attempt = p.attempt := by
        rw [← heq]
        split <;> rfl
      exact hattempt ▸ h.probe hold (hattempt ▸ phase)
  | _ => exact h.probe hq phase

theorem resolver_intake (h : Follows env k targets request c (.rest call)) (hi : Intake c m c' d)
    (under : .connecting a ∈ c'.stack) (phase : a.phase = k) : env.fate a.slot = .run := by
  cases hi with
  | accepted top | refused top | connected top | unreachable top | sent top | unsent top
  | returned top => exact h.resolver (top ▸ List.mem_cons_of_mem _ under) phase
  | _ => exact h.resolver under phase

theorem duty_intake (h : Follows env k targets request c (.rest call))
    (sound : c.Sound (.rest call)) (permitted : env.Allows k c m) (hi : Intake c m c' d) :
    env.Fits targets k c' d := by
  cases hi with
  | start => split <;> trivial
  | run found => exact fun phase => permitted _ found phase
  | discard found =>
      intro phase current target listed
      exact (Environment.outcome_of_not_run (permitted _ found phase)).symm
  | @answer probe p response found =>
      intro phase current target listed
      have hsends := h.probe found phase
      have hanswer := hsends.answer? listed (permitted p found phase)
      have hbefore := h.answer?_eq_none (a := p.attempt) current phase listed
      exact (Environment.outcome_of_answer hsends.1 hbefore hanswer).symm
  | @answerError probe p error found =>
      intro phase
      refine (h.probe found phase).fails fun response hreply => ?_
      rw [permitted p found phase] at hreply
      cases hreply
  | @abandon probe p found =>
      intro phase
      refine (h.probe found phase).fails fun response hreply => ?_
      rcases permitted p found phase with hdropped | hunsent
      · rw [hdropped] at hreply
        cases hreply
      · rw [hunsent] at hreply
        cases hreply
  | refused top found =>
      intro phase current target listed
      have hfate := permitted _ _ _ top found phase
      exact (Environment.outcome_of_not_run (by simp [hfate])).symm
  | @connected a connection stack top =>
      intro phase
      have hrun := h.resolver (top ▸ List.mem_cons_self) phase
      obtain ⟨target, node, hdest⟩ : Frame.Supported c (.connecting a) :=
        sound.grounded.frames (top ▸ List.mem_cons_self)
      obtain ⟨htarget, hnode⟩ := exists_target?_of_destination? hdest
      rw [phase, h.target?_eq] at htarget
      exact ⟨hrun, target, node, connection, htarget, hnode, permitted _ _ _ _ top hdest phase⟩
  | @unreachable a error target node stack top found =>
      intro phase
      have hrun := h.resolver (top ▸ List.mem_cons_self) phase
      have hresolve := permitted _ _ _ _ top found phase
      obtain ⟨htarget, hnode⟩ := exists_target?_of_destination? found
      refine ⟨hrun, fun target' listed => ?_⟩
      rw [phase, h.target?_eq, listed] at htarget
      obtain rfl := Option.some.inj htarget
      exact Environment.answer?_of_unresolved hnode hresolve
  | @unsent probe p error stack top found =>
      intro phase
      refine (h.probe found phase).fails fun response hreply => ?_
      rw [permitted _ _ p top found phase] at hreply
      cases hreply
  | returned => exact Environment.fits_duty _
  | _ => trivial

theorem intake (h : Follows env k targets request c (.rest call)) (sound : c.Sound (.rest call))
    (permitted : env.Allows k c m) (hi : Intake c m c' d) : Follows env k targets request c' d where
  phase := h.extend hi.extends
  slot listed hs := h.slot_intake hi listed hs
  probe hq phase := h.probe_intake hi hq phase
  resolver under phase := h.resolver_intake hi under phase
  duty := h.duty_intake sound permitted hi

theorem reorder (h : Follows env k targets request c (.rest call)) {stack : List Frame}
    (perm : stack.Perm c.stack) : Follows env k targets request { c with stack } (.rest call) where
  phase := h.phase
  slot := h.slot
  probe := h.probe
  resolver under phase := h.resolver (perm.mem_iff.mp under) phase
  duty := trivial

theorem openPhase (sound : c.Sound (.rest call)) (env : Environment) (targets : List ShardTarget)
    (request : SearchRequest) :
    Follows env c.phases.size targets request (c.openPhase targets request) (.rest none) where
  phase := ⟨_, Array.getElem?_push_size, rfl, rfl⟩
  slot := by
    intro i target s listed hs
    rw [slot?_openPhase, if_pos rfl] at hs
    split at hs
    · obtain rfl := Option.some.inj hs
      constructor
      · intro copy hc l hl
        obtain rfl := Cursor.copy.inj hc
        exact absurd hl (Nat.not_lt_zero l)
      · intro o ho
        cases ho
    · cases hs
  probe := by
    intro q p hq phase
    obtain ⟨p', -, -, hp', -⟩ := sound.grounded.probes hq
    exact absurd (Array.getElem?_eq_some_iff.mp hp').1 (phase ▸ Nat.lt_irrefl _)
  resolver := by
    intro a under phase
    obtain ⟨target, node, hdest⟩ : Frame.Supported c (.connecting a) := sound.grounded.frames under
    obtain ⟨p', hp', -⟩ := exists_phase_of_target? (exists_target?_of_destination? hdest).1
    exact absurd (Array.getElem?_eq_some_iff.mp hp').1 (phase ▸ Nat.lt_irrefl _)
  duty := trivial

theorem step_start (sound : c.Sound (.rest call)) (env : Environment)
    (admitted : startFault? targets request = none) :
    Follows env c.phases.size targets request (c.step (.start targets request)).coordinator
      (.rest (c.step (.start targets request)).call) := by
  rw [Coordinator.step_start admitted]
  refine (sound.intake (.start admitted)).perform_induction (fun sound h hp => h.progress sound hp) ?_
  have hopen := openPhase sound env targets request
  refine ⟨hopen.phase, hopen.slot, hopen.probe, hopen.resolver, ?_⟩
  split <;> trivial

theorem outcomes_eq (h : Follows env k targets request c d) (sound : c.Sound d) {p : Phase}
    (found : c.phases[k]? = some p) (zero : p.outstanding = 0) :
    p.outcomes = env.outcomes targets ∧ p.request = request := by
  obtain ⟨p', hp', htargets, hrequest⟩ := h.phase
  obtain rfl := Option.some.inj (found.symm.trans hp')
  have hbalanced := sound.books.balanced found
  refine ⟨?_, hrequest⟩
  apply List.ext_getElem?
  intro i
  rw [Environment.getElem?_outcomes]
  cases htarget : targets[i]? with
  | none =>
      have hlength : p.outcomes.length = targets.length := by
        rw [← List.length_map Prod.fst, hbalanced.map_fst_outcomes, htargets]
      rw [Option.map_none, List.getElem?_eq_none_iff, hlength]
      exact List.getElem?_eq_none_iff.mp htarget
  | some target =>
      have hlt : i < p.slots.size := by
        rw [hbalanced.slots_size, htargets, List.size_toArray]
        exact (List.getElem?_eq_some_iff.mp htarget).1
      have hs : p.slots[i]? = some p.slots[i] := Array.getElem?_eq_getElem hlt
      obtain ⟨o, ho⟩ := Option.isSome_iff_exists.mp
        ((hbalanced.done_iff hs).mp (hbalanced.cursor_eq_done zero hs))
      have houtcome := (h.slot htarget (slot?_eq_some.mpr ⟨p, found, hs⟩)).outcome ho
      rw [Option.map_some, Phase.getElem?_outcomes]
      exact ⟨_, by simpa [htargets] using htarget, hs, by rw [ho, Option.getD_some, houtcome]⟩

end Follows

theorem preserved_follows :
    Preserved (env.Allows k) fun c d => Follows env k targets request c d where
  intake sound h permitted hi := h.intake sound permitted hi
  progress sound h hp := h.progress sound hp
  reorder h perm := h.reorder perm

/-- A phase refines its sequential reference. Among collaborators that do what an environment says, but
when they like, what is delivered is the result of the outcomes that can be read off the targets one
by one; and it has been delivered, once, when nothing is left that could happen. -/
theorem delivered_eq_reference {before : Coordinator} {earlier : List Move}
    (reached : Reachable policy earlier before) (admitted : startFault? targets request = none)
    (run : Run (env.Allows before.phases.size)
      (before.step (.start targets request)).coordinator moves c) :
    (∀ r ∈ c.deliveries before.phases.size,
      r = policy.order (env.outcomes targets) request.sort) ∧
    (c.IsSettled before.phases.size →
      c.deliveries before.phases.size = [policy.order (env.outcomes targets) request.sort]) := by
  obtain ⟨first, sound⟩ := reached.sound
  have hstarted : Reachable policy (earlier ++ [.start targets request])
      (before.step (.start targets request)).coordinator := Run.move reached trivial
  have hreached : Reachable policy _ c := hstarted.append (run.mono fun _ => trivial)
  obtain ⟨last, soundLast, hfollows⟩ := preserved_follows.run run (sound.step _)
    (Follows.step_start sound env admitted)
  have hresult : ∀ r ∈ c.deliveries before.phases.size,
      r = policy.order (env.outcomes targets) request.sort := by
    intro r hr
    obtain ⟨p, hp, hzero, rfl⟩ := soundLast.books.exists_of_mem_deliveries hr
    obtain ⟨houtcomes, hrequest⟩ := hfollows.outcomes_eq soundLast hp hzero
    rw [resultOf, hreached.policy_eq, houtcomes, hrequest]
  refine ⟨hresult, ?_⟩
  intro settled
  obtain ⟨p, hp, -⟩ := hfollows.phase
  obtain ⟨-, r, hr⟩ := Reachable.delivered_of_isSettled hreached hp settled
  rw [hr, hresult r (hr ▸ List.mem_singleton_self r)]

/-- Every node is known, every task is run; the first copy of a shard fails, the others respond. The
first shard holds a match, the second does not. -/
def failover : Environment where
  resolve _ _ := .ok default
  fate _ := .run
  reply slot copy :=
    if copy = 0 then .failure
    else if slot = 0 then .response { canMatch := true, bound := some (.long 3 9) }
    else .response { canMatch := false, bound := some (.long 0 2) }

def twoShards : List ShardTarget :=
  (List.range 2).map fun i =>
    { shard := { index := default, ordinal := .ofNat i }, copies := [default, default] }

def byTime : SearchRequest := { sort := some { field := "time" } }

/-- The first probe of the first shard fails while it is being sent, so that the second is sent within
the same call; those of the second shard come to something later. -/
def failoverMoves : List Move :=
  [.run 0, .connected default, .answer 0 (.error .listenerDropped), .connected default, .sent, .sent,
    .accepted, .answer 1 (.ok { canMatch := true, bound := some (.long 3 9) }), .accepted,
    .run 1, .connected default, .sent, .answer 2 (.error .listenerDropped), .connected default, .sent,
    .answer 3 (.ok { canMatch := false, bound := some (.long 0 2) }), .returned]

theorem failover_permitted : Permitted (failover.Allows 0)
    (step {} (.start twoShards byTime)).coordinator failoverMoves := by
  have hunsent (slot copy : Nat) : failover.reply slot copy ≠ .unsent := by
    unfold failover
    dsimp only
    split
    · exact nofun
    · split <;> exact nofun
  have hattempt {c : Coordinator} {i : Nat} {a : Attempt} {p : Probe}
      (probes : (c.probes[i]?).map Probe.attempt = some a) (hp : c.probes[i]? = some p) :
      p.attempt = a := by
    simpa [hp] using probes
  refine ⟨fun _ _ _ => rfl, fun _ _ _ _ _ _ _ => rfl, fun p hp _ => ?_, fun _ _ _ _ _ _ _ => rfl,
    fun _ _ _ _ _ _ => hunsent _ _, fun _ _ _ _ _ _ => hunsent _ _, fun _ _ _ _ _ _ => nofun,
    fun p hp _ => ?_, fun _ _ _ _ _ _ => nofun, fun _ _ _ => rfl, fun _ _ _ _ _ _ _ => rfl,
    fun _ _ _ _ _ _ => hunsent _ _, fun p hp _ => ?_, fun _ _ _ _ _ _ _ => rfl,
    fun _ _ _ _ _ _ => hunsent _ _, fun p hp _ => ?_, trivial, trivial⟩
  · simp [@hattempt _ _ ⟨0, 0, 0⟩ _ (by decide +kernel) hp, failover]
  · simp [@hattempt _ _ ⟨0, 0, 1⟩ _ (by decide +kernel) hp, failover]
  · simp [@hattempt _ _ ⟨0, 1, 0⟩ _ (by decide +kernel) hp, failover]
  · simp [@hattempt _ _ ⟨0, 1, 1⟩ _ (by decide +kernel) hp, failover]

theorem delivered_eq_reference_failover :
    let c := (step {} (.start twoShards byTime)).coordinator.run failoverMoves
    c.IsSettled 0 ∧
      c.deliveries 0 = [OrderingPolicy.order {} (failover.outcomes twoShards) byTime.sort] ∧
      (failover.outcomes twoShards).map (·.2) =
        [.success true (some (.long 3 9)), .success false (some (.long 0 2))] ∧
      (c.deliveries 0).map (fun r => r.shards.map fun x => (x.target.shard.ordinal, x.skip)) =
        [[(1, true), (0, false)]] := by
  intro c
  have hstack : c.stack = [] := by decide +kernel
  have htasks : c.tasks.all (!·.pending) = true := by decide +kernel
  have hprobes : c.probes.all (·.listener.resolved) = true := by decide +kernel
  have settled : c.IsSettled 0 := by
    constructor
    · intro f hf
      simp [hstack] at hf
    · intro task slot pending
      have hpending := Array.all_eq_true_iff_forall_mem.mp htasks _ (Array.mem_of_getElem? pending)
      cases hpending
    · rintro probe a phase ⟨q, hq, hu, -⟩
      have hresolved := Array.all_eq_true_iff_forall_mem.mp hprobes q (Array.mem_of_getElem? hq)
      simp [hu] at hresolved
  have hreached : Reachable {} [] {} := reachable_run {} []
  have hrun : Run (failover.Allows 0) (step {} (.start twoShards byTime)).coordinator failoverMoves c :=
    run_of_permitted failover_permitted
  have hadmitted : startFault? twoShards byTime = none := by decide
  have hdelivered : c.deliveries 0 = _ := (delivered_eq_reference hreached hadmitted hrun).2 settled
  refine ⟨settled, hdelivered, by decide +kernel, ?_⟩
  rw [hdelivered]
  cbv

end Coordinator
end Prefilter
