import Mathlib
import Prefilter.Proofs.Phase.Admission
import Prefilter.Proofs.Phase.Obligation
import Prefilter.Proofs.Routing.Delivery

namespace Prefilter.Coordinator

variable {c c' before : Coordinator} {d d' : Duty} {m : Move} {k i : Nat} {a : Attempt} {o : Outcome}
  {s : Slot} {p : Phase} {call : Option Frame} {policy : OrderingPolicy} {moves : List Move}
  {target : ShardTarget} {response : ProbeResponse}

/-- The outcome of an attempt is a failure, or the response that a move gives while the attempt is
current. -/
def Sourced (before : Coordinator) (m : Move) (a : Attempt) (o : Outcome) : Prop :=
  o = .failure ∨ ∃ probe response, m = .answer probe (.ok response) ∧ o = response.outcome ∧
    before.IsUnresolved probe a ∧ before.isCurrent a = true

/-- In the course of a move, outcomes are added only as the move gives them. -/
structure Explained (before : Coordinator) (m : Move) (c : Coordinator) (d : Duty) : Prop where
  outcome : ∀ {k i : Nat} {s : Slot} {o : Outcome}, c.slot? k i = some s → s.outcome = some o →
    (∃ s, before.slot? k i = some s ∧ s.outcome = some o) ∨ ∃ copy, Sourced before m ⟨k, i, copy⟩ o
  duty : ∀ {a : Attempt} {o : Outcome} {caller : Caller}, d = .finish a o caller →
    c.isCurrent a = true → Sourced before m a o

theorem Explained.intake (hi : Intake c m c' d) : Explained c m c' d where
  outcome := by
    intro k i s o hs ho
    rcases hi.slot?_cases k i with heq | ⟨_, _, -, -, -, -, hfresh, -⟩
    · exact .inl ⟨s, heq ▸ hs, ho⟩
    · obtain rfl := Option.some.inj (hfresh.symm.trans hs)
      cases ho
  duty := by
    intro a o caller hd current
    cases hi with
    | start => split at hd <;> cases hd
    | discard =>
        cases hd
        exact .inl rfl
    | refused =>
        cases hd
        exact .inl rfl
    | answer found unresolved =>
        cases hd
        exact .inr ⟨_, _, rfl, rfl, ⟨_, found, unresolved, rfl⟩, current⟩
    | @returned phase caller => cases caller <;> cases hd
    | _ => cases hd

theorem Explained.progress (h : Explained before m c d) (sound : c.Sound d)
    (hp : Progress c d c' d') : Explained before m c' d' where
  outcome := by
    intro k i s o hs ho
    cases hp.slotChange sound k i with
    | same eq => exact h.outcome (eq ▸ hs) ho
    | @recorded a outcome caller duty phase slot previous after =>
        obtain rfl := Option.some.inj (after.symm.trans hs)
        obtain rfl := Option.some.inj ho
        subst phase slot
        exact .inr ⟨a.copy, h.duty duty (isCurrent_iff_slot?.mpr ⟨_, previous, rfl⟩)⟩
    | advanced duty phase slot previous after next =>
        obtain rfl := Option.some.inj (after.symm.trans hs)
        cases ho
  duty := by
    intro a o caller hd current
    cases hp with
    | @supersede a outcome caller => cases caller <;> cases hd
    | @record a outcome caller =>
        split at hd
        · cases hd
        · cases caller <;> cases hd
    | exhaust =>
        cases hd
        exact .inl rfl
    | _ => cases hd

theorem Sound.outcome_cases (sound : c.Sound (.rest call))
    (hs : (c.step m).coordinator.slot? k i = some s) (ho : s.outcome = some o) :
    (∃ s, c.slot? k i = some s ∧ s.outcome = some o) ∨ ∃ copy, Sourced c m ⟨k, i, copy⟩ o := by
  have hexplained : Explained c m (c.step m).coordinator (.rest (c.step m).call) :=
    sound.step_induction (fun sound h hp => h.progress sound hp) Explained.intake
  exact hexplained.outcome hs ho

/-- A probe of a copy of a shard was answered with a response while that copy was the current one. -/
inductive Heard (policy : OrderingPolicy) (a : Attempt) (target : ShardTarget)
    (response : ProbeResponse) : List Move → Coordinator → Prop where
  | intro {earlier later : List Move} {before after : Coordinator} {probe : Nat} {q : Probe}
      {p : Phase} {node : NodeId} (reached : Reachable policy earlier before)
      (found : before.probes[probe]? = some q) (unresolved : q.listener.resolved = false)
      (attempt : q.attempt = a) (current : before.isCurrent a = true)
      (phase : before.phases[a.phase]? = some p) (listed : p.targets[a.slot]? = some target)
      (copy : target.copies[a.copy]? = some node) (request : q.request = p.probeRequest target node)
      (rest : Run (fun _ _ => True) (before.step (.answer probe (.ok response))).coordinator later
        after) :
      Heard policy a target response (earlier ++ .answer probe (.ok response) :: later) after

theorem Heard.move (h : Heard policy a target response moves c) (m : Move) :
    Heard policy a target response (moves ++ [m]) (c.step m).coordinator := by
  cases h with
  | intro reached found unresolved attempt current phase listed copy request rest =>
      have hmore := Heard.intro reached found unresolved attempt current phase listed copy request
        (rest.move (m := m) trivial)
      simpa using hmore

theorem Heard.reorder {stack : List Frame} (h : Heard policy a target response moves c)
    (perm : stack.Perm c.stack) : Heard policy a target response moves { c with stack } := by
  cases h with
  | intro reached found unresolved attempt current phase listed copy request rest =>
      exact .intro reached found unresolved attempt current phase listed copy request
        (rest.reorder perm)

theorem Reachable.outcome_eq (h : Reachable policy moves c) (hs : c.slot? k i = some s)
    (ho : s.outcome = some o) :
    o = .failure ∨ ∃ copy target response, o = response.outcome ∧
      Heard policy ⟨k, i, copy⟩ target response moves c := by
  induction h generalizing s with
  | nil => simp [slot?] at hs
  | @move moves c m run permitted ih =>
      obtain ⟨call, sound⟩ := Reachable.sound run
      rcases sound.outcome_cases hs ho with ⟨s', hs', ho'⟩ | ⟨copy, hfailure | hresponse⟩
      · rcases ih hs' ho' with hfailure | ⟨copy, target, response, heq, heard⟩
        · exact .inl hfailure
        · exact .inr ⟨copy, target, response, heq, heard.move m⟩
      · exact .inl hfailure
      · obtain ⟨probe, response, rfl, heq, ⟨q, hq, unresolved, hattempt⟩, current⟩ := hresponse
        obtain ⟨p, target, node, hp, hdest, hrequest⟩ := sound.grounded.probes hq
        rw [hattempt] at hp hdest
        obtain ⟨htarget, hcopy⟩ := exists_target?_of_destination? hdest
        have hlisted : p.targets[i]? = some target := by simpa [target?, hp] using htarget
        exact .inr ⟨copy, target, response, heq,
          .intro run hq unresolved hattempt current hp hlisted hcopy hrequest .nil⟩
  | reorder run perm ih =>
      rcases ih hs ho with hfailure | ⟨copy, target, response, heq, heard⟩
      · exact .inl hfailure
      · exact .inr ⟨copy, target, response, heq, heard.reorder perm⟩

theorem Heard.reachable (h : Heard policy a target response moves c) : Reachable policy moves c := by
  cases h with
  | intro reached found unresolved attempt current phase listed copy request rest =>
      have hrun := Run.append (reached.move (m := .answer _ (.ok response)) trivial) rest
      rw [List.append_assoc] at hrun
      exact hrun

theorem Heard.target?_eq (h : Heard policy a target response moves c) :
    c.target? a.phase a.slot = some target := by
  cases h with
  | intro reached found unresolved attempt current phase listed copy request rest =>
      obtain ⟨call, sound⟩ := reached.sound
      have hbefore : target? _ a.phase a.slot = some target :=
        Option.bind_eq_some_iff.mpr ⟨_, phase, listed⟩
      exact (rest.extends (sound.step _)).target? ((sound.extends_step _).target? hbefore)

theorem Sound.slot?_finish {caller : Caller} (sound : c.Sound (.finish a o caller))
    (current : c.isCurrent a = true) :
    (c.perform (.finish a o caller)).coordinator.slot? a.phase a.slot = some ⟨.done, some o⟩ := by
  have hend := sound.perform_induction
    (P := fun c d => (c.isCurrent a = true ∧ d = .finish a o caller) ∨
      c.slot? a.phase a.slot = some ⟨.done, some o⟩)
    (fun sound h hp => by
      rcases h with ⟨current, rfl⟩ | hdone
      · cases hp with
        | supersede stale => simp [stale] at current
        | record found slot hcopy =>
            have hs := slot?_eq_some.mpr ⟨_, found, slot⟩
            obtain rfl := sound.slot?_eq hs hcopy
            exact .inr (by simp [slot?_record, hs])
      · exact .inr (hp.slot?_done sound hdone))
    (.inl ⟨current, rfl⟩)
  rcases hend with ⟨-, hrest⟩ | hdone
  · cases hrest
  · exact hdone

/-- A response that was given while its copy was the current one is the outcome of the shard. -/
theorem Heard.slot?_eq (h : Heard policy a target response moves c) :
    c.slot? a.phase a.slot = some ⟨.done, some response.outcome⟩ := by
  cases h with
  | @intro earlier later before after probe q p node reached found unresolved attempt current phase
      listed copy request rest =>
      obtain ⟨call, sound⟩ := reached.sound
      have hdone : (before.step (.answer probe (.ok response))).coordinator.slot? a.phase a.slot =
          some ⟨.done, some response.outcome⟩ := by
        subst attempt
        rw [step_answer found unresolved]
        exact (sound.intake (.answer found unresolved)).slot?_finish current
      obtain ⟨-, -, hslot⟩ := preserved_done.run rest (sound.step _) hdone
      exact hslot

theorem Reachable.outcomes_source (h : Reachable policy moves c) (found : c.phases[k]? = some p)
    (ho : p.outcomes[i]? = some (target, o)) :
    o = .failure ∨ ∃ copy response, o = response.outcome ∧
      Heard policy ⟨k, i, copy⟩ target response moves c := by
  obtain ⟨s, htarget, hs, rfl⟩ := Phase.getElem?_outcomes.mp ho
  cases hso : s.outcome with
  | none => exact .inl rfl
  | some o =>
      rcases h.outcome_eq (slot?_eq_some.mpr ⟨p, found, hs⟩) hso with hfailure |
        ⟨copy, target', response, heq, heard⟩
      · exact .inl hfailure
      · have htarget' : c.target? k i = some target :=
          Option.bind_eq_some_iff.mpr ⟨p, found, htarget⟩
        obtain rfl := Option.some.inj (heard.target?_eq.symm.trans htarget')
        exact .inr ⟨copy, response, heq, heard⟩

/-- What is delivered of a phase comes from one outcome for each of its targets. A shard that is to be
skipped was said to hold no match by one of its own copies while that was the current one, and its
outcome, bound included, is that response. A shard that counts as failed has no bound and is not
skipped. -/
theorem fail_open (h : Reachable policy moves c) {r : OrderedShards} (delivered : r ∈ c.deliveries k) :
    ∃ (p : Phase) (outcomes : List (ShardTarget × Outcome)), c.phases[k]? = some p ∧
      outcomes.map Prod.fst = p.targets.toList ∧ p.targets.toList.Nodup ∧
      r = policy.order outcomes p.request.sort ∧
      (∀ x ∈ r.shards, x.skip = true → ∃ (i copy : Nat) (response : ProbeResponse),
        outcomes[i]? = some (x.target, .success false response.bound) ∧ response.canMatch = false ∧
        Heard policy ⟨k, i, copy⟩ x.target response moves c) ∧
      r.summary.failed = outcomes.countP (·.2.failed) ∧
      ∀ (target : ShardTarget) (o : Outcome), (target, o) ∈ outcomes → o.failed = true →
        o.bound = none ∧ ∀ x ∈ r.shards, x.target = target → x.skip = false := by
  obtain ⟨call, sound⟩ := h.sound
  obtain ⟨p, hp, -, rfl⟩ := sound.books.exists_of_mem_deliveries delivered
  have hfst := (sound.books.balanced hp).map_fst_outcomes
  have hnodup : p.targets.toList.Nodup := nodup_of_startFault?_eq_none (h.admitted hp)
  rw [resultOf, h.policy_eq]
  refine ⟨p, p.outcomes, hp, hfst, hnodup, rfl, ?_, OrderingPolicy.order_failed .., ?_⟩
  · intro x hx hskip
    obtain ⟨i, target, o, hi, rfl⟩ := OrderingPolicy.mem_order_shards.mp hx
    have hmatched := OrderingPolicy.matched_eq_false_of_skip hskip
    rcases h.outcomes_source hp hi with rfl | ⟨copy, response, rfl, heard⟩
    · cases hmatched
    · have houtcome : response.outcome = .success false response.bound :=
        congrArg (Outcome.success · response.bound) hmatched
      exact ⟨i, copy, response, houtcome ▸ hi, hmatched, heard⟩
  · intro target o ho hfailed
    obtain rfl : o = .failure := by
      obtain ⟨i, hi⟩ := List.getElem?_of_mem ho
      rcases h.outcomes_source hp hi with hfailure | ⟨copy, response, rfl, -⟩
      · exact hfailure
      · cases hfailed
    refine ⟨rfl, ?_⟩
    intro x hx htarget
    obtain ⟨i, rfl⟩ := OrderingPolicy.eq_routed_of_mem (hfst ▸ hnodup) ho hx htarget
    rfl

/-- Three shards of one copy each. -/
def threeShards : List ShardTarget :=
  (List.range 3).map fun i => { shard := { index := default, ordinal := .ofNat i }, copies := [default] }

/-- The first shard answers that it holds no match, the task of the second is dropped, and the third
holds a match with lesser values than the first. -/
def oneSkipped : List Move :=
  [.start threeShards { sort := some { field := "time" } }, .accepted, .accepted, .accepted,
    .run 0, .connected default, .sent, .discard 1,
    .answer 0 (.ok { canMatch := false, bound := some (.long 5 9) }),
    .run 2, .connected default, .sent,
    .answer 1 (.ok { canMatch := true, bound := some (.long 0 4) })]

theorem fail_open_oneSkipped : ∃ r ∈ (run {} oneSkipped).deliveries 0,
    r.shards.map (fun x => (x.target.shard.ordinal, x.skip)) = [(2, false), (0, true), (1, false)] ∧
      r.summary.failed = 1 ∧
      ∃ (outcomes : List (ShardTarget × Outcome)) (copy : Nat),
        r = OrderingPolicy.order {} outcomes (some { field := "time" }) ∧
        outcomes[0]? = some (threeShards[0], .success false (some (.long 5 9))) ∧
        Heard {} ⟨0, 0, copy⟩ threeShards[0] { canMatch := false, bound := some (.long 5 9) } oneSkipped
          (run {} oneSkipped) := by
  have hdelivered : (run {} oneSkipped).deliveries 0 =
      [{ shards := [⟨threeShards[2], false⟩, ⟨threeShards[0], true⟩, ⟨threeShards[1], false⟩]
         summary := { total := 3, skipped := 1, failed := 1, sorted := true } }] := by cbv
  have hphase : (run {} oneSkipped).phases[0]?.map (fun p => (p.targets, p.request.sort)) =
      some (threeShards.toArray, some { field := "time" }) := by decide +kernel
  have hfirst : (run {} oneSkipped).slot? 0 0 =
      some ⟨.done, some (.success false (some (.long 5 9)))⟩ := by decide +kernel
  refine ⟨_, hdelivered ▸ List.mem_singleton_self _, rfl, rfl, ?_⟩
  obtain ⟨p, outcomes, hp, -, -, horder, hskipped, -⟩ :=
    fail_open (reachable_run {} oneSkipped) (hdelivered ▸ List.mem_singleton_self _)
  obtain ⟨i, copy, response, houtcome, -, heard⟩ :=
    hskipped ⟨threeShards[0], true⟩ (List.mem_cons_of_mem _ List.mem_cons_self) rfl
  obtain ⟨htargets, hsort⟩ :
      p.targets = threeShards.toArray ∧ p.request.sort = some { field := "time" } := by
    simpa [hp] using hphase
  obtain rfl : 0 = i := by
    have hlisted : threeShards[i]? = some threeShards[0] := by
      simpa [target?, hp, htargets] using heard.target?_eq
    have hdistinct : threeShards.Nodup := by decide
    exact (List.getElem?_inj (by decide : 0 < threeShards.length) hdistinct).mp hlisted.symm
  obtain rfl : response = { canMatch := false, bound := some (.long 5 9) } := by
    have hslot := heard.slot?_eq.symm.trans hfirst
    cases response
    simpa [ProbeResponse.outcome, Outcome.success] using hslot
  exact ⟨outcomes, copy, hsort ▸ horder, houtcome, heard⟩

end Prefilter.Coordinator
