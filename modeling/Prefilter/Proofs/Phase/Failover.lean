import Mathlib.Algebra.Ring.Nat
import Mathlib.Data.List.Nodup
import Mathlib.Data.List.Perm.Subperm
import Prefilter.Proofs.Phase.Admission
import Prefilter.Proofs.Phase.Custody

namespace Prefilter

/-- An attempt is to be made, or its copy has just been looked up. -/
def Duty.Tries (a : Attempt) : Duty → Prop
  | .dispatch b | .rest (some (.connecting b)) => b = a
  | _ => False

namespace Phase

/-- The attempts that can be made for a phase. -/
def attempts (p : Phase) (id : Nat) : List Attempt :=
  p.targets.toList.zipIdx.flatMap fun (target, slot) =>
    (List.range target.copies.length).map (Attempt.mk id slot)

theorem length_attempts (p : Phase) (id : Nat) :
    (p.attempts id).length = (p.targets.toList.map (·.copies.length)).sum := by
  have hfst : (fun x : ShardTarget × Nat => x.1.copies.length) =
      (fun target : ShardTarget => target.copies.length) ∘ Prod.fst := rfl
  simp only [attempts, List.length_flatMap, List.length_map, List.length_range, hfst]
  rw [← List.map_map, List.zipIdx_map_fst]

theorem mem_attempts {p : Phase} {id : Nat} {a : Attempt} :
    a ∈ p.attempts id ↔ a.phase = id ∧
      ∃ target, p.targets[a.slot]? = some target ∧ a.copy < target.copies.length := by
  simp only [attempts, List.mem_flatMap, List.mem_map, List.mem_range, Prod.exists]
  constructor
  · rintro ⟨target, slot, hmem, copy, hcopy, rfl⟩
    have hlisted : p.targets.toList[slot]? = some target := List.mk_mem_zipIdx_iff_getElem?.mp hmem
    exact ⟨rfl, target, by simpa using hlisted, hcopy⟩
  · rintro ⟨rfl, target, hlisted, hcopy⟩
    have hmem : (target, a.slot) ∈ p.targets.toList.zipIdx :=
      List.mk_mem_zipIdx_iff_getElem?.mpr (by simpa using hlisted)
    exact ⟨target, a.slot, hmem, a.copy, hcopy, rfl⟩

end Phase

namespace Coordinator

variable {c c' before : Coordinator} {d d' : Duty} {m : Move} {k i : Nat} {a : Attempt} {p : Phase}
  {call : Option Frame} {refuses : Nat → Prop} {policy : OrderingPolicy} {moves : List Move}
  {allowed : Coordinator → Move → Prop} {target : ShardTarget} {o : Option Outcome}

/-- A move fails an attempt: its copy is not found, its probe cannot be sent or is answered with an
error, or its listener is dropped. -/
inductive Fails (c : Coordinator) : Move → Attempt → Prop where
  | unreachable {a : Attempt} {error : ProbeError} {stack : List Frame}
      (top : c.stack = .connecting a :: stack) : Fails c (.unreachable error) a
  | unsent {probe : Nat} {p : Probe} {error : ProbeError} {stack : List Frame}
      (top : c.stack = .sending probe :: stack) (found : c.probes[probe]? = some p) :
      Fails c (.unsent error) p.attempt
  | answer {probe : Nat} {a : Attempt} {error : ProbeError} (unresolved : c.IsUnresolved probe a) :
      Fails c (.answer probe (.error error)) a
  | abandon {probe : Nat} {a : Attempt} (unresolved : c.IsUnresolved probe a) :
      Fails c (.abandon probe) a

/-- A move leads to an attempt: it runs the task of the shard, or fails the attempt before while that
is the current one. -/
inductive LeadsTo (c : Coordinator) (m : Move) : Attempt → Prop where
  | first {task phase slot : Nat} (run : m = .run task) (pending : c.IsPending task phase slot) :
      LeadsTo c m ⟨phase, slot, 0⟩
  | next {a : Attempt} (fails : Fails c m a) (current : c.isCurrent a = true) : LeadsTo c m a.next

/-- In the course of a move, an attempt is made only as the move leads to it. -/
structure Led (before : Coordinator) (m : Move) (c : Coordinator) (d : Duty) : Prop where
  tries : ∀ {a : Attempt}, d.Tries a → LeadsTo before m a
  fails : ∀ {a : Attempt} {error : ProbeError}, d = .fail a error →
    Fails before m a ∧ (c.isCurrent a = true → before.isCurrent a = true)

theorem Led.of_fails (h : Fails before m a) {error : ProbeError}
    (slot : c.slot? a.phase a.slot = before.slot? a.phase a.slot) :
    Led before m c (.fail a error) where
  tries ht := ht.elim
  fails hd := by
    obtain ⟨rfl, -⟩ := Duty.fail.inj hd
    exact ⟨h, fun current => by rwa [isCurrent, ← slot]⟩

theorem Led.of_other (tries : ∀ a, ¬ d.Tries a) (unfailed : ∀ a error, d ≠ .fail a error) :
    Led before m c d where
  tries ht := absurd ht (tries _)
  fails hd := absurd hd (unfailed _ _)

theorem Led.of_caller (phase : Nat) (caller : Caller) : Led before m c (caller.duty phase) := by
  cases caller <;> exact .of_other (fun _ => id) (by simp [Caller.duty])

theorem Led.intake (hi : Intake c m c' d) : Led c m c' d := by
  cases hi with
  | start =>
      split <;> exact .of_other (fun _ => id) (by simp)
  | @run task e found pending =>
      refine ⟨fun ht => ?_, by simp⟩
      obtain rfl := ht
      exact .first rfl (by rw [IsPending, found, ← pending])
  | answerError found unresolved => exact .of_fails (.answer ⟨_, found, unresolved, rfl⟩) rfl
  | abandon found unresolved => exact .of_fails (.abandon ⟨_, found, unresolved, rfl⟩) rfl
  | unreachable top => exact .of_fails (.unreachable top) rfl
  | unsent top found => exact .of_fails (.unsent top found) rfl
  | returned => exact .of_caller _ _
  | _ => exact .of_other (fun _ => id) (by simp)

theorem Led.progress (h : Led before m c d) (hp : Progress c d c' d') : Led before m c' d' := by
  cases hp with
  | supersede => exact .of_caller _ _
  | record =>
      split
      · exact .of_other (fun _ => id) (by simp)
      · exact .of_caller _ _
  | connect =>
      refine ⟨fun ht => ?_, by simp⟩
      obtain rfl := ht
      exact h.tries rfl
  | advance _ phase slot current =>
      refine ⟨fun ht => ?_, by simp⟩
      obtain rfl := ht
      obtain ⟨hfails, hcurrent⟩ := h.fails rfl
      exact .next hfails (hcurrent (isCurrent_iff.mpr ⟨_, _, phase, slot, current⟩))
  | _ => exact .of_other (fun _ => id) (by simp)

/-- The resolver is asked for a copy only in a move that leads to the attempt. -/
theorem Sound.leadsTo_of_call (sound : c.Sound (.rest call))
    (connecting : (c.step m).call = some (.connecting a)) : LeadsTo c m a := by
  have hled : Led c m (c.step m).coordinator (.rest (c.step m).call) :=
    sound.step_induction (fun _ h hp => h.progress hp) Led.intake
  rw [connecting] at hled
  exact hled.tries rfl

/-- Lookups are of copies that are listed, and probes are sent for those that are found. -/
structure Faithful (c : Coordinator) : Prop where
  sent : c.sendings.map (·.attempt) = (c.lookups.filter (·.found)).map (·.attempt)
  listed : ∀ {l : Lookup}, l ∈ c.lookups →
    ∃ target, c.destination? l.attempt = some (target, l.node) ∧ l.cluster = target.cluster

theorem Faithful.step (h : c.Faithful) (sound : c.Sound (.rest call)) (m : Move) :
    (c.step m).coordinator.Faithful := by
  have e := sound.extends_step m
  have keep {l : Lookup} (hl : l ∈ c.lookups) :
      ∃ target, (c.step m).coordinator.destination? l.attempt = some (target, l.node) ∧
        l.cluster = target.cluster := by
    obtain ⟨target, hdest, hcluster⟩ := h.listed hl
    exact ⟨target, e.destination? hdest, hcluster⟩
  cases sound.entry m with
  | none same =>
      exact ⟨by rw [same.sendings, same.lookups, h.sent], fun hl => keep (same.lookups ▸ hl)⟩
  | passed top destination lookups sendings =>
      refine ⟨by simp [sendings, lookups, h.sent], fun hl => ?_⟩
      rcases List.mem_append.mp (lookups ▸ hl) with hl | hl
      · exact keep hl
      · obtain rfl := List.mem_singleton.mp hl
        exact ⟨_, e.destination? destination, rfl⟩
  | sent top phase destination lookups sendings =>
      refine ⟨by simp [sendings, lookups, h.sent], fun hl => ?_⟩
      rcases List.mem_append.mp (lookups ▸ hl) with hl | hl
      · exact keep hl
      · obtain rfl := List.mem_singleton.mp hl
        exact ⟨_, e.destination? destination, rfl⟩

theorem Run.faithful (run : Run allowed { policy } moves c) : c.Faithful := by
  induction run with
  | nil => exact ⟨rfl, by simp [lookups]⟩
  | move run permitted ih =>
      obtain ⟨call, sound⟩ := Reachable.sound (run.mono fun _ => trivial)
      exact ih.step sound _
  | reorder run perm ih => exact ⟨ih.sent, ih.listed⟩

theorem map_attempt_lookupsOf (c : Coordinator) (k i : Nat) :
    (c.lookupsOf k i).map (·.attempt) = (c.lookups.map (·.attempt)).filter (·.At k i) := by
  simp [lookupsOf, List.filter_map, Function.comp_def]

theorem Faithful.sendingsOf_eq (h : c.Faithful) (k i : Nat) :
    (c.sendingsOf k i).map (·.attempt) = ((c.lookupsOf k i).filter (·.found)).map (·.attempt) := by
  have hfilter := congrArg (List.filter (·.At k i)) h.sent
  simpa [sendingsOf, lookupsOf, List.filter_map, List.filter_filter, Function.comp_def, Bool.and_comm]
    using hfilter

theorem Faithful.listed_of_mem_lookupsOf (h : c.Faithful) (listed : c.target? k i = some target)
    {l : Lookup} (hl : l ∈ c.lookupsOf k i) :
    l.cluster = target.cluster ∧ target.copies[l.attempt.copy]? = some l.node := by
  obtain ⟨hmem, hat⟩ := List.mem_filter.mp hl
  obtain ⟨hphase, hslot⟩ := of_decide_eq_true hat
  obtain ⟨target', hdest, hcluster⟩ := h.listed hmem
  obtain ⟨htarget, hnode⟩ := exists_target?_of_destination? hdest
  rw [hphase, hslot] at htarget
  obtain rfl := Option.some.inj (listed.symm.trans htarget)
  exact ⟨hcluster, hnode⟩

theorem Faithful.length_tried_le (h : c.Faithful) (custody : Custody refuses c d k i)
    (listed : c.target? k i = some target) : (c.tried k i).length ≤ target.copies.length := by
  cases hn : (c.tried k i).length with
  | zero => exact Nat.zero_le _
  | succ n =>
      have hlast : n ∈ c.tried k i := by
        rw [custody.tried_eq, hn]
        exact List.mem_range.mpr (Nat.lt_succ_self n)
      obtain ⟨l, hl, rfl⟩ := List.mem_map.mp hlast
      exact (List.getElem?_eq_some_iff.mp (h.listed_of_mem_lookupsOf listed hl).2).1

theorem nodup_attempts (h : ∀ k i, Custody refuses c d k i) :
    (c.lookups.map (·.attempt)).Nodup := by
  rw [List.nodup_iff_count_le_one]
  intro a
  have hnodup : ((c.lookupsOf a.phase a.slot).map (·.attempt)).Nodup := by
    refine List.Nodup.of_map Attempt.copy ?_
    have htried := (h a.phase a.slot).tried_eq
    rw [tried] at htried
    rw [List.map_map, Function.comp_def, htried]
    exact List.nodup_range
  have hcount := List.nodup_iff_count_le_one.mp hnodup a
  have hat : a.At a.phase a.slot := ⟨rfl, rfl⟩
  rwa [map_attempt_lookupsOf, List.count_filter (by simpa using hat)] at hcount

theorem Faithful.mem_attempts (h : c.Faithful) (found : c.phases[k]? = some p) {s : Sending}
    (hs : s ∈ c.sendings) (phase : s.attempt.phase = k) : s.attempt ∈ p.attempts k := by
  have hsent : s.attempt ∈ (c.lookups.filter (·.found)).map (·.attempt) :=
    h.sent ▸ List.mem_map_of_mem hs
  obtain ⟨l, hl, heq⟩ := List.mem_map.mp hsent
  obtain ⟨target, hdest, -⟩ := h.listed (List.mem_of_mem_filter hl)
  rw [heq] at hdest
  obtain ⟨htarget, hnode⟩ := exists_target?_of_destination? hdest
  subst phase
  obtain ⟨p', hp', hlisted⟩ := exists_phase_of_target? htarget
  obtain rfl := Option.some.inj (found.symm.trans hp')
  exact Phase.mem_attempts.mpr ⟨rfl, target, hlisted, (List.getElem?_eq_some_iff.mp hnode).1⟩

theorem Faithful.length_sendings_le (h : c.Faithful) (custody : ∀ k i, Custody refuses c d k i)
    (found : c.phases[k]? = some p) :
    (c.sendings.filter (·.attempt.phase = k)).length ≤
      (p.targets.toList.map (·.copies.length)).sum := by
  have hnodup : ((c.sendings.filter (·.attempt.phase = k)).map (·.attempt)).Nodup := by
    have hsent : (c.sendings.map (·.attempt)).Nodup := by
      rw [h.sent]
      exact (nodup_attempts custody).sublist (List.filter_sublist.map _)
    exact hsent.sublist (List.filter_sublist.map _)
  have hsubset : (c.sendings.filter (·.attempt.phase = k)).map (·.attempt) ⊆ p.attempts k := by
    intro a ha
    obtain ⟨s, hs, rfl⟩ := List.mem_map.mp ha
    obtain ⟨hmem, hphase⟩ := List.mem_filter.mp hs
    exact h.mem_attempts found hmem (of_decide_eq_true hphase)
  have hle := (List.subperm_of_subset hnodup hsubset).length_le
  rwa [List.length_map, p.length_attempts] at hle

/-- What is looked up is the copy that the shard stands at. -/
theorem Custody.slot?_of_connecting (h : Custody refuses c (.rest call) a.phase a.slot)
    (sound : c.Sound (.rest call)) (under : .connecting a ∈ c.stack) :
    c.slot? a.phase a.slot = some ⟨.copy a.copy, none⟩ := by
  have hmem : a.copy ∈ c.held (.rest call) a.phase a.slot := by
    have hat : a.At a.phase a.slot := ⟨rfl, rfl⟩
    exact List.mem_filterMap.mpr ⟨_, under, by rw [Frame.held, if_pos hat]⟩
  obtain ⟨target, node, hdest⟩ : Frame.Supported c (.connecting a) := sound.grounded.frames under
  obtain ⟨s, hs⟩ := sound.exists_slot? (exists_target?_of_destination? hdest).1
  rw [hs, (h.next hmem).slot hs]

theorem sendingsOf_of_sendings_append {s : Sending} (h : c'.sendings = c.sendings ++ [s])
    (hs : ¬ s.attempt.At k i) : c'.sendingsOf k i = c.sendingsOf k i := by
  simp [sendingsOf, h, hs]

theorem Run.sendingsOf_eq {later : List Move} (run : Run (Obeys refuses) { policy } moves c)
    (hs : c.slot? k i = some ⟨.done, o⟩) (rest : Run (Obeys refuses) c later c') :
    c'.sendingsOf k i = c.sendingsOf k i := by
  induction rest with
  | nil => rfl
  | @move later c' m rest permitted ih =>
      obtain ⟨call, sound, custody⟩ := (run.append rest).custody
      obtain ⟨call', hsound⟩ := Reachable.sound (run.mono fun _ => trivial)
      obtain ⟨-, -, hdone⟩ := preserved_done.run rest hsound hs
      rw [← ih]
      cases sound.entry m with
      | none same => rw [sendingsOf, same.sendings, sendingsOf]
      | passed top destination lookups sendings => rw [sendingsOf, sendings, sendingsOf]
      | @sent a p target node connection stack t top phase destination lookups sendings =>
          refine sendingsOf_of_sendings_append sendings ?_
          rintro ⟨rfl, rfl⟩
          have hslot := (custody _ _).slot?_of_connecting sound (top ▸ List.mem_cons_self)
          simp [hdone] at hslot
  | reorder rest perm ih => exact ih

/-- The copies of a shard are tried in the order in which they are listed, each once at most, and the
probes go to those that are found. A move sends a probe only by answering the lookup of the copy that
the shard stands at; the probe takes the connection from that answer, and asks what the phase asks
about the target. The resolver is asked for a copy only as the task of the shard is run, or as the
attempt before fails while it is the current one. Once the outcome is known, nothing is sent. -/
theorem failover_order (run : Run (Obeys refuses) { policy } moves c) :
    (∀ (k : Nat) (p : Phase), c.phases[k]? = some p →
      (∀ (i : Nat) (target : ShardTarget), p.targets[i]? = some target →
        ∃ n ≤ target.copies.length, (c.lookupsOf k i).map (·.attempt.copy) = List.range n ∧
          (∀ l ∈ c.lookupsOf k i,
            l.cluster = target.cluster ∧ target.copies[l.attempt.copy]? = some l.node) ∧
          (c.sendingsOf k i).map (·.attempt) =
            ((c.lookupsOf k i).filter (·.found)).map (·.attempt)) ∧
      (c.sendings.filter (·.attempt.phase = k)).length ≤
        (p.targets.toList.map (·.copies.length)).sum) ∧
    (∀ m : Move, Entry c m (c.step m) ∧
      (∀ probe, (c.step m).call = some (.sending probe) → ∃ (a : Attempt) (stack : List Frame),
        c.stack = .connecting a :: stack ∧
        c.slot? a.phase a.slot = some ⟨.copy a.copy, none⟩ ∧
        (c.step m).coordinator.slot? a.phase a.slot = some ⟨.copy a.copy, none⟩) ∧
      ∀ a, (c.step m).call = some (.connecting a) → LeadsTo c m a) ∧
    ∀ (k i : Nat) (s : Slot) (later : List Move) (c' : Coordinator), c.slot? k i = some s →
      s.outcome.isSome → Run (Obeys refuses) c later c' → c'.sendingsOf k i = c.sendingsOf k i := by
  obtain ⟨call, sound, custody⟩ := run.custody
  have hfaithful := run.faithful
  refine ⟨?_, ?_, ?_⟩
  · intro k p hp
    refine ⟨?_, hfaithful.length_sendings_le custody hp⟩
    intro i target hlisted
    have htarget : c.target? k i = some target := Option.bind_eq_some_iff.mpr ⟨p, hp, hlisted⟩
    refine ⟨_, hfaithful.length_tried_le (custody k i) htarget, (custody k i).tried_eq, ?_,
      hfaithful.sendingsOf_eq k i⟩
    intro l hl
    exact hfaithful.listed_of_mem_lookupsOf htarget hl
  · intro m
    have hentry := sound.entry m
    refine ⟨hentry, ?_, fun a => sound.leadsTo_of_call⟩
    intro probe hcall
    cases hentry with
    | none same silent => exact absurd hcall (silent probe)
    | passed top destination lookups sendings silent => exact absurd hcall (silent probe)
    | @sent a p target node connection stack t top phase destination lookups sendings phases call =>
        have hslot := (custody _ _).slot?_of_connecting sound (top ▸ List.mem_cons_self)
        refine ⟨a, stack, top, hslot, ?_⟩
        rwa [slot?, phases]
  · intro k i s later c' hs ho rest
    obtain ⟨p, hp, hps⟩ := slot?_eq_some.mp hs
    have hdone := ((sound.books.balanced hp).done_iff hps).mpr ho
    exact run.sendingsOf_eq (o := s.outcome) (by rw [hs, ← hdone]) rest

/-- The first of three copies is not found, the probe of the second is lost, and the third answers. The
task of another shard is refused. -/
def lostProbe : List Move :=
  [.start [{ shard := default, copies := [default, default, default] },
      { shard := { index := default, ordinal := 1 } }] {},
    .accepted, .refused .shutdown, .run 0, .unreachable .listenerDropped, .connected default, .sent,
    .abandon 0, .connected default, .sent, .answer 1 (.ok { canMatch := false }), .returned]

theorem lostProbe_permitted : Permitted (Obeys (· = 1)) {} lostProbe := by
  refine ⟨trivial, trivial, ?_, Nat.zero_ne_one, trivial, trivial, trivial, trivial, trivial, trivial,
    trivial, trivial, trivial⟩
  intro task stack top
  have hstack : some (Frame.submitting 1) = some (Frame.submitting task) :=
    Eq.trans (by decide +kernel) (congrArg List.head? top)
  exact (Frame.submitting.inj (Option.some.inj hstack)).symm

theorem failover_order_lostProbe :
    ∃ p target, (run {} lostProbe).phases[0]? = some p ∧ p.targets[0]? = some target ∧
      ((run {} lostProbe).lookupsOf 0 0).map (·.found) = [false, true, true] ∧
      ∃ n ≤ target.copies.length,
        ((run {} lostProbe).lookupsOf 0 0).map (·.attempt.copy) = List.range n ∧
        ((run {} lostProbe).sendingsOf 0 0).map (·.attempt.copy) = [1, 2] := by
  have hrun : Run (Obeys (· = 1)) {} lostProbe (run {} lostProbe) :=
    run_of_permitted lostProbe_permitted
  have hfound : ((run {} lostProbe).lookupsOf 0 0).map (·.found) = [false, true, true] := by
    decide +kernel
  have hsent : ((run {} lostProbe).sendingsOf 0 0).map (·.attempt.copy) = [1, 2] := by decide +kernel
  have hmap : ((run {} lostProbe).phases[0]?.bind (·.targets[0]?)).isSome = true := by decide +kernel
  obtain ⟨target, htarget⟩ := Option.isSome_iff_exists.mp hmap
  obtain ⟨p, hp, hlisted⟩ := Option.bind_eq_some_iff.mp htarget
  obtain ⟨n, hn, htried, -⟩ := ((failover_order hrun).1 0 p hp).1 0 target hlisted
  exact ⟨p, target, hp, hlisted, hfound, n, hn, htried, hsent⟩

end Coordinator
end Prefilter
