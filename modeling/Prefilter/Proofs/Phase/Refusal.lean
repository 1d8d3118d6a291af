import Mathlib.Logic.Basic
import Prefilter.Proofs.Phase.Admission
import Prefilter.Proofs.Phase.Prehistory
import Prefilter.Proofs.Shard.Identity

namespace Prefilter

theorem ShardTarget.sameIdentity_iff {a b : ShardTarget} :
    a.sameIdentity b = true ↔ a.compareIdentity b = .eq := by
  rw [compareIdentity_eq_eq_iff, sameIdentity, Bool.and_eq_true, Bool.and_eq_true, beq_iff_eq,
    beq_iff_eq, beq_iff_eq]
  constructor
  · rintro ⟨⟨hordinal, hindex⟩, hcluster⟩
    exact ⟨congrArg₂ ShardId.mk hindex hordinal, hcluster⟩
  · rintro ⟨hshard, hcluster⟩
    rw [hshard]
    exact ⟨⟨rfl, rfl⟩, hcluster⟩

/-- Two targets at different positions have one identity. -/
def ComesTwice (targets : List ShardTarget) : Prop :=
  ∃ i j : Fin targets.length, i ≠ j ∧ targets[i].compareIdentity targets[j] = .eq

theorem comesTwice_iff {targets : List ShardTarget} :
    ComesTwice targets ↔ hasDuplicates targets = true := by
  rw [← Bool.not_eq_false, ← not_iff_not, not_not, hasDuplicates_eq_false_iff,
    List.pairwise_iff_getElem]
  constructor
  · intro h i j hi hj hij
    rw [← Bool.not_eq_true, ShardTarget.sameIdentity_iff]
    intro heq
    exact h ⟨⟨i, hi⟩, ⟨j, hj⟩, Fin.ne_of_lt hij, heq⟩
  · rintro h ⟨i, j, hne, heq⟩
    have distinct {i j : Fin targets.length} (hij : i < j) :
        targets[i].compareIdentity targets[j] ≠ .eq := by
      rw [Ne, ← ShardTarget.sameIdentity_iff, Bool.not_eq_true]
      exact h i j i.isLt j.isLt hij
    rcases Fin.lt_or_lt_of_ne hne with hij | hji
    · exact distinct hij heq
    · exact distinct hji (Std.OrientedCmp.eq_symm heq)

variable {targets : List ShardTarget} {request : SearchRequest}

theorem startFault?_eq_duplicateTargets_iff :
    startFault? targets request = some .duplicateTargets ↔ ComesTwice targets := by
  rw [comesTwice_iff, startFault?]
  split
  · simp_all
  · split <;> simp_all

theorem not_comesTwice_nil : ¬ ComesTwice [] := fun ⟨i, _⟩ => i.elim0

theorem startFault?_eq_sortWithoutTargets_iff :
    startFault? targets request = some .sortWithoutTargets ↔
      targets = [] ∧ request.sort.isSome = true := by
  rw [startFault?]
  split
  · rename_i hduplicates
    simp only [Option.some.injEq, reduceCtorEq, false_iff]
    rintro ⟨rfl, -⟩
    exact not_comesTwice_nil (comesTwice_iff.mpr hduplicates)
  · split <;> simp_all

/-- How a call to start a phase ends. -/
inductive Verdict where
  | panicked (message : String)
  | admitted (phase : Nat)
deriving DecidableEq

def Verdict.phase? : Verdict → Option Nat
  | panicked _ => none
  | admitted phase => some phase

def Event.verdict? : Event → Option Verdict
  | .startRefused fault => some (.panicked fault.message)
  | .log (.phaseStarted phase) => some (.admitted phase)
  | _ => none

/-- The phase that a move asks for, if it may be started. -/
def Move.admitted? : Move → Option (List ShardTarget × SearchRequest)
  | .start targets request => if startFault? targets request = none then some (targets, request) else none
  | _ => none

namespace Coordinator

variable {c c' : Coordinator} {d d' : Duty} {m : Move} {call : Option Frame}
  {policy : OrderingPolicy} {moves : List Move}

/-- How the calls to start phases have ended so far. -/
def verdicts (c : Coordinator) : List Verdict := c.trace.toList.filterMap Event.verdict?

/-- The shards and the requests of the phases, by their ids. -/
def inquiries (c : Coordinator) : List (List ShardTarget × SearchRequest) :=
  c.phases.toList.map fun p => (p.targets.toList, p.request)

/-- How the call ends that a move makes. -/
def verdict? (c : Coordinator) : Move → Option Verdict
  | .start targets request =>
    match startFault? targets request with
    | some fault => some (.panicked fault.message)
    | none => some (.admitted c.phases.size)
  | _ => none

theorem inquiries_updatePhase (k : Nat) {f : Phase → Phase}
    (htargets : ∀ p, (f p).targets = p.targets) (hrequest : ∀ p, (f p).request = p.request) :
    (c.updatePhase k f).inquiries = c.inquiries := by
  apply List.ext_getElem?
  intro j
  simp only [inquiries, updatePhase, List.getElem?_map, Array.getElem?_toList, Array.getElem?_modify]
  split <;> cases c.phases[j]? <;> simp [htargets, hrequest]

/-- No call to start a phase has ended between the two. -/
structure SameStarts (c c' : Coordinator) : Prop where
  verdicts : c'.verdicts = c.verdicts
  inquiries : c'.inquiries = c.inquiries

namespace SameStarts

theorem of_trace {es : List Event} (trace : c'.trace.toList = c.trace.toList ++ es)
    (quiet : ∀ e ∈ es, e.verdict? = none) (phases : c'.inquiries = c.inquiries) :
    SameStarts c c' where
  verdicts := by
    have hnone : es.filterMap Event.verdict? = [] := List.filterMap_eq_nil_iff.mpr quiet
    rw [Coordinator.verdicts, trace, List.filterMap_append, hnone, List.append_nil,
      Coordinator.verdicts]
  inquiries := phases

theorem of_eq (trace : c'.trace = c.trace) (phases : c'.phases = c.phases) : SameStarts c c' where
  verdicts := by rw [Coordinator.verdicts, trace, Coordinator.verdicts]
  inquiries := by rw [Coordinator.inquiries, phases, Coordinator.inquiries]

theorem refl (c : Coordinator) : SameStarts c c := .of_eq rfl rfl

theorem trans {c'' : Coordinator} (h : SameStarts c c') (h' : SameStarts c' c'') :
    SameStarts c c'' :=
  ⟨h'.verdicts.trans h.verdicts, h'.inquiries.trans h.inquiries⟩

theorem emit (h : SameStarts c c') (e : Event) (quiet : e.verdict? = none) :
    SameStarts c (c'.emit e) := by
  have htrace : (c'.emit e).trace.toList = c'.trace.toList ++ [e] := by simp [Coordinator.emit]
  exact h.trans (.of_trace htrace (by simpa using quiet) rfl)

theorem log (h : SameStarts c c') (n : Notice) (quiet : (Event.log n).verdict? = none) :
    SameStarts c (c'.log n) := h.emit (.log n) quiet

theorem push (h : SameStarts c c') (f : Frame) : SameStarts c (c'.push f) :=
  h.trans (.of_eq rfl rfl)

theorem updatePhase (h : SameStarts c c') (k : Nat) {f : Phase → Phase}
    (htargets : ∀ p, (f p).targets = p.targets) (hrequest : ∀ p, (f p).request = p.request) :
    SameStarts c (c'.updatePhase k f) :=
  h.trans ⟨rfl, inquiries_updatePhase k htargets hrequest⟩

end SameStarts

theorem Progress.sameStarts (h : Progress c d c' d') : SameStarts c c' := by
  cases h with
  | submitLast => exact .refl c
  | submit => exact .of_eq rfl rfl
  | @complete phase caller p found =>
      have hnotices : SameStarts c (c.logAll (c.resultNotices phase p)) := by
        refine .of_trace (by rw [logAll, Array.toList_append]) ?_ rfl
        intro e he
        obtain ⟨notice, hnotice, rfl⟩ := List.mem_map.mp he
        rcases List.mem_append.mp hnotice with hremark | hcomplete
        · obtain ⟨remark, -, rfl⟩ := List.mem_map.mp hremark
          rfl
        · obtain rfl := List.mem_singleton.mp hcomplete
          rfl
      have hconcluded := hnotices.updatePhase phase (f := (·.conclude (c.resultOf p))) (fun _ => rfl)
        fun _ => rfl
      exact (hconcluded.emit (.delivered phase (c.resultOf p)) rfl).push _
  | supersede => exact (SameStarts.refl c).log _ rfl
  | record => exact (SameStarts.refl c).updatePhase _ (fun _ => rfl) fun _ => rfl
  | connect => exact (SameStarts.refl c).push _
  | exhaust =>
      refine (SameStarts.refl c).log _ ?_
      rw [exhaustionNotice]
      split <;> rfl
  | ignore => exact (SameStarts.refl c).log _ rfl
  | advance => exact ((SameStarts.refl c).log _ rfl).updatePhase _ (fun _ => rfl) fun _ => rfl
  | send => exact (((SameStarts.refl c).emit _ rfl).emit _ rfl).trans (.of_eq rfl rfl)

theorem Intake.sameStarts (h : Intake c m c' d) (other : ∀ targets request, m ≠ .start targets request) :
    SameStarts c c' := by
  cases h with
  | reject => exact absurd rfl (other _ _)
  | start => exact absurd rfl (other _ _)
  | discard | abandon | refused =>
      refine SameStarts.log ?_ _ ?_
      · exact .of_eq rfl rfl
      · rfl
  | unreachable =>
      refine SameStarts.emit ?_ _ ?_
      · exact .of_eq rfl rfl
      · rfl
  | _ => exact .of_eq rfl rfl

theorem Sound.sameStarts_perform (sound : c.Sound d) : SameStarts c (c.perform d).coordinator :=
  sound.perform_induction (P := fun c' _ => SameStarts c c') (fun _ h hp => h.trans hp.sameStarts)
    (.of_eq rfl rfl)

theorem Sound.sameStarts_step (sound : c.Sound (.rest call))
    (other : ∀ targets request, m ≠ .start targets request) :
    SameStarts c (c.step m).coordinator :=
  sound.step_induction (P := fun c' _ => SameStarts c c') (fun _ h hp => h.trans hp.sameStarts)
    fun hi => hi.sameStarts other

/-- What a refused start adds to the trace. -/
def refusal (targets : List ShardTarget) (request : SearchRequest) (fault : StartFault) :
    Array Event :=
  #[.log (.startSpan targets.length request.sort.isSome), .startRefused fault]

theorem step_start_of_fault {fault : StartFault} (refused : startFault? targets request = some fault) :
    c.step (.start targets request) =
      { coordinator := { c with trace := c.trace ++ refusal targets request fault }, call := none } := by
  have htrace : (c.trace.push (.log (.startSpan targets.length request.sort.isSome))).push
      (.startRefused fault) = c.trace ++ refusal targets request fault :=
    Array.toList_inj.mp (by simp [refusal])
  simp [step, start, refused, rest, log, emit, htrace]

theorem Sound.step_start_verdicts (sound : c.Sound (.rest call)) (targets : List ShardTarget)
    (request : SearchRequest) :
    (c.step (.start targets request)).coordinator.verdicts =
        c.verdicts ++ (c.verdict? (.start targets request)).toList ∧
      (c.step (.start targets request)).coordinator.inquiries =
        c.inquiries ++ (Move.admitted? (.start targets request)).toList := by
  cases hf : startFault? targets request with
  | some fault =>
      rw [step_start_of_fault hf]
      simp [verdicts, inquiries, verdict?, Move.admitted?, hf, refusal]
      rfl
  | none =>
      rw [step_start hf]
      have hsame := (sound.intake (.start hf)).sameStarts_perform
      rw [hsame.verdicts, hsame.inquiries]
      simp [verdicts, inquiries, verdict?, Move.admitted?, hf, openPhase, logAll, Phase.ofTargets]
      rfl

theorem Sound.verdicts_step (sound : c.Sound (.rest call)) (m : Move) :
    (c.step m).coordinator.verdicts = c.verdicts ++ (c.verdict? m).toList ∧
      (c.step m).coordinator.inquiries = c.inquiries ++ m.admitted?.toList := by
  cases m with
  | start targets request => exact sound.step_start_verdicts targets request
  | _ =>
      refine ⟨?_, ?_⟩
      · simpa [verdict?] using (sound.sameStarts_step (by simp)).verdicts
      · simpa [Move.admitted?] using (sound.sameStarts_step (by simp)).inquiries

theorem length_inquiries (c : Coordinator) : c.inquiries.length = c.phases.size := by
  simp [inquiries]

theorem verdict?_phase? (m : Move) :
    (c.verdict? m).toList.filterMap Verdict.phase? = (m.admitted?.map fun _ => c.phases.size).toList := by
  cases m with
  | start targets request =>
      cases hf : startFault? targets request <;>
        simp [verdict?, Move.admitted?, hf, Verdict.phase?]
  | _ => rfl

/-- Phases are those of the admitted starts, in their order, and have consecutive ids. -/
theorem Reachable.inquiries_eq (h : Reachable policy moves c) :
    c.inquiries = moves.filterMap Move.admitted? ∧
      c.verdicts.filterMap Verdict.phase? = List.range (moves.filterMap Move.admitted?).length := by
  induction h with
  | nil => exact ⟨rfl, rfl⟩
  | @move moves c m run _ ih =>
      obtain ⟨hinquiries, hids⟩ := ih
      obtain ⟨call, sound⟩ := Reachable.sound run
      obtain ⟨hverdicts, hphases⟩ := sound.verdicts_step m
      have hsize : c.phases.size = (moves.filterMap Move.admitted?).length := by
        rw [← length_inquiries, hinquiries]
      rw [hverdicts, hphases, List.filterMap_append, List.filterMap_append, verdict?_phase?, hids,
        hinquiries, hsize]
      cases hm : m.admitted? with
      | none => simp [hm]
      | some inquiry => simp [hm, List.range_succ]
  | reorder _ _ ih => exact ih

/-- What a coordinator can become after a refused start is what it can become without it, but for the
two events. -/
theorem run_refused_iff {fault : StartFault} (refused : startFault? targets request = some fault) :
    Run (fun _ _ => True) (c.step (.start targets request)).coordinator moves c' ↔
      ∃ r later, Run (fun _ _ => True) c moves r ∧ r.trace = c.trace ++ later ∧
        c' = { r with trace := c.trace ++ refusal targets request fault ++ later } := by
  let fresh : Coordinator := { c with trace := #[] }
  have hc : c = fresh.following c.trace := by simp [fresh, following]
  have hstep : (c.step (.start targets request)).coordinator =
      fresh.following (c.trace ++ refusal targets request fault) := by
    rw [step_start_of_fault refused]
    simp [fresh, following]
  rw [hstep, run_following_iff]
  constructor
  · rintro ⟨r, hrun, rfl⟩
    exact ⟨r.following c.trace, r.trace, hc ▸ hrun.following, rfl, rfl⟩
  · rintro ⟨r, later, hrun, htrace, rfl⟩
    obtain ⟨q, hq, rfl⟩ := run_following_iff.mp (hc ▸ hrun)
    obtain rfl : q.trace = later := (Array.append_right_inj c.trace).mp htrace
    exact ⟨q, hq, rfl⟩

/-- A start panics over duplicates just where two targets at different positions compare equal, and over
missing targets just where there are none and a sort is given. It then adds two events to the trace,
calls nobody, and whatever follows is what could follow without it. All other starts make phases, and
these have consecutive ids. -/
theorem start_refused_without_effect (h : Reachable policy moves c) (targets : List ShardTarget)
    (request : SearchRequest) :
    ((c.step (.start targets request)).coordinator.verdicts =
        c.verdicts ++ [.panicked "can-match phase started with duplicate shard targets"] ↔
      ComesTwice targets) ∧
    ((c.step (.start targets request)).coordinator.verdicts =
        c.verdicts ++ [.panicked "sorted can-match phase started without shard targets"] ↔
      targets = [] ∧ request.sort.isSome = true) ∧
    ((c.step (.start targets request)).coordinator.verdicts =
        c.verdicts ++ [.admitted c.phases.size] ↔
      ¬ ComesTwice targets ∧ ¬ (targets = [] ∧ request.sort.isSome = true)) ∧
    (∀ fault, startFault? targets request = some fault →
      c.step (.start targets request) =
        { coordinator := { c with trace := c.trace ++ refusal targets request fault }, call := none } ∧
      ∀ after c', Run (fun _ _ => True) (c.step (.start targets request)).coordinator after c' ↔
        ∃ r later, Run (fun _ _ => True) c after r ∧ r.trace = c.trace ++ later ∧
          c' = { r with trace := c.trace ++ refusal targets request fault ++ later }) ∧
    c.inquiries = moves.filterMap Move.admitted? ∧
    c.verdicts.filterMap Verdict.phase? = List.range (moves.filterMap Move.admitted?).length := by
  obtain ⟨call, sound⟩ := h.sound
  have hverdicts := (sound.verdicts_step (.start targets request)).1
  have hduplicates := @startFault?_eq_duplicateTargets_iff targets request
  have hsort := @startFault?_eq_sortWithoutTargets_iff targets request
  refine ⟨?_, ?_, ?_, ?_, h.inquiries_eq⟩
  · rw [hverdicts, List.append_cancel_left_eq, ← hduplicates, verdict?]
    rcases startFault? targets request with _ | _ | _ <;> simp [StartFault.message]
  · rw [hverdicts, List.append_cancel_left_eq, ← hsort, verdict?]
    rcases startFault? targets request with _ | _ | _ <;> simp [StartFault.message]
  · rw [hverdicts, List.append_cancel_left_eq, ← hduplicates, ← hsort, verdict?]
    rcases startFault? targets request with _ | _ | _ <;> simp
  · intro fault refused
    exact ⟨step_start_of_fault refused, fun _ _ => run_refused_iff refused⟩

/-- The second target is the first one, with other copies and another filter. -/
def reassigned : List ShardTarget :=
  [{ shard := { index := ⟨"logs"⟩, ordinal := 3 }, copies := [⟨"a"⟩] },
    { shard := { index := ⟨"logs"⟩, ordinal := 3 }, copies := [⟨"b"⟩, ⟨"c"⟩],
      aliasFilter := { aliases := ["recent"] } }]

/-- The shard alone, and then both targets. -/
def startedTwice : List Move := [.start (reassigned.take 1) {}, .start reassigned {}]

theorem start_refused_reassigned :
    Reachable {} startedTwice (run {} startedTwice) ∧
      (run {} startedTwice).verdicts =
        [.admitted 0, .panicked "can-match phase started with duplicate shard targets"] ∧
      ComesTwice reassigned ∧
      ((run {} startedTwice).step (.start reassigned {})).coordinator.tasks =
        (run {} startedTwice).tasks ∧
      (run {} startedTwice).verdicts.filterMap Verdict.phase? = [0] := by
  have hreach := reachable_run {} startedTwice
  have hfault : startFault? reassigned {} = some .duplicateTargets := by decide
  obtain ⟨-, -, -, hrefused, -, hids⟩ := start_refused_without_effect hreach reassigned {}
  refine ⟨hreach, by decide, startFault?_eq_duplicateTargets_iff.mp hfault, ?_, hids⟩
  rw [(hrefused _ hfault).1]

end Coordinator
end Prefilter
