import Prefilter.Proofs.Phase.Sound

namespace Prefilter

theorem modify_modify {α : Type} (xs : Array α) (i : Nat) (f g : α → α) :
    (xs.modify i f).modify i g = xs.modify i fun a => g (f a) := by
  apply Array.ext
  · simp
  · intro j hj hj'
    simp only [Array.getElem_modify]
    split <;> rfl

namespace Coordinator

variable {c c' : Coordinator} {d d' : Duty} {m : Move} {call : Option Frame}

theorem Books.progress (h : c.Books d) (hp : Progress c d c' d') : c'.Books d' := by
  cases hp with
  | submitLast => exact h.transfer rfl rfl rfl rfl
  | submit => exact h.transfer rfl rfl rfl rfl
  | @complete phase caller p found =>
      have hlog := h.logAll (c.resultNotices phase p)
      have hcomplete := hlog.complete rfl found (Duty.completes_rest none)
      exact hcomplete.transfer rfl rfl rfl rfl
  | supersede => exact (h.log _).transfer rfl rfl rfl (Caller.completes_duty _ _)
  | record found slot current =>
      have hbalanced := h.balanced found
      have hpos := hbalanced.outstanding_pos slot current
      refine h.update found hpos (hbalanced.record slot current) rfl rfl rfl fun j => ?_
      split
      · rename_i hone
        simp [Duty.completes, Phase.record, hone, eq_comm]
      · rename_i hne
        simp only [Caller.completes_duty, Phase.record]
        simp
        omega
  | connect => exact h.transfer rfl rfl rfl rfl
  | exhaust => exact (h.log _).transfer rfl rfl rfl rfl
  | ignore => exact (h.log _).transfer rfl rfl rfl rfl
  | advance _ found slot current =>
      have hbalanced := h.balanced found
      have hpos := hbalanced.outstanding_pos slot current
      refine (h.log _).update found hpos (hbalanced.advance slot current) rfl rfl rfl fun j => ?_
      simp [Duty.completes, Phase.advance]
      omega
  | send => exact ((h.emit rfl).emit rfl).transfer rfl rfl rfl rfl

theorem Books.intake (h : c.Books (.rest call)) (hi : Intake c m c' d) : c'.Books d := by
  cases hi with
  | reject => exact ((h.log _).emit rfl).transfer rfl rfl rfl rfl
  | start =>
      refine (h.logAll _).openPhase _ _ rfl fun j => ?_
      split
      · rename_i hempty
        rw [List.isEmpty_iff.mp hempty]
        exact ⟨fun hj => ⟨(Option.some.inj hj).symm, rfl⟩, fun hj => congrArg some hj.1.symm⟩
      · rename_i hne
        simp_all [Duty.completes]
  | discard => exact (h.log _).transfer rfl rfl rfl rfl
  | abandon => exact (h.log _).transfer rfl rfl rfl rfl
  | refused => exact (h.log _).transfer rfl rfl rfl rfl
  | @unreachable a error target node =>
      have hresolved := h.emit (e := .resolved a target.cluster node false) rfl
      exact hresolved.transfer rfl rfl rfl rfl
  | returned => exact h.transfer rfl rfl rfl (Caller.completes_duty _ _)
  | _ => exact h.transfer rfl rfl rfl rfl

/-- What holds of a coordinator whatever its collaborators do. -/
structure Sound (c : Coordinator) (d : Duty) : Prop where
  grounded : c.Grounded
  duty : d.Supported c
  books : c.Books d

theorem Sound.progress (h : c.Sound d) (hp : Progress c d c' d') : c'.Sound d' where
  grounded := h.grounded.progress hp
  duty := h.duty.progress hp
  books := h.books.progress hp

theorem Sound.intake (h : c.Sound (.rest call)) (hi : Intake c m c' d) : c'.Sound d where
  grounded := h.grounded.intake hi
  duty := Duty.supported_of_intake h.grounded hi
  books := h.books.intake hi

theorem sound_initial (policy : OrderingPolicy) : Sound { policy } (.rest none) where
  grounded := ⟨by simp, by simp, by simp⟩
  duty := trivial
  books := ⟨by simp, by simp, by simp, by simp, by simp [deliveries], by simp⟩

theorem isCurrent_iff {a : Attempt} :
    c.isCurrent a = true ↔ ∃ p s, c.phases[a.phase]? = some p ∧ p.slots[a.slot]? = some s ∧
      s.cursor = .copy a.copy := by
  simp [isCurrent, slot?, Option.bind_eq_some_iff]

theorem resume_eq_perform (c : Coordinator) (phase : Nat) (caller : Caller) :
    c.resume phase caller = c.perform (caller.duty phase) := by
  cases caller <;> rfl

theorem foldl_log_eq_logAll (remarks : List OrderingRemark) (c : Coordinator) :
    remarks.foldl (fun c remark => c.log (.ordering remark)) c = c.logAll (remarks.map .ordering) := by
  induction remarks generalizing c with
  | nil => exact (logAll_nil c).symm
  | cons remark remarks ih => rw [List.foldl_cons, ih, List.map_cons, logAll_cons]

theorem finish_of_stale {a : Attempt} {outcome : Outcome} {caller : Caller} {p : Phase} {s : Slot}
    (found : c.phases[a.phase]? = some p) (slot : p.slots[a.slot]? = some s)
    (stale : s.cursor ≠ .copy a.copy) :
    c.finish a outcome caller = (c.log (.superseded a)).resume a.phase caller := by
  simp [finish, slot?, found, slot, stale]

theorem finish_of_current {a : Attempt} {outcome : Outcome} {caller : Caller} {p : Phase} {s : Slot}
    (found : c.phases[a.phase]? = some p) (slot : p.slots[a.slot]? = some s)
    (current : s.cursor = .copy a.copy) (balanced : p.Balanced) :
    c.finish a outcome caller =
      if p.outstanding = 1 then
        (c.updatePhase a.phase (·.record a.slot outcome)).complete a.phase caller
      else (c.updatePhase a.phase (·.record a.slot outcome)).resume a.phase caller := by
  have hnone := balanced.outcome_eq_none slot current
  have hpos := balanced.outstanding_pos slot current
  simp only [finish, slot?, found, Option.bind_some, slot, current, hnone, Nat.ne_of_gt hpos,
    modifySlot, modify_modify]
  simp [updatePhase, Phase.record]

/-- A duty other than rest is discharged by an act and what that leaves. -/
theorem Sound.exists_progress (h : c.Sound d) (hd : 0 < d.rank) :
    ∃ c' d', Progress c d c' d' ∧ d'.rank < d.rank ∧ c.perform d = c'.perform d' := by
  cases d with
  | rest call => simp [Duty.rank] at hd
  | submit phase slot =>
      cases ht : c.target? phase slot with
      | none => exact ⟨_, _, .submitLast ht, hd, by simp [perform, submit, ht, rest]⟩
      | some target =>
          exact ⟨_, _, .submit ht, hd, by simp [perform, submit, ht, call, push, addTask]⟩
  | complete phase caller =>
      obtain ⟨p, hp⟩ := h.duty
      have hzero := h.books.due rfl hp
      have hincomplete : p.completed = false := by
        rw [← Bool.not_eq_true, h.books.completed_iff hp]
        simp [Duty.completes]
      refine ⟨_, _, .complete hp, hd, ?_⟩
      simp only [perform, complete, hp, hincomplete, (h.books.balanced hp).openSlots_eq_nil hzero,
        List.foldl_nil, foldl_log_eq_logAll]
      simp [resultNotices, logAll, log, emit, call, push, updatePhase, resultOf, Phase.conclude]
  | finish a outcome caller =>
      obtain ⟨target, htarget⟩ := h.duty
      obtain ⟨p, hp, ht⟩ := exists_phase_of_target? htarget
      have hsize := (h.books.balanced hp).slots_size
      have hlt : a.slot < p.slots.size := hsize ▸ (Array.getElem?_eq_some_iff.mp ht).1
      have hs : p.slots[a.slot]? = some p.slots[a.slot] := Array.getElem?_eq_getElem hlt
      generalize p.slots[a.slot] = s at hs
      have hrank := Caller.rank_duty a.phase caller
      by_cases hcur : s.cursor = .copy a.copy
      · refine ⟨_, _, .record hp hs hcur, ?_, ?_⟩
        · split
          · exact Nat.lt_succ_self 2
          · exact Nat.lt_succ_of_le (Nat.le_succ_of_le hrank)
        · rw [perform, finish_of_current hp hs hcur (h.books.balanced hp), resume_eq_perform]
          split <;> rfl
      · have hstale : c.isCurrent a = false := by
          rw [← Bool.not_eq_true, isCurrent_iff]
          rintro ⟨p', s', hp', hs', hcur'⟩
          obtain rfl := Option.some.inj (hp.symm.trans hp')
          obtain rfl := Option.some.inj (hs.symm.trans hs')
          exact hcur hcur'
        refine ⟨_, _, .supersede hstale, Nat.lt_succ_of_le (Nat.le_succ_of_le hrank), ?_⟩
        rw [perform, finish_of_stale hp hs hcur, resume_eq_perform]
  | dispatch a =>
      obtain ⟨target, htarget⟩ := h.duty
      cases hn : target.copies[a.copy]? with
      | none =>
          refine ⟨_, _, .exhaust htarget hn, Nat.lt_succ_self 3, ?_⟩
          simp [perform, dispatch, htarget, hn, exhaustionNotice]
      | some node =>
          have hdest : c.destination? a = some (target, node) := by
            simp [destination?, htarget, hn]
          refine ⟨_, _, .connect hdest, Nat.zero_lt_succ 3, ?_⟩
          simp [perform, dispatch, htarget, hn, call, push]
  | fail a error =>
      obtain ⟨target, node, hdest⟩ := h.duty
      cases hcur : c.isCurrent a with
      | false =>
          refine ⟨_, _, .ignore hdest hcur, hd, ?_⟩
          have hlog : (c.log (.attemptFailed a target node error)).isCurrent a = false := hcur
          simp [perform, fail, hdest, hlog, rest]
      | true =>
          obtain ⟨p, s, hp, hs, hcopy⟩ := isCurrent_iff.mp hcur
          refine ⟨_, _, .advance hdest hp hs hcopy, Nat.lt_succ_self 4, ?_⟩
          have hlog : (c.log (.attemptFailed a target node error)).isCurrent a = true := hcur
          simp [perform, fail, hdest, hlog, modifySlot, updatePhase, Phase.advance]
  | send a connection =>
      obtain ⟨target, node, hdest⟩ := h.duty
      obtain ⟨p, hp, -⟩ := exists_phase_of_target? (exists_target?_of_destination? hdest).1
      refine ⟨_, _, .send hp hdest, hd, ?_⟩
      simp [perform, send, hp, hdest, call, push, addProbe, emit]

theorem takeTask?_eq_some {task : Nat} {d : Dispatch} (found : c.tasks[task]? = some d)
    (pending : d.pending = true) : c.takeTask? task = some (d, c.useTask task) := by
  simp [takeTask?, found, pending, useTask]

theorem takeListener?_eq_some {probe : Nat} {p : Probe} (found : c.probes[probe]? = some p)
    (unresolved : p.listener.resolved = false) :
    c.takeListener? probe = some (p.attempt, c.useListener probe) := by
  simp [takeListener?, found, unresolved, useListener]

theorem takeTask?_cases (c : Coordinator) (task : Nat) :
    c.takeTask? task = none ∨
      ∃ d, c.tasks[task]? = some d ∧ d.pending = true ∧
        c.takeTask? task = some (d, c.useTask task) := by
  cases found : c.tasks[task]? with
  | none => exact .inl (by simp [takeTask?, found])
  | some d =>
      cases pending : d.pending with
      | false => exact .inl (by simp [takeTask?, found, pending])
      | true => exact .inr ⟨d, rfl, pending, takeTask?_eq_some found pending⟩

theorem takeListener?_cases (c : Coordinator) (probe : Nat) :
    c.takeListener? probe = none ∨
      ∃ p, c.probes[probe]? = some p ∧ p.listener.resolved = false ∧
        c.takeListener? probe = some (p.attempt, c.useListener probe) := by
  cases found : c.probes[probe]? with
  | none => exact .inl (by simp [takeListener?, found])
  | some p =>
      cases unresolved : p.listener.resolved with
      | true => exact .inl (by simp [takeListener?, found, unresolved])
      | false => exact .inr ⟨p, rfl, unresolved, takeListener?_eq_some found unresolved⟩

theorem step_start {targets : List ShardTarget} {request : SearchRequest}
    (admitted : startFault? targets request = none) :
    c.step (.start targets request) =
      ((c.logAll [.startSpan targets.length request.sort.isSome,
        .phaseSpan c.phases.size targets.length (request.sort.map (·.field)),
        .phaseStarted c.phases.size]).openPhase targets request).perform
        (if targets.isEmpty then .complete c.phases.size .entry else .submit c.phases.size 0) := by
  simp only [step, start, admitted, logAll_cons, logAll_nil]
  split <;> rfl

theorem step_discard {task : Nat} {d : Dispatch} {target : ShardTarget}
    (found : c.tasks[task]? = some d) (pending : d.pending = true)
    (targeted : c.target? d.phase d.slot = some target) :
    c.step (.discard task) = ((c.useTask task).log (.dispatchDropped d.phase d.slot target)).perform
      (.finish ⟨d.phase, d.slot, 0⟩ .failure .entry) := by
  have hused : (c.useTask task).target? d.phase d.slot = some target := targeted
  simp [step, takeTask?_eq_some found pending, discard, hused, perform]

theorem step_answer {probe : Nat} {p : Probe} {response : ProbeResponse}
    (found : c.probes[probe]? = some p) (unresolved : p.listener.resolved = false) :
    c.step (.answer probe (.ok response)) =
      (c.useListener probe).perform (.finish p.attempt response.outcome .entry) := by
  simp [step, takeListener?_eq_some found unresolved, settle, perform]

theorem step_answerError {probe : Nat} {p : Probe} {error : ProbeError}
    (found : c.probes[probe]? = some p) (unresolved : p.listener.resolved = false) :
    c.step (.answer probe (.error error)) =
      (c.useListener probe).perform (.fail p.attempt error) := by
  simp [step, takeListener?_eq_some found unresolved, settle, perform]

/-- Every move is taken up, and what is left to do is then done. -/
theorem Sound.exists_intake (h : c.Sound (.rest call)) (m : Move) :
    ∃ c' d, Intake c m c' d ∧ c.step m = c'.perform d := by
  cases m with
  | start targets request =>
      cases hf : startFault? targets request with
      | some fault => exact ⟨_, _, .reject hf, by simp [step, start, hf, rest, perform]⟩
      | none => exact ⟨_, _, .start hf, step_start hf⟩
  | run task =>
      rcases c.takeTask?_cases task with hn | ⟨d, hd, hp, ht⟩
      · exact ⟨_, _, .void, by simp [step, hn, rest, perform]⟩
      · exact ⟨_, _, .run hd hp, by simp [step, ht, perform]⟩
  | discard task =>
      rcases c.takeTask?_cases task with hn | ⟨d, hd, hp, ht⟩
      · exact ⟨_, _, .void, by simp [step, hn, rest, perform]⟩
      · obtain ⟨target, htarget⟩ := h.grounded.tasks hd
        exact ⟨_, _, .discard hd hp htarget, step_discard hd hp htarget⟩
  | answer probe result =>
      rcases c.takeListener?_cases probe with hn | ⟨p, hp, hu, ht⟩
      · exact ⟨_, _, .void, by simp [step, hn, rest, perform]⟩
      · cases result with
        | ok response => exact ⟨_, _, .answer hp hu, step_answer hp hu⟩
        | error error => exact ⟨_, _, .answerError hp hu, step_answerError hp hu⟩
  | abandon probe =>
      rcases c.takeListener?_cases probe with hn | ⟨p, hp, hu, ht⟩
      · exact ⟨_, _, .void, by simp [step, hn, rest, perform]⟩
      · exact ⟨_, _, .abandon hp hu, by simp [step, ht, settle, perform]⟩
  | accepted =>
      rcases hs : c.stack with _ | ⟨_ | _ | _ | _, stack⟩
      case cons.submitting task =>
        obtain ⟨d, hd⟩ : Frame.Supported c (.submitting task) :=
          h.grounded.frames (hs ▸ List.mem_cons_self)
        exact ⟨_, _, .accepted hs hd, by simp [step, hs, hd, perform]⟩
      all_goals exact ⟨_, _, .void, by simp [step, hs, rest, perform]⟩
  | refused error =>
      rcases hs : c.stack with _ | ⟨_ | _ | _ | _, stack⟩
      case cons.submitting task =>
        obtain ⟨d, hd⟩ : Frame.Supported c (.submitting task) :=
          h.grounded.frames (hs ▸ List.mem_cons_self)
        obtain ⟨target, htarget⟩ := h.grounded.tasks hd
        have hpopped : ({ c with stack } : Coordinator).target? d.phase d.slot = some target :=
          htarget
        exact ⟨_, _, .refused hs hd htarget, by simp [step, hs, hd, refuse, hpopped, perform]⟩
      all_goals exact ⟨_, _, .void, by simp [step, hs, rest, perform]⟩
  | connected connection =>
      rcases hs : c.stack with _ | ⟨_ | _ | _ | _, stack⟩
      case cons.connecting a => exact ⟨_, _, .connected hs, by simp [step, hs, perform]⟩
      all_goals exact ⟨_, _, .void, by simp [step, hs, rest, perform]⟩
  | unreachable error =>
      rcases hs : c.stack with _ | ⟨_ | _ | _ | _, stack⟩
      case cons.connecting a =>
        obtain ⟨target, node, hd⟩ : Frame.Supported c (.connecting a) :=
          h.grounded.frames (hs ▸ List.mem_cons_self)
        have hpopped : ({ c with stack } : Coordinator).destination? a = some (target, node) := hd
        exact ⟨_, _, .unreachable hs hd, by simp [step, hs, unreachable, hpopped, perform]⟩
      all_goals exact ⟨_, _, .void, by simp [step, hs, rest, perform]⟩
  | sent =>
      rcases hs : c.stack with _ | ⟨_ | _ | _ | _, stack⟩
      case cons.sending probe => exact ⟨_, _, .sent hs, by simp [step, hs, rest, perform]⟩
      all_goals exact ⟨_, _, .void, by simp [step, hs, rest, perform]⟩
  | unsent error =>
      rcases hs : c.stack with _ | ⟨_ | _ | _ | _, stack⟩
      case cons.sending probe =>
        obtain ⟨p, hp⟩ : Frame.Supported c (.sending probe) :=
          h.grounded.frames (hs ▸ List.mem_cons_self)
        exact ⟨_, _, .unsent hs hp, by simp [step, hs, hp, perform]⟩
      all_goals exact ⟨_, _, .void, by simp [step, hs, rest, perform]⟩
  | returned =>
      rcases hs : c.stack with _ | ⟨_ | _ | _ | _, stack⟩
      case cons.delivering phase caller =>
        exact ⟨_, _, .returned hs, by simp [step, hs, resume_eq_perform]⟩
      all_goals exact ⟨_, _, .void, by simp [step, hs, rest, perform]⟩

/-- What progress preserves holds once a duty is discharged. -/
theorem Sound.perform_induction {P : Coordinator → Duty → Prop} (sound : c.Sound d)
    (progress : ∀ {c d c' d'}, Sound c d → P c d → Progress c d c' d' → P c' d') (h : P c d) :
    P (c.perform d).coordinator (.rest (c.perform d).call) := by
  -- Every act leaves a duty of lower rank.
  induction hrank : d.rank using Nat.strongRecOn generalizing c d with
  | ind rank ih =>
      by_cases hd : 0 < d.rank
      · obtain ⟨c', d', hp, hlt, heq⟩ := sound.exists_progress hd
        rw [heq]
        exact ih d'.rank (hrank ▸ hlt) (sound.progress hp) (progress sound h hp) rfl
      · cases d with
        | rest call => exact h
        | _ => simp [Duty.rank] at hd

/-- What a move makes true as it is taken up, and what progress preserves, holds after the move. -/
theorem Sound.step_induction {P : Coordinator → Duty → Prop} (sound : c.Sound (.rest call))
    (progress : ∀ {c d c' d'}, Sound c d → P c d → Progress c d c' d' → P c' d')
    (intake : ∀ {c' d}, Intake c m c' d → P c' d) :
    P (c.step m).coordinator (.rest (c.step m).call) := by
  obtain ⟨c', d, hi, heq⟩ := sound.exists_intake m
  rw [heq]
  exact (sound.intake hi).perform_induction progress (intake hi)

theorem Sound.extends_perform (sound : c.Sound d) : Extends c (c.perform d).coordinator :=
  sound.perform_induction (P := fun c' _ => Extends c c') (fun _ h hp => h.trans hp.extends)
    (.refl c)

theorem Sound.extends_step (sound : c.Sound (.rest call)) (m : Move) :
    Extends c (c.step m).coordinator :=
  sound.step_induction (P := fun c' _ => Extends c c') (fun _ h hp => h.trans hp.extends)
    fun hi => hi.extends

theorem Sound.exists_phase_start (sound : c.Sound (.rest call)) {targets : List ShardTarget}
    {request : SearchRequest} (admitted : startFault? targets request = none) :
    ∃ p, (c.step (.start targets request)).coordinator.phases[c.phases.size]? = some p ∧
      p.targets = targets.toArray ∧ p.request = request := by
  rw [step_start admitted]
  exact (sound.intake (.start admitted)).extends_perform.phases Array.getElem?_push_size

theorem Sound.step (h : c.Sound (.rest call)) (m : Move) :
    (c.step m).coordinator.Sound (.rest (c.step m).call) :=
  h.step_induction (fun hs _ hp => hs.progress hp) fun hi => h.intake hi

end Coordinator
end Prefilter
