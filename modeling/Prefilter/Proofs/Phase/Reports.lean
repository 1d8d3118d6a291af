import Prefilter.Proofs.Phase.Expectation
import Prefilter.Proofs.Phase.FailOpen

namespace Prefilter

namespace Hearing

/-- Whether it is the failure of an attempt. -/
def fails (a : Attempt) (h : Hearing) : Bool := h.attempt = a && h.news.error?.isSome

/-- Whether it is the response of an attempt. -/
def answers (a : Attempt) (h : Hearing) : Bool := h.attempt = a && !h.news.error?.isSome

theorem countP_fails_add_answers (hearings : List Hearing) (a : Attempt) :
    hearings.countP (·.fails a) + hearings.countP (·.answers a) =
      hearings.countP (·.settles a) + hearings.countP (·.returns a) := by
  have hone (h : Hearing) : (if h.fails a then 1 else 0) + (if h.answers a then 1 else 0) =
      (if h.settles a then 1 else 0) + if h.returns a then 1 else 0 := by
    unfold fails answers settles returns
    by_cases hat : h.attempt = a
    · cases h.news <;> simp [hat, News.error?, News.isUnsent]
    · simp [hat]
  induction hearings with
  | nil => rfl
  | cons h hearings ih =>
      have := hone h
      simp only [List.countP_cons]
      omega

theorem countP_returns_le_fails (hearings : List Hearing) (a : Attempt) :
    hearings.countP (·.returns a) ≤ hearings.countP (·.fails a) := by
  refine List.countP_mono_left fun h _ hreturns => ?_
  unfold returns at hreturns
  unfold fails
  cases hnews : h.news <;> simp_all [News.error?, News.isUnsent]

end Hearing

theorem Duty.Ends.starts_eq_zero {d : Duty} {a : Attempt} (h : d.Ends a) : d.starts a = 0 := by
  cases d with
  | finish | fail => rfl
  | _ => exact h.elim

namespace Coordinator

variable {c c' : Coordinator} {d d' : Duty} {m : Move} {a : Attempt} {h : Hearing} {news : News}
  {call : Option Frame} {policy : OrderingPolicy} {hearings : List Hearing} {outcome : Outcome}
  {caller : Caller}

/-- The executor has refused the task of a shard. -/
def IsRefused (c : Coordinator) (phase slot : Nat) : Prop :=
  ∃ target error, Event.log (.dispatchRefused phase slot target error) ∈ c.trace.toList

/-- The shard of an attempt may have gone on without it. -/
def Excused (c : Coordinator) (hearings : List Hearing) (a : Attempt) : Prop :=
  (∃ h ∈ hearings, h.returns a = true) ∨ c.IsRefused a.phase a.slot

/-- The task of a shard has been neither run nor dropped, and the attempt is the first one. -/
structure Untried (c : Coordinator) (a : Attempt) : Prop where
  first : a.copy = 0
  slot : ∃ s, c.slot? a.phase a.slot = some s
  unused : ∀ task, ¬ c.IsUsed task a.phase a.slot

/-- It is still to be heard how the attempt comes out, or the attempt is yet to be made. -/
def Awaited (c : Coordinator) (d : Duty) (a : Attempt) : Prop := 0 < c.expected d a ∨ c.Untried a

theorem Progress.mem_trace {e : Event} (hp : Progress c d c' d') (he : e ∈ c.trace.toList) :
    e ∈ c'.trace.toList := by
  cases hp <;> simp_all [push, addTask, addProbe, emit, log, logAll, updatePhase]

theorem Intake.mem_trace {e : Event} (hi : Intake c m c' d) (he : e ∈ c.trace.toList) :
    e ∈ c'.trace.toList := by
  cases hi <;> simp_all [useTask, useListener, emit, log, logAll, openPhase]

theorem Excused.progress (h : c.Excused hearings a) (hp : Progress c d c' d') :
    c'.Excused hearings a := by
  refine h.imp_right ?_
  rintro ⟨target, error, he⟩
  exact ⟨target, error, hp.mem_trace he⟩

theorem Excused.intake (h : c.Excused hearings a) (hi : Intake c m c' d) (more : List Hearing) :
    c'.Excused (hearings ++ more) a := by
  rcases h with ⟨hearing, hmem, hreturns⟩ | ⟨target, error, he⟩
  · exact .inl ⟨hearing, List.mem_append_left _ hmem, hreturns⟩
  · exact .inr ⟨target, error, hi.mem_trace he⟩

/-- An attempt that is awaited is the current one of its shard. -/
structure Candid (c : Coordinator) (d : Duty) (hearings : List Hearing) : Prop where
  current : ∀ {a}, c.Awaited d a → c.isCurrent a = true ∨ c.Excused hearings a
  ends : ∀ {a}, d.Ends a → c.Awaited d a → c.Excused hearings a

theorem Untried.of_progress (h : c'.Untried a) (sound : c.Sound d) (hp : Progress c d c' d') :
    c.Untried a where
  first := h.first
  slot := by
    obtain ⟨s, hs⟩ := h.slot
    exact hp.exists_slot?_before sound hs
  unused task used := h.unused task (hp.isUsed used)

theorem Progress.awaited_cases (hp : Progress c d c' d') (sound : c.Sound d)
    (h : c'.Awaited d' a) : c.Awaited d a ∨ c'.isCurrent a = true := by
  rcases h with hpos | untried
  · rcases hp.starts_cases a with hnone | ⟨b, error, -, -, -, still⟩
    · have := hp.expected_le a
      exact .inl (.inl (by omega))
    · exact .inr still
  · exact .inl (.inr (untried.of_progress sound hp))

theorem Intake.awaited_cases (hi : Intake c m c' d) (sound : c.Sound (.rest call))
    (looped : ∀ k, Looped c (.rest call) k) (taken : c.hearing? m = none ∨ d ≠ .rest none)
    (h : c'.Awaited d a) : c.Awaited (.rest call) a ∨ c'.isCurrent a = true := by
  rcases h with hpos | ⟨first, ⟨s, hs⟩, hunused⟩
  · rcases hi.starts_cases a with hnone | ⟨task, pending, -, first, -⟩
    · have := hi.expected_le taken call a
      exact .inl (.inl (by omega))
    · obtain ⟨target, htarget⟩ := sound.grounded.tasks pending
      exact .inl (.inr ⟨first, sound.exists_slot? htarget, (looped a.phase).not_isUsed pending⟩)
  · rcases hi.slot?_cases a.phase a.slot with heq | ⟨_, _, -, -, -, -, hfresh, -⟩
    · exact .inl (.inr ⟨first, ⟨s, heq ▸ hs⟩, fun task used => hunused task (hi.isUsed used)⟩)
    · exact .inr (isCurrent_iff_slot?.mpr ⟨_, hfresh, by rw [first]⟩)

theorem Sparing.not_awaited (h : c.Sparing (.rest call) hearings) (hi : Intake c m c' d)
    (taken : c.hearing? m = none ∨ d ≠ .rest none) (ends : d.Ends a) (tells : Tells c m a news)
    (settled : news.isUnsent = false) : ¬ c'.Awaited d a := by
  rintro (hpos | untried)
  · have hle := hi.expected_le taken call a
    have hstarts : d.starts a = 0 := ends.starts_eq_zero
    have hsettled := h.settled a
    rw [tells.hearing?_eq, Option.toList_some, countP_settles_hearingOf c settled, if_pos rfl] at hle
    omega
  · obtain ⟨task, used⟩ := (h.begun_of_tells tells).used untried.first
    exact absurd (hi.isUsed used) (untried.unused task)

theorem Progress.isCurrent_cases (hp : Progress c d c' d') (sound : c.Sound d)
    (current : c.isCurrent a = true) : c'.isCurrent a = true ∨ d.Ends a := by
  obtain ⟨s, hs, hcopy⟩ := isCurrent_iff_slot?.mp current
  have hat {b : Attempt} (phase : b.phase = a.phase) (slot : b.slot = a.slot)
      (before : c.slot? a.phase a.slot = some ⟨.copy b.copy, none⟩) : b = a := by
    obtain rfl := Option.some.inj (hs.symm.trans before)
    exact (Attempt.mk.injEq ..).mpr ⟨phase, slot, Cursor.copy.inj hcopy⟩
  cases hp.slotChange sound a.phase a.slot with
  | same eq => exact .inl (isCurrent_iff_slot?.mpr ⟨s, eq ▸ hs, hcopy⟩)
  | recorded duty phase slot before => exact .inr (duty ▸ hat phase slot before)
  | advanced duty phase slot before => exact .inr (duty ▸ hat phase slot before)

theorem Progress.ends_cases (hp : Progress c d c' d') (h : d'.Ends a) :
    c'.expected d' a + 1 ≤ c.expected d a := by
  cases hp with
  | supersede => cases ‹Caller› <;> exact h.elim
  | record =>
      split at h
      · exact h.elim
      · cases ‹Caller› <;> exact h.elim
  | exhaust =>
      obtain rfl : _ = a := h
      simp only [expected, Duty.makes, log, emit, if_true]
      omega
  | _ => exact h.elim

theorem Intake.ends_cases (hi : Intake c m c' d) (h : d.Ends a) :
    (∃ task, c.IsPending task a.phase a.slot ∧ c'.IsUsed task a.phase a.slot ∧ a.copy = 0) ∨
      c'.IsRefused a.phase a.slot ∨ ∃ news, Tells c m a news := by
  cases hi with
  | start => split at h <;> exact h.elim
  | @discard task e target found pending =>
      obtain rfl : _ = a := h
      have hpending : c.IsPending task e.phase e.slot := by rw [IsPending, found, ← pending]
      exact .inl ⟨task, hpending, hpending.isUsed_useTask, rfl⟩
  | @refused task e target error stack top found =>
      obtain rfl : _ = a := h
      exact .inr (.inl ⟨target, error, by simp [log, emit]⟩)
  | answer found unresolved =>
      obtain rfl : _ = a := h
      exact .inr (.inr ⟨_, .answered ⟨_, found, unresolved, rfl⟩⟩)
  | answerError found unresolved =>
      obtain rfl : _ = a := h
      exact .inr (.inr ⟨_, .failed ⟨_, found, unresolved, rfl⟩⟩)
  | abandon found unresolved =>
      obtain rfl : _ = a := h
      exact .inr (.inr ⟨_, .abandoned ⟨_, found, unresolved, rfl⟩⟩)
  | unreachable top =>
      obtain rfl : _ = a := h
      exact .inr (.inr ⟨_, .unfound top⟩)
  | unsent top found =>
      obtain rfl : _ = a := h
      exact .inr (.inr ⟨_, .unsent top found⟩)
  | returned => cases ‹Caller› <;> exact h.elim
  | _ => exact h.elim

namespace Candid

theorem progress (h : c.Candid d hearings) (sparing : c.Sparing d hearings) (sound : c.Sound d)
    (hp : Progress c d c' d') : c'.Candid d' hearings where
  current {a} awaited := by
    rcases hp.awaited_cases sound awaited with before | still
    · rcases h.current before with current | excused
      · rcases hp.isCurrent_cases sound current with still | ends
        · exact .inl still
        · exact .inr ((h.ends ends before).progress hp)
      · exact .inr (excused.progress hp)
    · exact .inl still
  ends {a} ends awaited := by
    have hle := hp.ends_cases ends
    have hsettled := sparing.settled a
    rcases awaited with hpos | untried
    · omega
    · have begun : c.Begun hearings a := sparing.begun (by omega)
      obtain ⟨task, used⟩ := begun.used untried.first
      exact absurd (hp.isUsed used) (untried.unused task)

theorem intake (h : c.Candid (.rest call) hearings) (sparing : c.Sparing (.rest call) hearings)
    (looped : ∀ k, Looped c (.rest call) k) (sound : c.Sound (.rest call)) (hi : Intake c m c' d)
    (taken : c.hearing? m = none ∨ d ≠ .rest none) :
    c'.Candid d (hearings ++ (c.hearing? m).toList) where
  current {a} awaited := by
    rcases hi.awaited_cases sound looped taken awaited with before | still
    · rcases h.current before with current | excused
      · obtain ⟨s, hs, hcopy⟩ := isCurrent_iff_slot?.mp current
        exact .inl (isCurrent_iff_slot?.mpr ⟨s, hi.slot?_of_some hs, hcopy⟩)
      · exact .inr (excused.intake hi _)
    · exact .inl still
  ends {a} ends awaited := by
    rcases hi.ends_cases ends with ⟨task, pending, used, first⟩ | refused | ⟨news, tells⟩
    · -- The task was at hand until now, so that its shard has not been tried.
      have unbegun : ¬ c.Begun hearings a := (looped a.phase).not_begun pending first
      rcases awaited with hpos | untried
      · have hle := hi.expected_le taken call a
        have hstarts : d.starts a = 0 := ends.starts_eq_zero
        have hzero := (sparing.eq_zero unbegun).1
        omega
      · exact absurd used (untried.unused task)
    · exact .inr refused
    · cases hunsent : news.isUnsent with
      | true =>
          refine .inl ⟨c.hearingOf a news, by simp [tells.hearing?_eq], ?_⟩
          simp [Hearing.returns, hearingOf, hunsent]
      | false => exact absurd awaited (sparing.not_awaited hi taken ends tells hunsent)

theorem reorder {stack : List Frame} (h : c.Candid (.rest call) hearings)
    (perm : stack.Perm c.stack) : Candid { c with stack } (.rest call) hearings where
  current {a} awaited := by
    have before : c.Awaited (.rest call) a := by
      refine awaited.imp ?_ ?_
      · intro hpos
        rwa [expected, perm.count_eq] at hpos
      · rintro ⟨first, slot, unused⟩
        exact ⟨first, slot, unused⟩
    exact h.current before
  ends ends := ends.elim

end Candid

theorem Followed.candid (followed : Followed policy hearings c) :
    ∃ call, c.Sound (.rest call) ∧ c.Sparing (.rest call) hearings ∧ c.Candid (.rest call) hearings := by
  induction followed with
  | nil =>
      refine ⟨none, sound_initial policy, ?_, ?_, fun ends => ends.elim⟩
      · constructor <;> simp [expected, calling, Duty.makes, isCurrent, slot?]
      · rintro a (hpos | ⟨-, ⟨s, hs⟩, -⟩)
        · simp [expected, Duty.makes] at hpos
        · simp [slot?] at hs
  | @move hearings c followed m ih =>
      obtain ⟨call, sound, sparing, candid⟩ := ih
      have looped := followed.looped call
      have hstep := sound.heard_induction (m := m)
        (P := fun c' d => c'.Sparing d (hearings ++ (c.hearing? m).toList) ∧
          c'.Candid d (hearings ++ (c.hearing? m).toList))
        (fun sound h hp => ⟨h.1.progress sound hp, h.2.progress h.1 sound hp⟩)
        fun hi taken => ⟨sparing.intake sound looped hi taken,
          candid.intake sparing looped sound hi taken⟩
      exact ⟨_, sound.step m, hstep⟩
  | reorder _ perm ih =>
      obtain ⟨call, sound, sparing, candid⟩ := ih
      exact ⟨call, sound.reorder perm, sparing.reorder perm, candid.reorder perm⟩

theorem Tells.exists_slot? (tells : Tells c m a news) (sound : c.Sound (.rest call)) :
    ∃ s, c.slot? a.phase a.slot = some s := by
  obtain ⟨deed, noted⟩ := tells.exists_note
  obtain ⟨target, htarget⟩ := noted.exists_target? sound
  exact sound.exists_slot? htarget

theorem Followed.slot?_of_accepts (followed : Followed policy hearings c) {response : ProbeResponse}
    (hmem : h ∈ hearings) (accepts : h.Accepts response) :
    c.slot? h.attempt.phase h.attempt.slot = some ⟨.done, some response.outcome⟩ := by
  induction followed with
  | nil => simp at hmem
  | @move hearings c followed m ih =>
      obtain ⟨call, sound, -⟩ := followed.candid
      rcases List.mem_append.mp hmem with hold | hnew
      · exact sound.step_induction (P := fun c' _ =>
          c'.slot? h.attempt.phase h.attempt.slot = some ⟨.done, some response.outcome⟩)
          (fun sound hdone hp => hp.slot?_done sound hdone) fun hi => hi.slot?_of_some (ih hold)
      · obtain ⟨a, news, tells, rfl⟩ := hearing?_eq_some (Option.mem_toList.mp hnew)
        obtain ⟨hnews, hcursor⟩ := accepts
        obtain rfl : news = .answered response := hnews
        obtain ⟨s, hs⟩ := tells.exists_slot? sound
        have current : c.isCurrent a = true :=
          isCurrent_iff_slot?.mpr ⟨s, hs, by simpa [hearingOf, cursor, hs] using hcursor⟩
        cases tells with
        | answered unresolved =>
            obtain ⟨p, found, hopen, rfl⟩ := unresolved
            rw [step_answer found hopen]
            exact (sound.intake (.answer found hopen)).slot?_finish current
  | reorder _ _ ih => exact ih hmem

/-! ### How often -/

theorem reports_eq_countP (h : c.failures = hearings.filterMap Hearing.failure?) (a : Attempt) :
    c.reports a = hearings.countP (·.fails a) := by
  rw [reports, h, List.countP_filterMap]
  refine List.countP_congr fun hearing _ => ?_
  cases hnews : hearing.news.error? <;> simp [Hearing.failure?, Hearing.fails, hnews]

/-- A failure that is told of once the outcome of the shard is there comes of an error that the
transport returned, or of a task that the executor refused. -/
theorem Candid.excused_of_done (h : c.Candid (.rest call) hearings) (tells : Tells c m a news)
    (settled : news.isUnsent = false) {s : Slot} (hs : c.slot? a.phase a.slot = some s)
    (done : s.cursor = .done) : c.Excused hearings a := by
  refine (h.current (.inl (tells.expected_pos settled))).resolve_left fun current => ?_
  obtain ⟨s', hs', hcopy⟩ := isCurrent_iff_slot?.mp current
  obtain rfl := Option.some.inj (hs.symm.trans hs')
  cases done.symm.trans hcopy

/-- Every failure is reported once, in the move that tells of it. So an attempt is reported once at
most, but for an error that the transport returned from being handed its probe, which comes once at most;
it is reported if its failure moved the shard on, as that of every copy before the current one did, and
not for anything else if its response became the outcome. Once there is an outcome, what is reported is
such an error, or the failure of an attempt with such an error, or of a shard whose task was refused. -/
theorem failures_reported (followed : Followed policy hearings c) :
    c.failures = hearings.filterMap Hearing.failure? ∧
    (∀ a : Attempt, c.reports a ≤ 1 + hearings.countP (·.returns a) ∧
      hearings.countP (·.returns a) ≤ 1 ∧
      (∀ h ∈ hearings, h.attempt = a → h.Advances →
        1 ≤ c.reports a ∧ (hearings.countP (·.returns a) = 0 → c.reports a = 1)) ∧
      ∀ h ∈ hearings, h.attempt = a → ∀ response, h.Accepts response →
        c.slot? a.phase a.slot = some ⟨.done, some response.outcome⟩ ∧
          c.reports a = hearings.countP (·.returns a)) ∧
    (∀ (k i current : Nat) (s : Slot), c.slot? k i = some s → s.cursor = .copy current →
      ∀ copy < current, ∃ h ∈ hearings, h.attempt = ⟨k, i, copy⟩ ∧ h.Advances) ∧
    ∀ m : Move, (c.step m).coordinator.failures =
        c.failures ++ (c.hearing? m).toList.filterMap Hearing.failure? ∧
      ∀ (h : Hearing) (s : Slot), c.hearing? m = some h → h.failure? ≠ none →
        c.slot? h.attempt.phase h.attempt.slot = some s → s.outcome.isSome →
        h.returns h.attempt = true ∨ c.Excused hearings h.attempt := by
  obtain ⟨call, sound, sparing, candid⟩ := followed.candid
  have hfailures := followed.failures_eq
  refine ⟨hfailures, fun a => ?_, fun k i current s hs hcursor => ?_, fun m => ?_⟩
  · have hsum := Hearing.countP_fails_add_answers hearings a
    have hle := Hearing.countP_returns_le_fails hearings a
    have hsettled := sparing.settled a
    have hreturned := sparing.returned a
    rw [reports_eq_countP hfailures]
    refine ⟨by omega, by omega, ?_, ?_⟩
    · rintro h hmem rfl ⟨hfails, -⟩
      have hpos : 0 < hearings.countP (·.fails h.attempt) :=
        List.countP_pos_iff.mpr ⟨h, hmem, by simp [Hearing.fails, hfails]⟩
      exact ⟨hpos, by omega⟩
    · rintro h hmem rfl response accepts
      have hanswers : 0 < hearings.countP (·.answers h.attempt) :=
        List.countP_pos_iff.mpr ⟨h, hmem, by simp [Hearing.answers, accepts.1, News.error?]⟩
      exact ⟨followed.slot?_of_accepts hmem accepts, by omega⟩
  · exact sparing.current (a := ⟨k, i, current⟩) (isCurrent_iff_slot?.mpr ⟨s, hs, hcursor⟩)
  · refine ⟨sound.failures_step m, fun h s heard _ hs hout => ?_⟩
    obtain ⟨a, news, tells, rfl⟩ := hearing?_eq_some heard
    obtain ⟨p, hp, hps⟩ := slot?_eq_some.mp hs
    have hdone := ((sound.books.balanced hp).done_iff hps).mpr hout
    cases hunsent : news.isUnsent with
    | true => exact .inl (by simp [Hearing.returns, hearingOf, hunsent])
    | false => exact .inr (candid.excused_of_done tells hunsent hs hdone)

/-- The transport answers the only probe, and then returns an error from being handed it. -/
def answeredAndReturned : List Move :=
  [.start [{ shard := default, copies := [default] }] {}, .run 0, .connected default,
    .answer 0 (.ok { canMatch := false }), .returned, .unsent (.dispatch "late error"), .accepted]

/-- The transport drops the listener of the first probe, and then returns an error from being handed
it. In between, the second copy answers. -/
def droppedAndReturned : List Move :=
  [.start [{ shard := default, copies := [default, default] }] {}, .run 0, .connected default,
    .abandon 0, .connected default, .answer 1 (.ok { canMatch := false }), .returned, .sent,
    .unsent (.dispatch "connection reset"), .accepted]

/-- The executor runs the task and refuses it afterwards. Then the probe fails. -/
def ranAndRefused : List Move :=
  [.start [{ shard := default, copies := [default] }] {}, .run 0, .connected default, .sent,
    .refused .shutdown, .returned, .answer 0 (.error (.dispatch "late error"))]

/-- An attempt can be reported although its response was accepted, twice although its failure moved the
shard on, and after the outcome without an error of the transport. -/
theorem reported_beyond_outcome :
    ((run {} (answeredAndReturned.take 5)).slot? 0 0 =
        some ⟨.done, some { matched := false, bound := none, failed := false }⟩ ∧
      (run {} (answeredAndReturned.take 5)).failures = [] ∧
      (run {} answeredAndReturned).failures = [(⟨0, 0, 0⟩, .dispatch "late error")]) ∧
    (run {} droppedAndReturned).failures =
      [(⟨0, 0, 0⟩, .listenerDropped), (⟨0, 0, 0⟩, .dispatch "connection reset")] ∧
    (run {} (ranAndRefused.take 6)).slot? 0 0 = some ⟨.done, some .failure⟩ ∧
    (run {} (ranAndRefused.take 6)).failures = [] ∧
    (run {} ranAndRefused).failures = [(⟨0, 0, 0⟩, .dispatch "late error")] := by
  decide +kernel

theorem failures_reported_droppedAndReturned :
    (run {} droppedAndReturned).failures =
      (hearingsIn {} droppedAndReturned).filterMap Hearing.failure? ∧
    (hearingsIn {} droppedAndReturned).countP (·.returns ⟨0, 0, 0⟩) = 1 ∧
    1 ≤ (run {} droppedAndReturned).reports ⟨0, 0, 0⟩ ∧
    (run {} droppedAndReturned).reports ⟨0, 0, 0⟩ ≤ 2 ∧
    (run {} droppedAndReturned).reports ⟨0, 0, 1⟩ = 0 := by
  have followed : Followed {} (hearingsIn {} droppedAndReturned) (run {} droppedAndReturned) :=
    Followed.nil.run droppedAndReturned
  have hreturns : (hearingsIn {} droppedAndReturned).countP (·.returns ⟨0, 0, 0⟩) = 1 := by
    decide +kernel
  have hnone : (hearingsIn {} droppedAndReturned).countP (·.returns ⟨0, 0, 1⟩) = 0 := by
    decide +kernel
  have hdropped : ⟨⟨0, 0, 0⟩, .copy 0, .failed .listenerDropped⟩ ∈
      hearingsIn {} droppedAndReturned := by decide +kernel
  have hanswered : ⟨⟨0, 0, 1⟩, .copy 1, .answered { canMatch := false }⟩ ∈
      hearingsIn {} droppedAndReturned := by decide +kernel
  obtain ⟨hfailures, hall, -⟩ := failures_reported followed
  obtain ⟨hle, -, hadvances, -⟩ := hall ⟨0, 0, 0⟩
  obtain ⟨-, -, -, haccepts⟩ := hall ⟨0, 0, 1⟩
  rw [hreturns] at hle
  exact ⟨hfailures, hreturns, (hadvances _ hdropped rfl ⟨rfl, rfl⟩).1, hle,
    (haccepts _ hanswered rfl _ ⟨rfl, rfl⟩).2.trans hnone⟩

end Coordinator
end Prefilter
