import Prefilter.Proofs.Phase.Hearing

namespace Prefilter

/-- How often an attempt is made by what is left to do. -/
def Duty.makes (a : Attempt) : Duty → Nat
  | .dispatch b | .send b _ => if b = a then 1 else 0
  | _ => 0

/-- How often what is left to do sets out on an attempt. -/
def Duty.starts (a : Attempt) : Duty → Nat
  | .dispatch b => if b = a then 1 else 0
  | _ => 0

theorem Duty.starts_le_one (d : Duty) (a : Attempt) : d.starts a ≤ 1 := by
  cases d with
  | dispatch b =>
      rw [starts]
      split
      · exact Nat.le_refl 1
      · exact Nat.zero_le 1
  | _ => exact Nat.zero_le 1

theorem Caller.makes_duty (a : Attempt) (phase : Nat) (caller : Caller) :
    (caller.duty phase).makes a = 0 := by
  cases caller <;> rfl

/-- Whether the listener of an attempt can still be resolved. -/
def Probe.isOpen (a : Attempt) (p : Probe) : Bool := p.attempt = a && !p.listener.resolved

/-- Whether a call is about an attempt. -/
def Frame.isFor (c : Coordinator) (a : Attempt) : Frame → Bool
  | .connecting b => b = a
  | .sending probe => c.probes[probe]?.any (·.attempt = a)
  | .submitting _ | .delivering .. => false

namespace Coordinator

variable {c c' : Coordinator} {d d' : Duty} {m : Move} {a b : Attempt} {news : News}
  {call : Option Frame} {policy : OrderingPolicy} {hearings : List Hearing}

/-- How often it is still to be heard how an attempt comes out. -/
def expected (c : Coordinator) (d : Duty) (a : Attempt) : Nat :=
  d.makes a + c.stack.count (.connecting a) + c.probes.countP (·.isOpen a)

/-- How often the transport can still return from being handed the probe of an attempt. -/
def calling (c : Coordinator) (d : Duty) (a : Attempt) : Nat :=
  d.makes a + c.stack.countP (Frame.isFor c a)

/-- An act makes no attempt but the one that it goes on with. -/
theorem Progress.expected_le (hp : Progress c d c' d') (a : Attempt) :
    c'.expected d' a ≤ c.expected d a + d'.starts a := by
  unfold expected
  cases hp with
  | submitLast => exact Nat.le_refl _
  | submit | complete => simp [Duty.makes, push, addTask, emit, logAll, updatePhase]
  | supersede =>
      rw [Caller.makes_duty]
      simp [Duty.makes, log, emit]
  | record =>
      split
      · simp [Duty.makes, updatePhase]
      · rw [Caller.makes_duty]
        simp [Duty.makes, updatePhase]
  | connect =>
      simp only [Duty.makes, push, List.count_cons, beq_iff_eq, Frame.connecting.injEq]
      omega
  | exhaust =>
      simp [Duty.makes, log, emit]
      omega
  | ignore => exact Nat.le_refl _
  | advance =>
      simp only [Duty.makes, Duty.starts, log, emit, updatePhase]
      omega
  | send =>
      simp only [Duty.makes, push, addProbe, emit, Array.countP_push, Probe.isOpen, List.count_cons]
      simp
      omega

theorem countP_isFor_of_extends (grounded : c.Grounded) (e : Extends c c') (a : Attempt) :
    c.stack.countP (Frame.isFor c' a) = c.stack.countP (Frame.isFor c a) := by
  refine List.countP_congr fun f hf => ?_
  cases f with
  | sending probe =>
      obtain ⟨p, hp⟩ : Frame.Supported c (.sending probe) := grounded.frames hf
      obtain ⟨p', hp', hattempt, -⟩ := e.probes hp
      simp [Frame.isFor, hp, hp', hattempt]
  | _ => rfl

theorem Grounded.calling_of_stay (grounded : c.Grounded) (e : Extends c c')
    (stack : c'.stack = c.stack) :
    c'.calling d' a = d'.makes a + c.stack.countP (Frame.isFor c a) := by
  rw [calling, stack, countP_isFor_of_extends grounded e]

theorem Grounded.calling_of_call {f : Frame} (grounded : c.Grounded) (e : Extends c c')
    (stack : c'.stack = f :: c.stack) : c'.calling d' a =
      d'.makes a + (c.stack.countP (Frame.isFor c a) + if f.isFor c' a then 1 else 0) := by
  rw [calling, stack, List.countP_cons, countP_isFor_of_extends grounded e]

theorem Progress.calling_le (hp : Progress c d c' d') (grounded : c.Grounded) (a : Attempt) :
    c'.calling d' a ≤ c.calling d a + d'.starts a := by
  have stay (stack : c'.stack = c.stack) :
      c'.calling d' a = d'.makes a + c.stack.countP (Frame.isFor c a) :=
    grounded.calling_of_stay hp.extends stack
  have call {f : Frame} (stack : c'.stack = f :: c.stack) : c'.calling d' a =
      d'.makes a + (c.stack.countP (Frame.isFor c a) + if f.isFor c' a then 1 else 0) :=
    grounded.calling_of_call hp.extends stack
  cases hp with
  | submitLast | ignore =>
      rw [stay rfl]
      exact Nat.le_refl _
  | submit | complete =>
      rw [call rfl]
      exact Nat.le_refl _
  | supersede =>
      rw [stay rfl, Caller.makes_duty]
      exact Nat.le_add_right _ _
  | record =>
      rw [stay rfl]
      split
      · exact Nat.le_refl _
      · rw [Caller.makes_duty]
        exact Nat.le_add_right _ _
  | connect =>
      rw [call rfl]
      simp [calling, Duty.makes, Frame.isFor]
      omega
  | exhaust =>
      rw [stay rfl]
      simp [calling, Duty.makes]
      omega
  | advance =>
      rw [stay rfl]
      simp only [calling, Duty.makes, Duty.starts]
      omega
  | send =>
      rw [call rfl]
      simp [calling, Duty.makes, Frame.isFor, push, addProbe, emit]
      omega

theorem countP_settles_hearingOf (c : Coordinator) (settled : news.isUnsent = false) (a b : Attempt) :
    [c.hearingOf b news].countP (·.settles a) = if b = a then 1 else 0 := by
  simp [hearingOf, Hearing.settles, settled]

theorem countP_isOpen_useListener {probe : Nat} {p : Probe} (found : c.probes[probe]? = some p)
    (unresolved : p.listener.resolved = false) (a : Attempt) :
    (c.useListener probe).probes.countP (·.isOpen a) + (if p.attempt = a then 1 else 0) =
      c.probes.countP (·.isOpen a) := by
  have hcount := countP_modify (fun p => { p with listener := { resolved := true } })
    (Probe.isOpen a) found
  have hopen : (p.isOpen a).toNat = if p.attempt = a then 1 else 0 := by
    simp only [Probe.isOpen, unresolved, Bool.not_false, Bool.and_true]
    split <;> simp [*]
  have hclosed : (Probe.isOpen a { p with listener := { resolved := true } }).toNat = 0 := by
    simp [Probe.isOpen]
  rw [hopen, hclosed, Nat.add_zero] at hcount
  exact hcount

/-- What is heard of how an attempt comes out was to be expected. -/
theorem Intake.expected_le (hi : Intake c m c' d) (taken : c.hearing? m = none ∨ d ≠ .rest none)
    (call : Option Frame) (a : Attempt) : c'.expected d a + (c.hearing? m).toList.countP (·.settles a) ≤
      c.expected (.rest call) a + d.starts a := by
  have listener {news : News} {probe : Nat} {p : Probe} (found : c.probes[probe]? = some p)
      (unresolved : p.listener.resolved = false) (tells : Tells c m p.attempt news)
      (settled : news.isUnsent = false) (makes : d.makes a = 0) (stack : c'.stack = c.stack)
      (probes : c'.probes = (c.useListener probe).probes) :
      c'.expected d a + (c.hearing? m).toList.countP (·.settles a) ≤
        c.expected (.rest call) a + d.starts a := by
    have hcount := countP_isOpen_useListener found unresolved a
    rw [tells.hearing?_eq, Option.toList_some, countP_settles_hearingOf c settled, expected, makes,
      stack, probes, expected]
    simp only [Duty.makes]
    omega
  cases hi with
  | void =>
      have hnone : c.hearing? m = none := taken.resolve_right fun hrest => hrest rfl
      rw [hnone]
      exact Nat.le_refl _
  | reject | discard => simp [hearing?, expected, Duty.makes, useTask, log, emit]
  | start =>
      split <;> simp [hearing?, expected, Duty.makes, openPhase, logAll]
  | run =>
      simp only [hearing?, expected, Duty.makes, Duty.starts, useTask, Option.toList_none,
        List.countP_nil]
      omega
  | answer found unresolved =>
      exact listener found unresolved (.answered ⟨_, found, unresolved, rfl⟩) rfl rfl rfl rfl
  | answerError found unresolved =>
      exact listener found unresolved (.failed ⟨_, found, unresolved, rfl⟩) rfl rfl rfl rfl
  | abandon found unresolved =>
      exact listener found unresolved (.abandoned ⟨_, found, unresolved, rfl⟩) rfl rfl rfl rfl
  | accepted top | refused top | sent top => simp [hearing?, expected, Duty.makes, top, log, emit]
  | connected top =>
      simp [hearing?, expected, Duty.makes, top, List.count_cons]
      omega
  | unreachable top =>
      rw [(Tells.unfound top).hearing?_eq, Option.toList_some, countP_settles_hearingOf c rfl]
      simp [expected, Duty.makes, top, emit, List.count_cons]
      omega
  | unsent top found =>
      rw [(Tells.unsent top found).hearing?_eq]
      simp [expected, Duty.makes, top, hearingOf, Hearing.settles, News.isUnsent]
  | returned top =>
      rw [expected, Caller.makes_duty]
      simp [hearing?, expected, Duty.makes, top]

theorem isFor_of_probes (probes : c'.probes = c.probes) (a : Attempt) :
    Frame.isFor c' a = Frame.isFor c a := by
  funext f
  cases f with
  | sending probe => rw [Frame.isFor, Frame.isFor, probes]
  | _ => rfl

theorem Intake.calling_le (hi : Intake c m c' d) (grounded : c.Grounded)
    (taken : c.hearing? m = none ∨ d ≠ .rest none) (call : Option Frame) (a : Attempt) :
    c'.calling d a + (c.hearing? m).toList.countP (·.returns a) ≤
      c.calling (.rest call) a + d.starts a := by
  have stay (stack : c'.stack = c.stack) :
      c'.calling d a = d.makes a + c.stack.countP (Frame.isFor c a) :=
    grounded.calling_of_stay hi.extends stack
  have before : c.calling (.rest call) a = c.stack.countP (Frame.isFor c a) := Nat.zero_add _
  have pop {f : Frame} {stack : List Frame} (top : c.stack = f :: stack) :
      c.calling (.rest call) a =
        stack.countP (Frame.isFor c a) + if f.isFor c a then 1 else 0 := by
    rw [before, top, List.countP_cons]
  have popped {f : Frame} {stack : List Frame} (_ : c.stack = f :: stack) (hstack : c'.stack = stack)
      (probes : c'.probes = c.probes) :
      c'.calling d a = d.makes a + stack.countP (Frame.isFor c a) := by
    rw [calling, hstack, isFor_of_probes probes]
  cases hi with
  | void =>
      have hnone : c.hearing? m = none := taken.resolve_right fun hrest => hrest rfl
      rw [hnone]
      exact Nat.le_refl _
  | reject | discard =>
      rw [stay rfl]
      exact Nat.le_refl _
  | start =>
      rw [stay rfl]
      split <;> exact Nat.le_refl _
  | run =>
      rw [stay rfl, before]
      simp only [hearing?, Duty.makes, Duty.starts, Option.toList_none, List.countP_nil]
      omega
  | answer found unresolved =>
      rw [stay rfl, before, (Tells.answered ⟨_, found, unresolved, rfl⟩).hearing?_eq]
      simp [Duty.makes, hearingOf, Hearing.returns, News.isUnsent]
  | answerError found unresolved =>
      rw [stay rfl, before, (Tells.failed ⟨_, found, unresolved, rfl⟩).hearing?_eq]
      simp [Duty.makes, hearingOf, Hearing.returns, News.isUnsent]
  | abandon found unresolved =>
      rw [stay rfl, before, (Tells.abandoned ⟨_, found, unresolved, rfl⟩).hearing?_eq]
      simp [Duty.makes, hearingOf, Hearing.returns, News.isUnsent]
  | accepted top | refused top | sent top =>
      rw [pop top, popped top rfl rfl]
      simp only [hearing?, Duty.makes, Option.toList_none, List.countP_nil]
      omega
  | connected top =>
      rw [pop top, popped top rfl rfl]
      simp only [hearing?, Duty.makes, Frame.isFor, decide_eq_true_eq, Option.toList_none, List.countP_nil]
      omega
  | unreachable top =>
      rw [pop top, popped top rfl rfl, (Tells.unfound top).hearing?_eq]
      simp only [Duty.makes, hearingOf, Hearing.returns, News.isUnsent, Option.toList_some,
        List.countP_singleton, Bool.and_false, Bool.false_eq_true, if_false]
      omega
  | unsent top found =>
      rw [pop top, popped top rfl rfl, (Tells.unsent top found).hearing?_eq]
      simp only [Duty.makes, hearingOf, Hearing.returns, News.isUnsent, Option.toList_some,
        List.countP_singleton, Bool.and_true, Frame.isFor, found, Option.any_some]
      omega
  | returned top =>
      rw [pop top, popped top rfl rfl, Caller.makes_duty]
      simp only [hearing?, Option.toList_none, List.countP_nil]
      omega

/-! ### Attempts are made once -/

/-- The copies of the shard before that of an attempt have failed as the shard stood at them. -/
def Passed (hearings : List Hearing) (a : Attempt) : Prop :=
  ∀ copy < a.copy, ∃ h ∈ hearings, h.attempt = ⟨a.phase, a.slot, copy⟩ ∧ h.Advances

theorem Passed.append (h : Passed hearings a) (more : List Hearing) : Passed (hearings ++ more) a := by
  intro copy hlt
  obtain ⟨hearing, hmem, hrest⟩ := h copy hlt
  exact ⟨hearing, List.mem_append_left _ hmem, hrest⟩

theorem Passed.next {h : Hearing} (passed : Passed hearings a) (hmem : h ∈ hearings)
    (hattempt : h.attempt = a) (advances : h.Advances) : Passed hearings a.next := by
  intro copy hlt
  rcases Nat.lt_succ_iff_lt_or_eq.mp hlt with hlt | rfl
  · exact passed copy hlt
  · exact ⟨h, hmem, hattempt, advances⟩

/-- An attempt was set out on. -/
structure Begun (c : Coordinator) (hearings : List Hearing) (a : Attempt) : Prop where
  reached : c.IsReached a
  used : a.copy = 0 → ∃ task, c.IsUsed task a.phase a.slot
  passed : Passed hearings a

theorem Begun.progress (h : c.Begun hearings a) (sound : c.Sound d) (hp : Progress c d c' d') :
    c'.Begun hearings a where
  reached := h.reached.progress sound hp
  used hzero := by
    obtain ⟨task, used⟩ := h.used hzero
    exact ⟨task, hp.isUsed used⟩
  passed := h.passed

theorem Begun.intake (h : c.Begun hearings a) (hi : Intake c m c' d) (more : List Hearing) :
    c'.Begun (hearings ++ more) a where
  reached := h.reached.intake hi
  used hzero := by
    obtain ⟨task, used⟩ := h.used hzero
    exact ⟨task, hi.isUsed used⟩
  passed := h.passed.append more

/-- An attempt is made once at most. So it is heard once at most how it comes out, and the transport
returns once at most from being handed its probe. -/
structure Sparing (c : Coordinator) (d : Duty) (hearings : List Hearing) : Prop where
  settled : ∀ a, c.expected d a + hearings.countP (·.settles a) ≤ 1
  returned : ∀ a, c.calling d a + hearings.countP (·.returns a) ≤ 1
  begun : ∀ {a}, 0 < c.expected d a + c.calling d a → c.Begun hearings a
  heard : ∀ h ∈ hearings, c.Begun hearings h.attempt
  current : ∀ {a}, c.isCurrent a = true → Passed hearings a
  failing : ∀ {a error}, d = .fail a error → ∃ h ∈ hearings, h.attempt = a ∧
    h.news.error?.isSome ∧ (c.isCurrent a = true → h.cursor = .copy a.copy)

theorem Progress.starts_cases (hp : Progress c d c' d') (a : Attempt) : d'.starts a = 0 ∨
    ∃ b error, d = .fail b error ∧ b.next = a ∧ c.isCurrent b = true ∧ c'.isCurrent a = true := by
  cases hp with
  | supersede => exact .inl (by cases ‹Caller› <;> rfl)
  | record =>
      refine .inl ?_
      split
      · rfl
      · cases ‹Caller› <;> rfl
  | @advance b error target node p s found phase slot current =>
      by_cases hnext : b.next = a
      · subst hnext
        have hs : (c.log (.attemptFailed b target node error)).slot? b.phase b.slot = some s :=
          slot?_eq_some.mpr ⟨p, phase, slot⟩
        refine .inr ⟨b, error, rfl, rfl, isCurrent_iff.mpr ⟨p, s, phase, slot, current⟩, ?_⟩
        refine isCurrent_iff_slot?.mpr ⟨{ s with cursor := .copy (b.copy + 1) }, ?_, rfl⟩
        exact slot?_advance.trans (by simp [Attempt.next, hs])
      · exact .inl (if_neg hnext)
  | _ => exact .inl rfl

theorem Intake.starts_cases (hi : Intake c m c' d) (a : Attempt) : d.starts a = 0 ∨
    ∃ task, c.IsPending task a.phase a.slot ∧ c'.IsUsed task a.phase a.slot ∧ a.copy = 0 ∧
      c.hearing? m = none := by
  cases hi with
  | start => exact .inl (by split <;> rfl)
  | @run task e found pending =>
      by_cases hat : (⟨e.phase, e.slot, 0⟩ : Attempt) = a
      · subst hat
        have hpending : c.IsPending task e.phase e.slot := by rw [IsPending, found, ← pending]
        exact .inr ⟨task, hpending, hpending.isUsed_useTask, rfl, rfl⟩
      · exact .inl (if_neg hat)
  | returned => exact .inl (by cases ‹Caller› <;> rfl)
  | _ => exact .inl rfl

theorem Looped.not_isUsed {task k i : Nat} (h : Looped c d k) (pending : c.IsPending task k i)
    (other : Nat) : ¬ c.IsUsed other k i := fun used => by
  obtain rfl := h.unique used.isTaskOf pending.isTaskOf
  exact used.not_isPending pending

theorem not_isReached_next (current : c.isCurrent a = true) : ¬ c.IsReached a.next := by
  obtain ⟨s, hs, hcopy⟩ := isCurrent_iff_slot?.mp current
  rintro (hnext | ⟨s', hs', past⟩)
  · obtain ⟨s', hs', hcopy'⟩ := isCurrent_iff_slot?.mp hnext
    obtain rfl := Option.some.inj (hs.symm.trans hs')
    simp [hcopy, Attempt.next] at hcopy'
  · obtain rfl := Option.some.inj (hs.symm.trans hs')
    rw [hcopy] at past
    exact Nat.not_succ_le_self _ (Nat.le_of_lt past)

theorem Progress.starts_fresh (hp : Progress c d c' d') (hearings : List Hearing) (a : Attempt) :
    d'.starts a = 0 ∨ ¬ c.Begun hearings a := by
  rcases hp.starts_cases a with hnone | ⟨b, error, -, rfl, current, -⟩
  · exact .inl hnone
  · exact .inr fun begun => not_isReached_next current begun.reached

theorem Looped.not_begun {task : Nat} (h : Looped c d a.phase) (pending : c.IsPending task a.phase a.slot)
    (first : a.copy = 0) : ¬ c.Begun hearings a := fun begun => by
  obtain ⟨other, used⟩ := begun.used first
  exact h.not_isUsed pending other used

theorem Intake.starts_fresh (hi : Intake c m c' d) (looped : ∀ k, Looped c d' k)
    (hearings : List Hearing) (a : Attempt) : d.starts a = 0 ∨ ¬ c.Begun hearings a := by
  rcases hi.starts_cases a with hnone | ⟨task, pending, -, first, -⟩
  · exact .inl hnone
  · exact .inr ((looped a.phase).not_begun pending first)

theorem Intake.tells_of_fail (hi : Intake c m c' d) {error : ProbeError} (duty : d = .fail a error) :
    ∃ news, Tells c m a news ∧ news.error?.isSome := by
  cases hi with
  | start => split at duty <;> cases duty
  | answerError found unresolved =>
      obtain ⟨rfl, -⟩ := Duty.fail.inj duty
      exact ⟨_, .failed ⟨_, found, unresolved, rfl⟩, rfl⟩
  | abandon found unresolved =>
      obtain ⟨rfl, -⟩ := Duty.fail.inj duty
      exact ⟨_, .abandoned ⟨_, found, unresolved, rfl⟩, rfl⟩
  | unreachable top =>
      obtain ⟨rfl, -⟩ := Duty.fail.inj duty
      exact ⟨_, .unfound top, rfl⟩
  | unsent top found =>
      obtain ⟨rfl, -⟩ := Duty.fail.inj duty
      exact ⟨_, .unsent top found, rfl⟩
  | returned => cases ‹Caller› <;> cases duty
  | _ => cases duty

theorem Intake.heard_of_fail (hi : Intake c m c' d) {error : ProbeError} (duty : d = .fail a error) :
    ∃ h, c.hearing? m = some h ∧ h.attempt = a ∧ h.news.error?.isSome ∧
      (c'.isCurrent a = true → h.cursor = .copy a.copy) := by
  obtain ⟨news, tells, fails⟩ := hi.tells_of_fail duty
  refine ⟨_, tells.hearing?_eq, rfl, fails, fun current => ?_⟩
  obtain ⟨s, hs, hcopy⟩ := isCurrent_iff_slot?.mp current
  rcases hi.slot?_cases a.phase a.slot with heq | ⟨_, _, -, -, -, -, -, hd⟩
  · simp [hearingOf, cursor, heq ▸ hs, hcopy]
  · cases duty.symm.trans hd

theorem Tells.expected_pos (tells : Tells c m a news) (settled : news.isUnsent = false) :
    0 < c.expected (.rest call) a := by
  have listener {probe : Nat} (unresolved : c.IsUnresolved probe a) :
      0 < c.expected (.rest call) a := by
    obtain ⟨p, found, hopen, rfl⟩ := unresolved
    have hcount : 0 < c.probes.countP (·.isOpen p.attempt) :=
      Array.countP_pos_iff.mpr ⟨p, Array.mem_of_getElem? found, by simp [Probe.isOpen, hopen]⟩
    exact Nat.lt_of_lt_of_le hcount (Nat.le_add_left _ _)
  cases tells with
  | answered unresolved | failed unresolved | abandoned unresolved => exact listener unresolved
  | unfound top =>
      rw [expected, top, List.count_cons_self]
      omega
  | unsent => cases settled

theorem Tells.calling_pos (tells : Tells c m a news) (unsent : news.isUnsent = true) :
    0 < c.calling (.rest call) a := by
  cases tells with
  | unsent top found =>
      rw [calling, top, List.countP_cons_of_pos (by simp [Frame.isFor, found])]
      omega
  | _ => cases unsent

namespace Sparing

theorem eq_zero (h : c.Sparing d hearings) (unbegun : ¬ c.Begun hearings a) :
    c.expected d a = 0 ∧ c.calling d a = 0 ∧ hearings.countP (·.settles a) = 0 ∧
      hearings.countP (·.returns a) = 0 := by
  have hpos := mt h.begun unbegun
  have hnone {hearing : Hearing} (hmem : hearing ∈ hearings) : hearing.attempt ≠ a := fun heq =>
    unbegun (heq ▸ h.heard hearing hmem)
  refine ⟨by omega, by omega, ?_, ?_⟩
  · rw [List.countP_eq_zero]
    intro hearing hmem
    simp [Hearing.settles, hnone hmem]
  · rw [List.countP_eq_zero]
    intro hearing hmem
    simp [Hearing.returns, hnone hmem]

theorem settled_le {expected starts : Nat} (h : c.Sparing d hearings)
    (fresh : starts = 0 ∨ ¬ c.Begun hearings a) (once : starts ≤ 1)
    (hle : expected ≤ c.expected d a + starts) : expected + hearings.countP (·.settles a) ≤ 1 := by
  rcases fresh with rfl | unbegun
  · have := h.settled a
    omega
  · have := h.eq_zero unbegun
    omega

theorem returned_le {calling starts : Nat} (h : c.Sparing d hearings)
    (fresh : starts = 0 ∨ ¬ c.Begun hearings a) (once : starts ≤ 1)
    (hle : calling ≤ c.calling d a + starts) : calling + hearings.countP (·.returns a) ≤ 1 := by
  rcases fresh with rfl | unbegun
  · have := h.returned a
    omega
  · have := h.eq_zero unbegun
    omega

theorem begun_of_tells (h : c.Sparing (.rest call) hearings) (tells : Tells c m a news) :
    c.Begun hearings a := by
  cases hunsent : news.isUnsent with
  | false =>
      have hpos : 0 < c.expected (.rest call) a := tells.expected_pos hunsent
      exact h.begun (by omega)
  | true =>
      have hpos : 0 < c.calling (.rest call) a := tells.calling_pos hunsent
      exact h.begun (by omega)

theorem passed_next (h : c.Sparing d hearings) {error : ProbeError} (duty : d = .fail a error)
    (current : c.isCurrent a = true) : Passed hearings a.next := by
  obtain ⟨hearing, hmem, rfl, hfails, hcursor⟩ := h.failing duty
  exact (h.current current).next hmem rfl ⟨hfails, hcursor current⟩

theorem progress (h : c.Sparing d hearings) (sound : c.Sound d) (hp : Progress c d c' d') :
    c'.Sparing d' hearings where
  settled a := h.settled_le (hp.starts_fresh hearings a) (d'.starts_le_one a) (hp.expected_le a)
  returned a :=
    h.returned_le (hp.starts_fresh hearings a) (d'.starts_le_one a) (hp.calling_le sound.grounded a)
  begun {a} hpos := by
    rcases hp.starts_cases a with hnone | ⟨b, error, duty, rfl, current, still⟩
    · have hexpected := hp.expected_le a
      have hcalling := hp.calling_le sound.grounded a
      exact (h.begun (by omega)).progress sound hp
    · exact ⟨.inl still, fun hzero => absurd hzero (Nat.succ_ne_zero _), h.passed_next duty current⟩
  heard hearing hmem := (h.heard hearing hmem).progress sound hp
  current {a} still := by
    obtain ⟨s, hs, hcopy⟩ := isCurrent_iff_slot?.mp still
    cases hp.slotChange sound a.phase a.slot with
    | same eq => exact h.current (isCurrent_iff_slot?.mpr ⟨s, eq ▸ hs, hcopy⟩)
    | recorded duty phase slot before after =>
        obtain rfl := Option.some.inj (after.symm.trans hs)
        cases hcopy
    | @advanced b error duty phase slot before after next =>
        obtain rfl := Option.some.inj (after.symm.trans hs)
        have hnext : b.next = a :=
          (Attempt.mk.injEq ..).mpr ⟨phase, slot, Cursor.copy.inj hcopy⟩
        have current : c.isCurrent b = true :=
          isCurrent_iff_slot?.mpr ⟨_, by rw [phase, slot, before], rfl⟩
        exact hnext ▸ h.passed_next duty current
  failing {a error} duty := by
    cases hp with
    | record =>
        split at duty
        · cases duty
        · cases ‹Caller› <;> cases duty
    | supersede => cases ‹Caller› <;> cases duty
    | _ => cases duty

theorem intake (h : c.Sparing (.rest call) hearings) (sound : c.Sound (.rest call))
    (looped : ∀ k, Looped c (.rest call) k) (hi : Intake c m c' d)
    (taken : c.hearing? m = none ∨ d ≠ .rest none) :
    c'.Sparing d (hearings ++ (c.hearing? m).toList) where
  settled a := by
    have hle := h.settled_le (hi.starts_fresh looped hearings a) (d.starts_le_one a)
      (hi.expected_le taken call a)
    rw [List.countP_append]
    omega
  returned a := by
    have hle := h.returned_le (hi.starts_fresh looped hearings a) (d.starts_le_one a)
      (hi.calling_le sound.grounded taken call a)
    rw [List.countP_append]
    omega
  begun {a} hpos := by
    rcases hi.starts_cases a with hnone | ⟨task, pending, used, first, -⟩
    · have hexpected := hi.expected_le taken call a
      have hcalling := hi.calling_le sound.grounded taken call a
      exact (h.begun (by omega)).intake hi _
    · obtain ⟨target, htarget⟩ := sound.grounded.tasks pending
      obtain ⟨s, hs⟩ := sound.exists_slot? htarget
      obtain ⟨phase, slot, copy⟩ := a
      obtain rfl : copy = 0 := first
      exact ⟨(isReached_of_slot? hs).intake hi, fun _ => ⟨task, used⟩, fun _ hlt => by simp at hlt⟩
  heard hearing hmem := by
    rcases List.mem_append.mp hmem with hold | hnew
    · exact (h.heard hearing hold).intake hi _
    · obtain ⟨a, news, tells, rfl⟩ := hearing?_eq_some (Option.mem_toList.mp hnew)
      exact (h.begun_of_tells tells).intake hi _
  current {a} still := by
    obtain ⟨s, hs, hcopy⟩ := isCurrent_iff_slot?.mp still
    rcases hi.slot?_cases a.phase a.slot with heq | ⟨_, _, -, -, -, -, hfresh, -⟩
    · exact (h.current (isCurrent_iff_slot?.mpr ⟨s, heq ▸ hs, hcopy⟩)).append _
    · obtain rfl := Option.some.inj (hfresh.symm.trans hs)
      intro copy hlt
      obtain hzero : 0 = a.copy := Cursor.copy.inj hcopy
      omega
  failing duty := by
    obtain ⟨hearing, heard, hrest⟩ := hi.heard_of_fail duty
    exact ⟨hearing, List.mem_append_right _ (Option.mem_toList.mpr heard), hrest⟩

theorem reorder {stack : List Frame} (h : c.Sparing (.rest call) hearings)
    (perm : stack.Perm c.stack) : Sparing { c with stack } (.rest call) hearings := by
  have hexpected (a : Attempt) :
      expected { c with stack } (.rest call) a = c.expected (.rest call) a := by
    simp only [expected, perm.count_eq]
  have hcalling (a : Attempt) :
      calling { c with stack } (.rest call) a = c.calling (.rest call) a :=
    congrArg (0 + ·) (perm.countP_eq _)
  refine { h with
    settled := fun a => hexpected a ▸ h.settled a
    returned := fun a => hcalling a ▸ h.returned a
    begun := fun {a} hpos => ?_
    heard := fun hearing hmem => ?_
    failing := fun duty => by cases duty }
  · obtain ⟨reached, used, passed⟩ := h.begun (by rwa [hexpected, hcalling] at hpos)
    exact ⟨reached, used, passed⟩
  · obtain ⟨reached, used, passed⟩ := h.heard hearing hmem
    exact ⟨reached, used, passed⟩

end Sparing

theorem Followed.looped (followed : Followed policy hearings c) (call : Option Frame) (k : Nat) :
    Looped c (.rest call) k := by
  obtain ⟨moves, run⟩ := followed.exists_reachable
  obtain ⟨call', looped⟩ := run.looped
  exact (looped k).carry (.refl _) id

end Coordinator
end Prefilter
