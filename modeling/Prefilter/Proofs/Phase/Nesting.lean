import Prefilter.Proofs.Phase.Onset

namespace Prefilter

namespace Frame

variable {probes : Array Probe} {f : Frame} {k : Nat} {b : Attempt}

/-- The attempt that a resolver or a transport is busy with. -/
def busy? (probes : Array Probe) : Frame → Option Attempt
  | .connecting a => some a
  | .sending probe => probes[probe]?.map (·.attempt)
  | .submitting _ | .delivering .. => none

/-- The dispatch that a call is part of: its shard, and the copy that it is at. -/
def dispatch? (probes : Array Probe) : Frame → Option Attempt
  | .delivering phase (.exhausted slot copy) => some ⟨phase, slot, copy⟩
  | f => f.busy? probes

/-- The phase that a call belongs to, unless it is made by the loop over its tasks. -/
def concern? (probes : Array Probe) : Frame → Option Nat
  | .delivering phase .entry | .delivering phase (.exhausted ..) => some phase
  | f => (f.busy? probes).map (·.phase)

theorem busy?_of_isProbing (h : f.isProbing = false) : f.busy? probes = none := by
  cases f <;> simp_all [isProbing, busy?]

theorem dispatch?_of_busy? (h : f.busy? probes = some b) : f.dispatch? probes = some b := by
  cases f <;> simp_all [dispatch?, busy?]

theorem busy?_of_dispatch? (h : f.dispatch? probes = some b) :
    f.busy? probes = some b ∨ ∃ caller, f = .delivering b.phase caller := by
  cases f with
  | submitting => cases h
  | connecting | sending => exact .inl h
  | delivering phase caller =>
      cases caller with
      | entry | start => cases h
      | exhausted slot copy =>
          obtain rfl := Option.some.inj h
          exact .inr ⟨_, rfl⟩

theorem concern?_of_busy? (h : f.busy? probes = some b) : f.concern? probes = some b.phase := by
  cases f with
  | submitting | delivering => cases h
  | connecting | sending => exact congrArg (Option.map (·.phase)) h

theorem busy?_of_concern? (h : f.concern? probes = some k) :
    (∃ b, f.busy? probes = some b ∧ b.phase = k) ∨ ∃ caller, f = .delivering k caller := by
  cases f with
  | submitting => cases h
  | connecting | sending => exact .inl (Option.map_eq_some_iff.mp h)
  | delivering phase caller =>
      cases caller with
      | start => cases h
      | entry | exhausted =>
          obtain rfl := Option.some.inj h
          exact .inr ⟨_, rfl⟩

end Frame

namespace Coordinator

/-- The dispatches that are open on a thread, the innermost first. -/
def dispatches (probes : Array Probe) (thread : List Frame) : List Attempt :=
  thread.filterMap (·.dispatch? probes)

/-- A call fits on top of a thread: where a resolver or a transport is busy, it belongs to the same phase,
and where dispatches of its phase are open, it goes on with their shard, at a later copy. -/
structure Fits (probes : Array Probe) (thread : List Frame) (f : Frame) : Prop where
  within : ∀ g ∈ thread.head?, ∀ b, g.busy? probes = some b → f.concern? probes = some b.phase
  inner : ∀ a, f.dispatch? probes = some a → ∀ b ∈ dispatches probes thread, b.phase = a.phase →
    b.slot = a.slot ∧ b.copy < a.copy

/-- Every call fits on top of those before it. -/
inductive Nested (probes : Array Probe) : List Frame → Prop where
  | nil : Nested probes []
  | cons {f : Frame} {thread : List Frame} (fits : Fits probes thread f) (rest : Nested probes thread) :
      Nested probes (f :: thread)

variable {c c' : Coordinator} {d d' : Duty} {m : Move} {call : Option Frame} {probes : Array Probe}
  {thread : List Frame} {f g : Frame} {a b : Attempt} {k : Nat} {policy : OrderingPolicy}
  {threads : Nat → List Frame}

namespace Fits

theorem of_eq (h : Fits probes thread f) (concern : g.concern? probes = f.concern? probes)
    (dispatch : g.dispatch? probes = f.dispatch? probes) : Fits probes thread g where
  within := by
    rw [concern]
    exact h.within
  inner := by
    rw [dispatch]
    exact h.inner

theorem of_control (control : ∀ g ∈ thread.head?, g.isProbing = false)
    (outside : f.dispatch? probes = none) : Fits probes thread f where
  within g hg b hb := by
    rw [Frame.busy?_of_isProbing (control g hg)] at hb
    cases hb
  inner a ha := by
    rw [outside] at ha
    cases ha

theorem next (h : Fits probes thread (.connecting a)) : Fits probes thread (.connecting a.next) where
  within := h.within
  inner := by
    intro _ hnext b hb hphase
    obtain rfl := Option.some.inj hnext
    obtain ⟨hslot, hcopy⟩ := h.inner a rfl b hb hphase
    exact ⟨hslot, Nat.lt_succ_of_lt hcopy⟩

theorem next_above (h : Fits probes thread f) (busy : f.busy? probes = some a) :
    Fits probes (f :: thread) (.connecting a.next) where
  within := by
    rintro g hg b hb
    obtain rfl : f = g := Option.some.inj hg
    obtain rfl := Option.some.inj (busy.symm.trans hb)
    rfl
  inner := by
    intro _ hnext b hb hphase
    obtain rfl := Option.some.inj hnext
    have hdispatch := Frame.dispatch?_of_busy? busy
    rw [dispatches, List.filterMap_cons_some hdispatch] at hb
    rcases List.mem_cons.mp hb with rfl | hb
    · exact ⟨rfl, Nat.lt_succ_self _⟩
    · obtain ⟨hslot, hcopy⟩ := h.inner a hdispatch b hb hphase
      exact ⟨hslot, Nat.lt_succ_of_lt hcopy⟩

end Fits

namespace Nested

/-- Where a resolver or a transport is busy with an attempt, either it is so on top of the thread, or the
next phase has been called. -/
theorem exists_head_or_delivering (h : Nested probes thread) (hf : f ∈ thread)
    (busy : f.busy? probes = some b) :
    (∃ g ∈ thread.head?, ∃ b', g.busy? probes = some b' ∧ b'.phase = b.phase) ∨
      ∃ caller, .delivering b.phase caller ∈ thread := by
  induction h with
  | nil => cases hf
  | @cons top thread fits rest ih =>
      rcases List.mem_cons.mp hf with rfl | hf
      · exact .inl ⟨f, rfl, b, busy, rfl⟩
      · rcases ih hf with ⟨g, hg, b', hb', hphase⟩ | ⟨caller, hcaller⟩
        · rcases Frame.busy?_of_concern? (fits.within g hg b' hb') with
            ⟨b'', hb'', hphase'⟩ | ⟨caller, rfl⟩
          · exact .inl ⟨top, rfl, b'', hb'', hphase'.trans hphase⟩
          · exact .inr ⟨caller, hphase ▸ List.mem_cons_self⟩
        · exact .inr ⟨caller, List.mem_cons_of_mem _ hcaller⟩

/-- Where nobody is busy, no dispatch is open of a phase that has not been handed over. -/
theorem phase_ne_of_mem_dispatches (h : Nested probes thread)
    (control : ∀ g ∈ thread.head?, g.isProbing = false)
    (undelivered : ∀ caller, .delivering k caller ∉ thread) (hb : b ∈ dispatches probes thread) :
    b.phase ≠ k := by
  rintro rfl
  obtain ⟨f, hf, hdispatch⟩ := List.mem_filterMap.mp hb
  rcases Frame.busy?_of_dispatch? hdispatch with busy | ⟨caller, rfl⟩
  · rcases h.exists_head_or_delivering hf busy with ⟨g, hg, b', hb', -⟩ | ⟨caller, hcaller⟩
    · rw [Frame.busy?_of_isProbing (control g hg)] at hb'
      cases hb'
    · exact undelivered caller hcaller
  · exact undelivered caller hf

theorem pairwise_dispatches (h : Nested probes thread) :
    (dispatches probes thread).Pairwise fun a b =>
      b.phase = a.phase → b.slot = a.slot ∧ b.copy < a.copy := by
  induction h with
  | nil => exact .nil
  | @cons f thread fits rest ih =>
      cases hf : f.dispatch? probes with
      | none =>
          rw [dispatches, List.filterMap_cons_none hf]
          exact ih
      | some a =>
          rw [dispatches, List.filterMap_cons_some hf]
          exact .cons (fits.inner a hf) ih

end Nested

section extension

theorem Extends.busy?_eq (e : Extends c c') (h : f.Supported c) :
    f.busy? c'.probes = f.busy? c.probes := by
  cases f with
  | sending probe =>
      obtain ⟨p, hp⟩ := h
      obtain ⟨p', hp', hattempt, -⟩ := e.probes hp
      simp [Frame.busy?, hp, hp', hattempt]
  | _ => rfl

theorem Extends.dispatch?_eq (e : Extends c c') (h : f.Supported c) :
    f.dispatch? c'.probes = f.dispatch? c.probes := by
  rcases f with _ | _ | _ | ⟨_, _ | _ | _⟩
  case sending => exact e.busy?_eq h
  all_goals rfl

theorem Extends.concern?_eq (e : Extends c c') (h : f.Supported c) :
    f.concern? c'.probes = f.concern? c.probes := by
  rcases f with _ | _ | _ | ⟨_, _ | _ | _⟩
  case sending => exact congrArg (Option.map (·.phase)) (e.busy?_eq h)
  all_goals rfl

theorem Extends.dispatches_eq (e : Extends c c') (supported : ∀ f ∈ thread, f.Supported c) :
    dispatches c'.probes thread = dispatches c.probes thread :=
  List.filterMap_congr fun f hf => e.dispatch?_eq (supported f hf)

theorem Fits.extend (h : Fits c.probes thread f) (e : Extends c c')
    (supported : ∀ g ∈ thread, g.Supported c) (concern : f.concern? c'.probes = f.concern? c.probes)
    (dispatch : f.dispatch? c'.probes = f.dispatch? c.probes) : Fits c'.probes thread f where
  within g hg := by
    rw [e.busy?_eq (supported g (List.mem_of_mem_head? hg)), concern]
    exact h.within g hg
  inner := by
    rw [dispatch, e.dispatches_eq supported]
    exact h.inner

theorem Nested.extend (h : Nested c.probes thread) (e : Extends c c')
    (supported : ∀ f ∈ thread, f.Supported c) : Nested c'.probes thread := by
  induction h with
  | nil => exact .nil
  | cons fits _ ih =>
      obtain ⟨hf, hrest⟩ := List.forall_mem_cons.mp supported
      exact .cons (fits.extend e hrest (e.concern?_eq hf) (e.dispatch?_eq hf)) (ih hrest)

end extension

end Coordinator

/-- What a duty can still call fits on top of the calls under way. -/
def Duty.FitsOn (c : Coordinator) : Duty → Prop
  | .rest _ => True
  | .submit phase slot => Coordinator.Fits c.probes c.stack (.delivering phase (.start slot))
  | .complete phase caller => Coordinator.Fits c.probes c.stack (.delivering phase caller)
  | .finish a _ caller => Coordinator.Fits c.probes c.stack (.delivering a.phase caller)
  | .dispatch a | .send a _ => Coordinator.Fits c.probes c.stack (.connecting a)
  | .fail a _ => c.isCurrent a = true → Coordinator.Fits c.probes c.stack (.connecting a.next)

namespace Coordinator

variable {c c' : Coordinator} {d d' : Duty} {m : Move} {call : Option Frame} {probes : Array Probe}
  {thread : List Frame} {f g : Frame} {a b : Attempt} {k i t : Nat} {policy : OrderingPolicy}
  {threads : Nat → List Frame}

theorem Fits.duty {caller : Caller} (h : Fits c.probes c.stack (.delivering k caller)) :
    (caller.duty k).FitsOn c := by
  cases caller with
  | entry | exhausted => trivial
  | start slot => exact h

theorem Nested.progress (h : Nested c.probes c.stack) (fits : d.FitsOn c) (sound : c.Sound d)
    (hp : Progress c d c' d') : Nested c'.probes c'.stack ∧ d'.FitsOn c' := by
  have e := hp.extends
  cases hp with
  | submitLast => exact ⟨h, trivial⟩
  | submit => exact ⟨.cons (Fits.of_eq fits rfl rfl) h, trivial⟩
  | complete => exact ⟨.cons fits h, trivial⟩
  | supersede => exact ⟨h, Fits.duty fits⟩
  | record =>
      refine ⟨h, ?_⟩
      split
      · exact fits
      · exact Fits.duty fits
  | connect => exact ⟨.cons fits h, trivial⟩
  | exhaust => exact ⟨h, Fits.of_eq fits rfl rfl⟩
  | ignore => exact ⟨h, trivial⟩
  | advance _ phase slot current => exact ⟨h, fits (isCurrent_iff.mpr ⟨_, _, phase, slot, current⟩)⟩
  | @send a connection p target node phase found =>
      have hsupported : ∀ g ∈ c.stack, g.Supported c := fun _ hg => sound.grounded.frames hg
      have hbusy : Frame.busy? (c.probes.push
          { attempt := a, connection, request := p.probeRequest target node })
            (.sending c.probes.size) = some a := by simp [Frame.busy?]
      have hfits := (Fits.extend fits e hsupported rfl rfl).of_eq (Frame.concern?_of_busy? hbusy)
        (Frame.dispatch?_of_busy? hbusy)
      exact ⟨.cons hfits (h.extend e hsupported), trivial⟩

/-- A dispatch begins: a task is run, or a listener tells of the failure of an attempt that is current. -/
inductive Begins (c : Coordinator) : Move → Attempt → Prop where
  | run {t k i : Nat} (pending : c.IsPending t k i) : Begins c (.run t) ⟨k, i, 0⟩
  | answer {q : Nat} {a : Attempt} {error : ProbeError} (unresolved : c.IsUnresolved q a)
      (current : c.isCurrent a = true) : Begins c (.answer q (.error error)) a.next
  | abandon {q : Nat} {a : Attempt} (unresolved : c.IsUnresolved q a)
      (current : c.isCurrent a = true) : Begins c (.abandon q) a.next

/-- What holds on every thread. -/
structure Orderly (c : Coordinator) : Prop where
  sound : c.Sound (.rest none)
  delivered : ∀ {k : Nat} {caller : Caller}, .delivering k caller ∈ c.stack → c.IsFinished k
  fresh : ∀ {t k i : Nat}, c.IsPending t k i → c.slot? k i = some {}

namespace Orderly

theorem undelivered_of_isPending (h : c.Orderly) (pending : c.IsPending t k i) (caller : Caller) :
    .delivering k caller ∉ c.stack := fun hmem =>
  h.sound.not_isFinished_of_copy (h.fresh pending) rfl (h.delivered hmem)

theorem undelivered_of_isCurrent (h : c.Orderly) (current : c.isCurrent a = true) (caller : Caller) :
    .delivering a.phase caller ∉ c.stack := by
  obtain ⟨s, hs, hcopy⟩ := isCurrent_iff_slot?.mp current
  exact fun hmem => h.sound.not_isFinished_of_copy hs hcopy (h.delivered hmem)

end Orderly

theorem Nested.fits_of_control (h : Nested probes thread)
    (control : ∀ g ∈ thread.head?, g.isProbing = false)
    (undelivered : ∀ caller, .delivering a.phase caller ∉ thread) :
    Fits probes thread (.connecting a) where
  within g hg b hb := by
    rw [Frame.busy?_of_isProbing (control g hg)] at hb
    cases hb
  inner := by
    intro _ ha b hb hphase
    obtain rfl := Option.some.inj ha
    exact absurd hphase (h.phase_ne_of_mem_dispatches control undelivered hb)

theorem busy?_of_isUnresolved {q : Nat} (unresolved : c.IsUnresolved q a) :
    (Frame.sending q).busy? c.probes = some a := by
  obtain ⟨p, hp, -, rfl⟩ := unresolved
  simp [Frame.busy?, hp]

theorem InTurn.fits (turn : InTurn c c.stack m) (nested : Nested c.probes c.stack)
    (orderly : c.Orderly) (begins : Begins c m a) : Fits c.probes c.stack (.connecting a) := by
  have undelivered : ∀ caller, .delivering a.phase caller ∉ c.stack := by
    cases begins with
    | run pending => exact orderly.undelivered_of_isPending pending
    | @answer _ b _ _ current | @abandon _ b _ current =>
        exact orderly.undelivered_of_isCurrent (a := b) current
  generalize c.stack = thread at turn nested undelivered
  cases turn with
  | free control => exact nested.fits_of_control control undelivered
  | answer =>
      cases nested with
      | cons fits =>
          cases begins with
          | answer unresolved => exact fits.next_above (busy?_of_isUnresolved unresolved)
  | abandon =>
      cases nested with
      | cons fits =>
          cases begins with
          | abandon unresolved => exact fits.next_above (busy?_of_isUnresolved unresolved)
  | _ => cases begins

theorem InTurn.fits_answer {q : Nat} {response : ProbeResponse}
    (turn : InTurn c c.stack (.answer q (.ok response))) (unresolved : c.IsUnresolved q a) :
    Fits c.probes c.stack (.delivering a.phase .entry) := by
  generalize c.stack = thread at turn
  cases turn with
  | free control => exact .of_control control rfl
  | answer =>
      refine ⟨?_, fun _ hnone => nomatch hnone⟩
      intro g hg b hb
      obtain rfl : .sending q = g := Option.some.inj hg
      rw [Option.some.inj ((busy?_of_isUnresolved unresolved).symm.trans hb)]
      rfl

theorem Nested.tail (h : Nested c.probes c.stack) {stack : List Frame} (top : c.stack = f :: stack) :
    Fits c.probes stack f ∧ Nested c.probes stack := by
  rw [top] at h
  cases h with
  | cons fits rest => exact ⟨fits, rest⟩

theorem Nested.intake (h : Nested c.probes c.stack) (orderly : c.Orderly) (hi : Intake c m c' d) :
    Nested c'.probes c'.stack := by
  have e := hi.extends
  cases hi with
  | answer | answerError | abandon => exact h.extend e fun _ hg => orderly.sound.grounded.frames hg
  | accepted top | refused top | connected top | unreachable top | sent top | unsent top
  | returned top => exact (h.tail top).2
  | _ => exact h

theorem Nested.intake_duty (h : Nested c.probes c.stack) (turn : InTurn c c.stack m)
    (orderly : c.Orderly) (hi : Intake c m c' d) : d.FitsOn c' := by
  have e := hi.extends
  have hsupported : ∀ g ∈ c.stack, g.Supported c := fun _ hg => orderly.sound.grounded.frames hg
  cases hi with
  | void | reject | sent => trivial
  | start =>
      have control := turn.control rfl (by simp)
      split <;> exact Fits.of_control control rfl
  | run found pending =>
      exact turn.fits h orderly (.run (by rw [IsPending, found, ← pending]))
  | discard => exact Fits.of_control (turn.control rfl (by simp)) rfl
  | answer found unresolved =>
      exact (turn.fits_answer ⟨_, found, unresolved, rfl⟩).extend e hsupported rfl rfl
  | @answerError q p error found unresolved =>
      intro current
      have hbegins : Begins c (.answer q (.error error)) p.attempt.next :=
        .answer ⟨p, found, unresolved, rfl⟩ current
      exact (turn.fits h orderly hbegins).extend e hsupported rfl rfl
  | abandon found unresolved =>
      intro current
      have hbegins := Begins.abandon ⟨_, found, unresolved, rfl⟩ current
      exact (turn.fits h orderly hbegins).extend e hsupported rfl rfl
  | accepted top | refused top => exact (h.tail top).1.of_eq rfl rfl
  | connected top => exact (h.tail top).1
  | unreachable top => exact fun _ => (h.tail top).1.next
  | @unsent q p error stack top found =>
      intro _
      have hbusy : (Frame.sending q).busy? c.probes = some p.attempt := by simp [Frame.busy?, found]
      have hfits : Fits c.probes stack (.connecting p.attempt) := (h.tail top).1.of_eq
        (Frame.concern?_of_busy? hbusy).symm (Frame.dispatch?_of_busy? hbusy).symm
      exact hfits.next
  | returned top => exact Fits.duty (h.tail top).1

theorem Nested.step (h : Nested c.probes c.stack) (turn : InTurn c c.stack m) (orderly : c.Orderly) :
    Nested (c.step m).coordinator.probes (c.step m).coordinator.stack :=
  (orderly.sound.step_induction
    (P := fun c' d' => Nested c'.probes c'.stack ∧ d'.FitsOn c')
    (fun sound hn hp => hn.1.progress hn.2 sound hp)
    fun hi => ⟨h.intake orderly hi, h.intake_duty turn orderly hi⟩).1

theorem Threaded.orderly (h : Threaded policy c threads) (i : Nat) :
    Orderly { c with stack := threads i } := by
  obtain ⟨moves, busy, -, idle, run⟩ := h.exists_run
  obtain ⟨call, sound, onset⟩ := run.onset
  have hmem {f : Frame} (hf : f ∈ threads i) : f ∈ busy.flatMap threads := mem_flatMap_of_mem idle hf
  refine ⟨?_, fun hdelivering => onset.delivered (hmem hdelivering), fun pending => ?_⟩
  · have hsound : Sound { c with stack := threads i } (.rest call) :=
      sound.of_subset fun _ hf => hmem hf
    exact ⟨hsound.grounded, trivial, hsound.books.transfer rfl rfl rfl rfl⟩
  · exact run.slot?_of_isPending pending

theorem Threaded.extends_stepOn (h : Threaded policy c threads) (i : Nat) (m : Move) :
    Extends c (c.stepOn (threads i) m) := by
  have hthread : Extends c { c with stack := threads i } := .of_eq rfl rfl rfl
  exact hthread.trans ((h.orderly i).sound.extends_step m)

/-- On every thread, every call fits on top of those before it. -/
theorem Threaded.nested (h : Threaded policy c threads) (j : Nat) : Nested c.probes (threads j) := by
  induction h with
  | start => exact .nil
  | @move c threads m run i turn ih =>
      by_cases hj : j = i
      · subst hj
        rw [Function.update_self]
        exact Nested.step (c := { c with stack := threads j }) ih turn.onThread (run.orderly j)
      · rw [Function.update_of_ne hj]
        exact ih.extend (run.extends_stepOn i m) fun f hf => (run.orderly j).sound.grounded.frames hf

end Coordinator
end Prefilter
