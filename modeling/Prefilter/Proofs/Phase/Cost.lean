import Prefilter.Proofs.Phase.Nesting

/-!
What a dispatch costs. Each of its moves is paid for out of a budget that is set by the number of copies
of its shard: three moves for each copy, and one for the end of the phase. What other threads and the
next phase do adds nothing to the cost.
-/

namespace Prefilter

open Relation

/-- How many copies come after the one that a shard stands at. -/
def Cursor.ahead (copies : Nat) : Cursor → Nat
  | .copy index => copies - (index + 1)
  | .done => 0

theorem Cursor.Advances.ahead_le {copies : Nat} {s s' : Cursor} (h : Advances copies s s') :
    s'.ahead copies ≤ s.ahead copies := by
  cases h with
  | next => exact Nat.sub_le_sub_left (Nat.le_succ _) copies
  | close => exact Nat.zero_le _

theorem Cursor.ahead_le_of_reflGen {copies : Nat} {s s' : Cursor} (h : ReflGen (Advances copies) s s') :
    s'.ahead copies ≤ s.ahead copies := by
  cases h with
  | refl => exact Nat.le_refl _
  | single move => exact move.ahead_le

/-- A resolver or a transport is busy with an attempt at a shard. -/
def Frame.IsBusyAt (probes : Array Probe) (phase slot : Nat) (f : Frame) : Prop :=
  ∃ a, f.busy? probes = some a ∧ a.At phase slot

/-- How many moves a call of a dispatch can still take, those of later attempts aside. -/
def Frame.toll (probes : Array Probe) : Frame → Nat
  | .submitting _ => 0
  | .connecting _ => 3
  | .sending probe => if (probes[probe]?.map (·.listener.resolved)).getD false then 1 else 2
  | .delivering .. => 1

/-- The duty is part of the dispatch of a shard. -/
def Duty.IsPartOf (phase slot : Nat) : Duty → Prop
  | .rest _ => True
  | .submit .. => False
  | .complete other caller => other = phase ∧ caller.position? = none
  | .finish a _ caller => a.At phase slot ∧ caller.position? = none
  | .dispatch a | .fail a _ | .send a _ => a.At phase slot

/-- How many moves a duty will take, those of later attempts aside. -/
def Duty.toll (c : Coordinator) : Duty → Nat
  | .rest _ | .submit .. | .finish .. | .fail .. => 0
  | .complete .. => 1
  | .dispatch a => if (c.destination? a).isSome then 3 else 0
  | .send .. => 2

theorem Caller.duty_eq_rest {caller : Caller} (phase : Nat) (h : caller.position? = none) :
    caller.duty phase = .rest none := by
  cases caller with
  | entry | exhausted => rfl
  | start slot => cases h

namespace Coordinator

variable {c c' : Coordinator} {d d' : Duty} {m : Move} {call : Option Frame} {probes probes' : Array Probe}
  {f : Frame} {a : Attempt} {k i : Nat} {target : ShardTarget}

/-- How many copies a shard has. -/
def copyCount (c : Coordinator) (phase slot : Nat) : Nat :=
  ((c.target? phase slot).map (·.copies.length)).getD 0

/-- Whether the next phase is still to be called, as a number. -/
def awaits (c : Coordinator) (phase : Nat) : Nat :=
  (c.phases[phase]?.map fun p => min p.outstanding 1).getD 0

/-- How many moves later attempts at a shard can take, and the end of its phase. -/
def outlook (c : Coordinator) (phase slot : Nat) : Nat :=
  3 * ((c.slot? phase slot).map (·.cursor.ahead (c.copyCount phase slot))).getD 0 + c.awaits phase

/-- Probes stay those of their attempts, and listeners stay resolved. -/
structure MarksStay (probes probes' : Array Probe) : Prop where
  keep : ∀ {q : Nat} {p : Probe}, probes[q]? = some p → ∃ p', probes'[q]? = some p' ∧
    p'.attempt = p.attempt ∧ (p.listener.resolved = true → p'.listener.resolved = true)

theorem MarksStay.refl (probes : Array Probe) : MarksStay probes probes where
  keep hp := ⟨_, hp, rfl, id⟩

theorem MarksStay.trans {probes'' : Array Probe} (h : MarksStay probes probes')
    (h' : MarksStay probes' probes'') : MarksStay probes probes'' where
  keep hp := by
    obtain ⟨p', hp', hattempt, hmark⟩ := h.keep hp
    obtain ⟨p'', hp'', hattempt', hmark'⟩ := h'.keep hp'
    exact ⟨p'', hp'', hattempt'.trans hattempt, fun hresolved => hmark' (hmark hresolved)⟩

theorem MarksStay.toll_le (h : MarksStay probes probes') (f : Frame) :
    f.toll probes' ≤ f.toll probes := by
  cases f with
  | sending q =>
      cases hp : probes[q]? with
      | none =>
          simp only [Frame.toll, hp, Option.map_none, Option.getD_none, Bool.false_eq_true, if_false]
          split
          · exact Nat.le_succ 1
          · exact Nat.le_refl 2
      | some p =>
          obtain ⟨p', hp', -, hmark⟩ := h.keep hp
          simp only [Frame.toll, hp, hp', Option.map_some, Option.getD_some]
          cases hr : p.listener.resolved with
          | true => rw [hmark hr]
          | false => split <;> simp
  | _ => exact Nat.le_refl _

theorem MarksStay.isBusyAt (h : MarksStay probes probes') (busy : f.IsBusyAt probes k i) :
    f.IsBusyAt probes' k i := by
  obtain ⟨a, ha, hat⟩ := busy
  cases f with
  | submitting | delivering => cases ha
  | connecting => exact ⟨a, ha, hat⟩
  | sending q =>
      obtain ⟨p, hp, rfl⟩ := Option.map_eq_some_iff.mp ha
      obtain ⟨p', hp', hattempt, -⟩ := h.keep hp
      exact ⟨p'.attempt, by simp [Frame.busy?, hp'], hattempt ▸ hat⟩

theorem MarksStay.sum_toll_le (h : MarksStay probes probes') (own : List Frame) :
    (own.map (·.toll probes')).sum ≤ (own.map (·.toll probes)).sum := by
  induction own with
  | nil => exact Nat.le_refl _
  | cons f own ih => exact Nat.add_le_add (h.toll_le f) ih

theorem Progress.marksStay (hp : Progress c d c' d') : MarksStay c.probes c'.probes := by
  cases hp with
  | send => exact ⟨fun hp => ⟨_, getElem?_push_eq_some hp, rfl, id⟩⟩
  | _ => exact .refl _

theorem marksStay_useListener (c : Coordinator) (q : Nat) :
    MarksStay c.probes (c.useListener q).probes where
  keep {q' p} hp := by
    refine ⟨_, getElem?_modify_eq_some.mpr ⟨p, hp, rfl⟩, ?_⟩
    split
    · exact ⟨rfl, fun _ => rfl⟩
    · exact ⟨rfl, id⟩

theorem Intake.marksStay (hi : Intake c m c' d) : MarksStay c.probes c'.probes := by
  cases hi with
  | answer | answerError | abandon => exact marksStay_useListener c _
  | _ => exact .refl _

theorem Extends.copyCount_eq (e : Extends c c') (ht : c.target? k i = some target) :
    c'.copyCount k i = c.copyCount k i := by
  simp [copyCount, ht, e.target? ht]

theorem copyCount_of_target? (ht : c.target? k i = some target) :
    c.copyCount k i = target.copies.length := by
  simp [copyCount, ht]

theorem awaits_of_phase {p : Phase} (hp : c.phases[k]? = some p) : c.awaits k = min p.outstanding 1 := by
  simp [awaits, hp]

theorem outlook_of_slot? {s : Slot} (hs : c.slot? k i = some s) :
    c.outlook k i = 3 * s.cursor.ahead (c.copyCount k i) + c.awaits k := by
  simp [outlook, hs]

theorem awaits_le {p p' : Phase} (hp : c.phases[k]? = some p) (hp' : c'.phases[k]? = some p')
    (le : p'.outstanding ≤ p.outstanding) : c'.awaits k ≤ c.awaits k := by
  rw [awaits_of_phase hp, awaits_of_phase hp']
  omega

theorem Progress.outlook_le (hp : Progress c d c' d') (sound : c.Sound d)
    (ht : c.target? k i = some target) : c'.outlook k i ≤ c.outlook k i := by
  obtain ⟨p, hphase, -⟩ := exists_phase_of_target? ht
  obtain ⟨p', hphase', hle⟩ := hp.outstanding_le hphase
  obtain ⟨s, hs⟩ := sound.exists_slot? ht
  obtain ⟨s', hs', move⟩ := hp.advances sound hs ht
  have hahead := Cursor.ahead_le_of_reflGen move
  rw [outlook_of_slot? hs, outlook_of_slot? hs', hp.extends.copyCount_eq ht, copyCount_of_target? ht]
  exact Nat.add_le_add (Nat.mul_le_mul_left 3 hahead) (awaits_le hphase hphase' hle)

theorem Intake.outlook_le (hi : Intake c m c' d) (sound : c.Sound (.rest call))
    (ht : c.target? k i = some target) : c'.outlook k i ≤ c.outlook k i := by
  obtain ⟨p, hphase, -⟩ := exists_phase_of_target? ht
  obtain ⟨p', hphase', hle⟩ := hi.outstanding_le hphase
  obtain ⟨s, hs⟩ := sound.exists_slot? ht
  rw [outlook_of_slot? hs, outlook_of_slot? (hi.slot?_of_some hs), hi.extends.copyCount_eq ht]
  exact Nat.add_le_add_left (awaits_le hphase hphase' hle) _

/-- No move of anybody adds to the cost of a dispatch. -/
theorem Sound.outlook_step (sound : c.Sound (.rest call)) (m : Move)
    (ht : c.target? k i = some target) :
    MarksStay c.probes (c.step m).coordinator.probes ∧
      (c.step m).coordinator.outlook k i ≤ c.outlook k i := by
  have hstep := sound.step_induction (m := m)
    (P := fun c' _ => Extends c c' ∧ MarksStay c.probes c'.probes ∧ c'.outlook k i ≤ c.outlook k i)
    (fun sound ⟨e, hmarks, hle⟩ hp => ⟨e.trans hp.extends, hmarks.trans hp.marksStay,
      Nat.le_trans (hp.outlook_le sound (e.target? ht)) hle⟩)
    fun hi => ⟨hi.extends, hi.marksStay, hi.outlook_le sound ht⟩
  exact hstep.2

theorem toll_dispatch (ht : c.target? a.phase a.slot = some target) :
    (Duty.dispatch a).toll c = if a.copy < target.copies.length then 3 else 0 := by
  simp [Duty.toll, destination?, ht]

theorem outlook_advance {notice : Notice} {node : NodeId} {p : Phase} {s : Slot}
    (found : c.destination? a = some (target, node)) (phase : c.phases[a.phase]? = some p)
    (slot : p.slots[a.slot]? = some s) (current : s.cursor = .copy a.copy)
    (eq : c' = (c.log notice).updatePhase a.phase (·.advance a.slot a.copy)) :
    (Duty.dispatch a.next).toll c' + c'.outlook a.phase a.slot ≤ c.outlook a.phase a.slot := by
  have hs : c.slot? a.phase a.slot = some s := slot?_eq_some.mpr ⟨p, phase, slot⟩
  have hs' : c'.slot? a.phase a.slot = some { s with cursor := .copy (a.copy + 1) } := by
    have hlog : (c.log notice).slot? a.phase a.slot = some s := hs
    rw [eq, slot?_advance, if_pos ⟨rfl, rfl⟩, hlog, Option.map_some]
  have hp' : c'.phases[a.phase]? = some (p.advance a.slot a.copy) := by
    rw [eq]
    exact getElem?_modify_eq_some.mpr ⟨p, phase, if_pos rfl⟩
  have e : Extends c c' := by
    rw [eq]
    exact ((Extends.refl c).log _).updatePhase _ (fun _ => rfl) fun _ => rfl
  obtain ⟨ht, hcopy⟩ := exists_target?_of_destination? found
  have hlt := (List.getElem?_eq_some_iff.mp hcopy).1
  rw [toll_dispatch (a := a.next) (e.target? ht), outlook_of_slot? hs, outlook_of_slot? hs',
    awaits_of_phase phase, awaits_of_phase hp', e.copyCount_eq ht, copyCount_of_target? ht, current]
  by_cases hnext : a.next.copy < target.copies.length
  · rw [if_pos hnext]
    simp only [Attempt.next] at hnext
    simp only [Cursor.ahead, Phase.advance]
    omega
  · rw [if_neg hnext]
    simp only [Cursor.ahead, Phase.advance]
    omega

theorem outlook_record {outcome : Outcome} {p : Phase} {s : Slot} (phase : c.phases[a.phase]? = some p)
    (slot : p.slots[a.slot]? = some s) (last : p.outstanding = 1)
    (eq : c' = c.updatePhase a.phase (·.record a.slot outcome)) :
    c'.outlook a.phase a.slot + 1 ≤ c.outlook a.phase a.slot := by
  have hs : c.slot? a.phase a.slot = some s := slot?_eq_some.mpr ⟨p, phase, slot⟩
  have hs' : c'.slot? a.phase a.slot = some ⟨.done, s.outcome.or (some outcome)⟩ := by
    rw [eq, slot?_record, if_pos ⟨rfl, rfl⟩, hs, Option.map_some]
  have hp' : c'.phases[a.phase]? = some (p.record a.slot outcome) := by
    rw [eq]
    exact getElem?_modify_eq_some.mpr ⟨p, phase, if_pos rfl⟩
  rw [outlook_of_slot? hs, outlook_of_slot? hs', awaits_of_phase phase, awaits_of_phase hp', last]
  simp [Cursor.ahead, Phase.record, last]

/-- The calls of a dispatch. Resolvers and transports are busy with its shard; once nothing is left to
do, the next phase can have been called on top. -/
inductive Calls (probes : Array Probe) (phase slot : Nat) : Duty → List Frame → Prop where
  | probing {d : Duty} {own : List Frame} (duty : d.IsPartOf phase slot)
      (busy : ∀ f ∈ own, f.IsBusyAt probes phase slot) : Calls probes phase slot d own
  | delivering {call : Option Frame} {caller : Caller} {own : List Frame}
      (last : caller.position? = none) (busy : ∀ f ∈ own, f.IsBusyAt probes phase slot) :
      Calls probes phase slot (.rest call) (.delivering phase caller :: own)

/-- What a dispatch can still cost. -/
def cost (c : Coordinator) (phase slot : Nat) (d : Duty) (own : List Frame) : Nat :=
  d.toll c + (own.map (·.toll c.probes)).sum + c.outlook phase slot

/-- A dispatch is under way, its calls on top of others; it stays within a budget. -/
def Underway (c : Coordinator) (phase slot budget : Nat) (base : List Frame) (d : Duty) : Prop :=
  ∃ own, c.stack = own ++ base ∧ Calls c.probes phase slot d own ∧ c.cost phase slot d own ≤ budget

namespace Underway

variable {own base : List Frame} {budget : Nat}

theorem stay (hstack : c.stack = own ++ base) (busy : ∀ f ∈ own, f.IsBusyAt c.probes k i)
    (hcost : c.cost k i d own ≤ budget) (hmarks : MarksStay c.probes c'.probes)
    (same : c'.stack = c.stack) (duty : d'.IsPartOf k i)
    (hle : d'.toll c' + c'.outlook k i ≤ d.toll c + c.outlook k i) :
    c'.Underway k i budget base d' := by
  refine ⟨own, same.trans hstack, .probing duty fun f hf => hmarks.isBusyAt (busy f hf), ?_⟩
  have hsum := hmarks.sum_toll_le own
  unfold cost at hcost ⊢
  omega

theorem calling (hstack : c.stack = own ++ base) (busy : ∀ f ∈ own, f.IsBusyAt c.probes k i)
    (hcost : c.cost k i d own ≤ budget) (hmarks : MarksStay c.probes c'.probes)
    (pushed : c'.stack = f :: c.stack)
    (made : f.IsBusyAt c'.probes k i ∨ ∃ caller, caller.position? = none ∧ f = .delivering k caller)
    (hle : f.toll c'.probes + c'.outlook k i ≤ d.toll c + c.outlook k i) :
    c'.Underway k i budget base (.rest (some f)) := by
  have hbusy : ∀ g ∈ own, g.IsBusyAt c'.probes k i := fun g hg => hmarks.isBusyAt (busy g hg)
  refine ⟨f :: own, pushed.trans (congrArg (f :: ·) hstack), ?_, ?_⟩
  · rcases made with hf | ⟨caller, hlast, rfl⟩
    · exact .probing trivial (List.forall_mem_cons.mpr ⟨hf, hbusy⟩)
    · exact .delivering hlast hbusy
  · have hsum := hmarks.sum_toll_le own
    have hrest : (Duty.rest (some f)).toll c' = 0 := rfl
    rw [cost, hrest, List.map_cons, List.sum_cons]
    unfold cost at hcost
    omega

theorem progress (h : c.Underway k i budget base d) (sound : c.Sound d)
    (ht : c.target? k i = some target) (hp : Progress c d c' d') :
    c'.Underway k i budget base d' := by
  obtain ⟨own, hstack, hcalls, hcost⟩ := h
  cases hcalls with
  | delivering => cases hp  -- Nothing is left to do.
  | probing duty busy =>
      have hmarks := hp.marksStay
      have hle := hp.outlook_le sound ht
      cases hp with
      | submitLast | submit => exact duty.elim
      | complete =>
          obtain ⟨rfl, hlast⟩ := duty
          exact calling hstack busy hcost hmarks rfl (.inr ⟨_, hlast, rfl⟩) (Nat.add_le_add_left hle 1)
      | supersede =>
          refine stay hstack busy hcost hmarks rfl ?_ ?_
          · rw [Caller.duty_eq_rest _ duty.2]
            trivial
          · rw [Caller.duty_eq_rest _ duty.2]
            exact Nat.add_le_add_left hle 0
      | @record a outcome caller p s phase slot =>
          obtain ⟨⟨rfl, rfl⟩, hlast⟩ := duty
          -- What was due for the end of the phase is now due for the call of the next one.
          by_cases hone : p.outstanding = 1
          · rw [if_pos hone]
            refine stay hstack busy hcost hmarks rfl ⟨rfl, hlast⟩ ?_
            have hpaid : (c.updatePhase a.phase (·.record a.slot outcome)).outlook a.phase a.slot + 1 ≤
                c.outlook a.phase a.slot := outlook_record phase slot hone rfl
            simp only [Duty.toll]
            omega
          · rw [if_neg hone, Caller.duty_eq_rest _ hlast]
            exact stay hstack busy hcost hmarks rfl trivial (Nat.add_le_add_left hle 0)
      | @connect a destination found =>
          refine calling hstack busy hcost hmarks rfl (.inl ⟨a, rfl, duty⟩) ?_
          simp only [Duty.toll, found, Option.isSome_some, if_true]
          exact Nat.add_le_add_left hle 3
      | exhaust =>
          exact stay hstack busy hcost hmarks rfl ⟨duty, rfl⟩ (Nat.add_le_add (Nat.zero_le _) hle)
      | ignore => exact stay hstack busy hcost hmarks rfl trivial (Nat.add_le_add_left hle 0)
      | advance found phase slot current =>
          obtain ⟨rfl, rfl⟩ := duty
          refine stay hstack busy hcost hmarks rfl ⟨rfl, rfl⟩ ?_
          exact Nat.le_add_left_of_le (outlook_advance found phase slot current rfl)
      | @send a connection p target node =>
          have htoll : Frame.toll (c.probes.push
              { attempt := a, connection, request := p.probeRequest target node })
                (.sending c.probes.size) = 2 := by simp [Frame.toll]
          refine calling hstack busy hcost hmarks rfl (.inl ⟨a, ?_, duty⟩)
            (Nat.add_le_add (Nat.le_of_eq htoll) hle)
          exact Option.map_eq_some_iff.mpr ⟨_, Array.getElem?_push_size, rfl⟩

theorem perform (h : c.Underway k i budget base d) (sound : c.Sound d)
    (ht : c.target? k i = some target) :
    (c.perform d).coordinator.Underway k i budget base (.rest (c.perform d).call) :=
  (sound.perform_induction
    (P := fun c' d' => Extends c c' ∧ c'.Underway k i budget base d')
    (fun sound ⟨e, h⟩ hp => ⟨e.trans hp.extends, h.progress sound (e.target? ht) hp⟩)
    ⟨.refl c, h⟩).2

end Underway

theorem toll_of_isUnresolved {q : Nat} (unresolved : c.IsUnresolved q a) :
    (Frame.sending q).toll c.probes = 2 := by
  obtain ⟨p, hp, hopen, -⟩ := unresolved
  simp [Frame.toll, hp, hopen]

theorem toll_useListener {q : Nat} (unresolved : c.IsUnresolved q a) :
    (Frame.sending q).toll (c.useListener q).probes = 1 := by
  obtain ⟨p, hp, -⟩ := unresolved
  have hused : (c.useListener q).probes[q]? = some { p with listener := { resolved := true } } :=
    getElem?_modify_eq_some.mpr ⟨p, hp, if_pos rfl⟩
  simp [Frame.toll, hused]

theorem toll_sending_pos (probes : Array Probe) (q : Nat) : 1 ≤ (Frame.sending q).toll probes := by
  simp only [Frame.toll]
  split
  · exact Nat.le_refl 1
  · exact Nat.le_succ 1

/-- A move of a dispatch costs something: its latest call returns, or a listener is resolved. -/
def Pays (c : Coordinator) (m : Move) (k i : Nat) (f : Frame) (rest : List Frame) : Prop :=
  ∃ c' d top, Intake c m c' d ∧ c.step m = c'.perform d ∧ d.IsPartOf k i ∧ c'.stack = top ++ rest ∧
    (∀ g ∈ top, g.IsBusyAt c.probes k i) ∧
    d.toll c' + (top.map (·.toll c'.probes)).sum + 1 ≤ f.toll c.probes

variable {rest : List Frame}

theorem pays_returned {caller : Caller} (top : c.stack = .delivering k caller :: rest)
    (last : caller.position? = none) : c.Pays .returned k i (.delivering k caller) rest := by
  have heq := Caller.duty_eq_rest k last
  refine ⟨_, _, [], .returned top, by simp [step, top, resume_eq_perform], ?_, rfl, by simp, ?_⟩
  · rw [heq]
    trivial
  · rw [heq]
    exact Nat.le_refl 1

theorem pays_listener {q : Nat} (top : c.stack = .sending q :: rest) (unresolved : c.IsUnresolved q a)
    (located : a.At k i) (hi : Intake c m c' d) (heq : c.step m = c'.perform d) (duty : d.IsPartOf k i)
    (free : d.toll c' = 0) (stack : c'.stack = c.stack) (used : c'.probes = (c.useListener q).probes) :
    c.Pays m k i (.sending q) rest := by
  refine ⟨_, _, [.sending q], hi, heq, duty, stack.trans top, ?_, ?_⟩
  · simpa using ⟨a, busy?_of_isUnresolved unresolved, located⟩
  · simp [free, used, toll_useListener unresolved, toll_of_isUnresolved unresolved]

theorem InTurn.pays (turn : InTurn c c.stack m) (sound : c.Sound (.rest call))
    (top : c.stack = f :: rest) (busy : f.IsBusyAt c.probes k i) : c.Pays m k i f rest := by
  obtain ⟨a, ha, hat⟩ := busy
  have hf : f.Supported c := sound.grounded.frames (top ▸ List.mem_cons_self)
  rw [top] at turn
  cases turn with
  | @connected b _ connection =>
      obtain rfl := Option.some.inj ha
      exact ⟨_, _, [], .connected top, by simp [step, top, perform], hat, rfl, by simp, Nat.le_refl 3⟩
  | @unreachable b _ error =>
      obtain rfl := Option.some.inj ha
      obtain ⟨target, node, hdest⟩ := hf
      have hpopped : ({ c with stack := rest } : Coordinator).destination? b = some (target, node) :=
        hdest
      exact ⟨_, _, [], .unreachable top hdest,
        by simp [step, top, Coordinator.unreachable, hpopped, perform], hat, rfl, by simp,
        Nat.le_add_left 1 2⟩
  | @answer q b _ result unresolved =>
      obtain rfl := Option.some.inj (ha.symm.trans (busy?_of_isUnresolved unresolved))
      obtain ⟨p, hp, hopen, rfl⟩ := id unresolved
      cases result with
      | ok =>
          exact pays_listener top unresolved hat (.answer hp hopen) (step_answer hp hopen) ⟨hat, rfl⟩
            rfl rfl rfl
      | error =>
          exact pays_listener top unresolved hat (.answerError hp hopen) (step_answerError hp hopen) hat
            rfl rfl rfl
  | @abandon q b _ unresolved =>
      obtain rfl := Option.some.inj (ha.symm.trans (busy?_of_isUnresolved unresolved))
      obtain ⟨p, hp, hopen, rfl⟩ := id unresolved
      have heq : c.step (.abandon q) =
          ((c.useListener q).log .listenerDropped).perform (.fail p.attempt .listenerDropped) := by
        simp [step, takeListener?_eq_some hp hopen, settle, perform]
      exact pays_listener top unresolved hat (.abandon hp hopen) heq hat rfl rfl rfl
  | @sent q =>
      exact ⟨_, _, [], .sent top, by simp [step, top, Coordinator.rest, perform], trivial, rfl, by simp,
        toll_sending_pos _ _⟩
  | @unsent q _ error =>
      obtain ⟨p, hp⟩ := hf
      have hattempt : p.attempt = a := by simpa [Frame.busy?, hp] using ha
      exact ⟨_, _, [], .unsent top hp, by simp [step, top, hp, perform], hattempt ▸ hat, rfl, by simp,
        toll_sending_pos _ _⟩
  | free control =>
      rw [Frame.busy?_of_isProbing (control f rfl)] at ha
      cases ha

/-- A move of a dispatch leaves less for it to pay. -/
theorem Underway.move {own base : List Frame} (sound : c.Sound (.rest call))
    (ht : c.target? k i = some target) (pays : c.Pays m k i f (own ++ base))
    (busy : ∀ g ∈ own, g.IsBusyAt c.probes k i) :
    ∃ left, left + 1 ≤ c.cost k i (.rest call) (f :: own) ∧
      (c.step m).coordinator.Underway k i left base (.rest (c.step m).call) := by
  obtain ⟨c', d, top, hi, heq, hduty, hstack, htop, hpaid⟩ := pays
  have hmarks := hi.marksStay
  have hle := hi.outlook_le sound ht
  refine ⟨c'.cost k i d (top ++ own), ?_, ?_⟩
  · have hsum := hmarks.sum_toll_le own
    have hrest : (Duty.rest call).toll c = 0 := rfl
    rw [cost, cost, hrest, List.map_cons, List.sum_cons, List.map_append, List.sum_append]
    omega
  · rw [heq]
    refine Underway.perform ⟨top ++ own, ?_, .probing hduty fun g hg => ?_, Nat.le_refl _⟩
      (sound.intake hi) (hi.extends.target? ht)
    · rw [hstack, List.append_assoc]
    · exact hmarks.isBusyAt ((List.mem_append.mp hg).elim (htop g) (busy g))

/-- A dispatch begins with a budget of three moves for each copy, and one for the end of its phase. -/
theorem underway_run {t : Nat} (sound : c.Sound (.rest call)) (pending : c.IsPending t k i)
    (fresh : c.slot? k i = some {}) (ht : c.target? k i = some target) :
    (c.step (.run t)).coordinator.Underway k i (3 * target.copies.length + 1) c.stack
      (.rest (c.step (.run t)).call) := by
  obtain ⟨p, hphase, -⟩ := exists_phase_of_target? ht
  have heq : c.step (.run t) = (c.useTask t).perform (.dispatch ⟨k, i, 0⟩) := by
    simp [step, takeTask?_eq_some pending rfl, perform]
  rw [heq]
  refine Underway.perform ⟨[], rfl, .probing ⟨rfl, rfl⟩ (by simp), ?_⟩
    (sound.intake (.run pending rfl)) (Extends.target? ((Extends.refl c).useTask t) ht)
  have htoll := toll_dispatch (c := c.useTask t) (a := ⟨k, i, 0⟩) ht
  have houtlook : (c.useTask t).outlook k i =
      3 * (target.copies.length - 1) + min p.outstanding 1 := by
    rw [outlook_of_slot? (c := c.useTask t) fresh, awaits_of_phase (c := c.useTask t) hphase,
      copyCount_of_target? (c := c.useTask t) ht]
    rfl
  rw [cost, htoll, houtlook]
  by_cases hnone : 0 < target.copies.length
  · rw [if_pos hnone, List.map_nil, List.sum_nil]
    omega
  · rw [if_neg hnone, List.map_nil, List.sum_nil]
    omega

end Coordinator
end Prefilter
