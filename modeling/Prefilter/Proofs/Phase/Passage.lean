import Mathlib.Logic.Relation
import Prefilter.Proofs.Phase.Obligation

namespace Prefilter

open Relation

/-- A cursor moves: to the next copy while it is at one of the copies, or to its end. -/
inductive Cursor.Advances (copies : Nat) : Cursor → Cursor → Prop where
  | next {index : Nat} (listed : index < copies) : Advances copies (.copy index) (.copy (index + 1))
  | close {index : Nat} : Advances copies (.copy index) .done

namespace Cursor

variable {copies index : Nat} {s s' : Cursor}

theorem Advances.isPast (h : Advances copies s s') (past : s.IsPast index) : s'.IsPast index := by
  cases h with
  | next => exact Nat.lt_succ_of_lt past
  | close => trivial

theorem isPast_of_path (h : ReflTransGen (Advances copies) s s') (past : s.IsPast index) :
    s'.IsPast index := by
  induction h with
  | refl => exact past
  | tail _ move ih => exact move.isPast ih

theorem eq_or_isPast_of_path (h : ReflTransGen (Advances copies) (.copy index) s) :
    s = .copy index ∨ s.IsPast index := by
  rcases h.cases_head with rfl | ⟨second, move, rest⟩
  · exact .inl rfl
  · refine .inr (isPast_of_path rest ?_)
    cases move with
    | next => exact Nat.lt_succ_self index
    | close => trivial

end Cursor

theorem Caller.not_concerns_duty {phase : Nat} {caller : Caller} {a : Attempt} :
    ¬ (caller.duty phase).Concerns a := by
  cases caller <;> exact id

namespace Coordinator

variable {c c' c'' : Coordinator} {d d' : Duty} {m : Move} {k i : Nat} {a : Attempt} {s s' : Slot}
  {call : Option Frame} {policy : OrderingPolicy} {moves later : List Move} {target : ShardTarget}
  {allowed : Coordinator → Move → Prop}

theorem Progress.advances (hp : Progress c d c' d') (sound : c.Sound d) (hs : c.slot? k i = some s)
    (ht : c.target? k i = some target) : ∃ s', c'.slot? k i = some s' ∧
      ReflGen (Cursor.Advances target.copies.length) s.cursor s'.cursor := by
  cases hp.slotChange sound k i with
  | same eq => exact ⟨s, eq ▸ hs, .refl⟩
  | recorded duty phase slot before after =>
      obtain rfl := Option.some.inj (before.symm.trans hs)
      exact ⟨_, after, .single .close⟩
  | advanced duty phase slot before after =>
      obtain rfl := Option.some.inj (before.symm.trans hs)
      subst duty phase slot
      obtain ⟨target', node, hdest⟩ := sound.duty
      obtain ⟨ht', hcopy⟩ := exists_target?_of_destination? hdest
      obtain rfl := Option.some.inj (ht'.symm.trans ht)
      exact ⟨_, after, .single (.next (List.getElem?_eq_some_iff.mp hcopy).1)⟩

theorem Progress.exists_slot?_before (hp : Progress c d c' d') (sound : c.Sound d)
    (hs : c'.slot? k i = some s') : ∃ s, c.slot? k i = some s := by
  cases hp.slotChange sound k i with
  | same eq => exact ⟨s', eq ▸ hs⟩
  | recorded duty phase slot before => exact ⟨_, before⟩
  | advanced duty phase slot before => exact ⟨_, before⟩

/-- The cursor of a slot can have come here from another place. -/
def Stands (c : Coordinator) (k i : Nat) (target : ShardTarget) (origin : Cursor) : Prop :=
  c.target? k i = some target ∧ ∃ s, c.slot? k i = some s ∧
    ReflTransGen (Cursor.Advances target.copies.length) origin s.cursor

theorem Stands.intake {origin : Cursor} (h : c.Stands k i target origin) (hi : Intake c m c' d) :
    c'.Stands k i target origin := by
  obtain ⟨ht, s, hs, path⟩ := h
  exact ⟨hi.extends.target? ht, s, hi.slot?_of_some hs, path⟩

theorem Stands.progress {origin : Cursor} (h : c.Stands k i target origin) (sound : c.Sound d)
    (hp : Progress c d c' d') : c'.Stands k i target origin := by
  obtain ⟨ht, s, hs, path⟩ := h
  obtain ⟨s', hs', move⟩ := hp.advances sound hs ht
  exact ⟨hp.extends.target? ht, s', hs', path.trans move.to_reflTransGen⟩

theorem preserved_stands {origin : Cursor} :
    Preserved allowed fun c _ => c.Stands k i target origin where
  intake _ h _ hi := h.intake hi
  progress sound h hp := h.progress sound hp
  reorder h _ := h

theorem Run.exists_path (run : Run allowed c later c') (sound : c.Sound (.rest call))
    (hs : c.slot? k i = some s) (ht : c.target? k i = some target) : ∃ s', c'.slot? k i = some s' ∧
      ReflTransGen (Cursor.Advances target.copies.length) s.cursor s'.cursor := by
  obtain ⟨-, -, -, path⟩ := preserved_stands.run run sound ⟨ht, s, hs, .refl⟩
  exact path

theorem preserved_setOut : Preserved allowed fun c _ => ∀ {k i : Nat} {s : Slot},
    c.slot? k i = some s → ∃ target, c.Stands k i target (.copy 0) where
  intake sound h _ hi := by
    intro k i s hs
    rcases hi.slot?_cases k i with heq | ⟨_, _, -, -, -, -, hfresh, -⟩
    · obtain ⟨target, stands⟩ := h (heq ▸ hs)
      exact ⟨target, stands.intake hi⟩
    · obtain ⟨target, ht⟩ := (sound.intake hi).exists_target? hs
      exact ⟨target, ht, _, hfresh, .refl⟩
  progress sound h hp := by
    intro k i s' hs'
    obtain ⟨s, hs⟩ := hp.exists_slot?_before sound hs'
    obtain ⟨target, stands⟩ := h hs
    exact ⟨target, stands.progress sound hp⟩
  reorder h _ := h

theorem Reachable.exists_path (h : Reachable policy moves c) (hs : c.slot? k i = some s) :
    ∃ target, c.target? k i = some target ∧
      ReflTransGen (Cursor.Advances target.copies.length) (.copy 0) s.cursor := by
  obtain ⟨-, -, hout⟩ := preserved_setOut.run h (sound_initial policy) (by simp [slot?])
  obtain ⟨target, ht, s', hs', path⟩ := hout hs
  obtain rfl := Option.some.inj (hs'.symm.trans hs)
  exact ⟨target, ht, path⟩

theorem IsOver.isCurrent_eq_false (h : c.IsOver a) : c.isCurrent a = false := by
  obtain ⟨s, hs, past⟩ := h
  rw [← Bool.not_eq_true, isCurrent_iff_slot?]
  rintro ⟨s', hs', hcopy⟩
  obtain rfl := Option.some.inj (hs.symm.trans hs')
  rw [hcopy] at past
  exact Nat.lt_irrefl _ past

theorem IsOver.run (h : c.IsOver a) (run : Run allowed c later c') (sound : c.Sound (.rest call)) :
    c'.IsOver a := by
  obtain ⟨s, hs, past⟩ := h
  obtain ⟨target, ht⟩ := sound.exists_target? hs
  obtain ⟨s', hs', path⟩ := run.exists_path sound hs ht
  exact ⟨s', hs', Cursor.isPast_of_path path past⟩

/-- An attempt that is not current any more is over. -/
theorem Run.isOver_of_left (run : Run allowed c later c') (sound : c.Sound (.rest call))
    (current : c.isCurrent a = true) (left : c'.isCurrent a = false) : c'.IsOver a := by
  obtain ⟨s, hs, hcopy⟩ := isCurrent_iff_slot?.mp current
  obtain ⟨target, ht⟩ := sound.exists_target? hs
  obtain ⟨s', hs', path⟩ := run.exists_path sound hs ht
  rcases Cursor.eq_or_isPast_of_path (hcopy ▸ path) with heq | past
  · have still : c'.isCurrent a = true := isCurrent_iff_slot?.mpr ⟨s', hs', heq⟩
    simp [left] at still
  · exact ⟨s', hs', past⟩

/-- The shard has got to the attempt. -/
def IsReached (c : Coordinator) (a : Attempt) : Prop := c.isCurrent a = true ∨ c.IsOver a

theorem isReached_of_slot? (hs : c.slot? k i = some s) : c.IsReached ⟨k, i, 0⟩ := by
  cases hc : s.cursor with
  | copy index =>
      cases index with
      | zero => exact .inl (isCurrent_iff_slot?.mpr ⟨s, hs, hc⟩)
      | succ index => exact .inr ⟨s, hs, hc ▸ Nat.succ_pos index⟩
  | done => exact .inr ⟨s, hs, hc ▸ trivial⟩

theorem IsReached.intake (h : c.IsReached a) (hi : Intake c m c' d) : c'.IsReached a := by
  rcases h with current | ⟨s, hs, past⟩
  · obtain ⟨s, hs, hcopy⟩ := isCurrent_iff_slot?.mp current
    exact .inl (isCurrent_iff_slot?.mpr ⟨s, hi.slot?_of_some hs, hcopy⟩)
  · exact .inr ⟨s, hi.slot?_of_some hs, past⟩

theorem IsReached.progress (h : c.IsReached a) (sound : c.Sound d) (hp : Progress c d c' d') :
    c'.IsReached a := by
  rcases h with current | hover
  · obtain ⟨s, hs, hcopy⟩ := isCurrent_iff_slot?.mp current
    obtain ⟨target, ht⟩ := sound.exists_target? hs
    obtain ⟨s', hs', move⟩ := hp.advances sound hs ht
    rcases Cursor.eq_or_isPast_of_path (hcopy ▸ move.to_reflTransGen) with heq | past
    · exact .inl (isCurrent_iff_slot?.mpr ⟨s', hs', heq⟩)
    · exact .inr ⟨s', hs', past⟩
  · exact .inr (hover.progress sound hp)

/-- Nothing is under way for an attempt before its shard has got to it, and a listener is resolved only
as its attempt ends. -/
structure Timely (c : Coordinator) (d : Duty) : Prop where
  probes : ∀ {q : Nat} {p : Probe}, c.probes[q]? = some p → c.IsReached p.attempt
  resolver : ∀ {a : Attempt}, .connecting a ∈ c.stack → c.IsReached a
  duty : ∀ {a : Attempt}, d.Concerns a → c.IsReached a
  settled : ∀ {q : Nat} {p : Probe}, c.probes[q]? = some p → p.listener.resolved = true →
    c.IsOver p.attempt ∨ d.Ends p.attempt

namespace Timely

theorem progress_duty (h : c.Timely d) (hp : Progress c d c' d')
    (concerns : d'.Concerns a) : c'.IsReached a := by
  cases hp with
  | supersede => exact absurd concerns Caller.not_concerns_duty
  | record =>
      split at concerns
      · exact concerns.elim
      · exact absurd concerns Caller.not_concerns_duty
  | exhaust => exact h.duty concerns
  | @advance b error target node p s found phase slot current =>
      obtain rfl : b.next = a := concerns
      have hs : (c.log (.attemptFailed b target node error)).slot? b.phase b.slot = some s :=
        slot?_eq_some.mpr ⟨p, phase, slot⟩
      refine .inl (isCurrent_iff_slot?.mpr ⟨{ s with cursor := .copy (b.copy + 1) }, ?_, rfl⟩)
      exact slot?_advance.trans (by simp [Attempt.next, hs])
  | _ => exact concerns.elim

theorem progress_probes (hp : Progress c d c' d') {q : Nat} {p : Probe}
    (hq : c'.probes[q]? = some p) :
    c.probes[q]? = some p ∨ (p.listener.resolved = false ∧ d.Concerns p.attempt) := by
  cases hp with
  | send =>
      rw [push, addProbe, Array.getElem?_push] at hq
      split at hq
      · obtain rfl := Option.some.inj hq
        exact .inr ⟨rfl, rfl⟩
      · exact .inl hq
  | _ => exact .inl hq

theorem progress_resolver (hp : Progress c d c' d') (under : .connecting a ∈ c'.stack) :
    .connecting a ∈ c.stack ∨ d.Concerns a := by
  cases hp with
  | connect =>
      rcases List.mem_cons.mp under with heq | hunder
      · exact .inr (Frame.connecting.inj heq).symm
      · exact .inl hunder
  | submit | complete | send =>
      rcases List.mem_cons.mp under with heq | hunder
      · cases heq
      · exact .inl hunder
  | _ => exact .inl under

theorem progress (h : c.Timely d) (sound : c.Sound d) (hp : Progress c d c' d') : c'.Timely d' where
  probes hq := by
    rcases progress_probes hp hq with hold | ⟨-, concerns⟩
    · exact (h.probes hold).progress sound hp
    · exact (h.duty concerns).progress sound hp
  resolver under := by
    rcases progress_resolver hp under with hold | concerns
    · exact (h.resolver hold).progress sound hp
    · exact (h.duty concerns).progress sound hp
  duty concerns := h.progress_duty hp concerns
  settled hq resolved := by
    rcases progress_probes hp hq with hold | ⟨unresolved, -⟩
    · rcases h.settled hold resolved with hover | ends
      · exact .inl (hover.progress sound hp)
      · rcases h.probes hold with current | hover
        · exact .inl (hp.isOver_of_ends sound current ends)
        · exact .inl (hover.progress sound hp)
    · simp [unresolved] at resolved

theorem intake_duty (h : c.Timely (.rest call)) (sound : c.Sound (.rest call))
    (hi : Intake c m c' d) (concerns : d.Concerns a) : c.IsReached a := by
  cases hi with
  | start => split at concerns <;> exact concerns.elim
  | run found | discard found | refused _ found =>
      obtain ⟨target, ht⟩ := sound.grounded.tasks found
      obtain ⟨s, hs⟩ := sound.exists_slot? ht
      exact concerns ▸ isReached_of_slot? hs
  | answer found | answerError found | abandon found | unsent _ found =>
      exact concerns ▸ h.probes found
  | connected top | unreachable top => exact concerns ▸ h.resolver (top ▸ List.mem_cons_self)
  | returned => exact absurd concerns Caller.not_concerns_duty
  | _ => exact concerns.elim

theorem intake_probes (hi : Intake c m c' d) {q : Nat} {p : Probe} (hq : c'.probes[q]? = some p) :
    ∃ old, c.probes[q]? = some old ∧ old.attempt = p.attempt ∧
      (p.listener.resolved = true → old.listener.resolved = true ∨ d.Ends p.attempt) := by
  cases hi with
  | @answer probe old response found | @answerError probe old error found
  | @abandon probe old found =>
      obtain ⟨old', hold', rfl⟩ := getElem?_modify_eq_some.mp hq
      by_cases hat : probe = q
      · subst hat
        obtain rfl := Option.some.inj (found.symm.trans hold')
        exact ⟨old, found, by simp, fun _ => .inr (by simp [Duty.Ends])⟩
      · exact ⟨old', hold', by simp [hat], fun h => .inl (by simpa [hat] using h)⟩
  | _ => exact ⟨p, hq, rfl, .inl⟩

theorem intake_resolver (hi : Intake c m c' d) (under : .connecting a ∈ c'.stack) :
    .connecting a ∈ c.stack := by
  cases hi with
  | accepted top | refused top | connected top | unreachable top | sent top | unsent top
  | returned top => exact top ▸ List.mem_cons_of_mem _ under
  | _ => exact under

theorem intake (h : c.Timely (.rest call)) (sound : c.Sound (.rest call)) (hi : Intake c m c' d) :
    c'.Timely d where
  probes hq := by
    obtain ⟨old, hold, hattempt, -⟩ := intake_probes hi hq
    exact hattempt ▸ (h.probes hold).intake hi
  resolver under := (h.resolver (intake_resolver hi under)).intake hi
  duty concerns := (h.intake_duty sound hi concerns).intake hi
  settled hq resolved := by
    obtain ⟨old, hold, hattempt, hor⟩ := intake_probes hi hq
    rcases hor resolved with hresolved | ends
    · rcases h.settled hold hresolved with ⟨s, hs, past⟩ | ends
      · exact .inl (hattempt ▸ ⟨s, hi.slot?_of_some hs, past⟩)
      · exact ends.elim
    · exact .inr ends

theorem reorder {stack : List Frame} (h : c.Timely (.rest call)) (perm : stack.Perm c.stack) :
    Timely { c with stack } (.rest call) where
  probes := h.probes
  resolver under := h.resolver (perm.mem_iff.mp under)
  duty := h.duty
  settled := h.settled

end Timely

theorem preserved_timely : Preserved allowed Timely where
  intake sound h _ hi := h.intake sound hi
  progress sound h hp := h.progress sound hp
  reorder h perm := h.reorder perm

theorem Reachable.timely (h : Reachable policy moves c) :
    ∃ call, c.Sound (.rest call) ∧ c.Timely (.rest call) := by
  refine preserved_timely.run h (sound_initial policy) ⟨?_, ?_, ?_, ?_⟩
  · simp
  · simp
  · exact fun concerns => concerns.elim
  · simp

end Coordinator
end Prefilter
