import Prefilter.Proofs.Phase.Account
import Prefilter.Proofs.Phase.Failover

namespace Prefilter

namespace Notice

/-- The shard that is spoken of, by phase and position. -/
def shard? : Notice → Option (Nat × Nat)
  | dispatchRefused phase slot .. | dispatchDropped phase slot _ | unassigned phase slot _
  | copiesExhausted phase slot _ => some (phase, slot)
  | attemptFailed attempt .. | superseded attempt => some (attempt.phase, attempt.slot)
  | _ => none

theorem isSome_shard? {n : Notice} (h : n.level = .warn) : n.shard?.isSome := by
  cases n <;> first | rfl | cases h

end Notice

/-- The shard of a phase that an event warns about. -/
def Event.warning? (phase : Nat) : Event → Option Nat
  | .log n =>
    if n.level = .warn then
      n.shard?.bind fun shard => if shard.1 = phase then some shard.2 else none
    else none
  | _ => none

/-- A deed, and the shard that it is done to. -/
structure Note where
  phase : Nat
  slot : Nat
  deed : Deed
deriving DecidableEq

/-- The deeds that are done to one shard. -/
def deedsOf (history : List Note) (phase slot : Nat) : List Deed :=
  (history.filter fun note => note.phase = phase ∧ note.slot = slot).map (·.deed)

theorem deedsOf_append (earlier later : List Note) (phase slot : Nat) :
    deedsOf (earlier ++ later) phase slot = deedsOf earlier phase slot ++ deedsOf later phase slot := by
  simp [deedsOf]

theorem deedsOf_singleton (note : Note) (phase slot : Nat) : deedsOf [note] phase slot =
    if note.phase = phase ∧ note.slot = slot then [note.deed] else [] := by
  unfold deedsOf
  split <;> simp [*]

/-- What the account of a shard will be once a duty is discharged. -/
def Duty.settle (copies phase slot : Nat) (account : Account) : Duty → Account
  | .finish a outcome _ => if a.At phase slot then account.finish a.copy outcome else account
  | .dispatch a => if a.At phase slot then account.attempt copies a.copy else account
  | .fail a _ => if a.At phase slot then account.fail copies a.copy else account
  | _ => account

theorem Caller.settle_duty {copies phase slot other : Nat} {account : Account} (caller : Caller) :
    (caller.duty other).settle copies phase slot account = account := by
  cases caller <;> rfl

namespace Coordinator

variable {c c' : Coordinator} {d d' : Duty} {m : Move} {k i : Nat} {call : Option Frame}
  {target : ShardTarget}

/-- The shards of a phase that were warned about, one for each warning. -/
def warned (c : Coordinator) (phase : Nat) : List Nat :=
  c.trace.toList.filterMap (Event.warning? phase)

theorem warned_emit (c : Coordinator) (e : Event) :
    (c.emit e).warned k = c.warned k ++ (e.warning? k).toList := by
  rw [warned, emit, Array.toList_push, List.filterMap_append, ← warned]
  cases h : e.warning? k <;> simp [h]

theorem warned_emit_of_eq_none {e : Event} (h : e.warning? k = none) :
    (c.emit e).warned k = c.warned k := by
  simp [warned_emit, h]

theorem warned_log {n : Notice} (h : n.level ≠ .warn) : (c.log n).warned k = c.warned k :=
  warned_emit_of_eq_none (if_neg h)

theorem warned_logAll {ns : List Notice} (h : ∀ n ∈ ns, n.level ≠ .warn) :
    (c.logAll ns).warned k = c.warned k := by
  have hnone : (ns.map Event.log).filterMap (Event.warning? k) = [] := by
    simpa [Event.warning?, List.filterMap_eq_nil_iff] using fun n hn hlevel => absurd hlevel (h n hn)
  rw [warned, logAll, Array.toList_append, List.filterMap_append, hnone, List.append_nil, ← warned]

theorem count_warned_log {n : Notice} {phase slot : Nat} (level : n.level = .warn)
    (shard : n.shard? = some (phase, slot)) :
    ((c.log n).warned k).count i =
      (c.warned k).count i + if phase = k ∧ slot = i then 1 else 0 := by
  rw [log, warned_emit, List.count_append]
  by_cases hphase : phase = k
  · simp [Event.warning?, level, shard, hphase, List.count_singleton]
  · simp [Event.warning?, level, shard, hphase]

theorem count_warned_exhaustion {a : Attempt} :
    ((c.log (exhaustionNotice a target)).warned k).count i =
      (c.warned k).count i +
        if a.At k i then (if target.copies.length = 0 then 0 else 1) else 0 := by
  unfold exhaustionNotice
  split
  · rename_i hempty
    rw [warned_log (by simp [Notice.level])]
    simp [List.isEmpty_iff.mp hempty]
  · rename_i hcopies
    rw [@count_warned_log _ _ _ _ a.phase a.slot rfl rfl]
    simp_all [Attempt.At]

/-- The number of copies of a shard. -/
def copies (c : Coordinator) (phase slot : Nat) : Nat :=
  (c.target? phase slot).elim 0 (·.copies.length)

/-- The account of a shard. That of one that is not there is fresh. -/
def account (c : Coordinator) (phase slot : Nat) : Account :=
  ⟨(c.slot? phase slot).getD {}, (c.warned phase).count slot⟩

/-- The account of a shard once a duty is discharged. -/
def prospect (c : Coordinator) (d : Duty) (phase slot : Nat) : Account :=
  d.settle (c.copies phase slot) phase slot (c.account phase slot)

theorem copies_of_target? (listed : c.target? k i = some target) :
    c.copies k i = target.copies.length := by
  simp [copies, listed]

theorem Extends.copies_eq (e : Extends c c') (listed : c.target? k i = some target) :
    c'.copies k i = c.copies k i := by
  rw [copies_of_target? listed, copies_of_target? (e.target? listed)]

theorem Progress.target?_eq (hp : Progress c d c' d') : c'.target? k i = c.target? k i := by
  refine Option.ext fun target => ⟨fun h => ?_, hp.extends.target?⟩
  obtain ⟨p', hp', htarget⟩ := exists_phase_of_target? h
  obtain ⟨p, hfound, htargets, -⟩ := hp.exists_phase hp'
  exact Option.bind_eq_some_iff.mpr ⟨p, hfound, htargets ▸ htarget⟩

theorem Progress.copies_eq (hp : Progress c d c' d') : c'.copies k i = c.copies k i := by
  rw [copies, hp.target?_eq, copies]

theorem account_of_slot? {s : Slot} (hs : c.slot? k i = some s) :
    c.account k i = ⟨s, (c.warned k).count i⟩ := by
  rw [account, hs, Option.getD_some]

theorem account_congr (slot : c'.slot? k i = c.slot? k i) (warned : c'.warned k = c.warned k) :
    c'.account k i = c.account k i := by
  rw [account, slot, warned, account]

theorem account_log {n : Notice} (level : n.level ≠ .warn) :
    (c.log n).account k i = c.account k i :=
  account_congr rfl (warned_log level)

theorem account_log_exhaustion {a : Attempt} : (c.log (exhaustionNotice a target)).account k i =
    { c.account k i with
      warned := (c.account k i).warned +
        if a.At k i then (if target.copies.length = 0 then 0 else 1) else 0 } :=
  congrArg (Account.mk _) count_warned_exhaustion

theorem level_of_mem_resultNotices {phase : Nat} {p : Phase} {n : Notice}
    (h : n ∈ c.resultNotices phase p) : n.level ≠ .warn := by
  rcases List.mem_append.mp h with h | h
  · obtain ⟨remark, -, rfl⟩ := List.mem_map.mp h
    simp [Notice.level]
  · obtain rfl := List.mem_singleton.mp h
    simp [Notice.level]

section

variable {a : Attempt} {p : Phase} {s : Slot} {outcome : Outcome}

theorem Sound.cursor_ne_of_stale (sound : c.Sound d) (stale : c.isCurrent a = false)
    (listed : c.target? a.phase a.slot = some target) (hat : a.At k i) :
    (c.account k i).slot.cursor ≠ .copy a.copy := by
  obtain ⟨rfl, rfl⟩ := hat
  obtain ⟨s, hs⟩ := sound.exists_slot? listed
  intro hcursor
  rw [account_of_slot? hs] at hcursor
  simp [isCurrent_iff_slot?.mpr ⟨s, hs, hcursor⟩] at stale

theorem Sound.slot_account (sound : c.Sound d) (found : c.phases[a.phase]? = some p)
    (slot : p.slots[a.slot]? = some s) (current : s.cursor = .copy a.copy) (hat : a.At k i) :
    c.slot? k i = some ⟨.copy a.copy, none⟩ ∧ (c.account k i).slot = ⟨.copy a.copy, none⟩ := by
  obtain ⟨rfl, rfl⟩ := hat
  have hs := slot?_eq_some.mpr ⟨p, found, slot⟩
  obtain rfl := sound.slot?_eq hs current
  exact ⟨hs, by rw [account_of_slot? hs]⟩

theorem Sound.account_record (sound : c.Sound d) (found : c.phases[a.phase]? = some p)
    (slot : p.slots[a.slot]? = some s) (current : s.cursor = .copy a.copy) :
    (c.updatePhase a.phase (·.record a.slot outcome)).account k i =
      if a.At k i then (c.account k i).finish a.copy outcome else c.account k i := by
  split
  · rename_i hat
    obtain ⟨hs, hslot⟩ := sound.slot_account found slot current hat
    have hdone : (c.updatePhase a.phase (·.record a.slot outcome)).slot? k i =
        some ⟨.done, some outcome⟩ :=
      slot?_record.trans ((if_pos hat).trans (by simp [hs]))
    rw [account_of_slot? hdone, Account.finish, hslot, if_pos rfl]
    rfl
  · rename_i hat
    exact account_congr (slot?_record.trans (if_neg hat)) rfl

theorem Sound.account_advance (sound : c.Sound d) (found : c.phases[a.phase]? = some p)
    (slot : p.slots[a.slot]? = some s) (current : s.cursor = .copy a.copy) :
    (c.updatePhase a.phase (·.advance a.slot a.copy)).account k i =
      if a.At k i then { c.account k i with slot := ⟨.copy (a.copy + 1), none⟩ }
      else c.account k i := by
  split
  · rename_i hat
    obtain ⟨hs, -⟩ := sound.slot_account found slot current hat
    have hnext : (c.updatePhase a.phase (·.advance a.slot a.copy)).slot? k i =
        some ⟨.copy (a.copy + 1), none⟩ :=
      slot?_advance.trans ((if_pos hat).trans (by simp [hs]))
    rw [account_of_slot? hnext]
    rfl
  · rename_i hat
    exact account_congr (slot?_advance.trans (if_neg hat)) rfl

end

/-- An act does what is left to do to a shard, or leaves it to be done. -/
theorem Progress.prospect_eq (hp : Progress c d c' d') (sound : c.Sound d) :
    c'.prospect d' k i = c.prospect d k i := by
  rw [prospect, hp.copies_eq, prospect]
  cases hp with
  | submitLast | submit => rfl
  | send => exact account_congr rfl ((warned_emit_of_eq_none rfl).trans (warned_emit_of_eq_none rfl))
  | @complete phase caller p =>
      have hlogged : (c.logAll (c.resultNotices phase p)).warned k = c.warned k :=
        warned_logAll fun _ => level_of_mem_resultNotices
      exact account_congr slot?_conclude ((warned_emit_of_eq_none rfl).trans hlogged)
  | supersede stale =>
      obtain ⟨target, listed⟩ := sound.duty
      rw [account_log (by simp [Notice.level]), Caller.settle_duty, Duty.settle]
      split
      · rename_i hat
        exact (if_neg (sound.cursor_ne_of_stale stale listed hat)).symm
      · rfl
  | @record a outcome caller p s found slot current =>
      have hrest (account : Account) : (if p.outstanding = 1 then Duty.complete a.phase caller
          else caller.duty a.phase).settle (c.copies k i) k i account = account := by
        split
        · rfl
        · exact Caller.settle_duty _
      rw [hrest, sound.account_record found slot current, Duty.settle]
  | @connect a destination found =>
      change c.account k i = if a.At k i then (c.account k i).attempt (c.copies k i) a.copy else _
      split
      · rename_i hat
        obtain ⟨rfl, rfl⟩ := hat
        obtain ⟨listed, hcopy⟩ := exists_target?_of_destination? found
        rw [copies_of_target? listed]
        exact (if_pos (List.getElem?_eq_some_iff.mp hcopy).1).symm
      · rfl
  | exhaust found beyond =>
      rw [account_log_exhaustion, Duty.settle, Duty.settle]
      split
      · rename_i hat
        obtain ⟨rfl, rfl⟩ := hat
        rw [copies_of_target? found, Account.attempt,
          if_neg (Nat.not_lt.mpr (List.getElem?_eq_none_iff.mp beyond))]
      · rfl
  | ignore found stale =>
      rw [account_log (by simp [Notice.level])]
      simp only [Duty.settle]
      split
      · rename_i hat
        have listed := (exists_target?_of_destination? found).1
        exact (if_neg (sound.cursor_ne_of_stale stale listed hat)).symm
      · rfl
  | @advance a error target node p s found phase slot current =>
      have hlogged : ((c.log (.attemptFailed a target node error)).updatePhase a.phase
          (·.advance a.slot a.copy)).account k i =
            (c.updatePhase a.phase (·.advance a.slot a.copy)).account k i :=
        account_congr rfl (warned_log (by simp [Notice.level]))
      have hnext : a.next.At k i ↔ a.At k i := Iff.rfl
      rw [hlogged, sound.account_advance phase slot current]
      simp only [Duty.settle, hnext]
      split
      · rename_i hat
        rw [Account.fail, (sound.slot_account phase slot current hat).2, if_pos rfl]
        rfl
      · rfl

/-! ### One move -/

/-- The deed that a move is, if anybody can make it. -/
def note? (c : Coordinator) : Move → Option Note
  | .run task =>
    (c.tasks[task]?.filter (·.pending)).map fun d => ⟨d.phase, d.slot, .ran⟩
  | .discard task =>
    (c.tasks[task]?.filter (·.pending)).map fun d => ⟨d.phase, d.slot, .dropped⟩
  | .answer probe result =>
    (c.probes[probe]?.filter (!·.listener.resolved)).map fun p =>
      ⟨p.attempt.phase, p.attempt.slot,
        match result with
        | .ok response => .answered p.attempt.copy response
        | .error _ => .failed p.attempt.copy⟩
  | .abandon probe =>
    (c.probes[probe]?.filter (!·.listener.resolved)).map fun p =>
      ⟨p.attempt.phase, p.attempt.slot, .failed p.attempt.copy⟩
  | .accepted =>
    match c.stack with
    | .submitting task :: _ => c.tasks[task]?.map fun d => ⟨d.phase, d.slot, .accepted⟩
    | _ => none
  | .refused _ =>
    match c.stack with
    | .submitting task :: _ => c.tasks[task]?.map fun d => ⟨d.phase, d.slot, .refused⟩
    | _ => none
  | .unreachable _ =>
    match c.stack with
    | .connecting a :: _ => some ⟨a.phase, a.slot, .failed a.copy⟩
    | _ => none
  | .unsent _ =>
    match c.stack with
    | .sending probe :: _ =>
      c.probes[probe]?.map fun p => ⟨p.attempt.phase, p.attempt.slot, .failed p.attempt.copy⟩
    | _ => none
  | .start .. | .connected _ | .sent | .returned => none

section

variable {task probe : Nat} {e : Dispatch} {p : Probe} {a : Attempt} {stack : List Frame}

theorem note?_run (found : c.tasks[task]? = some e) (pending : e.pending = true) :
    c.note? (.run task) = some ⟨e.phase, e.slot, .ran⟩ := by
  rw [note?, found, Option.filter_some, if_pos pending, Option.map_some]

theorem note?_discard (found : c.tasks[task]? = some e) (pending : e.pending = true) :
    c.note? (.discard task) = some ⟨e.phase, e.slot, .dropped⟩ := by
  rw [note?, found, Option.filter_some, if_pos pending, Option.map_some]

theorem note?_answer {response : ProbeResponse} (found : c.probes[probe]? = some p)
    (unresolved : p.listener.resolved = false) : c.note? (.answer probe (.ok response)) =
      some ⟨p.attempt.phase, p.attempt.slot, .answered p.attempt.copy response⟩ := by
  rw [note?, found, Option.filter_some, if_pos (by simp [unresolved]), Option.map_some]

theorem note?_answerError {error : ProbeError} (found : c.probes[probe]? = some p)
    (unresolved : p.listener.resolved = false) : c.note? (.answer probe (.error error)) =
      some ⟨p.attempt.phase, p.attempt.slot, .failed p.attempt.copy⟩ := by
  rw [note?, found, Option.filter_some, if_pos (by simp [unresolved]), Option.map_some]

theorem note?_abandon (found : c.probes[probe]? = some p)
    (unresolved : p.listener.resolved = false) : c.note? (.abandon probe) =
      some ⟨p.attempt.phase, p.attempt.slot, .failed p.attempt.copy⟩ := by
  rw [note?, found, Option.filter_some, if_pos (by simp [unresolved]), Option.map_some]

theorem note?_accepted (top : c.stack = .submitting task :: stack) (found : c.tasks[task]? = some e) :
    c.note? .accepted = some ⟨e.phase, e.slot, .accepted⟩ := by
  simp [note?, top, found]

theorem note?_refused {error : DispatchError} (top : c.stack = .submitting task :: stack)
    (found : c.tasks[task]? = some e) :
    c.note? (.refused error) = some ⟨e.phase, e.slot, .refused⟩ := by
  simp [note?, top, found]

theorem note?_unreachable {error : ProbeError} (top : c.stack = .connecting a :: stack) :
    c.note? (.unreachable error) = some ⟨a.phase, a.slot, .failed a.copy⟩ := by
  simp [note?, top]

theorem note?_unsent {error : ProbeError} (top : c.stack = .sending probe :: stack)
    (found : c.probes[probe]? = some p) : c.note? (.unsent error) =
      some ⟨p.attempt.phase, p.attempt.slot, .failed p.attempt.copy⟩ := by
  simp [note?, top, found]

end

/-- How a move is a deed. -/
inductive Noted (c : Coordinator) : Move → Note → Prop where
  | run {task k i : Nat} (pending : c.IsPending task k i) : Noted c (.run task) ⟨k, i, .ran⟩
  | discard {task k i : Nat} (pending : c.IsPending task k i) :
      Noted c (.discard task) ⟨k, i, .dropped⟩
  | accepted {task : Nat} {e : Dispatch} {stack : List Frame}
      (top : c.stack = .submitting task :: stack) (found : c.tasks[task]? = some e) :
      Noted c .accepted ⟨e.phase, e.slot, .accepted⟩
  | refused {task : Nat} {e : Dispatch} {error : DispatchError} {stack : List Frame}
      (top : c.stack = .submitting task :: stack) (found : c.tasks[task]? = some e) :
      Noted c (.refused error) ⟨e.phase, e.slot, .refused⟩
  | answered {probe : Nat} {a : Attempt} {response : ProbeResponse}
      (unresolved : c.IsUnresolved probe a) :
      Noted c (.answer probe (.ok response)) ⟨a.phase, a.slot, .answered a.copy response⟩
  | failed {m : Move} {a : Attempt} (fails : Fails c m a) :
      Noted c m ⟨a.phase, a.slot, .failed a.copy⟩

theorem noted_of_note? {note : Note} (h : c.note? m = some note) : Noted c m note := by
  have task {e : Dispatch} {t : Nat} (h : c.tasks[t]?.filter (·.pending) = some e) :
      c.IsPending t e.phase e.slot := by
    obtain ⟨found, pending⟩ := Option.filter_eq_some_iff.mp h
    rw [IsPending, found, ← pending]
  have probe {p : Probe} {q : Nat} (h : c.probes[q]?.filter (!·.listener.resolved) = some p) :
      c.IsUnresolved q p.attempt := by
    obtain ⟨found, unresolved⟩ := Option.filter_eq_some_iff.mp h
    exact ⟨p, found, by simpa using unresolved, rfl⟩
  cases m with
  | run t =>
      obtain ⟨e, he, rfl⟩ := Option.map_eq_some_iff.mp h
      exact .run (task he)
  | discard t =>
      obtain ⟨e, he, rfl⟩ := Option.map_eq_some_iff.mp h
      exact .discard (task he)
  | answer q result =>
      obtain ⟨p, hp, rfl⟩ := Option.map_eq_some_iff.mp h
      cases result with
      | ok response => exact .answered (probe hp)
      | error error => exact .failed (.answer (probe hp))
  | abandon q =>
      obtain ⟨p, hp, rfl⟩ := Option.map_eq_some_iff.mp h
      exact .failed (.abandon (probe hp))
  | accepted =>
      simp only [note?] at h
      split at h
      · rename_i top
        obtain ⟨e, found, rfl⟩ := Option.map_eq_some_iff.mp h
        exact .accepted top found
      · cases h
  | refused error =>
      simp only [note?] at h
      split at h
      · rename_i top
        obtain ⟨e, found, rfl⟩ := Option.map_eq_some_iff.mp h
        exact .refused top found
      · cases h
  | unreachable error =>
      simp only [note?] at h
      split at h
      · rename_i top
        obtain rfl := Option.some.inj h
        exact .failed (.unreachable top)
      · cases h
  | unsent error =>
      simp only [note?] at h
      split at h
      · rename_i top
        obtain ⟨p, found, rfl⟩ := Option.map_eq_some_iff.mp h
        exact .failed (.unsent top found)
      · cases h
  | start | connected | sent | returned => cases h

theorem Noted.exists_intake {note : Note} (h : Noted c m note) (sound : c.Sound (.rest call)) :
    ∃ c' d, Intake c m c' d ∧ c.step m = c'.perform d ∧ d ≠ .rest none := by
  cases h with
  | run pending =>
      exact ⟨_, _, .run pending rfl,
        by simp [Coordinator.step, takeTask?_eq_some pending rfl, perform], by simp⟩
  | discard pending =>
      obtain ⟨target, htarget⟩ := sound.grounded.tasks pending
      exact ⟨_, _, .discard pending rfl htarget, step_discard pending rfl htarget, by simp⟩
  | accepted top found =>
      exact ⟨_, _, .accepted top found, by simp [Coordinator.step, top, found, perform], by simp⟩
  | @refused task e error stack top found =>
      obtain ⟨target, htarget⟩ := sound.grounded.tasks found
      have hpopped : ({ c with stack } : Coordinator).target? e.phase e.slot = some target := htarget
      exact ⟨_, _, .refused top found htarget,
        by simp [Coordinator.step, top, found, refuse, hpopped, perform], by simp⟩
  | answered unresolved =>
      obtain ⟨p, found, hopen, rfl⟩ := unresolved
      exact ⟨_, _, .answer found hopen, step_answer found hopen, by simp⟩
  | @failed _ a fails =>
      cases fails with
      | @unreachable _ error stack top =>
          obtain ⟨target, node, hdest⟩ : Frame.Supported c (.connecting a) :=
            sound.grounded.frames (top ▸ List.mem_cons_self)
          have hpopped : ({ c with stack } : Coordinator).destination? a = some (target, node) := hdest
          exact ⟨_, _, .unreachable top hdest,
            by simp [Coordinator.step, top, Coordinator.unreachable, hpopped, perform], by simp⟩
      | unsent top found =>
          exact ⟨_, _, .unsent top found, by simp [Coordinator.step, top, found, perform], by simp⟩
      | answer unresolved =>
          obtain ⟨p, found, hopen, rfl⟩ := unresolved
          exact ⟨_, _, .answerError found hopen, step_answerError found hopen, by simp⟩
      | abandon unresolved =>
          obtain ⟨p, found, hopen, rfl⟩ := unresolved
          exact ⟨_, _, .abandon found hopen,
            by simp [Coordinator.step, takeListener?_eq_some found hopen, settle, perform], by simp⟩

/-- What holds as a move is taken up, and what progress preserves, holds after the move. If the move is
a deed, it is taken up as one. -/
theorem Sound.noted_induction {P : Coordinator → Duty → Prop} (sound : c.Sound (.rest call))
    (progress : ∀ {c d c' d'}, Sound c d → P c d → Progress c d c' d' → P c' d')
    (intake : ∀ {c' d}, Intake c m c' d → c.note? m = none ∨ d ≠ .rest none → P c' d) :
    P (c.step m).coordinator (.rest (c.step m).call) := by
  cases hnote : c.note? m with
  | none => exact sound.step_induction progress fun hi => intake hi (.inl hnote)
  | some note =>
      obtain ⟨c', d, hi, heq, hd⟩ := (noted_of_note? hnote).exists_intake sound
      rw [heq]
      exact (sound.intake hi).perform_induction progress (intake hi (.inr hd))

theorem foldl_deedsOf_toList {note : Note} (noted : c.note? m = some note) (copies : Nat)
    (account : Account) :
    (deedsOf (c.note? m).toList k i).foldl (Account.after copies) account =
      if note.phase = k ∧ note.slot = i then account.after copies note.deed else account := by
  rw [noted, Option.toList_some, deedsOf_singleton]
  split <;> rfl

theorem Intake.getD_slot? (hi : Intake c m c' d) :
    (c'.slot? k i).getD {} = (c.slot? k i).getD {} := by
  rcases hi.slot?_cases k i with heq | ⟨_, _, -, -, rfl, -, hfresh, -⟩
  · rw [heq]
  · have hnone : c.slot? c.phases.size i = none := by simp [slot?]
    rw [hfresh, hnone, Option.getD_some, Option.getD_none]

theorem Intake.prospect_eq (hi : Intake c m c' d) (taken : c.note? m = none ∨ d ≠ .rest none) :
    c'.prospect d k i =
      (deedsOf (c.note? m).toList k i).foldl (Account.after (c'.copies k i)) (c.account k i) := by
  have same (warned : c'.warned k = c.warned k) : c'.account k i = c.account k i := by
    rw [account, hi.getD_slot?, warned, account]
  generalize hcopies : c'.copies k i = copies
  rw [prospect, hcopies]
  cases hi with
  | void =>
      have hnone : c.note? m = none := taken.resolve_right (fun hrest => hrest rfl)
      rw [hnone]
      rfl
  | reject =>
      rw [same ((warned_emit_of_eq_none rfl).trans (warned_log (by simp [Notice.level])))]
      rfl
  | start =>
      rw [same (warned_logAll (by simp [Notice.level]))]
      split <;> rfl
  | run found pending =>
      rw [foldl_deedsOf_toList (note?_run found pending), same rfl]
      rfl
  | discard found pending =>
      rw [foldl_deedsOf_toList (note?_discard found pending),
        same (warned_log (by simp [Notice.level]))]
      rfl
  | answer found unresolved =>
      rw [foldl_deedsOf_toList (note?_answer found unresolved), same rfl]
      rfl
  | answerError found unresolved =>
      rw [foldl_deedsOf_toList (note?_answerError found unresolved), same rfl]
      rfl
  | abandon found unresolved =>
      rw [foldl_deedsOf_toList (note?_abandon found unresolved),
        same (warned_log (by simp [Notice.level]))]
      rfl
  | accepted top found =>
      rw [foldl_deedsOf_toList (note?_accepted top found), same rfl]
      simp only [Account.after, ite_self]
      rfl
  | @refused t e target error stack top found =>
      have hlogged : (({ c with stack } : Coordinator).log
          (.dispatchRefused e.phase e.slot target error)).account k i =
            ⟨(c.account k i).slot, (c.account k i).warned + if e.phase = k ∧ e.slot = i then 1 else 0⟩ :=
        congrArg (Account.mk _) (count_warned_log rfl rfl)
      rw [foldl_deedsOf_toList (note?_refused top found), hlogged]
      simp only [Duty.settle, Attempt.At, Account.after]
      split <;> rfl
  | unreachable top =>
      rw [foldl_deedsOf_toList (note?_unreachable top), same (warned_emit_of_eq_none rfl)]
      rfl
  | unsent top found =>
      rw [foldl_deedsOf_toList (note?_unsent top found), same rfl]
      rfl
  | connected | sent => rfl
  | returned => exact Caller.settle_duty _

/-- After a move, the account of a shard is what the deed makes of it. -/
theorem Sound.account_step (sound : c.Sound (.rest call)) (m : Move) (k i : Nat) :
    (c.step m).coordinator.account k i =
      (deedsOf (c.note? m).toList k i).foldl
        (Account.after ((c.step m).coordinator.copies k i)) (c.account k i) :=
  sound.noted_induction
    (P := fun c' d => c'.prospect d k i =
      (deedsOf (c.note? m).toList k i).foldl (Account.after (c'.copies k i)) (c.account k i))
    (fun sound h hp => by rw [hp.prospect_eq sound, hp.copies_eq, h])
    fun hi taken => hi.prospect_eq taken

end Coordinator
end Prefilter
