import Prefilter.Proofs.Phase.Passage
import Prefilter.Proofs.Phase.Telling

namespace Prefilter

/-- What is heard of an attempt. -/
inductive News where
  | answered (response : ProbeResponse)
  /-- The listener is resolved with an error, or dropped. -/
  | failed (error : ProbeError)
  /-- The resolver does not find the node. -/
  | unfound (error : ProbeError)
  /-- The transport returns an error from being handed the probe. -/
  | unsent (error : ProbeError)
deriving DecidableEq

namespace News

def error? : News → Option ProbeError
  | answered _ => none
  | failed error | unfound error | unsent error => some error

def isUnsent : News → Bool
  | unsent _ => true
  | _ => false

end News

/-- News of an attempt, and where its shard stood as it came. -/
structure Hearing where
  attempt : Attempt
  cursor : Cursor
  news : News
deriving DecidableEq

namespace Hearing

/-- The failure that is heard of. -/
def failure? (h : Hearing) : Option (Attempt × ProbeError) := h.news.error?.map (h.attempt, ·)

/-- Whether it is how an attempt came out: the resolver's no, or what became of its listener. -/
def settles (a : Attempt) (h : Hearing) : Bool := h.attempt = a && !h.news.isUnsent

/-- Whether it is an error that the transport returned from being handed the probe of an attempt. -/
def returns (a : Attempt) (h : Hearing) : Bool := h.attempt = a && h.news.isUnsent

/-- The shard stood at the attempt, and a failure moves it on. -/
def Advances (h : Hearing) : Prop := h.news.error?.isSome ∧ h.cursor = .copy h.attempt.copy

/-- The shard stood at the attempt, and a response closes it. -/
def Accepts (h : Hearing) (response : ProbeResponse) : Prop :=
  h.news = .answered response ∧ h.cursor = .copy h.attempt.copy

end Hearing

def Event.failure? : Event → Option (Attempt × ProbeError)
  | .log (.attemptFailed a _ _ error) => some (a, error)
  | _ => none

def Duty.failure? : Duty → Option (Attempt × ProbeError)
  | .fail a error => some (a, error)
  | _ => none

theorem Caller.failure?_duty (phase : Nat) (caller : Caller) : (caller.duty phase).failure? = none := by
  cases caller <;> rfl

namespace Coordinator

variable {c c' : Coordinator} {d d' : Duty} {m : Move} {a : Attempt} {h : Hearing} {news : News}
  {call : Option Frame} {policy : OrderingPolicy} {moves : List Move} {hearings : List Hearing}

/-- The failed attempts that are reported, in the order of the reports. -/
def failures (c : Coordinator) : List (Attempt × ProbeError) :=
  c.trace.toList.filterMap Event.failure?

/-- How often an attempt is reported as failed. -/
def reports (c : Coordinator) (a : Attempt) : Nat := c.failures.countP (·.1 = a)

/-- The cursor of a shard. That of one that is not there is fresh. -/
def cursor (c : Coordinator) (phase slot : Nat) : Cursor := ((c.slot? phase slot).getD {}).cursor

def hearingOf (c : Coordinator) (a : Attempt) (news : News) : Hearing :=
  ⟨a, c.cursor a.phase a.slot, news⟩

/-- What is heard in a move, if it tells of an attempt. -/
def hearing? (c : Coordinator) : Move → Option Hearing
  | .answer probe result =>
    (c.probes[probe]?.filter (!·.listener.resolved)).map fun p =>
      c.hearingOf p.attempt <|
        match result with
        | .ok response => .answered response
        | .error error => .failed error
  | .abandon probe =>
    (c.probes[probe]?.filter (!·.listener.resolved)).map fun p =>
      c.hearingOf p.attempt (.failed .listenerDropped)
  | .unreachable error =>
    match c.stack with
    | .connecting a :: _ => some (c.hearingOf a (.unfound error))
    | _ => none
  | .unsent error =>
    match c.stack with
    | .sending probe :: _ => c.probes[probe]?.map fun p => c.hearingOf p.attempt (.unsent error)
    | _ => none
  | .start .. | .run _ | .discard _ | .accepted | .refused _ | .connected _ | .sent | .returned => none

/-- How a move tells of an attempt. -/
inductive Tells (c : Coordinator) : Move → Attempt → News → Prop where
  | answered {probe : Nat} {a : Attempt} {response : ProbeResponse}
      (unresolved : c.IsUnresolved probe a) : Tells c (.answer probe (.ok response)) a (.answered response)
  | failed {probe : Nat} {a : Attempt} {error : ProbeError} (unresolved : c.IsUnresolved probe a) :
      Tells c (.answer probe (.error error)) a (.failed error)
  | abandoned {probe : Nat} {a : Attempt} (unresolved : c.IsUnresolved probe a) :
      Tells c (.abandon probe) a (.failed .listenerDropped)
  | unfound {a : Attempt} {error : ProbeError} {stack : List Frame}
      (top : c.stack = .connecting a :: stack) : Tells c (.unreachable error) a (.unfound error)
  | unsent {probe : Nat} {p : Probe} {error : ProbeError} {stack : List Frame}
      (top : c.stack = .sending probe :: stack) (found : c.probes[probe]? = some p) :
      Tells c (.unsent error) p.attempt (.unsent error)

theorem hearing?_eq_some (heard : c.hearing? m = some h) :
    ∃ a news, Tells c m a news ∧ h = c.hearingOf a news := by
  have listener {p : Probe} {q : Nat} (found : c.probes[q]?.filter (!·.listener.resolved) = some p) :
      c.IsUnresolved q p.attempt := by
    obtain ⟨hfound, unresolved⟩ := Option.filter_eq_some_iff.mp found
    exact ⟨p, hfound, by simpa using unresolved, rfl⟩
  cases m with
  | answer q result =>
      obtain ⟨p, hp, rfl⟩ := Option.map_eq_some_iff.mp heard
      cases result with
      | ok response => exact ⟨_, _, .answered (listener hp), rfl⟩
      | error error => exact ⟨_, _, .failed (listener hp), rfl⟩
  | abandon q =>
      obtain ⟨p, hp, rfl⟩ := Option.map_eq_some_iff.mp heard
      exact ⟨_, _, .abandoned (listener hp), rfl⟩
  | unreachable error =>
      simp only [hearing?] at heard
      split at heard
      · rename_i top
        obtain rfl := Option.some.inj heard
        exact ⟨_, _, .unfound top, rfl⟩
      · cases heard
  | unsent error =>
      simp only [hearing?] at heard
      split at heard
      · rename_i top
        obtain ⟨p, found, rfl⟩ := Option.map_eq_some_iff.mp heard
        exact ⟨_, _, .unsent top found, rfl⟩
      · cases heard
  | start | run | discard | accepted | refused | connected | sent | returned => cases heard

theorem Tells.hearing?_eq (tells : Tells c m a news) : c.hearing? m = some (c.hearingOf a news) := by
  have listener {q : Nat} (unresolved : c.IsUnresolved q a) :
      ∃ p, c.probes[q]?.filter (!·.listener.resolved) = some p ∧ p.attempt = a := by
    obtain ⟨p, found, hopen, ha⟩ := unresolved
    exact ⟨p, Option.filter_eq_some_iff.mpr ⟨found, by simp [hopen]⟩, ha⟩
  cases tells with
  | answered unresolved | failed unresolved | abandoned unresolved =>
      obtain ⟨p, hp, rfl⟩ := listener unresolved
      simp [hearing?, hp]
  | unfound top => simp [hearing?, top]
  | unsent top found => simp [hearing?, top, found]

/-- Whoever tells of an attempt does a deed to its shard. -/
theorem Tells.exists_note (tells : Tells c m a news) :
    ∃ deed, Noted c m ⟨a.phase, a.slot, deed⟩ := by
  cases tells with
  | answered unresolved => exact ⟨_, .answered unresolved⟩
  | failed unresolved => exact ⟨_, .failed (.answer unresolved)⟩
  | abandoned unresolved => exact ⟨_, .failed (.abandon unresolved)⟩
  | unfound top => exact ⟨_, .failed (.unreachable top)⟩
  | unsent top found => exact ⟨_, .failed (.unsent top found)⟩

theorem Sound.heard_induction {P : Coordinator → Duty → Prop} (sound : c.Sound (.rest call))
    (progress : ∀ {c d c' d'}, Sound c d → P c d → Progress c d c' d' → P c' d')
    (intake : ∀ {c' d}, Intake c m c' d → c.hearing? m = none ∨ d ≠ .rest none → P c' d) :
    P (c.step m).coordinator (.rest (c.step m).call) := by
  cases heard : c.hearing? m with
  | none => exact sound.step_induction progress fun hi => intake hi (.inl heard)
  | some h =>
      obtain ⟨a, news, tells, -⟩ := hearing?_eq_some heard
      obtain ⟨deed, noted⟩ := tells.exists_note
      obtain ⟨c', d, hi, heq, hd⟩ := noted.exists_intake sound
      rw [heq]
      exact (sound.intake hi).perform_induction progress (intake hi (.inr hd))

/-! ### Reports -/

theorem failures_emit (c : Coordinator) (e : Event) :
    (c.emit e).failures = c.failures ++ e.failure?.toList := by
  rw [failures, emit, Array.toList_push, List.filterMap_append, ← failures]
  cases hfailure : e.failure? <;> simp [hfailure]

theorem failures_emit_of_eq_none {e : Event} (hfailure : e.failure? = none) :
    (c.emit e).failures = c.failures := by
  simp [failures_emit, hfailure]

theorem failures_logAll {ns : List Notice} (hnone : ∀ n ∈ ns, (Event.log n).failure? = none) :
    (c.logAll ns).failures = c.failures := by
  have hnil : (ns.map Event.log).filterMap Event.failure? = [] := by
    simpa [List.filterMap_eq_nil_iff] using hnone
  rw [failures, logAll, Array.toList_append, List.filterMap_append, hnil, List.append_nil, ← failures]

theorem failure?_of_mem_resultNotices {phase : Nat} {p : Phase} {n : Notice}
    (hn : n ∈ c.resultNotices phase p) : (Event.log n).failure? = none := by
  rcases List.mem_append.mp hn with hn | hn
  · obtain ⟨remark, -, rfl⟩ := List.mem_map.mp hn
    rfl
  · obtain rfl := List.mem_singleton.mp hn
    rfl

theorem failure?_exhaustionNotice {target : ShardTarget} :
    (Event.log (exhaustionNotice a target)).failure? = none := by
  unfold exhaustionNotice
  split <;> rfl

theorem Progress.failures_eq (hp : Progress c d c' d') :
    c'.failures ++ d'.failure?.toList = c.failures ++ d.failure?.toList := by
  cases hp with
  | submitLast | submit | connect => rfl
  | @complete phase caller p =>
      have hlogged : (c.logAll (c.resultNotices phase p)).failures = c.failures :=
        failures_logAll fun _ => failure?_of_mem_resultNotices
      exact congrArg (· ++ []) ((failures_emit_of_eq_none rfl).trans hlogged)
  | supersede =>
      rw [Caller.failure?_duty]
      exact congrArg (· ++ []) (failures_emit_of_eq_none rfl)
  | record =>
      split
      · rfl
      · rw [Caller.failure?_duty]
        rfl
  | exhaust => exact congrArg (· ++ []) (failures_emit_of_eq_none failure?_exhaustionNotice)
  | ignore => exact (List.append_nil _).trans (failures_emit c _)
  | advance => exact (List.append_nil _).trans (failures_emit c _)
  | send =>
      exact congrArg (· ++ []) ((failures_emit_of_eq_none rfl).trans (failures_emit_of_eq_none rfl))

theorem Intake.failures_eq (hi : Intake c m c' d) (taken : c.hearing? m = none ∨ d ≠ .rest none) :
    c'.failures ++ d.failure?.toList =
      c.failures ++ (c.hearing? m).toList.filterMap Hearing.failure? := by
  cases hi with
  | void =>
      have hnone : c.hearing? m = none := taken.resolve_right fun hrest => hrest rfl
      rw [hnone]
      rfl
  | reject =>
      exact congrArg (· ++ []) ((failures_emit_of_eq_none rfl).trans (failures_emit_of_eq_none rfl))
  | start =>
      refine (congrArg (· ++ _) (failures_logAll (by simp [Event.failure?]))).trans ?_
      split <;> rfl
  | run | accepted | connected | sent => rfl
  | discard | refused => exact congrArg (· ++ []) (failures_emit_of_eq_none rfl)
  | returned => rw [Caller.failure?_duty]; rfl
  | answer found unresolved =>
      rw [(Tells.answered ⟨_, found, unresolved, rfl⟩).hearing?_eq]
      rfl
  | answerError found unresolved =>
      rw [(Tells.failed ⟨_, found, unresolved, rfl⟩).hearing?_eq]
      rfl
  | abandon found unresolved =>
      rw [(Tells.abandoned ⟨_, found, unresolved, rfl⟩).hearing?_eq]
      exact congrArg (· ++ _) (failures_emit_of_eq_none rfl)
  | unreachable top =>
      rw [(Tells.unfound top).hearing?_eq]
      exact congrArg (· ++ _) (failures_emit_of_eq_none rfl)
  | unsent top found =>
      rw [(Tells.unsent top found).hearing?_eq]
      rfl

/-- A failure is reported in the move that tells of it, and nothing else is. -/
theorem Sound.failures_step (sound : c.Sound (.rest call)) (m : Move) :
    (c.step m).coordinator.failures =
      c.failures ++ (c.hearing? m).toList.filterMap Hearing.failure? := by
  have hstep := sound.heard_induction (m := m)
    (P := fun c' d => c'.failures ++ d.failure?.toList =
      c.failures ++ (c.hearing? m).toList.filterMap Hearing.failure?)
    (fun _ h hp => hp.failures_eq.trans h) fun hi taken => hi.failures_eq taken
  simpa [Duty.failure?] using hstep

/-! ### Runs -/

/-- A run among any collaborators, and what is heard in it. -/
inductive Followed (policy : OrderingPolicy) : List Hearing → Coordinator → Prop where
  | nil : Followed policy [] { policy }
  | move {hearings : List Hearing} {c : Coordinator} (followed : Followed policy hearings c) (m : Move) :
      Followed policy (hearings ++ (c.hearing? m).toList) (c.step m).coordinator
  | reorder {hearings : List Hearing} {c : Coordinator} {stack : List Frame}
      (followed : Followed policy hearings c) (perm : stack.Perm c.stack) :
      Followed policy hearings { c with stack }

theorem Followed.exists_reachable (followed : Followed policy hearings c) :
    ∃ moves, Reachable policy moves c := by
  induction followed with
  | nil => exact ⟨[], .nil⟩
  | move _ m ih =>
      obtain ⟨moves, run⟩ := ih
      exact ⟨_, run.move (m := m) trivial⟩
  | reorder _ perm ih =>
      obtain ⟨moves, run⟩ := ih
      exact ⟨moves, run.reorder perm⟩

theorem Reachable.exists_followed (run : Reachable policy moves c) :
    ∃ hearings, Followed policy hearings c := by
  induction run with
  | nil => exact ⟨[], .nil⟩
  | @move _ _ m _ _ ih =>
      obtain ⟨hearings, followed⟩ := ih
      exact ⟨_, followed.move m⟩
  | reorder _ perm ih =>
      obtain ⟨hearings, followed⟩ := ih
      exact ⟨hearings, followed.reorder perm⟩

theorem Followed.failures_eq (followed : Followed policy hearings c) :
    c.failures = hearings.filterMap Hearing.failure? := by
  induction followed with
  | nil => rfl
  | move followed m ih =>
      obtain ⟨moves, run⟩ := followed.exists_reachable
      obtain ⟨call, sound⟩ := Reachable.sound run
      rw [sound.failures_step, List.filterMap_append, ih]
  | reorder _ _ ih => exact ih

/-- What is heard in moves made on one thread. -/
def hearingsIn (c : Coordinator) : List Move → List Hearing
  | [] => []
  | m :: moves => (c.hearing? m).toList ++ hearingsIn (c.step m).coordinator moves

theorem Followed.run (followed : Followed policy hearings c) (moves : List Move) :
    Followed policy (hearings ++ c.hearingsIn moves) (c.run moves) := by
  induction moves generalizing c hearings with
  | nil => simpa [hearingsIn] using! followed
  | cons m moves ih => exact (List.append_assoc ..).symm ▸ ih (followed.move m)

end Coordinator
end Prefilter
