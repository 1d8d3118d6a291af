import Prefilter.Proofs.Phase.SlotChange

namespace Prefilter

/-- The resolver was asked for a copy of a shard. -/
structure Lookup where
  attempt : Attempt
  cluster : Option String
  node : NodeId
  found : Bool
deriving DecidableEq

/-- A probe was handed to the transport. -/
structure Sending where
  probe : Nat
  attempt : Attempt
  connection : Connection
  request : ProbeRequest
deriving DecidableEq

namespace Event

def lookup? : Event → Option Lookup
  | .resolved attempt cluster node found => some { attempt, cluster, node, found }
  | _ => none

def sending? : Event → Option Sending
  | .sent probe attempt connection request => some { probe, attempt, connection, request }
  | _ => none

end Event

/-- Whether the attempt is one at a shard. -/
def Attempt.At (phase slot : Nat) (a : Attempt) : Prop := a.phase = phase ∧ a.slot = slot

instance (phase slot : Nat) (a : Attempt) : Decidable (a.At phase slot) :=
  inferInstanceAs (Decidable (_ ∧ _))

/-- No probe is to be sent, nor has one just been handed to the transport. -/
def Duty.Quiet : Duty → Prop
  | .send .. | .rest (some (.sending _)) => False
  | _ => True

theorem Duty.Quiet.call_ne {call : Option Frame} (h : (Duty.rest call).Quiet) (probe : Nat) :
    call ≠ some (.sending probe) := by
  rintro rfl
  exact h

theorem Caller.quiet_duty (phase : Nat) (caller : Caller) : (caller.duty phase).Quiet := by
  cases caller <;> trivial

namespace Coordinator

variable {c c' : Coordinator} {d d' : Duty} {m : Move} {k i : Nat} {a : Attempt}
  {call : Option Frame} {connection : Connection} {error : ProbeError}

def lookups (c : Coordinator) : List Lookup := c.trace.toList.filterMap Event.lookup?

def sendings (c : Coordinator) : List Sending := c.trace.toList.filterMap Event.sending?

/-- The lookups for one shard. -/
def lookupsOf (c : Coordinator) (phase slot : Nat) : List Lookup :=
  c.lookups.filter (·.attempt.At phase slot)

/-- The probes sent for one shard. -/
def sendingsOf (c : Coordinator) (phase slot : Nat) : List Sending :=
  c.sendings.filter (·.attempt.At phase slot)

/-- The copies of a shard that were tried. -/
def tried (c : Coordinator) (phase slot : Nat) : List Nat :=
  (c.lookupsOf phase slot).map (·.attempt.copy)

/-- The journals have the same entries. -/
structure SameJournal (c c' : Coordinator) : Prop where
  lookups : c'.lookups = c.lookups
  sendings : c'.sendings = c.sendings

namespace SameJournal

theorem of_trace {es : List Event} (trace : c'.trace.toList = c.trace.toList ++ es)
    (lookup : es.filterMap Event.lookup? = []) (sending : es.filterMap Event.sending? = []) :
    SameJournal c c' where
  lookups := by simp [Coordinator.lookups, trace, lookup]
  sendings := by simp [Coordinator.sendings, trace, sending]

theorem log (c : Coordinator) (n : Notice) : SameJournal c (c.log n) :=
  of_trace (Array.toList_push ..) rfl rfl

theorem logAll (c : Coordinator) (ns : List Notice) : SameJournal c (c.logAll ns) :=
  of_trace (Array.toList_append ..) (by simp [Event.lookup?]) (by simp [Event.sending?])

theorem trans {c'' : Coordinator} (h : SameJournal c c') (h' : SameJournal c' c'') :
    SameJournal c c'' :=
  ⟨h'.lookups.trans h.lookups, h'.sendings.trans h.sendings⟩

theorem tried (h : SameJournal c c') (k i : Nat) : c'.tried k i = c.tried k i := by
  rw [Coordinator.tried, lookupsOf, h.lookups, ← lookupsOf, ← Coordinator.tried]

end SameJournal

theorem lookups_emit_resolved {cluster : Option String} {node : NodeId} {found : Bool} :
    (c.emit (.resolved a cluster node found)).lookups = c.lookups ++ [⟨a, cluster, node, found⟩] := by
  simp [lookups, emit, Event.lookup?]

theorem sendings_emit_resolved {cluster : Option String} {node : NodeId} {found : Bool} :
    (c.emit (.resolved a cluster node found)).sendings = c.sendings := by
  simp [sendings, emit, Event.sending?]

theorem lookups_emit_sent {probe : Nat} {request : ProbeRequest} :
    (c.emit (.sent probe a connection request)).lookups = c.lookups := by
  simp [lookups, emit, Event.lookup?]

theorem sendings_emit_sent {probe : Nat} {request : ProbeRequest} :
    (c.emit (.sent probe a connection request)).sendings =
      c.sendings ++ [⟨probe, a, connection, request⟩] := by
  simp [sendings, emit, Event.sending?]

theorem tried_of_lookups_append {l : Lookup} (h : c'.lookups = c.lookups ++ [l]) (k i : Nat) :
    c'.tried k i =
      if l.attempt.At k i then c.tried k i ++ [l.attempt.copy] else c.tried k i := by
  rw [tried, lookupsOf, h, List.filter_append, List.map_append, ← lookupsOf, ← tried]
  split
  · rename_i hat
    simp [hat]
  · rename_i hat
    simp [hat]

theorem Progress.sameJournal (h : Progress c d c' d') (quiet : d.Quiet) : SameJournal c c' := by
  cases h with
  | @complete phase caller p =>
      exact (SameJournal.logAll c (c.resultNotices phase p)).trans
        (.of_trace (Array.toList_push ..) rfl rfl)
  | supersede | exhaust | ignore | advance => exact .of_trace (Array.toList_push ..) rfl rfl
  | send => exact quiet.elim
  | _ => exact ⟨rfl, rfl⟩

theorem Progress.quiet (h : Progress c d c' d') (quiet : d.Quiet) : d'.Quiet := by
  cases h with
  | supersede => exact Caller.quiet_duty _ _
  | record =>
      split
      · trivial
      · exact Caller.quiet_duty _ _
  | send => exact quiet.elim
  | _ => trivial

theorem Intake.sameJournal (h : Intake c m c' d) (reachable : ∀ error, m ≠ .unreachable error) :
    SameJournal c c' := by
  cases h with
  | reject =>
      exact (SameJournal.log c _).trans (.of_trace (Array.toList_push ..) rfl rfl)
  | start => exact ⟨(SameJournal.logAll c _).lookups, (SameJournal.logAll c _).sendings⟩
  | discard | refused | abandon => exact .of_trace (Array.toList_push ..) rfl rfl
  | unreachable => exact absurd rfl (reachable _)
  | _ => exact ⟨rfl, rfl⟩

theorem Intake.quiet (h : Intake c m c' d) (unconnected : ∀ connection, m ≠ .connected connection) :
    d.Quiet := by
  cases h with
  | start => split <;> trivial
  | connected => exact absurd rfl (unconnected _)
  | returned => exact Caller.quiet_duty _ _
  | _ => trivial

theorem Sound.sameJournal_perform (sound : c.Sound d) (quiet : d.Quiet) :
    SameJournal c (c.perform d).coordinator ∧ (Duty.rest (c.perform d).call).Quiet :=
  sound.perform_induction (P := fun c' d' => SameJournal c c' ∧ d'.Quiet)
    (fun _ h hp => ⟨h.1.trans (hp.sameJournal h.2), hp.quiet h.2⟩) ⟨⟨rfl, rfl⟩, quiet⟩

/-- What a move adds to the journal, and whether it ends in a call to the transport. -/
inductive Entry (c : Coordinator) : Move → Turn → Prop where
  | none {m : Move} {t : Turn} (same : SameJournal c t.coordinator)
      (silent : ∀ probe, t.call ≠ some (.sending probe)) : Entry c m t
  | passed {a : Attempt} {target : ShardTarget} {node : NodeId} {error : ProbeError}
      {stack : List Frame} {t : Turn} (top : c.stack = .connecting a :: stack)
      (destination : c.destination? a = some (target, node))
      (lookups : t.coordinator.lookups = c.lookups ++ [⟨a, target.cluster, node, false⟩])
      (sendings : t.coordinator.sendings = c.sendings)
      (silent : ∀ probe, t.call ≠ some (.sending probe)) : Entry c (.unreachable error) t
  | sent {a : Attempt} {p : Phase} {target : ShardTarget} {node : NodeId} {connection : Connection}
      {stack : List Frame} {t : Turn} (top : c.stack = .connecting a :: stack)
      (phase : c.phases[a.phase]? = some p) (destination : c.destination? a = some (target, node))
      (lookups : t.coordinator.lookups = c.lookups ++ [⟨a, target.cluster, node, true⟩])
      (sendings : t.coordinator.sendings = c.sendings ++ [⟨c.probes.size, a, connection,
        { shard := target.shard, node, cluster := target.cluster
          aliasFilter := target.aliasFilter, source := p.request.source, sort := p.request.sort
          shardCount := .ofNat p.targets.size }⟩])
      (phases : t.coordinator.phases = c.phases)
      (call : t.call = some (.sending c.probes.size)) : Entry c (.connected connection) t

theorem Sound.entry (sound : c.Sound (.rest call)) (m : Move) : Entry c m (c.step m) := by
  obtain ⟨c', d, hi, heq⟩ := sound.exists_intake m
  have sound' := sound.intake hi
  have hsame := hi.sameJournal
  have hquiet := hi.quiet
  rw [heq]
  cases hi with
  | void => exact .none ⟨rfl, rfl⟩ fun _ => by simp [perform]
  | @connected a connection stack top =>
      obtain ⟨c₁, d₁, hp, -, heq⟩ := sound'.exists_progress (Nat.zero_lt_one)
      rw [heq]
      cases hp with
      | send phase found =>
          exact .sent top phase found (lookups_emit_sent.trans lookups_emit_resolved)
            (sendings_emit_sent.trans (congrArg (· ++ _) sendings_emit_resolved)) rfl rfl
  | @unreachable a error target node stack top found =>
      have hafter := sound'.sameJournal_perform (d := .fail a error) trivial
      exact .passed top found (hafter.1.lookups.trans lookups_emit_resolved)
        (hafter.1.sendings.trans sendings_emit_resolved) (Duty.Quiet.call_ne hafter.2)
  | _ =>
      have hafter := sound'.sameJournal_perform (hquiet (by simp))
      exact .none ((hsame (by simp)).trans hafter.1) (Duty.Quiet.call_ne hafter.2)

end Coordinator
end Prefilter
