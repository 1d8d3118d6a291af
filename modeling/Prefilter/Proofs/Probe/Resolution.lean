import Mathlib.Algebra.Ring.Nat
import Mathlib.Data.List.Forall2
import Prefilter.Proofs.Probe.Landing
import Prefilter.Rehearsal.Flights

namespace Prefilter.Rehearsal

inductive FlightStep where
  | send (connection : Connection) (request : ProbeRequest)
  | advance (ms : Nat)
  | dropRuntime
deriving DecidableEq

namespace FlightStep

def ms : FlightStep → Nat
  | advance ms => ms
  | _ => 0

def isSend : FlightStep → Bool
  | send .. => true
  | _ => false

def isAdvance : FlightStep → Bool
  | advance _ => true
  | _ => false

end FlightStep

/-- The time that passes in some steps. -/
def clock (steps : List FlightStep) : Nat := (steps.map FlightStep.ms).sum

def sends (steps : List FlightStep) : Nat := steps.countP FlightStep.isSend

/-- The steps before the runtime goes. -/
def untilDrop (steps : List FlightStep) : List FlightStep := steps.takeWhile (· ≠ .dropRuntime)

/-- Whether the clock, which has to move for anything to happen, moves as far as that. -/
def reaches (steps : List FlightStep) (wait : Nat) : Bool :=
  steps.any FlightStep.isAdvance && wait ≤ clock steps

/-- A result that a listener gets, and the time at which it does. -/
structure Delivery where
  time : Nat
  probe : Nat
  result : ProbeResult

namespace Flights

def step (s : Flights) : FlightStep → Flights × FlightReport
  | .send connection request => s.send connection request
  | .advance ms => s.advance ms
  | .dropRuntime => s.dropRuntime

def run (s : Flights) : List FlightStep → Flights × List FlightReport
  | [] => (s, [])
  | next :: steps =>
    let (after, report) := s.step next
    let (last, reports) := after.run steps
    (last, report :: reports)

/-- What the listeners get in a step, in the order in which they do. -/
def deliveries (s : Flights) : FlightStep → List Delivery
  | .send .. => if s.carrier.alive then [] else [⟨s.carrier.now, s.sent, .error .listenerDropped⟩]
  | .advance ms =>
    (s.carrier.landings (s.carrier.now + ms) s.carrier.flights.length).map fun (time, f) =>
      ⟨time, f.id, s.carrier.result f f.load.answer⟩
  | .dropRuntime =>
    s.carrier.flights.map fun f => ⟨s.carrier.now, f.id, .error .listenerDropped⟩

/-- What the listeners get, step by step. -/
def history (s : Flights) : List FlightStep → List (List Delivery)
  | [] => []
  | next :: steps => s.deliveries next :: (s.step next).1.history steps

/-- What the listener of one probe gets. -/
def received (s : Flights) (probe : Nat) (steps : List FlightStep) : List Delivery :=
  (s.history steps).flatten.filter (·.probe == probe)

/-- How long a probe takes, and what it comes to, if the runtime stays. -/
def prospect (limit : Option Nat) (delay : Nat) (answer : ProbeResult) : Nat × ProbeResult :=
  match limit with
  | some limit =>
    if limit < delay then (limit, .error (.timeout (.ofMilliseconds limit))) else (delay, answer)
  | none => (delay, answer)

/-- What a probe comes to, and when, that would take from `now` until `due`. -/
def verdict (now due probe : Nat) (result : ProbeResult) (later : List FlightStep) : List Delivery :=
  if reaches (untilDrop later) (due - now) then [⟨due, probe, result⟩]
  else if .dropRuntime ∈ later then
    [⟨now + clock (untilDrop later), probe, .error .listenerDropped⟩]
  else []

/-- Flights have the numbers of probes that were sent, and hold listeners that nobody has used. -/
structure Orderly (s : Flights) : Prop where
  carrier : s.carrier.Orderly
  sent : ∀ f ∈ s.carrier.flights, f.id < s.sent
  unresolved : ∀ f ∈ s.carrier.flights, f.load.listener.resolved = false

variable {s : Flights} {f : Flight Load} {i a b ms : Nat} {next : FlightStep}
  {connection : Connection} {request : ProbeRequest} {steps before after : List FlightStep}

theorem run_append (s : Flights) (before after : List FlightStep) : s.run (before ++ after) =
    (((s.run before).1.run after).1, (s.run before).2 ++ ((s.run before).1.run after).2) := by
  induction before generalizing s with
  | nil => rfl
  | cons next before ih => simp [run, ih]

theorem history_append (s : Flights) (before after : List FlightStep) :
    s.history (before ++ after) = s.history before ++ (s.run before).1.history after := by
  induction before generalizing s with
  | nil => rfl
  | cons next before ih => simp [history, run, ih]

theorem received_cons (s : Flights) (probe : Nat) (next : FlightStep) (steps : List FlightStep) :
    s.received probe (next :: steps) =
      (s.deliveries next).filter (·.probe == probe) ++ (s.step next).1.received probe steps := by
  simp [received, history]

theorem received_append (s : Flights) (probe : Nat) (before after : List FlightStep) :
    s.received probe (before ++ after) =
      s.received probe before ++ (s.run before).1.received probe after := by
  simp [received, history_append]

/-! ### One step -/

theorem prospect_eq (limit : Option Nat) (delay : Nat) (answer : ProbeResult) :
    prospect limit delay answer = ((Carrier.duration limit delay).1,
      if (Carrier.duration limit delay).2 then
        .error (.timeout (.ofMilliseconds (limit.getD 0)))
      else answer) := by
  rcases limit with _ | limit
  · rfl
  · by_cases hlimit : delay ≤ limit
    · simp [prospect, Carrier.duration, hlimit, Nat.not_lt.mpr hlimit]
    · simp [prospect, Carrier.duration, hlimit, Nat.lt_of_not_le hlimit]

/-- What the probe that is sent next would take, and come to. -/
def nextProspect (s : Flights) (connection : Connection) (request : ProbeRequest) :
    Nat × ProbeResult :=
  let cue := (s.script[s.sent]?).getD {}
  prospect s.carrier.limit cue.delay (Load.answer { connection, request, reply := cue.reply })

theorem step_send (alive : s.carrier.alive = true) (connection : Connection) (request : ProbeRequest) :
    ∃ f, (s.step (.send connection request)).1 =
        { s with
          carrier := { s.carrier with flights := s.carrier.flights ++ [f] }, sent := s.sent + 1 } ∧
      f.id = s.sent ∧ f.due = s.carrier.now + (s.nextProspect connection request).1 ∧
      s.carrier.result f f.load.answer = (s.nextProspect connection request).2 ∧
      f.load.listener.resolved = false := by
  refine ⟨_, by simp [step, send, Carrier.send, alive]; rfl, rfl, ?_, ?_, rfl⟩ <;>
    simp [nextProspect, prospect_eq, Carrier.result, Carrier.lateResult]

theorem step_send_of_dead (dead : s.carrier.alive = false) :
    (s.step (.send connection request)).1 = { s with sent := s.sent + 1 } := by
  simp [step, send, Carrier.send, dead]

theorem Orderly.step_advance (h : s.Orderly) (ms : Nat) : (s.step (.advance ms)).1 =
    { s with carrier := { s.carrier with
        now := s.carrier.now + ms
        flights := s.carrier.flights.filter (s.carrier.now + ms < ·.due) } } := by
  simp only [step, advance, h.carrier.advance_eq]

theorem Orderly.of_flights_eq_nil (h : s.carrier.flights = []) : s.Orderly := by
  have hnone {p : Flight Load → Prop} : ∀ f ∈ s.carrier.flights, p f := fun f hf =>
    absurd (h ▸ hf) List.not_mem_nil
  exact ⟨⟨h ▸ .nil, hnone, fun _ => h⟩, hnone, hnone⟩

theorem Orderly.step (h : s.Orderly) (next : FlightStep) : (s.step next).1.Orderly := by
  rcases next with ⟨connection, request⟩ | ms | _
  · cases halive : s.carrier.alive with
    | true =>
      obtain ⟨f, hstep, hid, hdue, -, hunresolved⟩ := step_send halive connection request
      rw [hstep]
      refine ⟨⟨?_, ?_, ?_⟩, ?_, ?_⟩
      · refine List.pairwise_append.mpr ⟨h.carrier.distinct, List.pairwise_singleton .., ?_⟩
        intro g hg k hk
        obtain rfl := List.mem_singleton.mp hk
        exact hid ▸ Nat.ne_of_lt (h.sent g hg)
      · intro g hg
        rcases List.mem_append.mp hg with hg | hg
        · exact h.carrier.timely g hg
        · obtain rfl := List.mem_singleton.mp hg
          exact hdue ▸ Nat.le_add_right ..
      · simp [halive]
      · intro g hg
        rcases List.mem_append.mp hg with hg | hg
        · exact Nat.lt_succ_of_lt (h.sent g hg)
        · obtain rfl := List.mem_singleton.mp hg
          exact hid ▸ Nat.lt_succ_self _
      · intro g hg
        rcases List.mem_append.mp hg with hg | hg
        · exact h.unresolved g hg
        · obtain rfl := List.mem_singleton.mp hg
          exact hunresolved
    | false =>
      rw [step_send_of_dead halive]
      exact ⟨h.carrier, fun f hf => Nat.lt_succ_of_lt (h.sent f hf), h.unresolved⟩
  · have hcarrier := h.carrier.advance ms
    rw [h.carrier.advance_eq] at hcarrier
    rw [h.step_advance]
    exact ⟨hcarrier, fun f hf => h.sent f (List.mem_filter.mp hf).1,
      fun f hf => h.unresolved f (List.mem_filter.mp hf).1⟩
  · exact .of_flights_eq_nil rfl

theorem Orderly.run (h : s.Orderly) (steps : List FlightStep) : (s.run steps).1.Orderly := by
  induction steps generalizing s with
  | nil => exact h
  | cons next steps ih => exact ih (h.step next)

/-- The clock, the counter and the runtime after some steps, and what stays. -/
structure Past (s : Flights) (steps : List FlightStep) (t : Flights) : Prop where
  script : t.script = s.script
  limit : t.carrier.limit = s.carrier.limit
  now : t.carrier.now = s.carrier.now + clock steps
  sent : t.sent = s.sent + sends steps
  alive : t.carrier.alive = true ↔ s.carrier.alive = true ∧ .dropRuntime ∉ steps

theorem Orderly.past_step (h : s.Orderly) (next : FlightStep) : s.Past [next] (s.step next).1 := by
  rcases next with ⟨connection, request⟩ | ms | _
  · cases halive : s.carrier.alive with
    | true =>
      obtain ⟨f, hstep, -⟩ := step_send halive connection request
      rw [hstep]
      exact ⟨rfl, rfl, rfl, rfl, by simp⟩
    | false =>
      rw [step_send_of_dead halive]
      exact ⟨rfl, rfl, rfl, rfl, by simp⟩
  · rw [h.step_advance]
    exact ⟨rfl, rfl, rfl, rfl, by simp⟩
  · exact ⟨rfl, rfl, rfl, rfl, by simp [Flights.step, dropRuntime, Carrier.dropRuntime]⟩

theorem Orderly.past (h : s.Orderly) (steps : List FlightStep) : s.Past steps (s.run steps).1 := by
  induction steps generalizing s with
  | nil => exact ⟨rfl, rfl, rfl, rfl, by simp [Flights.run]⟩
  | cons next steps ih =>
      have hone := h.past_step next
      have hrest := ih (h.step next)
      refine ⟨hrest.script.trans hone.script, hrest.limit.trans hone.limit, ?_, ?_, ?_⟩
      · refine hrest.now.trans ?_
        rw [hone.now]
        simp [clock, Nat.add_assoc]
      · refine hrest.sent.trans ?_
        rw [hone.sent, Nat.add_assoc, sends, sends, sends, ← List.countP_append]
        rfl
      · refine hrest.alive.trans ?_
        rw [hone.alive, and_assoc, List.mem_singleton, List.mem_cons, not_or]

/-! ### One probe -/

theorem Orderly.received_advance (h : s.Orderly) (ms probe : Nat) :
    ((s.deliveries (.advance ms)).filter (·.probe == probe)).Perm
      (((s.carrier.flights.filter (·.id == probe)).filter (·.due ≤ s.carrier.now + ms)).map fun f =>
        ⟨f.due, f.id, s.carrier.result f f.load.answer⟩) := by
  obtain ⟨-, hperm, hclock⟩ := @Carrier.Orderly.landMany _ s.carrier (s.carrier.now + ms) _ h.carrier
    (Nat.le_refl _)
  have hlanded := hperm.filter (·.id == probe)
  rw [List.filter_filter] at hlanded
  rw [deliveries, hclock, List.map_map, List.filter_map, List.filter_filter]
  simp only [Bool.and_comm (decide _)]
  exact hlanded.map _

theorem Orderly.received_eq_nil (h : s.Orderly) (absent : ∀ f ∈ s.carrier.flights, f.id ≠ i)
    (unsent : i < s.sent ∨ s.sent + sends steps ≤ i) : s.received i steps = [] := by
  induction steps generalizing s with
  | nil => rfl
  | cons next steps ih =>
      have hcons : sends (next :: steps) = sends [next] + sends steps :=
        @List.countP_append _ _ [next] steps
      have hsent := (h.past_step next).sent
      suffices hstep : (s.deliveries next).filter (·.probe == i) = [] ∧
          ∀ f ∈ (s.step next).1.carrier.flights, f.id ≠ i by
        rw [received_cons, hstep.1, List.nil_append]
        exact ih (h.step next) hstep.2 (by omega)
      have hnone : s.carrier.flights.filter (·.id == i) = [] := by
        simpa [List.filter_eq_nil_iff] using absent
      rcases next with ⟨connection, request⟩ | ms | _
      · have hne : s.sent ≠ i := by
          have hone : sends [.send connection request] = 1 := rfl
          omega
        cases halive : s.carrier.alive with
        | true =>
          obtain ⟨f, hstep, hid, -⟩ := step_send halive connection request
          rw [hstep]
          refine ⟨by simp [deliveries, halive], fun g hg => ?_⟩
          rcases List.mem_append.mp hg with hg | hg
          · exact absent g hg
          · obtain rfl := List.mem_singleton.mp hg
            exact hid ▸ hne
        | false =>
          rw [step_send_of_dead halive]
          exact ⟨by simp [deliveries, halive, hne], absent⟩
      · have hperm := h.received_advance ms i
        rw [hnone] at hperm
        rw [h.step_advance]
        exact ⟨hperm.eq_nil, fun f hf => absent f (List.mem_filter.mp hf).1⟩
      · refine ⟨?_, fun _ hf => absurd hf List.not_mem_nil⟩
        rw [deliveries, List.filter_map]
        exact List.map_eq_nil_iff.mpr hnone

theorem verdict_send (now due probe : Nat) (result : ProbeResult) (later : List FlightStep) :
    verdict now due probe result (.send connection request :: later) =
      verdict now due probe result later := by
  simp [verdict, reaches, untilDrop, clock, FlightStep.isAdvance, FlightStep.ms]

theorem clock_eq_zero (still : steps.any FlightStep.isAdvance = false) : clock steps = 0 := by
  rw [clock, List.sum_eq_zero_iff_forall_eq_nat]
  intro n hn
  obtain ⟨next, hnext, rfl⟩ := List.mem_map.mp hn
  have hstill := List.any_eq_false.mp still next hnext
  cases next with
  | advance ms => exact absurd rfl hstill
  | send | dropRuntime => rfl

theorem verdict_advance (now due ms probe : Nat) (result : ProbeResult) (later : List FlightStep) :
    verdict now due probe result (.advance ms :: later) =
      if due ≤ now + ms then [⟨due, probe, result⟩]
      else verdict (now + ms) due probe result later := by
  have hclock : clock (.advance ms :: untilDrop later) = ms + clock (untilDrop later) := rfl
  have huntil : untilDrop (.advance ms :: later) = .advance ms :: untilDrop later := by
    simp [untilDrop]
  have hmoves : reaches (.advance ms :: untilDrop later) (due - now) =
      decide (due - now ≤ ms + clock (untilDrop later)) := rfl
  rw [verdict, huntil, hmoves, hclock]
  by_cases hdue : due ≤ now + ms
  · simp [hdue, show due - now ≤ ms + clock (untilDrop later) by omega]
  · have hreaches : reaches (untilDrop later) (due - (now + ms)) =
        decide (due - now ≤ ms + clock (untilDrop later)) := by
      cases hstill : (untilDrop later).any FlightStep.isAdvance with
      | true =>
        simp only [reaches, hstill, Bool.true_and, decide_eq_decide]
        omega
      | false =>
        have hzero := clock_eq_zero hstill
        simp only [reaches, hstill, Bool.false_and, hzero]
        exact (decide_eq_false (by omega)).symm
    simp [hdue, verdict, hreaches, Nat.add_assoc]

theorem verdict_dropRuntime (now due probe : Nat) (result : ProbeResult) (later : List FlightStep) :
    verdict now due probe result (.dropRuntime :: later) =
      [⟨now, probe, .error .listenerDropped⟩] := by
  simp [verdict, reaches, untilDrop, clock]

theorem Orderly.received_eq (h : s.Orderly) (hf : f ∈ s.carrier.flights) :
    s.received f.id steps =
      verdict s.carrier.now f.due f.id (s.carrier.result f f.load.answer) steps := by
  induction steps generalizing s with
  | nil => rfl
  | cons next steps ih =>
      have hfilter : s.carrier.flights.filter (·.id == f.id) = [f] :=
        Carrier.filter_id_eq h.carrier.distinct hf
      have hafter := h.step next
      have hsent : f.id < (s.step next).1.sent :=
        Nat.lt_of_lt_of_le (h.sent f hf) ((h.past_step next).sent ▸ Nat.le_add_right ..)
      rw [received_cons]
      rcases next with ⟨connection, request⟩ | ms | _
      · have halive : s.carrier.alive = true := Bool.of_not_eq_false fun hdead =>
          List.ne_nil_of_mem hf (h.carrier.grounded hdead)
        obtain ⟨g, hstep, -⟩ := step_send halive connection request
        have hstays : f ∈ (s.step (.send connection request)).1.carrier.flights := by
          rw [hstep]
          exact List.mem_append_left _ hf
        rw [verdict_send, ih hafter hstays, hstep]
        simp [deliveries, halive, Carrier.result, Carrier.lateResult]
      · have hperm := h.received_advance ms f.id
        rw [hfilter] at hperm
        rw [verdict_advance]
        by_cases hdue : f.due ≤ s.carrier.now + ms
        · have hgone : ∀ g ∈ (s.step (.advance ms)).1.carrier.flights, g.id ≠ f.id := by
            rw [h.step_advance]
            intro g hg hid
            obtain ⟨hg, hlate⟩ := List.mem_filter.mp hg
            have hsame : g ∈ s.carrier.flights.filter (·.id == f.id) := by simp [hg, hid]
            rw [hfilter, List.mem_singleton] at hsame
            subst hsame
            exact absurd (of_decide_eq_true hlate) (Nat.not_lt.mpr hdue)
          rw [hafter.received_eq_nil hgone (.inl hsent), if_pos hdue]
          simpa [hdue] using hperm
        · have hstays : f ∈ (s.step (.advance ms)).1.carrier.flights := by
            rw [h.step_advance]
            exact List.mem_filter.mpr ⟨hf, by simpa using hdue⟩
          have hnone : (s.deliveries (.advance ms)).filter (·.probe == f.id) = [] := by
            simpa [hdue] using hperm
          rw [if_neg hdue, ih hafter hstays, hnone, h.step_advance]
          rfl
      · have hempty : (s.step .dropRuntime).1.received f.id steps = [] :=
          hafter.received_eq_nil (fun _ hg => absurd hg List.not_mem_nil) (.inl hsent)
        rw [verdict_dropRuntime, hempty, deliveries, List.filter_map, List.append_nil]
        exact congrArg (List.map _) hfilter

/-! ### All probes -/

theorem Orderly.received_send (h : s.Orderly) :
    s.received s.sent (.send connection request :: after) =
      if s.carrier.alive then
        verdict s.carrier.now (s.carrier.now + (s.nextProspect connection request).1) s.sent
          (s.nextProspect connection request).2 after
      else [⟨s.carrier.now, s.sent, .error .listenerDropped⟩] := by
  have hafter := h.step (.send connection request)
  rw [received_cons]
  cases halive : s.carrier.alive with
  | true =>
    obtain ⟨f, hstep, hid, hdue, hresult, -⟩ := step_send halive connection request
    have hmem : f ∈ (s.step (.send connection request)).1.carrier.flights := by
      rw [hstep]
      exact List.mem_append_right _ List.mem_cons_self
    rw [← hid, ← hdue, ← hresult, hafter.received_eq hmem, hstep]
    simp [deliveries, halive, Carrier.result, Carrier.lateResult]
  | false =>
    rw [step_send_of_dead halive] at hafter ⊢
    rw [hafter.received_eq_nil (fun f hf => Nat.ne_of_lt (h.sent f hf)) (.inl (Nat.lt_succ_self _))]
    simp [deliveries, halive]

theorem Orderly.deliveries_advance (h : s.Orderly) (ms : Nat) :
    s.deliveries (.advance ms) = (s.carrier.advance ms).2.map fun f =>
      ⟨f.due, f.id, s.carrier.result f f.load.answer⟩ := by
  obtain ⟨-, -, hclock⟩ := @Carrier.Orderly.landMany _ s.carrier (s.carrier.now + ms) _ h.carrier
    (Nat.le_refl _)
  rw [deliveries, hclock, List.map_map]
  rfl

theorem filterMap_resolve {flights : List (Flight Load)}
    (unresolved : ∀ f ∈ flights, f.load.listener.resolved = false) (result : Flight Load → ProbeResult) :
    (flights.filterMap fun f => (f.load.listener.resolve (result f)).2.map (f.id, ·)) =
      flights.map fun f => (f.id, result f) := by
  rw [← List.filterMap_eq_map]
  refine List.filterMap_congr fun f hf => ?_
  rw [Listener.resolve_of_unresolved (unresolved f hf)]
  rfl

/-- Landing resolves the listener of a flight, and being lost drops it; either is its one use, so that
the report on a step tells what all listeners get in it. -/
theorem Orderly.results_perm (h : s.Orderly) (next : FlightStep) :
    (s.step next).2.results.Perm ((s.deliveries next).map fun d => (d.probe, d.result)) := by
  rcases next with ⟨connection, request⟩ | ms | _
  · cases halive : s.carrier.alive <;>
      simp [Flights.step, send, Carrier.send, deliveries, dropped, halive, Listener.drop,
        Listener.resolve]
  · obtain ⟨-, hlanded, -⟩ := @Carrier.Orderly.landMany _ s.carrier (s.carrier.now + ms) _ h.carrier
      (Nat.le_refl _)
    have hunresolved : ∀ f ∈ (s.carrier.advance ms).2.mergeSort fun f g => f.id ≤ g.id,
        f.load.listener.resolved = false := fun f hf =>
      h.unresolved f (List.mem_filter.mp (hlanded.mem_iff.mp (List.mem_mergeSort.mp hf))).1
    have hlimit : (s.carrier.advance ms).1.limit = s.carrier.limit := by rw [h.carrier.advance_eq]
    have hresult : (s.carrier.advance ms).1.result = s.carrier.result := by
      funext f answer
      simp only [Carrier.result, Carrier.lateResult, hlimit]
    rw [h.deliveries_advance, List.map_map]
    simp only [Flights.step, Flights.advance, hresult]
    rw [filterMap_resolve hunresolved]
    exact (List.mergeSort_perm _ _).map _
  · simp only [Flights.step, dropRuntime, Carrier.dropRuntime, deliveries, dropped, List.filterMap_map,
      List.map_map]
    exact .of_eq (filterMap_resolve h.unresolved _)

theorem Orderly.step_advance_add (h : s.Orderly) (a b : Nat) :
    (s.step (.advance (a + b))).1 = ((s.step (.advance a)).1.step (.advance b)).1 ∧
      (s.step (.advance (a + b))).2.notices =
        (s.step (.advance a)).2.notices ++ ((s.step (.advance a)).1.step (.advance b)).2.notices ∧
      s.deliveries (.advance (a + b)) =
        s.deliveries (.advance a) ++ (s.step (.advance a)).1.deliveries (.advance b) := by
  have hadd := h.carrier.advance_add a b
  have hnext := h.step (.advance a)
  have hlimit {c d : Carrier Load} (same : c.limit = d.limit) :
      notice? c = notice? d ∧ c.result = d.result := by
    refine ⟨?_, ?_⟩
    · funext f
      simp only [notice?, same]
    · funext f answer
      simp only [Carrier.result, Carrier.lateResult, same]
  have hfirst : (s.carrier.advance a).1.limit = s.carrier.limit := by rw [h.carrier.advance_eq]
  refine ⟨?_, ?_, ?_⟩
  · simp only [Flights.step, Flights.advance, hadd]
  · have hsecond : ((s.carrier.advance a).1.advance b).1.limit = (s.carrier.advance a).1.limit := by
      rw [(h.carrier.advance a).advance_eq]
    simp only [Flights.step, Flights.advance, hadd, List.filterMap_append, (hlimit hsecond).1]
  · rw [h.deliveries_advance, h.deliveries_advance, hnext.deliveries_advance, hadd, List.map_append,
      ← (hlimit hfirst).2]
    rfl

theorem Orderly.forall₂_run (h : s.Orderly) (steps : List FlightStep) : List.Forall₂
    (fun report given => report.results.Perm (given.map fun d => (d.probe, d.result)))
    (s.run steps).2 (s.history steps) := by
  induction steps generalizing s with
  | nil => exact .nil
  | cons next steps ih => exact .cons (h.results_perm next) (ih (h.step next))

/-- Whatever probes are sent, however the clock moves and whether or not the runtime goes at some
point: the listener of a probe gets at most one result. It gets the answer after the delay if there is
no limit or the delay does not exceed it, and a timeout at the limit otherwise, each as the clock gets
there, unless the runtime goes first: then the listener is dropped, at that time or, if there is no
runtime to begin with, as the probe is sent. The reports on the steps tell just that. Moving the clock
in two steps makes no difference to the state, to the results or to what is logged. -/
theorem resolved_once (script : Array Cue) (limit : Option Nat) :
    let s : Flights := { script, carrier := { limit } }
    (∀ before connection request after,
      let probe := sends before
      let cue := (script[probe]?).getD {}
      let fate := prospect limit cue.delay (Load.answer { connection, request, reply := cue.reply })
      s.received probe (before ++ .send connection request :: after) =
        if .dropRuntime ∈ before then [⟨clock before, probe, .error .listenerDropped⟩]
        else if reaches (untilDrop after) fate.1 then [⟨clock before + fate.1, probe, fate.2⟩]
        else if .dropRuntime ∈ after then
          [⟨clock before + clock (untilDrop after), probe, .error .listenerDropped⟩]
        else []) ∧
    (∀ steps probe, sends steps ≤ probe → s.received probe steps = []) ∧
    (∀ steps, List.Forall₂
      (fun report given => report.results.Perm (given.map fun d => (d.probe, d.result)))
      (s.run steps).2 (s.history steps)) ∧
    ∀ before a b after,
      let whole := before ++ .advance (a + b) :: after
      let parts := before ++ .advance a :: .advance b :: after
      (s.run whole).1 = (s.run parts).1 ∧
        (s.history whole).flatten = (s.history parts).flatten ∧
        (s.run whole).2.flatMap (·.notices) = (s.run parts).2.flatMap (·.notices) := by
  intro s
  have hs : s.Orderly := .of_flights_eq_nil rfl
  refine ⟨?_, ?_, hs.forall₂_run, ?_⟩
  · intro before connection request after probe cue fate
    have hpast := hs.past before
    have hsent : (s.run before).1.sent = probe := hpast.sent.trans (Nat.zero_add _)
    have hnow : (s.run before).1.carrier.now = clock before := hpast.now.trans (Nat.zero_add _)
    have hfate : (s.run before).1.nextProspect connection request = fate := by
      rw [nextProspect, hsent, hpast.script, hpast.limit]
    have hbefore : s.received probe before = [] :=
      hs.received_eq_nil (fun _ hf => absurd hf List.not_mem_nil) (.inr (Nat.le_of_eq (Nat.zero_add _)))
    have hreceived := @Orderly.received_send _ connection request after (hs.run before)
    rw [hsent, hnow, hfate] at hreceived
    rw [received_append, hbefore, List.nil_append, hreceived, verdict, Nat.add_sub_cancel_left]
    by_cases hdropped : .dropRuntime ∈ before
    · have hdead : (s.run before).1.carrier.alive ≠ true := fun halive =>
        (hpast.alive.mp halive).2 hdropped
      rw [if_neg hdead, if_pos hdropped]
    · rw [if_pos (hpast.alive.mpr ⟨rfl, hdropped⟩), if_neg hdropped]
  · intro steps probe hunsent
    exact hs.received_eq_nil (fun _ hf => absurd hf List.not_mem_nil)
      (.inr (Nat.le_trans (Nat.le_of_eq (Nat.zero_add _)) hunsent))
  · intro before a b after whole parts
    obtain ⟨hstate, hnotices, hdeliveries⟩ := (hs.run before).step_advance_add a b
    simp only [whole, parts, run_append, history_append, run, history, hstate, hdeliveries]
    simp [hnotices]

end Flights
end Prefilter.Rehearsal
