import Prefilter.Phase.Event
import Prefilter.Probe.Carrier

namespace Prefilter.Rehearsal

inductive Reply where
  | respond (response : ProbeResponse)
  | fail (error : ProbeError)
  /-- A remote error from the node at the other end, which names the shard. -/
  | failRemotely
  /-- No answer ever comes; the listener is dropped. -/
  | lost
deriving DecidableEq, Inhabited

/-- How a scripted probe behaves; one that the script does not know is lost. -/
structure Cue where
  delay : Nat := 0
  reply : Reply := .lost
deriving DecidableEq, Inhabited

/-- What the future of a scripted probe holds. -/
structure Load where
  connection : Connection
  request : ProbeRequest
  reply : Reply
  listener : Listener := {}

namespace Load

def answer (l : Load) : ProbeResult :=
  match l.reply with
  | .respond response => .ok response
  | .fail error => .error error
  | .failRemotely => .error (.remote l.connection.node l.request.shard.display)
  | .lost => .error .listenerDropped

end Load

structure FlightReport where
  notices : List Notice := []
  results : List (Nat × ProbeResult) := []

/-- Scripted probes over a carrier: the probe sent as number `i` behaves as entry `i` of the script
says. -/
structure Flights where
  script : Array Cue := #[]
  carrier : Carrier Load := {}
  sent : Nat := 0

namespace Flights

/-- The report on probes whose listeners are dropped. -/
def dropped (probes : List (Nat × Listener)) : FlightReport where
  notices := probes.filterMap fun (_, listener) => listener.drop.2.map fun _ => .listenerDropped
  results := probes.filterMap fun (probe, listener) => listener.drop.2.map (probe, ·)

def send (s : Flights) (connection : Connection) (request : ProbeRequest) :
    Flights × FlightReport :=
  let cue := (s.script[s.sent]?).getD {}
  let load : Load := { connection, request, reply := cue.reply }
  let (carrier, underWay) := s.carrier.send s.sent load cue.delay
  let report := if underWay then {} else dropped [(s.sent, load.listener)]
  ({ s with carrier, sent := s.sent + 1 },
    { report with notices := .probeSpawned request.shard request.node :: report.notices })

def notice? (c : Carrier Load) (f : Flight Load) : Option Notice :=
  if f.late then
    some (.probeTimedOut f.load.request.shard (.ofMilliseconds (c.limit.getD 0)))
  else
    match f.load.reply with
    | .lost => some .listenerDropped
    | _ => none

def advance (s : Flights) (ms : Nat) : Flights × FlightReport :=
  let (carrier, flights) := s.carrier.advance ms
  let sent := flights.mergeSort fun f g => f.id ≤ g.id
  ({ s with carrier },
    { notices := flights.filterMap (notice? carrier)
      results := sent.filterMap fun f =>
        (f.load.listener.resolve (carrier.result f f.load.answer)).2.map (f.id, ·) })

def dropRuntime (s : Flights) : Flights × FlightReport :=
  let (carrier, flights) := s.carrier.dropRuntime
  ({ s with carrier }, dropped (flights.map fun f => (f.id, f.load.listener)))

end Flights
end Prefilter.Rehearsal
