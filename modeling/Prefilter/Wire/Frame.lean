import Prefilter.Wire.Format
import Prefilter.Probe.Error

namespace Prefilter.Wire.Frame

/-- The largest payload of a frame. -/
def maxPayload : Nat := 1048576

/-- The four bytes of a length, highest first. -/
def header (length : Nat) : List UInt8 := (littleEndian 4 length).reverse

def encode (m : ProbeMessage) : Except ProbeError (List UInt8) :=
  let payload := Codec.probeMessage.encode m
  if maxPayload < payload.length then .error (.frameTooLarge payload.length maxPayload)
  else .ok (header payload.length ++ payload)

/-- The message of a payload. Bytes that the message does not need are ignored. -/
def decodePayload (payload : List UInt8) : Except ProbeError ProbeMessage :=
  match Codec.probeMessage.decode payload with
  | .ok (m, _) => .ok m
  | .error fault => .error (.serialization fault.message)

/-- Reads one frame, which must end where its header says. -/
def decode (frame : List UInt8) : Except ProbeError ProbeMessage :=
  match frame with
  | a :: b :: c :: d :: payload =>
    let length := ofLittleEndian [d, c, b, a]
    let actual := payload.length
    if maxPayload < length then .error (.frameTooLarge length maxPayload)
    else if actual < length then .error (.truncated length actual)
    else if length < actual then
      .error (.serialization s!"{actual - length} trailing bytes after frame")
    else decodePayload payload
  | short => .error (.truncated 4 short.length)

end Prefilter.Wire.Frame

namespace Prefilter.ProbeMessage

/-- A message as the answer to a probe that was sent to `node`. -/
def toResponse (m : ProbeMessage) (node : NodeId) : Except ProbeError ProbeResponse :=
  match m with
  | .response r => .ok r
  | .failure text => .error (.remote node text)
  | .request r =>
    .error (.unexpectedMessage
      s!"probe request for {r.shard.display} where a response was expected")

end Prefilter.ProbeMessage
