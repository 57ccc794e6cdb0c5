import WireIdl.Wire.Encoding
import WireIdl.Wire.Skip

/-!
Both directions of a connection in memory: a source that is read, and an output that is written.
Neither side touches the other, and a failing operation leaves the endpoint usable: what it has
read is read, and what it has written is written.
-/

namespace WireIdl

structure Endpoint where
  source : Source := { unread := [] }
  output : Bytes := []

namespace Endpoint

def feed (e : Endpoint) (bytes : Bytes) : Endpoint :=
  { e with source := { e.source with unread := e.source.unread ++ bytes } }

def takeOutput (e : Endpoint) : Bytes × Endpoint :=
  (e.output, { e with output := [] })

def loopBack (e : Endpoint) : Endpoint :=
  let (bytes, e) := e.takeOutput
  e.feed bytes

def remaining (e : Endpoint) : Nat :=
  e.source.unread.length

def read {α : Type} (r : Reader α) (e : Endpoint) : Except Fault α × Endpoint :=
  match r e.source with
  | .ok a source => (.ok a, { e with source })
  | .error fault source => (.error fault, { e with source })

def write (output : Output) (e : Endpoint) : Except Fault Unit × Endpoint :=
  (output.result, { e with output := e.output ++ output.bytes })

end Endpoint

end WireIdl
