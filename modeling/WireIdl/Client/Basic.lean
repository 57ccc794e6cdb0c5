import WireIdl.Client.Failure
import WireIdl.Emit.Service
import WireIdl.Record.Decode
import WireIdl.Wire.Endpoint

/-!
Calling the methods of a service. Every call has the next sequence id, which wraps around; a reply
must carry the id of the call it answers. The client of a service holds the client of its parent
and hands it the calls of inherited methods.
-/

namespace WireIdl

variable {n : Census}

/-- An endpoint and the sequence id of the last call. -/
structure ClientBase where
  endpoint : Endpoint := {}
  seqId : Int32 := 0

/-- The client of the first service of a chain. What it holds is the client of the service that
comes next, and the base where the chain ends. -/
inductive Client : List (Fin n.services) → Type where
  | root (base : ClientBase) : Client []
  | child {id : Fin n.services} {chain : List (Fin n.services)} (parent : Client chain) :
      Client (id :: chain)

inductive CallFault (n : Census) where
  /-- An exception that the method declares. -/
  | exception (declared : Field n) (value : Value)
  /-- A reply with neither a result nor a declared exception. -/
  | missingResult
  | application (failure : Failure)
  | wire (fault : Fault)

/-- The method of that name that a client of a chain has, and the level of its service. -/
def Target.clientMethod? (t : Target n) (surface : Surface) (chain : List (Fin n.services))
    (name : String) : Option (Fin chain.length × Method n) :=
  (List.finRange chain.length).findSome? fun level =>
    let methods := surface.methods (t.schema.service (chain.get level))
    (methods.find? (·.name == name)).map (level, ·)

namespace Method

def messageType (m : Method n) : MessageType :=
  if m.oneWay then .oneway else .call

def withDefaults (t : Target n) (m : Method n) (args : Slots) : Slots :=
  m.params.zipWith (fun param arg => arg <|> t.defaultValue? param) args

def request (t : Target n) (m : Method n) (args : Slots) (seqId : Int32) : Output :=
  Encoding.messageHeader { name := m.name, type := m.messageType, seqId } ++
    t.schema.encodeFields m.params (m.withDefaults t args)

def replyFields (t : Target n) (m : Method n) : List (KnownField n) :=
  (if t.returnsValue m then [{ id := 0, shape := t.shape m.returns }] else []) ++
    t.schema.knownFields m.throws

def raised? : List (Field n) → Slots → Option (CallFault n)
  | field :: _, some v :: _ => some (.exception field v)
  | _ :: fields, none :: slots => raised? fields slots
  | _, _ => none

def withoutResult (t : Target n) (m : Method n) (slots : Slots) :
    Except (CallFault n) (Option Value) :=
  match raised? m.throws slots with
  | some fault => .error fault
  | none => if t.returnsValue m then .error .missingResult else .ok none

def outcome (t : Target n) (m : Method n) (slots : Slots) :
    Except (CallFault n) (Option Value) :=
  if t.returnsValue m then
    match slots with
    | some result :: _ => .ok (some result)
    | _ => m.withoutResult t slots.tail
  else m.withoutResult t slots

def receive (t : Target n) (m : Method n) : Reader (Except (CallFault n) (Option Value)) := do
  let fields := m.replyFields t
  let slots ← Reader.frame (t.readField t.readRecord fields) (fields.map fun _ => none)
  return m.outcome t slots

def answer (t : Target n) (m : Method n) (seqId : Int32) :
    Reader (Except (CallFault n) (Option Value)) := do
  let header ← Reader.messageHeader
  if header.seqId ≠ seqId then throw (.badSequenceId seqId header.seqId)
  match header.type with
  | .reply => m.receive t
  | .exception => return .error (.application (← Failure.read))
  | other =>
      return .error (.application
        { kind := .invalidMessageType, text := "expected a reply, got " ++ other.name })

end Method

namespace ClientBase

def feed (c : ClientBase) (bytes : Bytes) : ClientBase :=
  { c with endpoint := c.endpoint.feed bytes }

/-- Calls a method. A one-way method has no answer. -/
def call (t : Target n) (m : Method n) (args : Slots) (c : ClientBase) :
    Except (CallFault n) (Option Value) × ClientBase :=
  let seqId := c.seqId + 1
  match c.endpoint.write (m.request t args seqId) with
  | (.error fault, endpoint) => (.error (.wire fault), { endpoint, seqId })
  | (.ok (), endpoint) =>
      if m.oneWay then (.ok none, { endpoint, seqId })
      else
        match endpoint.read (m.answer t seqId) with
        | (.error fault, endpoint) => (.error (.wire fault), { endpoint, seqId })
        | (.ok outcome, endpoint) => (outcome, { endpoint, seqId })

end ClientBase

namespace Client

def new : (chain : List (Fin n.services)) → Client chain
  | [] => .root {}
  | _ :: above => .child (new above)

def base : {chain : List (Fin n.services)} → Client chain → ClientBase
  | _, .root base => base
  | _, .child parent => parent.base

def withBase (base : ClientBase) :
    {chain : List (Fin n.services)} → Client chain → Client chain
  | _, .root _ => .root base
  | _, .child parent => .child (parent.withBase base)

def feed {chain : List (Fin n.services)} (c : Client chain) (bytes : Bytes) : Client chain :=
  c.withBase (c.base.feed bytes)

/-- Calls a method of the service at a level of the chain. One of the client's own service goes to
the base, and any other to the parent. -/
def call (t : Target n) (m : Method n) (args : Slots) :
    {chain : List (Fin n.services)} → Fin chain.length → Client chain →
      Except (CallFault n) (Option Value) × Client chain
  | _, ⟨0, _⟩, c =>
      let (outcome, base) := c.base.call t m args
      (outcome, c.withBase base)
  | _, ⟨level + 1, h⟩, .child parent =>
      let (outcome, parent) := parent.call t m args ⟨level, Nat.lt_of_succ_lt_succ h⟩
      (outcome, .child parent)

end Client

end WireIdl
