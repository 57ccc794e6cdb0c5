import WireIdl.Record.Decode
import WireIdl.Wire.Endpoint

/-!
Sessions: operations on an endpoint, performed one after the other. The names of structs and fields
do not travel, and neither do the ends of what was begun. An operation that fails does not end a
session.
-/

namespace WireIdl

inductive Part where
  | message
  | struct
  | field
  | list
  | set
  | map
  deriving DecidableEq

inductive WriteStep where
  | messageBegin (header : MessageHeader)
  | structBegin (name : String)
  | fieldBegin (name : String) (id : Int16) (tag : Tag)
  | fieldStop
  | listBegin (element : Tag) (size : Int32)
  | setBegin (element : Tag) (size : Int32)
  | mapBegin (key value : Tag) (size : Int32)
  | finish (part : Part)
  | bool (v : Bool)
  | byte (v : Int8)
  | i16 (v : Int16)
  | i32 (v : Int32)
  | i64 (v : Int64)
  | double (v : Double)
  | string (v : String)
  | binary (v : Bytes)

def WriteStep.output : WriteStep → Output
  | .messageBegin header => Encoding.messageHeader header
  | .structBegin _ | .finish _ => .ok []
  | .fieldBegin _ id tag => .ok (Encoding.fieldHeader id tag)
  | .fieldStop => .ok Encoding.fieldStop
  | .listBegin element size | .setBegin element size => .ok (Encoding.itemsHeader element size)
  | .mapBegin key value size => .ok (Encoding.entriesHeader key value size)
  | .bool v => .ok (Encoding.bool v)
  | .byte v => .ok (Bytes.ofI8 v)
  | .i16 v => .ok (Bytes.ofI16 v)
  | .i32 v => .ok (Bytes.ofI32 v)
  | .i64 v => .ok (Bytes.ofI64 v)
  | .double v => .ok (Bytes.ofDouble v)
  | .string v => Encoding.string v
  | .binary v => Encoding.binary v

inductive ReadStep where
  | messageBegin
  | structBegin
  | fieldBegin
  | listBegin
  | setBegin
  | mapBegin
  | finish (part : Part)
  | bool
  | byte
  | i16
  | i32
  | i64
  | double
  | string
  | binary

inductive Datum where
  | nothing
  | message (header : MessageHeader)
  | field (header : Reader.FieldHeader)
  | items (header : Reader.ItemsHeader)
  | entries (header : Reader.EntriesHeader)
  | value (v : Value)

def ReadStep.reader : ReadStep → Reader Datum
  | .messageBegin => return .message (← Reader.messageHeader)
  | .structBegin => do
      Reader.openFrame
      return .nothing
  | .fieldBegin => return .field (← Reader.fieldHeader)
  | .listBegin | .setBegin => return .items (← Reader.itemsHeader)
  | .mapBegin => return .entries (← Reader.entriesHeader)
  | .finish .struct => do
      Reader.closeFrame
      return .nothing
  | .finish _ => return .nothing
  | .bool => return .value (.bool (← Reader.bool))
  | .byte => return .value (.byte (← Reader.i8))
  | .i16 => return .value (.i16 (← Reader.i16))
  | .i32 => return .value (.i32 (← Reader.i32))
  | .i64 => return .value (.i64 (← Reader.i64))
  | .double => return .value (.double (← Reader.double))
  | .string => return .value (.string .owned (← Reader.string))
  | .binary => return .value (.binary (← Reader.binary))

inductive Operation where
  | feed (bytes : Bytes)
  | takeOutput
  | flush
  | write (step : WriteStep)
  | read (step : ReadStep)
  | skip (tag : Tag)
  | record {n : Census} (t : Target n) (id : Fin n.records)

namespace Endpoint

def withInput (bytes : Bytes) : Endpoint where
  source := { unread := bytes }

def perform (e : Endpoint) : Operation → Except Fault Datum × Endpoint
  | .feed bytes => (.ok .nothing, e.feed bytes)
  | .takeOutput =>
      let (bytes, e) := e.takeOutput
      (.ok (.value (.binary bytes)), e)
  | .flush => (.ok .nothing, e)
  | .write step =>
      let (result, e) := e.write step.output
      (result.map fun _ => .nothing, e)
  | .read step => e.read step.reader
  | .skip tag => e.read do
      Reader.skip tag
      return .nothing
  | .record t id => e.read do
      return .value (← t.readRecord id)

/-- Performs operations, also after one that fails. -/
def run (e : Endpoint) : List Operation → List (Except Fault Datum) × Endpoint
  | [] => ([], e)
  | op :: ops =>
      let (result, after) := e.perform op
      let (results, last) := after.run ops
      (result :: results, last)

theorem run_cons (e : Endpoint) (op : Operation) (ops : List Operation) :
    e.run (op :: ops) =
      ((e.perform op).1 :: ((e.perform op).2.run ops).1, ((e.perform op).2.run ops).2) := rfl

end Endpoint

end WireIdl
