import WireIdl.Wire.Fault

/-!
What a message frame carries.
-/

namespace WireIdl

inductive MessageType where
  | call
  | reply
  | exception
  | oneway
  deriving DecidableEq

namespace MessageType

def code : MessageType → UInt8
  | .call => 1
  | .reply => 2
  | .exception => 3
  | .oneway => 4

def ofCode (code : UInt8) : Except Fault MessageType :=
  match code.toNat with
  | 1 => .ok .call
  | 2 => .ok .reply
  | 3 => .ok .exception
  | 4 => .ok .oneway
  | _ => .error (.unknownMessageType code)

@[simp] theorem ofCode_code (type : MessageType) : ofCode type.code = .ok type := by
  cases type <;> rfl

def name : MessageType → String
  | .call => "Call"
  | .reply => "Reply"
  | .exception => "Exception"
  | .oneway => "Oneway"

end MessageType

structure MessageHeader where
  name : String
  type : MessageType
  seqId : Int32
  deriving DecidableEq

end WireIdl
