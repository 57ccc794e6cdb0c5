import WireIdl.Wire.Encoding
import WireIdl.Wire.Skip

/-!
A failure that a server reports in place of a reply.
-/

namespace WireIdl

inductive FailureKind where
  | unknown
  | unknownMethod
  | invalidMessageType
  | wrongMethodName
  | badSequenceId
  | missingResult
  | internalError
  | protocolError
  | invalidTransform
  | invalidProtocol
  | unsupportedClientType
  deriving DecidableEq

namespace FailureKind

def code : FailureKind → Int32
  | .unknown => 0
  | .unknownMethod => 1
  | .invalidMessageType => 2
  | .wrongMethodName => 3
  | .badSequenceId => 4
  | .missingResult => 5
  | .internalError => 6
  | .protocolError => 7
  | .invalidTransform => 8
  | .invalidProtocol => 9
  | .unsupportedClientType => 10

/-- The kind with a code; a code that is not known does not fail the call. -/
def ofCode (code : Int32) : FailureKind :=
  match code.toInt with
  | 1 => .unknownMethod
  | 2 => .invalidMessageType
  | 3 => .wrongMethodName
  | 4 => .badSequenceId
  | 5 => .missingResult
  | 6 => .internalError
  | 7 => .protocolError
  | 8 => .invalidTransform
  | 9 => .invalidProtocol
  | 10 => .unsupportedClientType
  | _ => .unknown

@[simp] theorem ofCode_code (kind : FailureKind) : ofCode kind.code = kind := by
  cases kind <;> rfl

def name : FailureKind → String
  | .unknown => "Unknown"
  | .unknownMethod => "UnknownMethod"
  | .invalidMessageType => "InvalidMessageType"
  | .wrongMethodName => "WrongMethodName"
  | .badSequenceId => "BadSequenceId"
  | .missingResult => "MissingResult"
  | .internalError => "InternalError"
  | .protocolError => "ProtocolError"
  | .invalidTransform => "InvalidTransform"
  | .invalidProtocol => "InvalidProtocol"
  | .unsupportedClientType => "UnsupportedClientType"

end FailureKind

structure Failure where
  kind : FailureKind := .unknown
  text : String := ""
  deriving DecidableEq

namespace Failure

def message (f : Failure) : String :=
  "application exception (" ++ f.kind.name ++ "): " ++ f.text

def textId : Int16 := 1

def kindId : Int16 := 2

def encode (f : Failure) : Output :=
  .ok (Encoding.fieldHeader textId WireType.string.tag) ++ Encoding.string f.text ++
    .ok (Encoding.fieldHeader kindId WireType.i32.tag ++ Bytes.ofI32 f.kind.code ++
      Encoding.fieldStop)

/-- Reads one field. A field with another id or wire type is skipped. -/
def readField (header : Reader.FieldHeader) (f : Failure) : Reader Failure :=
  if header.id = textId ∧ header.tag = WireType.string.tag then do
    return { f with text := ← Reader.string }
  else if header.id = kindId ∧ header.tag = WireType.i32.tag then do
    return { f with kind := .ofCode (← Reader.i32) }
  else do
    Reader.skip header.tag
    return f

def read : Reader Failure :=
  Reader.frame readField {}

end Failure

end WireIdl
