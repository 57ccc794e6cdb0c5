import WireIdl.Text.Hex
import WireIdl.Wire.Tag

/-!
Why a value cannot be read, written or built.
-/

namespace WireIdl

inductive BuildFault where
  | missingRequiredField (field : String)
  | invalidUnionState (setFields : Nat)
  deriving DecidableEq

def BuildFault.kind : BuildFault → String
  | .missingRequiredField _ => "MissingRequiredField"
  | .invalidUnionState _ => "InvalidUnionState"

def BuildFault.message : BuildFault → String
  | .missingRequiredField field => s!"required field '{field}' is missing"
  | .invalidUnionState setFields => s!"invalid union; {setFields} field(s) were set"

inductive Fault where
  | unexpectedEof
  | unknownType (tag : Tag)
  | typeMismatch (field : Int16) (expected actual : Tag)
  | unknownEnumValue (enumName : String) (value : Int32)
  | invalidUtf8
  | negativeSize (size : Int32)
  | sizeLimit (size : Nat)
  | badVersion (header : UInt32)
  | unknownMessageType (code : UInt8)
  | badSequenceId (expected received : Int32)
  | depthLimit (limit : Nat)
  | build (cause : BuildFault)
  deriving DecidableEq

namespace Fault

def kind : Fault → String
  | .unexpectedEof => "UnexpectedEof"
  | .unknownType _ => "UnknownType"
  | .typeMismatch _ _ _ => "TypeMismatch"
  | .unknownEnumValue _ _ => "UnknownEnumValue"
  | .invalidUtf8 => "InvalidUtf8"
  | .negativeSize _ => "NegativeSize"
  | .sizeLimit _ => "SizeLimit"
  | .badVersion _ => "BadVersion"
  | .unknownMessageType _ => "UnknownMessageType"
  | .badSequenceId _ _ => "BadSequenceId"
  | .depthLimit _ => "DepthLimit"
  | .build cause => cause.kind

def word (v : UInt32) : String :=
  String.ofList (Text.hexDigits 8 v.toNat)

def message : Fault → String
  | .unexpectedEof => "unexpected end of input"
  | .unknownType tag => s!"unknown wire type {tag}"
  | .typeMismatch field expected actual =>
      s!"field {field}: expected wire type {expected.name}, found {actual.name}"
  | .unknownEnumValue enumName value => s!"unexpected value {value} for enum {enumName}"
  | .invalidUtf8 => "string is not valid UTF-8"
  | .negativeSize size => s!"negative size {size}"
  | .sizeLimit size => s!"collection of {size} elements does not fit the wire format"
  | .badVersion header => s!"bad protocol version 0x{word header}"
  | .unknownMessageType code => s!"unknown message type {code}"
  | .badSequenceId expected received =>
      s!"sequence id mismatch: sent {expected}, received {received}"
  | .depthLimit limit => s!"value nested deeper than {limit} levels"
  | .build cause => cause.message

end Fault

end WireIdl
