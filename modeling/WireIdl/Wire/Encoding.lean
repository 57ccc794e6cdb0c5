import WireIdl.Wire.Bytes
import WireIdl.Wire.Message

/-!
The bytes of what is written. Lengths and numbers of elements are 32-bit integers, so text, bytes
and containers of more than `2 ^ 31 - 1` parts cannot be written; what was written before such a
length stays written.
-/

namespace WireIdl

/-- All that was to be written, or what came before a fault. -/
inductive Output where
  | ok (bytes : Bytes)
  | error (fault : Fault) (before : Bytes)

namespace Output

def bytes : Output → Bytes
  | .ok bytes => bytes
  | .error _ before => before

def result : Output → Except Fault Unit
  | .ok _ => .ok ()
  | .error fault _ => .error fault

/-- One output after the other. Nothing follows a fault. -/
def append : Output → Output → Output
  | .ok bytes, .ok more => .ok (bytes ++ more)
  | .ok bytes, .error fault before => .error fault (bytes ++ before)
  | .error fault before, _ => .error fault before

instance : Append Output := ⟨append⟩

end Output

namespace Encoding

def bool (v : Bool) : Bytes :=
  [if v then 1 else 0]

def collectionSize (length : Nat) : Except Fault Int32 :=
  if length ≤ Int32.maxValue.toInt.toNat then .ok (Int32.ofNat length)
  else .error (.sizeLimit length)

/-- What begins with a length, unless the length is too large. -/
def sized (length : Nat) (output : Int32 → Output) : Output :=
  match collectionSize length with
  | .ok size => output size
  | .error fault => .error fault []

def binary (bytes : Bytes) : Output :=
  sized bytes.length fun size => .ok (Bytes.ofI32 size ++ bytes)

def string (s : String) : Output :=
  binary (Bytes.ofString s)

def fieldHeader (id : Int16) (tag : Tag) : Bytes :=
  tag :: Bytes.ofI16 id

def fieldStop : Bytes :=
  [Tag.stop]

def itemsHeader (element : Tag) (size : Int32) : Bytes :=
  element :: Bytes.ofI32 size

def entriesHeader (key value : Tag) (size : Int32) : Bytes :=
  key :: value :: Bytes.ofI32 size

/-- The header of a message: version and type in one word, the name, the sequence id. -/
def messageHeader (header : MessageHeader) : Output :=
  let version : UInt32 := 0x80010000 ||| header.type.code.toUInt32
  .ok (Bytes.ofI32 version.toInt32) ++ string header.name ++ .ok (Bytes.ofI32 header.seqId)

end Encoding

end WireIdl
