/-!
Wire types. A tag is one byte, and a reader may meet a byte that is no wire type, so tags are plain
bytes beside the type of those that are known.
-/

namespace WireIdl

abbrev Tag := UInt8

inductive WireType where
  | bool
  | byte
  | double
  | i16
  | i32
  | i64
  | string
  | struct
  | map
  | set
  | list
  | enum
  deriving DecidableEq

namespace WireType

def tag : WireType → Tag
  | .bool => 2
  | .byte => 3
  | .double => 4
  | .i16 => 6
  | .i32 => 8
  | .i64 => 10
  | .string => 11
  | .struct => 12
  | .map => 13
  | .set => 14
  | .list => 15
  | .enum => 16

/-- The wire type that is written: an enum travels as a 32-bit integer. -/
def onWire : WireType → WireType
  | .enum => .i32
  | other => other

/-- The name of the constant that stands for the tag in emitted code. -/
def constantName : WireType → String
  | .bool => "BOOL"
  | .byte => "BYTE"
  | .double => "DOUBLE"
  | .i16 => "I16"
  | .i32 => "I32"
  | .i64 => "I64"
  | .string => "STRING"
  | .struct => "STRUCT"
  | .map => "MAP"
  | .set => "SET"
  | .list => "LIST"
  | .enum => "ENUM"

def ofTag? (t : Tag) : Option WireType :=
  match t.toNat with
  | 2 => some .bool
  | 3 => some .byte
  | 4 => some .double
  | 6 => some .i16
  | 8 => some .i32
  | 10 => some .i64
  | 11 => some .string
  | 12 => some .struct
  | 13 => some .map
  | 14 => some .set
  | 15 => some .list
  | 16 => some .enum
  | _ => none

@[simp] theorem ofTag?_tag (w : WireType) : ofTag? w.tag = some w := by
  cases w <;> rfl

def name : WireType → String
  | .bool => "bool"
  | .byte => "byte"
  | .double => "double"
  | .i16 => "i16"
  | .i32 => "i32"
  | .i64 => "i64"
  | .string => "string"
  | .struct => "struct"
  | .map => "map"
  | .set => "set"
  | .list => "list"
  | .enum => "enum"

end WireType

namespace Tag

def stop : Tag := 0

def void : Tag := 1

def name (t : Tag) : String :=
  if t = stop then "stop"
  else if t = void then "void"
  else
    match WireType.ofTag? t with
    | some w => w.name
    | none => "unknown"

end Tag

end WireIdl
