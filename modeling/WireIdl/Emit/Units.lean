import WireIdl.Emit.Constants
import WireIdl.Emit.Enum
import WireIdl.Emit.Service
import WireIdl.Text.Order

/-!
The units of a schema: one for each declaration and one for the constants of each namespace; or
only those that the allow-listed methods of a service need. A hook sees each unit before the next
one is emitted, and may change or drop it.
-/

namespace WireIdl

variable {n : Census}

namespace SourceUnit

def processed (processor? : Option Processor) (unit : SourceUnit) : Option SourceUnit :=
  match processor? with
  | none => some unit
  | some processor => processor unit

def push (processor? : Option Processor) (kept : List SourceUnit) (unit : SourceUnit) :
    List SourceUnit :=
  kept ++ (unit.processed processor?).toList

def emitAll {α : Type} (processor? : Option Processor) (emit : α → Except EmitFault SourceUnit)
    (parts : List α) (kept : List SourceUnit) : Except EmitFault (List SourceUnit) :=
  parts.foldlM (fun kept part => return push processor? kept (← emit part)) kept

end SourceUnit

def RecordKind.unitKind : RecordKind → UnitKind
  | .struct => .struct
  | .union => .union
  | .exception => .exception

def Schema.recordOrder (s : Schema n) : List (Fin n.records) :=
  [RecordKind.struct, .exception, .union].flatMap s.recordsOfKind

namespace Target

def enumUnit (t : Target n) (id : Fin n.enums) : SourceUnit :=
  let decl := t.schema.enum id
  { name := decl.name
    scope := decl.scope
    kind := .enum
    location? := decl.location?
    code := decl.code t.config }

def recordUnit (t : Target n) (id : Fin n.records) : Except EmitFault SourceUnit := do
  let decl := t.schema.record id
  return {
    name := decl.name
    scope := decl.scope
    kind := decl.kind.unitKind
    location? := decl.location?
    code := ← t.recordCode id }

def serviceUnit (t : Target n) (surface : Surface) (id : Fin n.services) :
    Except EmitFault SourceUnit := do
  let decl := t.schema.service id
  return {
    name := decl.name
    scope := decl.scope
    kind := .service
    location? := decl.location?
    code := ← t.serviceCode surface id }

def constantsUnit (t : Target n) (scope : String) : Except EmitFault SourceUnit := do
  return {
    name := "constants"
    scope
    kind := .constants
    location? := none
    code := ← t.constantsCode (t.schema.constants.filter (·.scope == scope)) }

def constantScopes (t : Target n) : List String :=
  Text.ascending (t.schema.constants.map (·.scope))

open SourceUnit

def units (t : Target n) (processor? : Option Processor) : Except EmitFault (List SourceUnit) := do
  let kept := ((List.finRange n.enums).map t.enumUnit).foldl (push processor?) []
  let kept ← emitAll processor? t.recordUnit t.schema.recordOrder kept
  let kept ← emitAll processor? t.constantsUnit t.constantScopes kept
  emitAll processor? (t.serviceUnit .whole) (List.finRange n.services) kept

/-- The units that the allow-listed methods of a service and of its ancestors need. -/
def prunedUnits (t : Target n) (processor? : Option Processor) (id : Fin n.services) :
    Except EmitFault (List SourceUnit) := do
  let key := t.config.allowListKey
  let chain := t.schema.serviceChain id
  let reach ← TypedefCycle.orFault (t.schema.reachAll key chain)
  let enums := (List.finRange n.enums).filter reach.hasEnum
  let kept := (enums.map t.enumUnit).foldl (push processor?) []
  let kept ← emitAll processor? t.recordUnit (t.schema.recordOrder.filter reach.hasRecord) kept
  emitAll processor? (t.serviceUnit (.listed key)) chain.reverse kept

end Target

end WireIdl
