import WireIdl.Schema.Inheritance
import WireIdl.Schema.Resolve
import WireIdl.Text.Order

/-!
Which declarations a pruned service needs. A walk starts at the types of allow-listed methods and
follows elements, keys, values and the fields of records; each record is entered once.
-/

namespace WireIdl

variable {n : Census}

/-- A method is on the allow list if it has the annotation with any value but `false`. -/
def Method.isAllowListed (m : Method n) (key : String) : Bool :=
  match m.annotations.get? key with
  | some value => value != "false"
  | none => false

/-- The declarations that a walk has not met. -/
structure Unmet (n : Census) where
  records : List (Fin n.records)
  enums : List (Fin n.enums)

namespace Unmet

def all (n : Census) : Unmet n where
  records := List.finRange n.records
  enums := List.finRange n.enums

def metRecords (unmet : Unmet n) : List (Fin n.records) :=
  (List.finRange n.records).filter (· ∉ unmet.records)

def metEnums (unmet : Unmet n) : List (Fin n.enums) :=
  (List.finRange n.enums).filter (· ∉ unmet.enums)

end Unmet

namespace Shape

def sizes : List (Shape n) → Nat
  | [] => 0
  | shape :: stack => shape.size + sizes stack

/-- What a container holds: the element, or the value and then the key. -/
def parts : Shape n → List (Shape n)
  | .list _ element | .set _ element => [element ()]
  | .map _ key _ value => [value (), key ()]
  | _ => []

theorem size_eq_sizes_parts (shape : Shape n) : shape.size = sizes shape.parts + 1 := by
  cases shape <;> simp [size, parts, sizes, Nat.add_comm]

theorem sizes_append (xs ys : List (Shape n)) : sizes (xs ++ ys) = sizes xs + sizes ys := by
  induction xs with
  | nil => simp [sizes]
  | cons shape xs ih => simp [sizes, ih, Nat.add_assoc]

theorem sizes_parts_append_lt (shape : Shape n) (stack : List (Shape n)) :
    sizes (shape.parts ++ stack) < sizes (shape :: stack) := by
  rw [sizes_append, sizes, size_eq_sizes_parts]
  omega

theorem sizes_lt_cons (shape : Shape n) (stack : List (Shape n)) :
    sizes stack < sizes (shape :: stack) := by
  rw [sizes, size_eq_sizes_parts]
  omega

end Shape

namespace Schema

def fieldShapes (s : Schema n) (id : Fin n.records) : List (Shape n) :=
  (s.record id).fields.map fun field => s.shape field.ty

/-- Walks from the shapes on a stack, the first one first. -/
def walk (s : Schema n) (unmet : Unmet n) (stack : List (Shape n)) :
    Except TypedefCycle (Unmet n) :=
  match stack with
  | [] => .ok unmet
  | .cyclic cycle :: _ => .error cycle
  | .enum id :: stack => s.walk { unmet with enums := unmet.enums.erase id } stack
  | .record id :: stack =>
      if _h : id ∈ unmet.records then
        s.walk { unmet with records := unmet.records.erase id }
          ((s.fieldShapes id).reverse ++ stack)
      else s.walk unmet stack
  | shape :: stack => s.walk unmet (shape.parts ++ stack)
termination_by (unmet.records.length, Shape.sizes stack)
decreasing_by
  · exact Prod.Lex.right _ (Shape.sizes_lt_cons _ _)
  · have := List.length_erase_of_mem _h
    have := List.length_pos_of_mem _h
    exact Prod.Lex.left _ _ (by omega)
  · exact Prod.Lex.right _ (Shape.sizes_lt_cons _ _)
  · exact Prod.Lex.right _ (Shape.sizes_parts_append_lt _ _)

def walkAll (s : Schema n) (unmet : Unmet n) : List (Ty n) → Except TypedefCycle (Unmet n)
  | [] => .ok unmet
  | ty :: tys => do s.walkAll (← s.walk unmet [s.shape ty]) tys

def listedMethods (s : Schema n) (key : String) (id : Fin n.services) : List (Method n) :=
  (s.service id).methods.filter (·.isAllowListed key)

/-- The types of the parameters of a service's own allow-listed methods. -/
def parameterTypes (s : Schema n) (key : String) (id : Fin n.services) : List (Ty n) :=
  (s.listedMethods key id).flatMap fun m => m.params.map (·.ty)

/-- The types of the results and exceptions of the allow-listed methods of a service and of its
ancestors. -/
def resultTypes (s : Schema n) (key : String) (id : Fin n.services) : List (Ty n) :=
  (s.serviceChain id).flatMap fun ancestor =>
    (s.listedMethods key ancestor).flatMap fun m => m.returns :: m.throws.map (·.ty)

end Schema

/-- What the allow-listed methods of services need. All lists are ascending. -/
structure Reach (n : Census) where
  viaParameters : List (Fin n.records) := []
  viaResults : List (Fin n.records) := []
  /-- Met from either side. -/
  enums : List (Fin n.enums) := []

namespace Reach

def union {k : Nat} (xs ys : List (Fin k)) : List (Fin k) :=
  (List.finRange k).filter fun i => i ∈ xs || i ∈ ys

def records (r : Reach n) : List (Fin n.records) :=
  union r.viaParameters r.viaResults

def hasRecord (r : Reach n) (id : Fin n.records) : Bool :=
  r.viaParameters.contains id || r.viaResults.contains id

def hasEnum (r : Reach n) (id : Fin n.enums) : Bool :=
  r.enums.contains id

def merge (r other : Reach n) : Reach n where
  viaParameters := union r.viaParameters other.viaParameters
  viaResults := union r.viaResults other.viaResults
  enums := union r.enums other.enums

def names (s : Schema n) (ids : List (Fin n.records)) : List String :=
  Text.ascending (ids.map fun id => (s.record id).name)

def parameterNames (s : Schema n) (r : Reach n) : List String :=
  names s r.viaParameters

def resultNames (s : Schema n) (r : Reach n) : List String :=
  names s r.viaResults

end Reach

namespace Schema

def reach (s : Schema n) (key : String) (id : Fin n.services) : Except TypedefCycle (Reach n) := do
  let parameters ← s.walkAll (.all n) (s.parameterTypes key id)
  let results ← s.walkAll (.all n) (s.resultTypes key id)
  return {
    viaParameters := parameters.metRecords
    viaResults := results.metRecords
    enums := Reach.union parameters.metEnums results.metEnums }

def reachAll (s : Schema n) (key : String) : List (Fin n.services) → Except TypedefCycle (Reach n)
  | [] => .ok {}
  | id :: ids => do
      let first ← s.reach key id
      return first.merge (← s.reachAll key ids)

end Schema

end WireIdl
