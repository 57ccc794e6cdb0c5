import WireIdl.Emit.TypeText

/-!
Which fields are held behind a pointer. A field whose type is a record from which its owner can be
reached along fields that hold a record directly would make the owner contain itself.
-/

namespace WireIdl.Target

variable {n : Census}

/-- The records that the fields of a declaration hold without a container. -/
def directRecords (t : Target n) : List (Field n) → Except TypedefCycle (List (Fin n.records))
  | [] => .ok []
  | field :: fields => do
      let ty ← t.schema.trueType field.ty
      let rest ← t.directRecords fields
      return ty.recordId?.toList ++ rest

/-- Whether `owner` is met on a walk through the records still `fresh` from those on `stack`. -/
def reachesOwner (t : Target n) (owner : Fin n.records) (fresh stack : List (Fin n.records)) :
    Except TypedefCycle Bool :=
  match stack with
  | [] => .ok false
  | id :: stack =>
      if id = owner then .ok true
      else if _h : id ∈ fresh then
        match t.directRecords (t.schema.record id).fields with
        | .error cycle => .error cycle
        | .ok next => t.reachesOwner owner (fresh.erase id) (next.reverse ++ stack)
      else t.reachesOwner owner fresh stack
termination_by (fresh.length, stack.length)
decreasing_by
  · have := List.length_erase_of_mem _h
    have := List.length_pos_of_mem _h
    exact Prod.Lex.left _ _ (by omega)
  · exact Prod.Lex.right _ (by simp)

def needsBox (t : Target n) (owner : Fin n.records) (ty : Ty n) : Except EmitFault Bool :=
  TypedefCycle.orFault do
    match (← t.schema.trueType ty).recordId? with
    | none => return false
    | some start => t.reachesOwner owner (List.finRange n.records) [start]

end WireIdl.Target
