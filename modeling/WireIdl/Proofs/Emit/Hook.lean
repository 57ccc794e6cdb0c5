import WireIdl.Emit.Units
import WireIdl.Proofs.Lists

/-! The hook on units. It sees each unit before the next one is emitted, but a run goes on in the
same way whatever the hook does, so that the hook may as well see all units at the end: it only
drops and rewrites units, and each of them on its own. -/

namespace WireIdl

variable {n : Census}

namespace SourceUnit

variable {α : Type} (processor? : Option Processor)

theorem filterMap_processed_cons (unit : SourceUnit) (units : List SourceUnit) :
    (unit :: units).filterMap (processed processor?) =
      (unit.processed processor?).toList ++ units.filterMap (processed processor?) := by
  cases hunit : unit.processed processor? <;> simp [hunit]

theorem foldl_push (units kept : List SourceUnit) :
    units.foldl (push processor?) kept = kept ++ units.filterMap (processed processor?) := by
  induction units generalizing kept with
  | nil => exact (List.append_nil kept).symm
  | cons unit units ih =>
      rw [List.foldl_cons, ih, push, List.append_assoc, filterMap_processed_cons]

theorem emitAll_cons (emit : α → Except EmitFault SourceUnit) (part : α) (parts : List α)
    (kept : List SourceUnit) :
    emitAll processor? emit (part :: parts) kept =
      emit part >>= fun unit => emitAll processor? emit parts (push processor? kept unit) := by
  simp only [emitAll, List.foldlM_cons, bind_assoc, pure_bind]

theorem emitAll_eq (emit : α → Except EmitFault SourceUnit) (parts : List α)
    (kept : List SourceUnit) :
    emitAll processor? emit parts kept = do
      return kept ++ (← parts.mapM emit).filterMap (processed processor?) := by
  induction parts generalizing kept with
  | nil => exact congrArg Except.ok (List.append_nil kept).symm
  | cons part parts ih =>
      simp only [emitAll_cons, ih, push, List.mapM_cons, bind_assoc, pure_bind,
        filterMap_processed_cons, List.append_assoc]

end SourceUnit

namespace Target

open SourceUnit

/-- The units of a whole schema, all units of one kind at once. -/
def allUnits (t : Target n) : Except EmitFault (List SourceUnit) := do
  let enums := (List.finRange n.enums).map t.enumUnit
  let records ← t.schema.recordOrder.mapM t.recordUnit
  let constants ← t.constantScopes.mapM t.constantsUnit
  let services ← (List.finRange n.services).mapM (t.serviceUnit .whole)
  return enums ++ records ++ constants ++ services

/-- The units of a pruned service, all units of one kind at once. -/
def listedUnits (t : Target n) (id : Fin n.services) : Except EmitFault (List SourceUnit) := do
  let key := t.config.allowListKey
  let chain := t.schema.serviceChain id
  let reach ← TypedefCycle.orFault (t.schema.reachAll key chain)
  let enums := ((List.finRange n.enums).filter reach.hasEnum).map t.enumUnit
  let records ← (t.schema.recordOrder.filter reach.hasRecord).mapM t.recordUnit
  let services ← chain.reverse.mapM (t.serviceUnit (.listed key))
  return enums ++ records ++ services

variable (t : Target n) (processor? : Option Processor)

theorem units_eq_filterMap :
    t.units processor? = List.filterMap (processed processor?) <$> t.allUnits := by
  simp only [units, allUnits, foldl_push, emitAll_eq, bind_assoc, pure_bind, map_bind, map_pure,
    List.filterMap_append, List.nil_append]

theorem prunedUnits_eq_filterMap (id : Fin n.services) :
    t.prunedUnits processor? id = List.filterMap (processed processor?) <$> t.listedUnits id := by
  simp only [prunedUnits, listedUnits, foldl_push, emitAll_eq, bind_assoc, pure_bind, map_bind,
    map_pure, List.filterMap_append, List.nil_append]

theorem filterMap_processed_none : List.filterMap (processed none) = id :=
  funext fun _ => List.filterMap_some

theorem units_none : t.units none = t.allUnits := by
  rw [units_eq_filterMap, filterMap_processed_none, id_map]

theorem prunedUnits_none (id : Fin n.services) : t.prunedUnits none id = t.listedUnits id := by
  rw [prunedUnits_eq_filterMap, filterMap_processed_none, id_map]

/-- A run with a hook fails as the run without one does, and otherwise gives the units of that run
without those that the hook drops and with the others as it leaves them. It is the same whether the
hook sees each unit as soon as it is emitted or all of them at the end. -/
theorem units_filtered_by_processor (t : Target n) (processor : Processor) :
    (t.units (some processor) = List.filterMap processor <$> t.units none ∧
        t.units none = t.allUnits) ∧
      ∀ id,
        t.prunedUnits (some processor) id = List.filterMap processor <$> t.prunedUnits none id ∧
          t.prunedUnits none id = t.listedUnits id := by
  refine ⟨⟨?_, t.units_none⟩, fun id => ⟨?_, t.prunedUnits_none id⟩⟩
  · rw [units_none]
    exact t.units_eq_filterMap (some processor)
  · rw [prunedUnits_none]
    exact t.prunedUnits_eq_filterMap (some processor) id

end Target

end WireIdl
