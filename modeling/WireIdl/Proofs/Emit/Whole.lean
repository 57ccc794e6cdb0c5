import WireIdl.Proofs.Emit.Pruned

/-! A schema that can be emitted whole can be pruned to any of its services: each fault that the
walk or the units of a pruned service can meet stops the whole schema too. The declarations of the
pruned service are units of the whole schema, in the same order. -/

namespace WireIdl

variable {n : Census}

/-- Whether a unit declares an enum or a record. -/
def UnitKind.isDeclaration : UnitKind → Bool
  | .enum | .struct | .exception | .union => true
  | .constants | .service => false

namespace Target

variable {t : Target n}

/-- The shape has a type in emitted code. -/
def Typed (t : Target n) (shape : Shape n) : Prop :=
  ∃ text, t.typeText shape = .ok text

theorem Typed.parts {shape : Shape n} (h : t.Typed shape) : ∀ part ∈ shape.parts, t.Typed part := by
  obtain ⟨text, htext⟩ := h
  intro part hpart
  cases shape with
  | list written element =>
      obtain ⟨inner, hinner, _⟩ := except_bind_eq_ok.mp htext
      rw [List.mem_singleton.mp hpart]
      exact ⟨inner, hinner⟩
  | set written element =>
      obtain ⟨_, _, hrest⟩ := except_bind_eq_ok.mp htext
      obtain ⟨inner, hinner, _⟩ := except_bind_eq_ok.mp hrest
      rw [List.mem_singleton.mp hpart]
      exact ⟨inner, hinner⟩
  | map writtenKey key writtenValue value =>
      obtain ⟨_, _, hrest⟩ := except_bind_eq_ok.mp htext
      obtain ⟨keyText, hkey, hrest⟩ := except_bind_eq_ok.mp hrest
      obtain ⟨valueText, hvalue, _⟩ := except_bind_eq_ok.mp hrest
      simp only [Shape.parts, List.mem_cons, List.not_mem_nil, or_false] at hpart
      obtain rfl | rfl := hpart
      · exact ⟨valueText, hvalue⟩
      · exact ⟨keyText, hkey⟩
  | _ => cases hpart

/-- Every field of a record has a type in emitted code. -/
def FieldsTyped (t : Target n) : Prop :=
  ∀ id, ∀ shape ∈ t.schema.fieldShapes id, t.Typed shape

theorem exists_walk (hfields : t.FieldsTyped) {unmet : Unmet n} {stack : List (Shape n)}
    (hstack : ∀ shape ∈ stack, t.Typed shape) :
    ∃ final, t.schema.walk unmet stack = .ok final := by
  fun_induction Schema.walk t.schema unmet stack with
  | case1 unmet => exact ⟨unmet, rfl⟩
  | case2 unmet cycle stack =>
      obtain ⟨text, htext⟩ := hstack _ List.mem_cons_self
      cases htext
  | case3 unmet id stack ih => exact ih (List.forall_mem_cons.mp hstack).2
  | case4 unmet id stack hmem ih =>
      apply ih
      intro shape hshape
      obtain hfield | hrest := List.mem_append.mp hshape
      · exact hfields id shape (List.mem_reverse.mp hfield)
      · exact hstack shape (List.mem_cons_of_mem _ hrest)
  | case5 unmet id stack hmem ih => exact ih (List.forall_mem_cons.mp hstack).2
  | case6 unmet shape stack _ _ _ ih =>
      obtain ⟨hshape, hrest⟩ := List.forall_mem_cons.mp hstack
      exact ih (List.forall_mem_append.mpr ⟨hshape.parts, hrest⟩)

theorem exists_walkAll (hfields : t.FieldsTyped) {unmet : Unmet n} {tys : List (Ty n)}
    (htys : ∀ ty ∈ tys, t.Typed (t.shape ty)) :
    ∃ final, t.schema.walkAll unmet tys = .ok final := by
  induction tys generalizing unmet with
  | nil => exact ⟨unmet, rfl⟩
  | cons ty tys ih =>
      obtain ⟨hty, hrest⟩ := List.forall_mem_cons.mp htys
      have hwalk : ∃ middle, t.schema.walk unmet [t.schema.shape ty] = .ok middle :=
        exists_walk hfields (List.forall_mem_singleton.mpr hty)
      obtain ⟨middle, hmiddle⟩ := hwalk
      obtain ⟨final, hfinal⟩ := ih hrest
      exact ⟨final, except_bind_eq_ok.mpr ⟨middle, hmiddle, hfinal⟩⟩

/-- The types that a method names have a type in emitted code. -/
structure MethodTyped (t : Target n) (m : Method n) : Prop where
  returns : t.Typed (t.shape m.returns)
  params : ∀ field ∈ m.params, t.Typed (t.shape field.ty)
  throws : ∀ field ∈ m.throws, t.Typed (t.shape field.ty)

/-! What a unit that was emitted says about the types it names. -/

theorem typed_of_recordUnit {id : Fin n.records} {unit : SourceUnit}
    (h : t.recordUnit id = .ok unit) : ∀ shape ∈ t.schema.fieldShapes id, t.Typed shape := by
  obtain ⟨code, hcode, _⟩ := except_bind_eq_ok.mp h
  obtain ⟨plan, hplan, _⟩ := except_bind_eq_ok.mp hcode
  obtain ⟨fields, hfields, _⟩ := except_bind_eq_ok.mp hplan
  intro shape hshape
  obtain ⟨field, hfield, rfl⟩ := List.mem_map.mp hshape
  obtain ⟨_, _, hplanned⟩ := exists_of_mapM hfields hfield
  obtain ⟨_, _, hplanned⟩ := except_bind_eq_ok.mp hplanned
  obtain ⟨_, _, hplanned⟩ := except_bind_eq_ok.mp hplanned
  obtain ⟨text, htext, _⟩ := except_bind_eq_ok.mp hplanned
  exact ⟨text, htext⟩

theorem typed_of_planParam {field : Field n} {plan : ParamPlan n}
    (h : t.planParam field = .ok plan) : t.Typed (t.shape field.ty) := by
  obtain ⟨_, _, h⟩ := except_bind_eq_ok.mp h
  obtain ⟨text, htext, _⟩ := except_bind_eq_ok.mp h
  exact ⟨text, htext⟩

theorem methodTyped_of_items {service : ServiceDecl n} {m : Method n} {plan : MethodPlan n}
    {items : List Code.Item} (hplan : t.planMethod service m = .ok plan)
    (hitems : plan.items = .ok items) : t.MethodTyped m := by
  obtain ⟨params, hparams, hrest⟩ := except_bind_eq_ok.mp hplan
  obtain ⟨output, houtput, hmake⟩ := except_bind_eq_ok.mp hrest
  cases hmake
  obtain ⟨_, _, hrest⟩ := except_bind_eq_ok.mp hitems
  obtain ⟨_, hthrows, _⟩ := except_bind_eq_ok.mp hrest
  constructor
  case returns => exact ⟨output, houtput⟩
  case params =>
    intro field hfield
    obtain ⟨_, _, hparam⟩ := exists_of_mapM hparams hfield
    exact typed_of_planParam hparam
  case throws =>
    intro field hfield
    obtain ⟨_, _, hthrow⟩ := exists_of_mapM hthrows hfield
    obtain ⟨text, htext, _⟩ := except_bind_eq_ok.mp hthrow
    exact ⟨text, htext⟩

/-- The methods of a surface of a service can be written. -/
def Writes (t : Target n) (surface : Surface) (service : ServiceDecl n) : Prop :=
  ∃ plans, t.planMethods surface service = .ok plans ∧ ∃ calls, plans.mapM (·.items) = .ok calls

theorem writes_of_serviceUnit {surface : Surface} {id : Fin n.services} {unit : SourceUnit}
    (h : t.serviceUnit surface id = .ok unit) :
    t.Writes surface (t.schema.service id) ∧
      '<' ∉ (clientName (t.schema.service id)).toList := by
  obtain ⟨code, hcode, _⟩ := except_bind_eq_ok.mp h
  obtain ⟨plans, hplans, hrest⟩ := except_bind_eq_ok.mp hcode
  obtain ⟨calls, hcalls, hrest⟩ := except_bind_eq_ok.mp hrest
  obtain ⟨client, hclient, _⟩ := except_bind_eq_ok.mp hrest
  refine ⟨⟨plans, hplans, calls, hcalls⟩, fun hname => ?_⟩
  rw [clientItems] at hclient
  simp only [String.contains_char_eq, hname] at hclient
  cases hclient

theorem Writes.methodTyped {service : ServiceDecl n} (h : t.Writes .whole service) :
    ∀ m ∈ service.methods, t.MethodTyped m := by
  obtain ⟨plans, hplans, calls, hcalls⟩ := h
  intro m hm
  obtain ⟨plan, hmem, hplan⟩ := exists_of_mapM hplans hm
  obtain ⟨items, _, hitems⟩ := exists_of_mapM hcalls hmem
  exact methodTyped_of_items hplan hitems

theorem Writes.listed {service : ServiceDecl n} (h : t.Writes .whole service) (key : String) :
    t.Writes (.listed key) service := by
  obtain ⟨plans, hplans, calls, hcalls⟩ := h
  have hfilter : ((Surface.listed key).methods service).Sublist service.methods :=
    List.filter_sublist
  obtain ⟨kept, hkept, hsub⟩ := exists_mapM_of_sublist hfilter hplans
  obtain ⟨keptCalls, hkeptCalls, _⟩ := exists_mapM_of_sublist hsub hcalls
  exact ⟨kept, hkept, keptCalls, hkeptCalls⟩

/-- What the units of a whole schema tell about any pruned service. -/
structure EmitsWhole (t : Target n) : Prop where
  fields : t.FieldsTyped
  methods : ∀ id, t.Writes .whole (t.schema.service id)
  names : ∀ id, '<' ∉ (clientName (t.schema.service id)).toList

theorem emitsWhole_of_units {records services : List SourceUnit}
    (hrecords : t.schema.recordOrder.mapM t.recordUnit = .ok records)
    (hservices : (List.finRange n.services).mapM (t.serviceUnit .whole) = .ok services) :
    t.EmitsWhole := by
  have hservice : ∀ id, t.Writes .whole (t.schema.service id) ∧
      '<' ∉ (clientName (t.schema.service id)).toList := by
    intro id
    obtain ⟨unit, _, hunit⟩ := exists_of_mapM hservices (List.mem_finRange id)
    exact writes_of_serviceUnit hunit
  constructor
  case fields =>
    intro id
    obtain ⟨unit, _, hunit⟩ := exists_of_mapM hrecords (t.schema.mem_recordOrder id)
    exact typed_of_recordUnit hunit
  case methods => exact fun id => (hservice id).1
  case names => exact fun id => (hservice id).2

namespace EmitsWhole

theorem exists_reach (h : t.EmitsWhole) (key : String) (id : Fin n.services) :
    ∃ reach, t.schema.reach key id = .ok reach := by
  have hparameters : ∃ final,
      t.schema.walkAll (.all n) (t.schema.parameterTypes key id) = .ok final := by
    apply exists_walkAll h.fields
    intro ty hty
    obtain ⟨m, hm, hty⟩ := List.mem_flatMap.mp hty
    obtain ⟨field, hfield, rfl⟩ := List.mem_map.mp hty
    exact ((h.methods id).methodTyped m (List.mem_of_mem_filter hm)).params field hfield
  have hresults : ∃ final,
      t.schema.walkAll (.all n) (t.schema.resultTypes key id) = .ok final := by
    apply exists_walkAll h.fields
    intro ty hty
    obtain ⟨ancestor, _, hty⟩ := List.mem_flatMap.mp hty
    obtain ⟨m, hm, hty⟩ := List.mem_flatMap.mp hty
    have htyped := (h.methods ancestor).methodTyped m (List.mem_of_mem_filter hm)
    obtain rfl | hthrown := List.mem_cons.mp hty
    · exact htyped.returns
    · obtain ⟨field, hfield, rfl⟩ := List.mem_map.mp hthrown
      exact htyped.throws field hfield
  obtain ⟨parameters, hparameters⟩ := hparameters
  obtain ⟨results, hresults⟩ := hresults
  exact ⟨_, except_bind_eq_ok.mpr ⟨parameters, hparameters,
    except_bind_eq_ok.mpr ⟨results, hresults, rfl⟩⟩⟩

theorem exists_reachAll (h : t.EmitsWhole) (key : String) (ids : List (Fin n.services)) :
    ∃ reach, t.schema.reachAll key ids = .ok reach := by
  induction ids with
  | nil => exact ⟨{}, rfl⟩
  | cons id ids ih =>
      obtain ⟨first, hfirst⟩ := h.exists_reach key id
      obtain ⟨rest, hrest⟩ := ih
      exact ⟨first.merge rest, except_bind_eq_ok.mpr ⟨first, hfirst,
        except_bind_eq_ok.mpr ⟨rest, hrest, rfl⟩⟩⟩

theorem exists_serviceUnits (h : t.EmitsWhole) (key : String) (ids : List (Fin n.services)) :
    ∃ units, ids.mapM (t.serviceUnit (.listed key)) = .ok units := by
  apply exists_mapM
  intro id _
  apply exists_serviceUnit (h.names id) ((h.methods id).listed key)
  apply exists_mapM
  intro entry _
  obtain ⟨plans, hplans, _⟩ := (h.methods entry.1).listed key
  exact ⟨_, except_bind_eq_ok.mpr ⟨plans, hplans, rfl⟩⟩

end EmitsWhole

theorem isDeclaration_of_recordUnit {id : Fin n.records} {unit : SourceUnit}
    (h : t.recordUnit id = .ok unit) : unit.kind.isDeclaration = true := by
  obtain ⟨code, _, hmake⟩ := except_bind_eq_ok.mp h
  cases hmake
  cases (t.schema.record id).kind <;> rfl

theorem not_isDeclaration_of_serviceUnit {surface : Surface} {id : Fin n.services}
    {unit : SourceUnit} (h : t.serviceUnit surface id = .ok unit) :
    ¬ unit.kind.isDeclaration = true := by
  obtain ⟨code, _, hmake⟩ := except_bind_eq_ok.mp h
  cases hmake
  exact Bool.false_ne_true

theorem filter_isDeclaration {enums : List (Fin n.enums)} {records : List (Fin n.records)}
    {services : List (Fin n.services)} {surface : Surface}
    {recordUnits serviceUnits : List SourceUnit}
    (hrecords : records.mapM t.recordUnit = .ok recordUnits)
    (hservices : services.mapM (t.serviceUnit surface) = .ok serviceUnits) :
    (enums.map t.enumUnit ++ recordUnits ++ serviceUnits).filter (·.kind.isDeclaration) =
      enums.map t.enumUnit ++ recordUnits := by
  have henums : ∀ unit ∈ enums.map t.enumUnit, unit.kind.isDeclaration = true := by
    intro unit hunit
    obtain ⟨id, _, rfl⟩ := List.mem_map.mp hunit
    rfl
  have hkept : ∀ unit ∈ recordUnits, unit.kind.isDeclaration = true :=
    forall_mem_of_forall₂ ((forall₂_of_mapM hrecords).imp fun _ _ => isDeclaration_of_recordUnit)
  have hdropped : ∀ unit ∈ serviceUnits, ¬ unit.kind.isDeclaration = true :=
    forall_mem_of_forall₂
      ((forall₂_of_mapM hservices).imp fun _ _ => not_isDeclaration_of_serviceUnit)
  rw [List.filter_append, List.filter_append, List.filter_eq_self.mpr henums,
    List.filter_eq_self.mpr hkept, List.filter_eq_nil_iff.mpr hdropped, List.append_nil]

/-- If a whole schema can be emitted, so can each of its services pruned to its allow list; and the
enums and records that come with the pruned service are units of the whole schema, unchanged and in
the same order. -/
theorem prunedUnits_sublist_units {whole : List SourceUnit} (h : t.units none = .ok whole)
    (id : Fin n.services) :
    ∃ pruned, t.prunedUnits none id = .ok pruned ∧
      (pruned.filter (·.kind.isDeclaration)).Sublist whole := by
  rw [units_none] at h
  rw [prunedUnits_none]
  obtain ⟨records, hrecords, hrest⟩ := except_bind_eq_ok.mp h
  obtain ⟨constants, _, hrest⟩ := except_bind_eq_ok.mp hrest
  obtain ⟨services, hservices, hwhole⟩ := except_bind_eq_ok.mp hrest
  cases hwhole
  have hemits := emitsWhole_of_units hrecords hservices
  obtain ⟨reach, hreach⟩ :=
    hemits.exists_reachAll t.config.allowListKey (t.schema.serviceChain id)
  have hfilter : (t.schema.recordOrder.filter reach.hasRecord).Sublist t.schema.recordOrder :=
    List.filter_sublist
  have henums : ((List.finRange n.enums).filter reach.hasEnum).Sublist (List.finRange n.enums) :=
    List.filter_sublist
  obtain ⟨kept, hkept, hsub⟩ := exists_mapM_of_sublist hfilter hrecords
  obtain ⟨pruned, hpruned⟩ :=
    hemits.exists_serviceUnits t.config.allowListKey (t.schema.serviceChain id).reverse
  refine ⟨_, except_bind_eq_ok.mpr ⟨reach, congrArg TypedefCycle.orFault hreach,
    except_bind_eq_ok.mpr ⟨kept, hkept, except_bind_eq_ok.mpr ⟨pruned, hpruned, rfl⟩⟩⟩, ?_⟩
  rw [filter_isDeclaration hkept hpruned]
  exact ((henums.map t.enumUnit).append hsub).trans
    ((List.sublist_append_left _ constants).trans (List.sublist_append_left _ services))

end Target

namespace Schema

theorem exists_grove_wholeUnits : ∃ units, grove.units none = .ok units := by
  obtain ⟨records, hrecords⟩ : ∃ units,
      grove.schema.recordOrder.mapM grove.recordUnit = .ok units := ⟨_, rfl⟩
  have hservice : ∀ id ∈ List.finRange groveCensus.services,
      ∃ unit, grove.serviceUnit .whole id = .ok unit := by
    intro id hmem
    have hid : id = gardenId ∨ id = groveId := by
      revert id
      decide
    obtain rfl | rfl := hid
    · exact Target.exists_serviceUnit (by decide) ⟨_, rfl, _, rfl⟩ ⟨_, rfl⟩
    · exact Target.exists_serviceUnit (by decide) ⟨_, rfl, _, rfl⟩ ⟨_, rfl⟩
  obtain ⟨services, hservices⟩ := exists_mapM hservice
  have hconstants : grove.constantScopes.mapM grove.constantsUnit = .ok [] := by
    have hscopes : grove.constantScopes = [] := congrArg List.eraseReps List.mergeSort_nil
    simp [hscopes, pure, Except.pure]
  rw [Target.units_none]
  exact ⟨_, except_bind_eq_ok.mpr ⟨records, hrecords, except_bind_eq_ok.mpr ⟨[], hconstants,
    except_bind_eq_ok.mpr ⟨services, hservices, rfl⟩⟩⟩⟩

theorem prunedUnits_sublist_grove :
    ∃ whole pruned, grove.units none = .ok whole ∧ grove.prunedUnits none groveId = .ok pruned ∧
      (pruned.filter (·.kind.isDeclaration)).Sublist whole := by
  obtain ⟨whole, hwhole⟩ := exists_grove_wholeUnits
  obtain ⟨pruned, hpruned, hsub⟩ := Target.prunedUnits_sublist_units hwhole groveId
  exact ⟨whole, pruned, hwhole, hpruned, hsub⟩

end Schema

end WireIdl
