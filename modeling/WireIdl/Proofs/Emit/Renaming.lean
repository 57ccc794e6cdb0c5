import WireIdl.Proofs.Emit.Agreement
import WireIdl.Proofs.Emit.Hook

/-! What becomes of emitted code when typedefs get other names. Nothing changes where the text of a
record names no typedef; it names one for an obfuscated container that is written with it. -/

namespace WireIdl

variable {n : Census}

theorem RecordDecl.mapTypes_id (r : RecordDecl n) : r.mapTypes id = r := by
  obtain ⟨name, scope, kind, fields, doc?, deprecated, location?⟩ := r
  simp [mapTypes, Field.mapType]

theorem Method.mapTypes_id (m : Method n) : m.mapTypes id = m := by
  obtain ⟨name, returns, params, throws, oneWay, annotations, doc?, deprecated⟩ := m
  simp [mapTypes, Field.mapType]

theorem ServiceDecl.mapTypes_id (service : ServiceDecl n) : service.mapTypes id = service := by
  obtain ⟨name, scope, extends?, methods, annotations, doc?, deprecated, location?⟩ := service
  simp [mapTypes, Method.mapTypes_id]

namespace Schema

variable {s : Schema n} {typedefs : Vector (Typedef n) n.typedefs}

/-- A schema with other declarations of its typedefs. -/
def withTypedefs (s : Schema n) (typedefs : Vector (Typedef n) n.typedefs) : Schema n :=
  { s with typedefs }

/-- Typedefs that stand for the same types, under any names. -/
def SameTargets (s : Schema n) (typedefs : Vector (Typedef n) n.typedefs) : Prop :=
  ∀ id, ((s.withTypedefs typedefs).typedef id).target = (s.typedef id).target

theorem SameTargets.followTypedefs (h : s.SameTargets typedefs) (steps : Nat)
    (seen : List (Fin n.typedefs)) (ty : Ty n) :
    Parallel Eq (s.followTypedefs steps seen ty)
      ((s.withTypedefs typedefs).followTypedefs steps seen ty) := by
  induction steps generalizing seen ty with
  | zero =>
      cases ty with
      | typedef id =>
          rw [Schema.followTypedefs, Schema.followTypedefs]
          split
          · exact .error
          · exact .error
      | _ => exact .ok rfl
  | succ steps ih =>
      cases ty with
      | typedef id =>
          rw [Schema.followTypedefs, Schema.followTypedefs]
          split
          · exact .error
          · have htarget : ((s.withTypedefs typedefs).typedef id).target = (s.typedef id).target :=
              h id
            rw [htarget]
            exact ih _ _
      | _ => exact .ok rfl

theorem ofTy_agrees {link link' : Fin n.typedefs → Shape n}
    (h : ∀ inner, (link inner).Agrees id (link' inner)) (ty : Ty n) :
    (Shape.ofTy link ty).Agrees id (.ofTy link' ty) := by
  induction ty with
  | list element ih => exact .list ih
  | set element ih => exact .set ih
  | map key value ihKey ihValue => exact .map ihKey ihValue
  | typedef inner => exact h inner
  | void => exact .void
  | bool => exact .bool
  | byte => exact .byte
  | i16 => exact .i16
  | i32 => exact .i32
  | i64 => exact .i64
  | double => exact .double
  | string => exact .string
  | binary => exact .binary
  | enum inner => exact .enum inner
  | record _ inner => exact .record inner
  | service inner => exact .service inner

theorem SameTargets.trueType (h : s.SameTargets typedefs) (ty : Ty n) :
    Parallel Eq (s.trueType ty) ((s.withTypedefs typedefs).trueType ty) :=
  h.followTypedefs n.typedefs [] ty

theorem SameTargets.typedefShape_of_link (h : s.SameTargets typedefs) {links : Nat}
    (hlink : ∀ part, (s.typedefLink links part).Agrees id
      ((s.withTypedefs typedefs).typedefLink links part)) (inner : Fin n.typedefs) :
    (s.typedefShape links inner).Agrees id
      ((s.withTypedefs typedefs).typedefShape links inner) := by
  have htrue := h.trueType (.typedef inner)
  cases hcore : s.trueType (.typedef inner) with
  | error cycle =>
      rw [hcore] at htrue
      obtain ⟨cycle', hcycle'⟩ := htrue.of_error
      rw [typedefShape_of_cycle hcore, typedefShape_of_cycle hcycle']
      exact .cyclic _ _
  | ok core =>
      rw [hcore] at htrue
      obtain ⟨_, hcore', rfl⟩ := htrue.of_ok
      rw [typedefShape_of_trueType hcore, typedefShape_of_trueType hcore']
      exact ofTy_agrees hlink core

theorem SameTargets.typedefShape (h : s.SameTargets typedefs) (links : Nat)
    (inner : Fin n.typedefs) :
    (s.typedefShape links inner).Agrees id
      ((s.withTypedefs typedefs).typedefShape links inner) := by
  induction links generalizing inner with
  | zero => exact h.typedefShape_of_link (fun _ => .cyclic _ _) inner
  | succ links ih =>
      apply h.typedefShape_of_link
      exact ih

theorem SameTargets.shape (h : s.SameTargets typedefs) (ty : Ty n) :
    (s.shape ty).Agrees id ((s.withTypedefs typedefs).shape ty) :=
  ofTy_agrees (h.typedefShape n.typedefs) ty

theorem SameTargets.retyped (h : s.SameTargets typedefs) :
    s.Retyped id (s.withTypedefs typedefs) where
  enum _ := rfl
  record inner := ((s.record inner).mapTypes_id).symm
  service inner := ((s.service inner).mapTypes_id).symm
  constants := (List.map_id s.constants).symm
  shape := h.shape
  trueType ty := (h.trueType ty).imp fun _ _ => congrArg Ty.recordId?

/-! ### What the text of a record names -/

/-- The types that the text of a record names for a field. -/
def summaryTypes (s : Schema n) (field : Field n) : List (Ty n) :=
  if field.redacted || !field.obfuscated then []
  else
    match s.shape field.ty with
    | .list element _ | .set element _ => [element]
    | .map key _ value _ => [key, value]
    | _ => []

/-- The text of a record names no typedef. -/
def SummaryIsClear (s : Schema n) (id : Fin n.records) : Prop :=
  ∀ field ∈ (s.record id).fields, ∀ ty ∈ s.summaryTypes field, ty.typedefs = []

theorem typeName_of_clear {ty : Ty n} (h : ty.typedefs = []) :
    (s.withTypedefs typedefs).typeName ty = s.typeName ty := by
  induction ty with
  | list element ih | set element ih => rw [typeName, typeName, ih h]
  | map key value ihKey ihValue =>
      obtain ⟨hkey, hvalue⟩ := List.append_eq_nil_iff.mp h
      rw [typeName, typeName, ihKey hkey, ihValue hvalue]
  | typedef inner => cases h
  | _ => rfl

theorem SameTargets.showing (h : s.SameTargets typedefs) {field : Field n}
    (hclear : ∀ ty ∈ s.summaryTypes field, ty.typedefs = []) :
    (s.withTypedefs typedefs).showing field = s.showing field := by
  have hshape := h.shape field.ty
  rw [summaryTypes] at hclear
  rw [Schema.showing, Schema.showing]
  generalize s.shape field.ty = a at *
  generalize (s.withTypedefs typedefs).shape field.ty = b at *
  cases hredacted : field.redacted with
  | true => rfl
  | false =>
      cases hobfuscated : field.obfuscated with
      | false => cases hshape <;> rfl
      | true =>
          rw [hredacted, hobfuscated] at hclear
          cases hshape with
          | list _ | set _ =>
              exact congrArg (Showing.items _) (typeName_of_clear (hclear _ List.mem_cons_self))
          | map _ _ =>
              have hkey := hclear _ List.mem_cons_self
              have hvalue := hclear _ (List.mem_cons_of_mem _ List.mem_cons_self)
              exact congrArg₂ Showing.entries (typeName_of_clear hkey) (typeName_of_clear hvalue)
          | _ => rfl

end Schema

namespace Target

variable {s : Schema n} {c : Config} {typedefs : Vector (Typedef n) n.typedefs}

/-- A shape that has a type in emitted code shows no fault, which is all that a name could change.
-/
theorem eq_of_typeText {a b : Shape n} {t : Target n} {text : String} (h : a.Agrees id b)
    (htext : t.typeText a = .ok text) : a = b := by
  induction h generalizing text with
  | @list w element element' _ ih =>
      obtain ⟨part, hpart, _⟩ := except_bind_eq_ok.mp htext
      exact congrArg (Shape.list w) (funext fun _ => ih hpart)
  | @set w element element' _ ih =>
      obtain ⟨_, _, hrest⟩ := except_bind_eq_ok.mp htext
      obtain ⟨part, hpart, _⟩ := except_bind_eq_ok.mp hrest
      exact congrArg (Shape.set w) (funext fun _ => ih hpart)
  | @map k v key key' value value' _ _ ihKey ihValue =>
      obtain ⟨_, _, hrest⟩ := except_bind_eq_ok.mp htext
      obtain ⟨keyText, hkey, hrest⟩ := except_bind_eq_ok.mp hrest
      obtain ⟨valueText, hvalue, _⟩ := except_bind_eq_ok.mp hrest
      have hkeys : key = key' := funext fun _ => ihKey hkey
      have hvalues : value = value' := funext fun _ => ihValue hvalue
      subst hkeys hvalues
      rfl
  | cyclic _ _ => cases htext
  | _ => rfl

/-! ### Records -/

theorem defaultInitializer_renamed (h : s.SameTargets typedefs) (field : Field n) :
    Parallel Eq (defaultInitializer ⟨s, c⟩ field)
      (defaultInitializer ⟨s.withTypedefs typedefs, c⟩ field) := by
  rw [defaultInitializer, defaultInitializer]
  split
  · exact .ok rfl
  · next v _ => exact (initializer_retyped h.retyped field.ty v).bind_same fun _ => .ok rfl

theorem planField_renamed (h : s.SameTargets typedefs) (owner : Fin n.records) (field : Field n) :
    Parallel Eq (planField ⟨s, c⟩ owner field)
      (planField ⟨s.withTypedefs typedefs, c⟩ owner field) := by
  have hshape := h.shape field.ty
  refine (needsBox_retyped h.retyped owner field.ty).bind_same fun boxed => ?_
  refine (defaultInitializer_renamed h field).bind_same fun default? => ?_
  refine (typeText_agrees h.retyped hshape).bind_of_ok fun text _ htext _ hsame => ?_
  subst hsame
  refine .ok ?_
  have heq : shape ⟨s, c⟩ field.ty = shape ⟨s.withTypedefs typedefs, c⟩ field.ty :=
    eq_of_typeText hshape htext
  rw [heq]
  rfl

theorem planFields_renamed (h : s.SameTargets typedefs) (owner : Fin n.records) :
    Parallel Eq (planFields ⟨s, c⟩ owner) (planFields ⟨s.withTypedefs typedefs, c⟩ owner) :=
  Parallel.mapM_same fun field _ => planField_renamed h owner field

theorem writeFrame_renamed (h : s.SameTargets typedefs) (name : String)
    (fields : List (Field n × Access)) :
    Parallel Eq (writeFrame ⟨s, c⟩ name fields)
      (writeFrame ⟨s.withTypedefs typedefs, c⟩ name fields) := by
  have hframe : Parallel Eq (writeFrame ⟨s, c⟩ name fields)
      (writeFrame ⟨s.withTypedefs typedefs, c⟩ name (fields.map id)) :=
    writeFrame_retyped h.retyped name fields
  rwa [List.map_id] at hframe

theorem readFrame_renamed (h : s.SameTargets typedefs) (readings : List (Reading n)) :
    Parallel Eq (readFrame ⟨s, c⟩ readings)
      (readFrame ⟨s.withTypedefs typedefs, c⟩ readings) := by
  have hframe := readFrame_retyped (c := c) h.retyped readings
  rwa [show (fun reading => reading.mapType id) = @id (Reading n) from rfl, List.map_id] at hframe

theorem displayArgs_renamed (h : s.SameTargets typedefs) {plans : List (FieldPlan n)}
    (hclear : ∀ p ∈ plans, ∀ ty ∈ s.summaryTypes p.field, ty.typedefs = []) :
    displayArgs ⟨s.withTypedefs typedefs, c⟩ plans = displayArgs ⟨s, c⟩ plans := by
  refine List.filterMap_congr fun p hp => ?_
  rw [FieldPlan.displayArg?, FieldPlan.displayArg?, h.showing (hclear p hp)]

theorem seedLine_renamed (h : s.SameTargets typedefs) (p : FieldPlan n) :
    RecordPlan.seedLine ⟨s, c⟩ p = RecordPlan.seedLine ⟨s.withTypedefs typedefs, c⟩ p := by
  rw [RecordPlan.seedLine, RecordPlan.seedLine]
  split
  · rw [text_retyped h.retyped]
  · rfl

theorem builderItems_renamed (h : s.SameTargets typedefs) (decl : RecordDecl n)
    (plans : List (FieldPlan n)) :
    RecordPlan.builderItems ⟨⟨s, c⟩, decl, plans⟩ =
      RecordPlan.builderItems ⟨⟨s.withTypedefs typedefs, c⟩, decl, plans⟩ := by
  have hseeds : plans.map (RecordPlan.seedLine ⟨s, c⟩) =
      plans.map (RecordPlan.seedLine ⟨s.withTypedefs typedefs, c⟩) :=
    List.map_congr_left fun p _ => seedLine_renamed h p
  simp only [RecordPlan.builderItems, RecordPlan.newFunction, hseeds]
  rfl

theorem codecItem_renamed (h : s.SameTargets typedefs) (decl : RecordDecl n)
    (plans : List (FieldPlan n)) :
    Parallel Eq (RecordPlan.codecItem ⟨⟨s, c⟩, decl, plans⟩)
      (RecordPlan.codecItem ⟨⟨s.withTypedefs typedefs, c⟩, decl, plans⟩) := by
  refine (writeFrame_renamed h _ _).bind_same fun write => ?_
  exact (readFrame_renamed h _).bind_same fun read => .ok rfl

theorem displayItems_renamed (h : s.SameTargets typedefs) (decl : RecordDecl n)
    {plans : List (FieldPlan n)}
    (hclear : ∀ p ∈ plans, ∀ ty ∈ s.summaryTypes p.field, ty.typedefs = []) :
    RecordPlan.displayItems ⟨⟨s, c⟩, decl, plans⟩ =
      RecordPlan.displayItems ⟨⟨s.withTypedefs typedefs, c⟩, decl, plans⟩ := by
  have hcall : displayCall ⟨s, c⟩ decl.name plans =
      displayCall ⟨s.withTypedefs typedefs, c⟩ decl.name plans := by
    rw [displayCall, displayCall, displayArgs_renamed h hclear]
    rfl
  simp only [RecordPlan.displayItems, hcall]
  rfl

theorem field_of_planField {t : Target n} {owner : Fin n.records} {field : Field n}
    {p : FieldPlan n} (h : t.planField owner field = .ok p) : p.field = field := by
  obtain ⟨boxed, _, hrest⟩ := except_bind_eq_ok.mp h
  obtain ⟨default?, _, hrest⟩ := except_bind_eq_ok.mp hrest
  obtain ⟨text, _, hrest⟩ := except_bind_eq_ok.mp hrest
  cases hrest
  rfl

theorem items_renamed (h : s.SameTargets typedefs) (id : Fin n.records)
    {plans : List (FieldPlan n)} (hplans : planFields ⟨s, c⟩ id = .ok plans) :
    Parallel (fun items items' => s.SummaryIsClear id → items = items')
      (RecordPlan.items ⟨⟨s, c⟩, s.record id, plans⟩)
      (RecordPlan.items ⟨⟨s.withTypedefs typedefs, c⟩, s.record id, plans⟩) := by
  refine (codecItem_renamed h _ _).bind_same fun codec => .ok fun hclear => ?_
  have hfields : ∀ p ∈ plans, ∀ ty ∈ s.summaryTypes p.field, ty.typedefs = [] := by
    have hfrom : List.Forall₂ (fun field p => p.field = field) (s.record id).fields plans :=
      (forall₂_of_mapM hplans).imp fun _ _ => field_of_planField
    intro p hp
    obtain ⟨field, hfield, hsame⟩ := exists_of_forall₂ hfrom.flip hp
    rw [hsame]
    exact hclear field hfield
  rw [builderItems_renamed h, displayItems_renamed h _ hfields]
  rfl

theorem recordCode_renamed (h : s.SameTargets typedefs) (id : Fin n.records) :
    Parallel (fun code code' => s.SummaryIsClear id → code = code')
      (recordCode ⟨s, c⟩ id) (recordCode ⟨s.withTypedefs typedefs, c⟩ id) := by
  have hplan : Parallel (fun p p' => ∃ plans, planFields ⟨s, c⟩ id = .ok plans ∧
        p = ⟨⟨s, c⟩, s.record id, plans⟩ ∧ p' = ⟨⟨s.withTypedefs typedefs, c⟩, s.record id, plans⟩)
      (planRecord ⟨s, c⟩ id) (planRecord ⟨s.withTypedefs typedefs, c⟩ id) := by
    refine (planFields_renamed h id).bind_of_ok fun plans plans' hplans _ hsame => .ok ?_
    exact ⟨plans, hplans, rfl, hsame ▸ rfl⟩
  refine hplan.bind fun p p' hp => ?_
  obtain ⟨plans, hplans, rfl, rfl⟩ := hp
  refine (items_renamed h id hplans).bind fun items items' hitems => .ok fun hclear => ?_
  rw [hitems hclear]

theorem recordUnit_renamed (h : s.SameTargets typedefs) (id : Fin n.records) :
    Parallel (fun unit unit' => s.SummaryIsClear id → unit = unit')
      (recordUnit ⟨s, c⟩ id) (recordUnit ⟨s.withTypedefs typedefs, c⟩ id) := by
  refine (recordCode_renamed h id).bind fun code code' hcode => .ok fun hclear => ?_
  rw [hcode hclear]
  rfl

/-! ### Methods -/

theorem planParam_renamed (h : s.SameTargets typedefs) (field : Field n) :
    Parallel Eq (planParam ⟨s, c⟩ field) (planParam ⟨s.withTypedefs typedefs, c⟩ field) := by
  refine (defaultInitializer_renamed h field).bind_same fun default? => ?_
  exact (typeText_agrees h.retyped (h.shape field.ty)).bind_same fun text => .ok rfl

/-- The plans of one method for a schema and for the schema with other typedefs. -/
inductive SamePlan (s : Schema n) (c : Config) (typedefs : Vector (Typedef n) n.typedefs) :
    MethodPlan n → MethodPlan n → Prop where
  | plan (service : ServiceDecl n) (method : Method n) (params : List (ParamPlan n))
      (output : String) :
      SamePlan s c typedefs ⟨⟨s, c⟩, service, method, params, output⟩
        ⟨⟨s.withTypedefs typedefs, c⟩, service, method, params, output⟩

variable {p p' : MethodPlan n}

theorem planMethod_renamed (h : s.SameTargets typedefs) (service : ServiceDecl n)
    (method : Method n) :
    Parallel (SamePlan s c typedefs) (planMethod ⟨s, c⟩ service method)
      (planMethod ⟨s.withTypedefs typedefs, c⟩ service method) := by
  have hparams := Parallel.mapM_same fun field (_ : field ∈ method.params) =>
    planParam_renamed (c := c) h field
  refine hparams.bind_same fun params => ?_
  refine (typeText_agrees h.retyped (h.shape method.returns)).bind_same fun output => ?_
  exact .ok (.plan service method params output)

theorem storeLine_renamed (h : s.SameTargets typedefs) (param : ParamPlan n) :
    MethodPlan.storeLine ⟨s, c⟩ param =
      MethodPlan.storeLine ⟨s.withTypedefs typedefs, c⟩ param := by
  rw [MethodPlan.storeLine, MethodPlan.storeLine]
  split
  · rw [text_retyped h.retyped]
  · rfl

theorem newItem_renamed (h : s.SameTargets typedefs) (hp : SamePlan s c typedefs p p') :
    p.newItem = p'.newItem := by
  obtain ⟨service, method, params, output⟩ := hp
  have hstores : params.map (MethodPlan.storeLine ⟨s, c⟩) =
      params.map (MethodPlan.storeLine ⟨s.withTypedefs typedefs, c⟩) :=
    List.map_congr_left fun param _ => storeLine_renamed h param
  simp only [MethodPlan.newItem, hstores]
  rfl

theorem sendItem_renamed (h : s.SameTargets typedefs) (hp : SamePlan s c typedefs p p') :
    Parallel Eq p.sendItem p'.sendItem := by
  obtain ⟨service, method, params, output⟩ := hp
  exact (writeFrame_renamed h _ _).bind_same fun write => .ok rfl

theorem throwTypes_renamed (h : s.SameTargets typedefs) (hp : SamePlan s c typedefs p p') :
    Parallel Eq p.throwTypes p'.throwTypes := by
  obtain ⟨service, method, params, output⟩ := hp
  refine Parallel.mapM_same fun field _ => ?_
  exact (typeText_agrees h.retyped (h.shape field.ty)).bind_same fun text => .ok rfl

theorem returnsValue_renamed (h : s.SameTargets typedefs) (hp : SamePlan s c typedefs p p') :
    p.returnsValue = p'.returnsValue := by
  obtain ⟨service, method, params, output⟩ := hp
  have hshape := h.shape method.returns
  simp only [MethodPlan.returnsValue, Target.returnsValue, shape]
  generalize s.shape method.returns = a at *
  generalize (s.withTypedefs typedefs).shape method.returns = b at *
  cases hshape <;> rfl

theorem receiveSteps_renamed (h : s.SameTargets typedefs) (hp : SamePlan s c typedefs p p')
    (throws : List (Field n × String)) :
    Parallel Eq (p.receiveSteps throws) (p'.receiveSteps throws) := by
  have hvalue := returnsValue_renamed h hp
  have hreadings : p.replyReadings = p'.replyReadings := by
    rw [MethodPlan.replyReadings, MethodPlan.replyReadings, hvalue]
    cases hp
    rfl
  rw [MethodPlan.receiveSteps, MethodPlan.receiveSteps, hreadings, hvalue]
  obtain ⟨service, method, params, output⟩ := hp
  exact (readFrame_renamed h _).bind_same fun read => .ok rfl

theorem receiveItems_renamed (h : s.SameTargets typedefs) (hp : SamePlan s c typedefs p p')
    (throws : List (Field n × String)) :
    Parallel Eq (p.receiveItems throws) (p'.receiveItems throws) := by
  have hsteps := receiveSteps_renamed h hp throws
  obtain ⟨service, method, params, output⟩ := hp
  rw [MethodPlan.receiveItems, MethodPlan.receiveItems]
  split
  · exact .ok rfl
  · refine Parallel.bind_same ?_ fun item => .ok rfl
    exact hsteps.bind_same fun receive => .ok rfl

theorem methodItems_renamed (h : s.SameTargets typedefs) (hp : SamePlan s c typedefs p p') :
    Parallel Eq p.items p'.items := by
  refine (sendItem_renamed h hp).bind_same fun send => ?_
  refine (throwTypes_renamed h hp).bind_same fun throws => ?_
  refine (receiveItems_renamed h hp throws).bind_same fun receive => .ok ?_
  rw [newItem_renamed h hp]
  obtain ⟨service, method, params, output⟩ := hp
  rfl

/-! ### Services -/

theorem planMethods_renamed (h : s.SameTargets typedefs) (surface : Surface)
    (service : ServiceDecl n) :
    Parallel (List.Forall₂ (SamePlan s c typedefs)) (planMethods ⟨s, c⟩ surface service)
      (planMethods ⟨s.withTypedefs typedefs, c⟩ surface service) :=
  Parallel.mapM (List.forall₂_same.mpr fun method _ => planMethod_renamed h service method)

theorem traitSteps_renamed (service : ServiceDecl n) {methods methods' : List (MethodPlan n)}
    (hmethods : List.Forall₂ (SamePlan s c typedefs) methods methods') :
    traitSteps ⟨s, c⟩ service methods =
      traitSteps ⟨s.withTypedefs typedefs, c⟩ service methods' := by
  have hsteps : ∀ p p', SamePlan s c typedefs p p' → p.traitSteps = p'.traitSteps := by
    rintro _ _ ⟨service, method, params, output⟩
    rfl
  cases hmethods with
  | nil => rfl
  | @cons first first' rest rest' hfirst hrest =>
      have hbodies : rest.map (fun m => Code.Step.blank :: m.traitSteps) =
          rest'.map fun m => Code.Step.blank :: m.traitSteps :=
        map_eq_map_iff_forall₂.mpr (hrest.imp fun p p' hp => congrArg _ (hsteps p p' hp))
      unfold Target.traitSteps
      simp only [List.flatMap_def, hbodies, hsteps _ _ hfirst]
      rfl

theorem clientTraits_renamed (h : s.SameTargets typedefs) (surface : Surface)
    (service : ServiceDecl n) (chain : List (Fin n.services)) :
    Parallel Eq (clientTraits ⟨s, c⟩ surface service chain)
      (clientTraits ⟨s.withTypedefs typedefs, c⟩ surface service chain) := by
  refine Parallel.mapM_same fun (ancestor, depth) _ => ?_
  refine (planMethods_renamed h surface (s.service ancestor)).bind fun methods methods' hmethods =>
    .ok ?_
  have hfunctions : ∀ inherited?, methods.map (·.clientFunction inherited?) =
      methods'.map (·.clientFunction inherited?) := by
    intro inherited?
    refine map_eq_map_iff_forall₂.mpr (hmethods.imp ?_)
    rintro _ _ ⟨service, method, params, output⟩
    rfl
  rw [hfunctions]
  rfl

theorem clientItems_renamed (h : s.SameTargets typedefs) (surface : Surface)
    (id : Fin n.services) :
    Parallel Eq (clientItems ⟨s, c⟩ surface id)
      (clientItems ⟨s.withTypedefs typedefs, c⟩ surface id) := by
  rw [clientItems, clientItems, Schema.serviceChain_retyped h.retyped]
  change Parallel Eq (if (clientName (s.service id)).contains '<' = true then _ else _)
    (if (clientName (s.service id)).contains '<' = true then _ else _)
  split
  · exact .error
  · exact (clientTraits_renamed h surface _ _).bind_same fun traits => .ok rfl

theorem serviceCode_renamed (h : s.SameTargets typedefs) (surface : Surface)
    (id : Fin n.services) :
    Parallel Eq (serviceCode ⟨s, c⟩ surface id)
      (serviceCode ⟨s.withTypedefs typedefs, c⟩ surface id) := by
  refine (planMethods_renamed h surface (s.service id)).bind fun methods methods' hmethods => ?_
  have hitems := Parallel.mapM_eq (hmethods.imp fun _ _ => methodItems_renamed h)
  refine hitems.bind_same fun calls => ?_
  refine (clientItems_renamed h surface id).bind_same fun client => .ok ?_
  rw [traitSteps_renamed _ hmethods]
  rfl

theorem serviceUnit_renamed (h : s.SameTargets typedefs) (surface : Surface)
    (id : Fin n.services) :
    Parallel Eq (serviceUnit ⟨s, c⟩ surface id)
      (serviceUnit ⟨s.withTypedefs typedefs, c⟩ surface id) :=
  (serviceCode_renamed h surface id).bind_same fun _ => .ok rfl

/-! ### Units -/

theorem constantsUnit_renamed (h : s.SameTargets typedefs) (scope : String) :
    Parallel Eq (constantsUnit ⟨s, c⟩ scope)
      (constantsUnit ⟨s.withTypedefs typedefs, c⟩ scope) := by
  refine Parallel.bind_same (Parallel.bind_same ?_ fun _ => .ok rfl) fun _ => .ok rfl
  refine Parallel.mapM_same fun constant _ => ?_
  exact (constantLine_retyped h.retyped constant).bind_same fun line => .ok rfl

theorem recordUnits_renamed (h : s.SameTargets typedefs) (ids : List (Fin n.records)) :
    Parallel (fun units units' => (∀ id ∈ ids, s.SummaryIsClear id) → units = units')
      (ids.mapM (recordUnit ⟨s, c⟩)) (ids.mapM (recordUnit ⟨s.withTypedefs typedefs, c⟩)) := by
  induction ids with
  | nil => exact .ok fun _ => rfl
  | cons id ids ih =>
      rw [List.mapM_cons, List.mapM_cons]
      refine (recordUnit_renamed h id).bind fun unit unit' hunit => ?_
      refine ih.bind fun units units' hunits => .ok fun hclear => ?_
      rw [List.forall_mem_cons] at hclear
      rw [hunit hclear.1, hunits hclear.2]

theorem allUnits_renamed (h : s.SameTargets typedefs) :
    Parallel (fun units units' => (∀ id, s.SummaryIsClear id) → units = units')
      (allUnits ⟨s, c⟩) (allUnits ⟨s.withTypedefs typedefs, c⟩) := by
  refine (recordUnits_renamed h _).bind fun records records' hrecords => ?_
  have hconstants := Parallel.mapM_same fun scope (_ : scope ∈ constantScopes ⟨s, c⟩) =>
    constantsUnit_renamed (c := c) h scope
  refine hconstants.bind_same fun constants => ?_
  have hservices := Parallel.mapM_same fun id (_ : id ∈ List.finRange n.services) =>
    serviceUnit_renamed (c := c) h .whole id
  refine hservices.bind_same fun services => .ok fun hclear => ?_
  rw [hrecords fun id _ => hclear id]
  rfl

theorem listedUnits_renamed (h : s.SameTargets typedefs) (id : Fin n.services) :
    Parallel
      (fun units units' =>
        (∀ reach, s.reachAll c.allowListKey (s.serviceChain id) = .ok reach →
          ∀ record, reach.hasRecord record = true → s.SummaryIsClear record) → units = units')
      (listedUnits ⟨s, c⟩ id) (listedUnits ⟨s.withTypedefs typedefs, c⟩ id) := by
  rw [listedUnits, listedUnits, Schema.serviceChain_retyped h.retyped]
  have hboth := Schema.reachAll_retyped h.retyped c.allowListKey (s.serviceChain id)
  cases hreach : s.reachAll c.allowListKey (s.serviceChain id) with
  | error cycle =>
      rw [hreach] at hboth
      obtain ⟨cycle', hcycle'⟩ := hboth.of_error
      rw [hcycle']
      exact .error
  | ok reach =>
      rw [hreach] at hboth
      obtain ⟨_, hreach', rfl⟩ := hboth.of_ok
      rw [hreach']
      refine (recordUnits_renamed h (s.recordOrder.filter reach.hasRecord)).bind
        fun records records' hrecords => ?_
      have hservices := Parallel.mapM_same
        fun ancestor (_ : ancestor ∈ (s.serviceChain id).reverse) =>
          serviceUnit_renamed (c := c) h (.listed c.allowListKey) ancestor
      refine hservices.bind_same fun services => .ok fun hclear => ?_
      rw [hrecords fun record hrecord =>
        hclear reach rfl record (List.mem_filter.mp hrecord).2]
      rfl

end Target

end WireIdl
