import WireIdl.Proofs.Emit.RootedValues

/-! Records at every root. The plans of a record differ in the texts of types only; what does not
read those texts is the same at every root. -/

namespace WireIdl

open Code

variable {n : Census}

namespace Target

variable (t : Target n) (root : String)

/-! ### Boxing -/

theorem directRecords_rooted (fields : List (Field n)) :
    (t.rooted root).directRecords fields = t.directRecords fields := by
  induction fields with
  | nil => rfl
  | cons field fields ih => simp only [directRecords, ih, rooted_schema]

theorem reachesOwner_rooted (owner : Fin n.records) (fresh stack : List (Fin n.records)) :
    (t.rooted root).reachesOwner owner fresh stack = t.reachesOwner owner fresh stack := by
  fun_induction t.reachesOwner owner fresh stack with
  | case1 fresh => rw [reachesOwner]
  | case2 fresh stack => rw [reachesOwner, if_pos rfl]
  | case3 fresh id stack hne hfresh cycle hcycle =>
      rw [reachesOwner, if_neg hne, dif_pos hfresh, directRecords_rooted, rooted_schema, hcycle]
  | case4 fresh id stack hne hfresh next hnext ih =>
      rw [reachesOwner, if_neg hne, dif_pos hfresh, directRecords_rooted, rooted_schema, hnext]
      exact ih
  | case5 fresh id stack hne hmet ih => rw [reachesOwner, if_neg hne, dif_neg hmet, ih]

@[simp] theorem needsBox_rooted (owner : Fin n.records) (ty : Ty n) :
    (t.rooted root).needsBox owner ty = t.needsBox owner ty := by
  simp only [needsBox, reachesOwner_rooted, rooted_schema]

/-! ### Records -/

end Target

namespace FieldPlan

/-- A plan with another text of its type. -/
def typed (p : FieldPlan n) (type : String) : FieldPlan n :=
  { p with valueType := type }

variable (p : FieldPlan n) (type : String)

@[simp] theorem typed_ident : (p.typed type).ident = p.ident := rfl
@[simp] theorem typed_valueType : (p.typed type).valueType = type := rfl
@[simp] theorem typed_default? : (p.typed type).default? = p.default? := rfl
theorem typed_heldType : (p.typed type).heldType =
    if p.boxed then "::std::boxed::Box<" ++ type ++ ">" else type := rfl
theorem typed_storedType : (p.typed type).storedType =
    if p.optional then "Option<" ++ (p.typed type).heldType ++ ">" else (p.typed type).heldType :=
  rfl
@[simp] theorem typed_held (expr : String) : (p.typed type).held expr = p.held expr := rfl

end FieldPlan

namespace Target

variable (t : Target n) (root : String)

/-- Plans that differ in the text of the type only. -/
def FieldPlans (plans : String → FieldPlan n) : Prop :=
  ∃ (p : FieldPlan n) (types : String → String),
    TemplatedText t types ∧ plans = fun root => p.typed (types root)

theorem planFields_uniform (owner : Fin n.records) :
    Uniform (ListOf t.FieldPlans) fun root => (t.rooted root).planFields owner := by
  simp only [planFields, rooted_schema]
  refine Uniform.mapM fun field _ => ?_
  simp only [planField, needsBox_rooted, shape_rooted, defaultInitializer, initializer_rooted,
    rooted_schema]
  refine .bind_same fun boxed _ => ?_
  refine .bind_same fun default? _ => ?_
  refine (t.typeText_uniform _).bind fun types htypes => .ok ?_
  refine ⟨{
    field, boxed, default?
    ident := Ident.field t.config field.name
    shape := t.shape field.ty
    valueType := ""
    optional := (t.schema.record owner).isUnion || !field.isRequired }, types, htypes, rfl⟩

end Target

namespace RecordPlan

/-- A plan without the texts of types. -/
def untyped (p : RecordPlan n) : RecordPlan n :=
  { p with fields := p.fields.map (·.typed "") }

theorem identityItems_untyped (p : RecordPlan n) : p.untyped.identityItems = p.identityItems := by
  simp only [identityItems, equalityText, hashLines, untyped, List.isEmpty_map, List.map_map,
    List.flatMap_map, Function.comp_def]
  rfl

theorem displayItems_untyped (p : RecordPlan n) : p.untyped.displayItems = p.displayItems := by
  simp only [displayItems, Target.displayCall, Target.displayFormat, Target.displayArgs, untyped,
    List.map_map, List.filterMap_map, Function.comp_def]
  rfl

theorem buildFunction_untyped (p : RecordPlan n) : p.untyped.buildFunction = p.buildFunction := by
  simp only [buildFunction, unionCheck, untyped, List.map_map, Function.comp_def]
  rfl

end RecordPlan

namespace Target

variable {t : Target n}

theorem exists_untyped {fields : String → List (FieldPlan n)} (h : ListOf t.FieldPlans fields) :
    ∃ plans, ∀ root, (fields root).map (·.typed "") = plans := by
  refine h.exists_map fun family hfamily root => ?_
  obtain ⟨p, types, _, rfl⟩ := hfamily
  rfl

section

variable {types : String → String} (htypes : TemplatedText t types) (p : FieldPlan n)

include htypes

theorem templated_heldType : TemplatedText t fun root => (p.typed (types root)).heldType := by
  simp only [FieldPlan.typed_heldType]
  split
  · refine Closed.templated ?_
    simp only [String.toList_append, List.append_assoc]
    fun_prop (disch := rfl)
  · exact htypes

theorem templated_storedType :
    TemplatedText t fun root => (p.typed (types root)).storedType := by
  have hheld := templated_heldType htypes p
  simp only [FieldPlan.typed_storedType]
  split
  · refine Closed.templated ?_
    simp only [String.toList_append, List.append_assoc]
    fun_prop (disch := rfl)
  · exact hheld

end

theorem typed_accessor (p : FieldPlan n) (type : String) : RecordPlan.accessor (p.typed type) =
    headSteps p.field.doc? p.field.deprecated ++
      [ if p.optional then
          .block ("pub fn " ++ p.ident ++ "(&self) -> " ++ ("Option<&" ++ type ++ ">"))
            [.line p.asOption]
        else
          .block ("pub fn " ++ p.ident ++ "(&self) -> " ++ ("&" ++ type))
            [.line ("&self." ++ p.ident)],
        .blank] :=
  rfl

section

variable {fields : String → List (FieldPlan n)} (h : ListOf t.FieldPlans fields)
  (decl : RecordDecl n)

include h

theorem templated_definition : TemplatedSteps t fun root =>
    RecordPlan.definition ⟨t.rooted root, decl, fields root⟩ := by
  have hlines : Closed t fun root => (fields root).flatMap fun f =>
      (f.ident ++ ": " ++ f.storedType ++ ",").toList ++ ['\n'] := by
    refine h.closed fun family hfamily => ?_
    obtain ⟨p, types, htypes, rfl⟩ := hfamily
    have hstored := templated_storedType htypes p
    simp only [String.toList_append, List.append_assoc, FieldPlan.typed_ident]
    fun_prop (disch := rfl)
  change TemplatedSteps t fun root =>
    decl.doc?.toList.map .doc ++ [.attribute "derive(Clone)"] ++ serdeSteps t.config ++
      (if decl.deprecated then [.attribute "deprecated"] else []) ++
      [.block ("pub struct " ++ Ident.type decl.name)
        ((fields root).map fun f => .line (f.ident ++ ": " ++ f.storedType ++ ","))]
  simp only [TemplatedSteps, Step.allChars_append, Step.allChars, Step.chars, Step.allChars_map,
    List.append_assoc]
  fun_prop (disch := rfl)

theorem templated_accessors : TemplatedSteps t fun root =>
    RecordPlan.accessors ⟨t.rooted root, decl, fields root⟩ := by
  have haccessors : Closed t fun root => (fields root).flatMap fun f =>
      Step.allChars (RecordPlan.accessor f) := by
    refine h.closed fun family hfamily => ?_
    obtain ⟨p, types, htypes, rfl⟩ := hfamily
    simp only [typed_accessor, Step.allChars_append, Step.allChars]
    split
    · simp only [Step.chars, Step.allChars, String.toList_append, List.append_assoc]
      fun_prop (disch := rfl)
    · simp only [Step.chars, Step.allChars, String.toList_append, List.append_assoc]
      fun_prop (disch := rfl)
  simp only [TemplatedSteps, RecordPlan.accessors, RecordPlan.builder, RecordPlan.name,
    Step.allChars_append, Step.allChars, Step.chars, Step.allChars_flatMap, List.append_assoc]
  fun_prop (disch := rfl)

theorem templated_builderDefinition : TemplatedSteps t fun root =>
    RecordPlan.builderDefinition ⟨t.rooted root, decl, fields root⟩ := by
  have hlines : Closed t fun root => (fields root).flatMap fun f =>
      (f.ident ++ ": Option<" ++ f.heldType ++ ">,").toList ++ ['\n'] := by
    refine h.closed fun family hfamily => ?_
    obtain ⟨p, types, htypes, rfl⟩ := hfamily
    have hheld := templated_heldType htypes p
    simp only [String.toList_append, List.append_assoc, FieldPlan.typed_ident]
    fun_prop (disch := rfl)
  simp only [TemplatedSteps, RecordPlan.builderDefinition, RecordPlan.builder, RecordPlan.name,
    Step.allChars, Step.chars, Step.allChars_map, List.append_assoc]
  fun_prop (disch := rfl)

theorem templated_newFunction : Closed t fun root =>
    (RecordPlan.newFunction ⟨t.rooted root, decl, fields root⟩).chars := by
  have hlines : Closed t fun root => (fields root).flatMap fun f =>
      (RecordPlan.seedLine (t.rooted root) f).toList ++ ['\n'] := by
    refine h.closed fun family hfamily => ?_
    obtain ⟨p, types, htypes, rfl⟩ := hfamily
    simp only [RecordPlan.seedLine, FieldPlan.typed_default?, FieldPlan.typed_ident,
      FieldPlan.typed_held]
    cases p.default? with
    | none => exact .append (.of_same fun _ => rfl) (.const _)
    | some value =>
        have hvalue := value.templated_text t
        simp only [FieldPlan.held]
        split
        · simp only [String.toList_append, List.append_assoc]
          fun_prop (disch := rfl)
        · simp only [String.toList_append, List.append_assoc]
          fun_prop (disch := rfl)
  simp only [RecordPlan.newFunction, Function.chars, Function.headChars, Body.chars, Text.fed,
    List.flatMap_cons, List.flatMap_nil, List.flatMap_map, List.append_assoc]
  fun_prop (disch := rfl)

theorem templated_setters : Closed t fun root =>
    (fields root).flatMap fun f => ['\n'] ++ (RecordPlan.setter f).chars := by
  refine h.closed fun family hfamily => ?_
  obtain ⟨p, types, htypes, rfl⟩ := hfamily
  have hargs := templated_argChars (some "self") (.cons ⟨"value", types, htypes, rfl⟩ .nil)
  simp only [RecordPlan.setter, Function.chars, Function.headChars, FieldPlan.typed_ident,
    FieldPlan.typed_valueType, FieldPlan.typed_held, List.append_assoc]
  fun_prop (disch := rfl)

theorem templated_builderItems : Closed t fun root =>
    (RecordPlan.builderItems ⟨t.rooted root, decl, fields root⟩).flatMap Item.chars := by
  have hnew := templated_newFunction h decl
  have hsetters := templated_setters h
  obtain ⟨plans, hplans⟩ := exists_untyped h
  have hbuild : ∀ root, RecordPlan.buildFunction ⟨t.rooted root, decl, fields root⟩ =
      RecordPlan.buildFunction ⟨t, decl, plans⟩ := fun root => by
    rw [← RecordPlan.buildFunction_untyped, ← hplans root]
    rfl
  have hfrom : ∀ root, (fields root).map RecordPlan.fromLine = plans.map RecordPlan.fromLine :=
    fun root => by
      rw [← hplans root, List.map_map]
      rfl
  simp only [RecordPlan.builderItems, hbuild, hfrom, RecordPlan.builder, RecordPlan.name,
    Item.chars, Impl.chars, Impl.headChars, typesChars, List.flatMap_cons, List.flatMap_nil,
    List.flatMap_append, List.flatMap_map, List.append_assoc]
  fun_prop (disch := rfl)

theorem codecItem_uniform :
    Uniform (fun items => Closed t fun root => (items root).chars)
      fun root => RecordPlan.codecItem ⟨t.rooted root, decl, fields root⟩ := by
  obtain ⟨plans, hplans⟩ := exists_untyped h
  have haccess : ∀ root, (fields root).map RecordPlan.access = plans.map RecordPlan.access :=
    fun root => by
      rw [← hplans root, List.map_map]
      rfl
  have hreading : ∀ root, (fields root).map RecordPlan.reading = plans.map RecordPlan.reading :=
    fun root => by
      rw [← hplans root, List.map_map]
      rfl
  simp only [RecordPlan.codecItem, haccess, hreading, writeFrame_rooted, RecordPlan.rt,
    rooted_runtimePath]
  refine .bind_same fun write _ => ?_
  refine (t.readFrame_uniform _).bind fun reads hreads => .ok ?_
  have hread := hreads.trimmed
  simp only [RecordPlan.builder, RecordPlan.name, Item.chars, Impl.chars, Impl.headChars,
    typesChars, Function.chars, Function.headChars, Body.chars, List.flatMap_cons,
    List.flatMap_nil, List.append_assoc]
  fun_prop (disch := rfl)

theorem recordItems_uniform :
    Uniform (fun items => Closed t fun root => (items root).flatMap Item.chars)
      fun root => RecordPlan.items ⟨t.rooted root, decl, fields root⟩ := by
  obtain ⟨plans, hplans⟩ := exists_untyped h
  have hidentity : ∀ root, RecordPlan.identityItems ⟨t.rooted root, decl, fields root⟩ =
      RecordPlan.identityItems ⟨t, decl, plans⟩ := fun root => by
    rw [← RecordPlan.identityItems_untyped, ← hplans root]
    rfl
  have hdisplay : ∀ root, RecordPlan.displayItems ⟨t.rooted root, decl, fields root⟩ =
      RecordPlan.displayItems ⟨t, decl, plans⟩ := fun root => by
    rw [← RecordPlan.displayItems_untyped, ← hplans root]
    rfl
  refine (codecItem_uniform h decl).bind fun codecs hcodecs => .ok ?_
  simp only [hidentity, hdisplay, List.flatMap_append, List.flatMap_cons, List.flatMap_nil,
    Item.chars, List.append_assoc, List.append_nil]
  exact (templated_definition h decl).trimmed.append ((templated_accessors h decl).trimmed.append
    ((templated_builderDefinition h decl).trimmed.append ((templated_builderItems h decl).append
      (.append (.const _) (.append (.const _) hcodecs)))))

end

theorem recordCode_uniform (t : Target n) (id : Fin n.records) :
    Uniform (TemplatedCode t) fun root => (t.rooted root).recordCode id := by
  simp only [recordCode, planRecord, rooted_schema, bind_assoc, pure_bind]
  refine (t.planFields_uniform id).bind fun fields hfields => ?_
  refine (recordItems_uniform hfields _).bind fun items hitems => .ok hitems.items

end Target

end WireIdl
