import WireIdl.Proofs.Emit.RootedRecords

/-! Methods and services at every root. The plan of a method differs in the texts of the types of
its parameters and of its result; beside those, the code of a service refers to the types of its
methods, to traits and to the client of its parent. -/

namespace WireIdl

open Code

variable {n : Census}

namespace ParamPlan

/-- A plan with another text of its type. -/
def typed (p : ParamPlan n) (type : String) : ParamPlan n :=
  { p with valueType := type }

@[simp] theorem typed_ident (p : ParamPlan n) (type : String) :
    (p.typed type).ident = p.ident := rfl

@[simp] theorem typed_default? (p : ParamPlan n) (type : String) :
    (p.typed type).default? = p.default? := rfl

theorem typed_declaredType (p : ParamPlan n) (type : String) : (p.typed type).declaredType =
    if p.optional then "Option<" ++ type ++ ">" else type := rfl

end ParamPlan

/-- A text that is there at every root or at none. -/
def OptionalText (t : Target n) (texts : String → Option String) : Prop :=
  (texts = fun _ => none) ∨
    ∃ paths, TemplatedText t paths ∧ texts = fun root => some (paths root)

namespace Target

variable (t : Target n) (root : String)

/-- Plans that differ in the text of the type only. -/
def ParamPlans (plans : String → ParamPlan n) : Prop :=
  ∃ (p : ParamPlan n) (types : String → String), TemplatedText t types ∧
    plans = fun root => p.typed (types root)

theorem templated_declaredType {types : String → String} (h : TemplatedText t types)
    (p : ParamPlan n) : TemplatedText t fun root => (p.typed (types root)).declaredType := by
  simp only [ParamPlan.typed_declaredType]
  split
  · refine Closed.templated ?_
    simp only [String.toList_append, List.append_assoc]
    fun_prop (disch := rfl)
  · exact h

theorem planParam_uniform (field : Field n) :
    Uniform t.ParamPlans fun root => (t.rooted root).planParam field := by
  simp only [planParam, defaultInitializer, initializer_rooted, shape_rooted]
  refine .bind_same fun default? _ => ?_
  refine (t.typeText_uniform _).bind fun types htypes => .ok ?_
  exact ⟨{
    field, default?
    ident := Ident.field t.config field.name
    valueType := ""
    optional := !field.isRequired || default?.isSome }, types, htypes, rfl⟩

/-- The plan of a method at a root. -/
def methodAt (service : Fin n.services) (method : Method n) (params : String → List (ParamPlan n))
    (outputs : String → String) (root : String) : MethodPlan n where
  target := t.rooted root
  service := t.schema.service service
  method
  params := params root
  output := outputs root

/-- Plans of a method of a service. -/
def MethodPlans (service : Fin n.services) (plans : String → MethodPlan n) : Prop :=
  ∃ method ∈ (t.schema.service service).methods, ∃ params outputs,
    ListOf t.ParamPlans params ∧ TemplatedText t outputs ∧
      plans = t.methodAt service method params outputs

theorem planMethods_uniform (surface : Surface) (service : Fin n.services) :
    Uniform (ListOf (t.MethodPlans service))
      fun root => (t.rooted root).planMethods surface (t.schema.service service) := by
  refine Uniform.mapM fun method hmethod => ?_
  have hin : method ∈ (t.schema.service service).methods := by
    cases surface with
    | whole => exact hmethod
    | listed key => exact List.mem_of_mem_filter hmethod
  refine (Uniform.mapM fun field _ => t.planParam_uniform field).bind fun params hparams => ?_
  simp only [shape_rooted]
  refine (t.typeText_uniform _).bind fun outputs houtputs => .ok ?_
  exact ⟨method, hin, params, outputs, hparams, houtputs, rfl⟩

section Method

variable {t} {service : Fin n.services} {method : Method n}
  (params : String → List (ParamPlan n)) (outputs : String → String)

theorem errorType_methodAt : (t.methodAt service method params outputs root).errorType =
    if method.throws.isEmpty then t.config.runtimePath ++ "::Never"
    else (Reference.error service method).path (t.rooted root) := rfl

theorem returnType_methodAt : (t.methodAt service method params outputs root).returnType =
    "Result<" ++ outputs root ++ ", " ++ t.config.runtimePath ++ "::CallError<" ++
      (t.methodAt service method params outputs root).errorType ++ ">>" := rfl

theorem traitSteps_methodAt : (t.methodAt service method params outputs root).traitSteps =
    headSteps method.doc? method.deprecated ++ [
      .line ("fn " ++ Ident.method method.name ++ "(&mut self" ++
        String.join ((params root).map fun a => ", " ++ a.ident ++ ": " ++ a.declaredType) ++
        ") -> " ++ (t.methodAt service method params outputs root).returnType ++ ";")] := rfl

theorem chars_traitLine (name returns : String) (params : List (ParamPlan n)) :
    ("fn " ++ name ++ "(&mut self" ++
        String.join (params.map fun a => ", " ++ a.ident ++ ": " ++ a.declaredType) ++
        ") -> " ++ returns ++ ";").toList =
      "fn ".toList ++ (name.toList ++ ("(".toList ++
        (argChars (some "&mut self") (params.map fun a => (a.ident, a.declaredType)) ++
          (") -> ".toList ++ (returns.toList ++ ";".toList))))) := by
  have hself : "(&mut self".toList = "(".toList ++ "&mut self".toList := rfl
  simp only [String.toList_append, String.toList_join, argChars_eq, hself, Option.toList_some,
    List.map_cons, List.map_nil, List.cons_append, List.nil_append, intercalate_cons,
    List.flatMap_map, List.append_assoc]

theorem templated_errorType (hmethod : method ∈ (t.schema.service service).methods) :
    TemplatedText t fun root => (t.methodAt service method params outputs root).errorType := by
  simp only [errorType_methodAt]
  split
  · exact .const _
  · next hthrows =>
      exact .path (.error service method) ⟨hmethod, by simpa using hthrows⟩

theorem templated_returnType (hmethod : method ∈ (t.schema.service service).methods)
    (houtputs : TemplatedText t outputs) :
    ClosedText t fun root => (t.methodAt service method params outputs root).returnType := by
  obtain ⟨errors, herrors, herror⟩ :=
    exists_family (P := TemplatedText t) (templated_errorType params outputs hmethod)
  simp only [ClosedText, returnType_methodAt, herror, String.toList_append, List.append_assoc]
  fun_prop (disch := rfl)

variable {params outputs} (hmethod : method ∈ (t.schema.service service).methods)
  (hparams : ListOf t.ParamPlans params) (houtputs : TemplatedText t outputs)

section

include hparams

theorem namedTypes_of_params :
    ListOf (NamedType t) fun root => (params root).map fun a => (a.ident, a.declaredType) := by
  refine hparams.map fun family hfamily => ?_
  obtain ⟨p, types, htypes, rfl⟩ := hfamily
  exact ⟨p.ident, _, t.templated_declaredType htypes p, rfl⟩

theorem exists_untypedParams : ∃ plans, ∀ root, (params root).map (·.typed "") = plans := by
  refine hparams.exists_map fun family hfamily root => ?_
  obtain ⟨p, types, _, rfl⟩ := hfamily
  rfl

theorem templated_callDefinition : TemplatedSteps t fun root =>
    (t.methodAt service method params outputs root).callDefinition := by
  have hlines : Closed t fun root => (params root).flatMap fun a =>
      (a.ident ++ ": " ++ a.declaredType ++ ",").toList ++ ['\n'] := by
    refine hparams.closed fun family hfamily => ?_
    obtain ⟨p, types, htypes, rfl⟩ := hfamily
    have hdeclared := t.templated_declaredType htypes p
    simp only [String.toList_append, List.append_assoc, ParamPlan.typed_ident]
    fun_prop (disch := rfl)
  simp only [TemplatedSteps, MethodPlan.callDefinition, MethodPlan.title, MethodPlan.callName,
    MethodPlan.base, methodAt, Step.allChars, Step.chars, Step.allChars_map, List.append_assoc]
  fun_prop (disch := rfl)

theorem templated_newItem : Closed t fun root =>
    (t.methodAt service method params outputs root).newItem.chars := by
  have hargs := templated_argChars none (namedTypes_of_params hparams)
  have hlines : Closed t fun root => (params root).flatMap fun a =>
      (MethodPlan.storeLine (t.rooted root) a).toList ++ ['\n'] := by
    refine hparams.closed fun family hfamily => ?_
    obtain ⟨p, types, _, rfl⟩ := hfamily
    simp only [MethodPlan.storeLine, ParamPlan.typed_ident, ParamPlan.typed_default?]
    cases p.default? with
    | none => exact .append (.of_same fun _ => rfl) (.const _)
    | some value =>
        have hvalue := value.templated_text t
        simp only [String.toList_append, List.append_assoc]
        fun_prop (disch := rfl)
  simp only [MethodPlan.newItem, MethodPlan.callName, MethodPlan.base, methodAt, Item.chars,
    Impl.chars, Impl.headChars, typesChars, Function.chars, Function.headChars, Body.chars,
    Text.fed, List.flatMap_cons, List.flatMap_nil, List.flatMap_map, List.append_assoc]
  fun_prop (disch := rfl)

include houtputs hmethod

theorem templated_methodTraitSteps :
    TemplatedSteps t fun root => (t.methodAt service method params outputs root).traitSteps := by
  obtain ⟨returns, hreturns, hreturn⟩ :=
    exists_family (P := ClosedText t) (templated_returnType params outputs hmethod houtputs)
  have hargs := templated_argChars (some "&mut self") (namedTypes_of_params hparams)
  simp only [TemplatedSteps, traitSteps_methodAt, hreturn, Step.allChars_append, Step.allChars,
    Step.chars, chars_traitLine, List.append_assoc]
  fun_prop (disch := rfl)

theorem sendItem_uniform :
    Uniform (fun items => Closed t fun root => (items root).chars)
      fun root => (t.methodAt service method params outputs root).sendItem := by
  obtain ⟨errors, herrors, herror⟩ :=
    exists_family (P := TemplatedText t) (templated_errorType params outputs hmethod)
  obtain ⟨plans, hplans⟩ := exists_untypedParams hparams
  have haccess : ∀ root, (params root).map MethodPlan.access = plans.map MethodPlan.access :=
    fun root => by
      rw [← hplans root, List.map_map]
      rfl
  simp only [MethodPlan.sendItem, herror, ite_eq_cond]
  simp only [methodAt, haccess, writeFrame_rooted, MethodPlan.rt, rooted_runtimePath]
  refine .bind_same fun write _ => .ok ?_
  simp only [MethodPlan.callName, MethodPlan.base, Item.chars, Impl.chars, Impl.headChars,
    typesChars, List.flatMap_cons, List.flatMap_nil, List.append_assoc]
  fun_prop (disch := rfl)

end

/-- Declared exceptions with their types. -/
def Throws (t : Target n) (throws : String → Field n × String) : Prop :=
  ∃ field types, TemplatedText t types ∧ throws = fun root => (field, types root)

theorem throwTypes_uniform :
    Uniform (ListOf t.Throws)
      fun root => (t.methodAt service method params outputs root).throwTypes := by
  simp only [MethodPlan.throwTypes, methodAt, shape_rooted]
  refine Uniform.mapM fun field _ => ?_
  exact (t.typeText_uniform _).bind fun types htypes => .ok ⟨field, types, htypes, rfl⟩

section

variable {throws : String → List (Field n × String)} (hthrows : ListOf t.Throws throws)

include hthrows hmethod houtputs

omit hmethod in
/-- The locals into which a reply is read. -/
theorem templated_slots (givesValue : Bool) : TemplatedSteps t fun root =>
    (bif givesValue then [MethodPlan.slotLine "result" (outputs root)] else []) ++
      (throws root).zipIdx.map fun x =>
        MethodPlan.slotLine (MethodPlan.exceptionSlot x.2) x.1.2 := by
  have hslots : Closed t fun root => (throws root).zipIdx.flatMap fun x =>
      (MethodPlan.slotLine (MethodPlan.exceptionSlot x.2) x.1.2).chars := by
    refine hthrows.zipIdx.closed fun family hfamily => ?_
    obtain ⟨first, index, ⟨field, types, htypes, rfl⟩, rfl⟩ := hfamily
    simp only [MethodPlan.slotLine, Step.chars, String.toList_append, List.append_assoc]
    fun_prop (disch := rfl)
  simp only [TemplatedSteps, Step.allChars_append, Step.allChars_map]
  refine .after _ (.append ?_ hslots)
  cases givesValue with
  | false => exact .const []
  | true =>
      simp only [cond_true, MethodPlan.slotLine, Step.allChars, Step.chars, String.toList_append,
        List.append_assoc]
      fun_prop (disch := rfl)

omit hmethod houtputs in
/-- The returns of a reply that carries an exception. -/
theorem templated_raises {errors : String → String} (herrors : TemplatedText t errors) :
    Closed t fun root => Step.allChars ((throws root).zipIdx.map fun x =>
      .block ("if let Some(exception) = " ++ MethodPlan.exceptionSlot x.2) [
        .line ("return Err(" ++ t.config.runtimePath ++ "::CallError::Exception(" ++ errors root ++
          "::" ++ Ident.variant x.1.1.name ++ "(exception)));")]) := by
  simp only [Step.allChars_map]
  refine hthrows.zipIdx.closed fun family hfamily => ?_
  obtain ⟨first, index, ⟨field, types, htypes, rfl⟩, rfl⟩ := hfamily
  simp only [Step.chars, Step.allChars, String.toList_append, List.append_assoc]
  fun_prop (disch := rfl)

theorem receiveSteps_uniform :
    Uniform (TemplatedSteps t)
      fun root => (t.methodAt service method params outputs root).receiveSteps (throws root) := by
  obtain ⟨errors, herrors, herror⟩ :=
    exists_family (P := TemplatedText t) (templated_errorType params outputs hmethod)
  obtain ⟨givesValue, hvalue⟩ : ∃ givesValue, ∀ root,
      (t.methodAt service method params outputs root).returnsValue = givesValue :=
    ⟨t.returnsValue method, fun _ => rfl⟩
  obtain ⟨readings, hreadings⟩ : ∃ readings, ∀ root,
      (t.methodAt service method params outputs root).replyReadings = readings :=
    ⟨(t.methodAt service method params outputs "").replyReadings, fun _ => rfl⟩
  simp only [MethodPlan.receiveSteps, ite_eq_cond, herror, hvalue, hreadings]
  simp only [methodAt, MethodPlan.rt, rooted_runtimePath]
  refine (t.readFrame_uniform readings).bind fun reads hreads => .ok ?_
  simp only [List.append_assoc (_ ++ [Step.lines _])]
  refine (templated_slots houtputs hthrows givesValue).lines (fun root step hstep => ?_)
    hreads.render ?_
  · obtain hresult | hslot := List.mem_append.mp hstep
    · cases givesValue with
      | false => cases hresult
      | true => exact ⟨_, List.mem_singleton.mp hresult⟩
    · obtain ⟨x, _, rfl⟩ := List.mem_map.mp hslot
      exact ⟨_, rfl⟩
  · simp only [Step.allChars_append]
    exact .append (.after _ (templated_raises hthrows herrors)) (.const _)

theorem receiveItems_uniform :
    Uniform (ListOf fun items => Closed t fun root => (items root).chars)
      fun root => (t.methodAt service method params outputs root).receiveItems (throws root) := by
  obtain ⟨returns, hreturns, hreturn⟩ :=
    exists_family (P := ClosedText t) (templated_returnType params outputs hmethod houtputs)
  have hsteps : Uniform (TemplatedSteps t) fun root =>
      (t.methodAt service method params outputs root).receiveSteps (throws root) :=
    receiveSteps_uniform hmethod houtputs hthrows
  simp only [MethodPlan.receiveItems, ite_eq_cond]
  change Uniform _ fun root => bif method.oneWay then _ else _
  cases method.oneWay with
  | true => exact .ok .nil
  | false =>
      simp only [cond_false, MethodPlan.receiveItem, hreturn, bind_assoc, pure_bind]
      refine hsteps.bind fun steps hsteps => .ok (.cons ?_ .nil)
      have hreceive := hsteps.trimmed
      simp only [methodAt, MethodPlan.callName, MethodPlan.base, MethodPlan.rt, rooted_runtimePath,
        Item.chars, Impl.chars, Impl.headChars, typesChars, Function.chars, Function.headChars,
        Body.chars, Option.toList_some, List.flatMap_cons, List.flatMap_nil, List.append_assoc]
      fun_prop (disch := rfl)

omit hmethod houtputs in
theorem templated_errorDefinition : TemplatedSteps t fun root =>
    (t.methodAt service method params outputs root).errorDefinition (throws root) := by
  have hlines : Closed t fun root => (throws root).flatMap fun x =>
      (Ident.variant x.1.name ++ "(" ++ x.2 ++ "),").toList ++ ['\n'] := by
    refine hthrows.closed fun family hfamily => ?_
    obtain ⟨field, types, htypes, rfl⟩ := hfamily
    simp only [String.toList_append, List.append_assoc]
    fun_prop (disch := rfl)
  simp only [TemplatedSteps, MethodPlan.errorDefinition, MethodPlan.title, MethodPlan.errorName,
    MethodPlan.base, methodAt, Step.allChars, Step.chars, Step.allChars_map, List.append_assoc]
  fun_prop (disch := rfl)

omit hmethod houtputs in
theorem templated_errorItems : Closed t fun root =>
    ((t.methodAt service method params outputs root).errorItems (throws root)).flatMap
      Item.chars := by
  have hdefinition : TemplatedSteps t fun root =>
      (t.methodAt service method params outputs root).errorDefinition (throws root) :=
    templated_errorDefinition hthrows
  obtain ⟨fields, hfields⟩ : ∃ fields, ∀ root, (throws root).map (·.1) = fields := by
    refine hthrows.exists_map fun family hfamily root => ?_
    obtain ⟨field, types, _, rfl⟩ := hfamily
    rfl
  have hempty : ∀ root, (throws root).isEmpty = fields.isEmpty := fun root => by
    rw [← hfields root, List.isEmpty_map]
  have harms : Closed t fun root => (throws root).flatMap fun x =>
      (Ident.operation (t.schema.service service).name method.name ++ "Error" ++ "::" ++
          Ident.variant x.1.name ++
          "(exception) => ::std::fmt::Display::fmt(exception, f),").toList ++ ['\n'] := by
    refine hthrows.closed fun family hfamily => ?_
    obtain ⟨field, types, _, rfl⟩ := hfamily
    dsimp only
    exact .const _
  have hname : ∀ root, (t.methodAt service method params outputs root).errorName =
      Ident.operation (t.schema.service service).name method.name ++ "Error" := fun _ => rfl
  simp only [MethodPlan.errorItems, ite_eq_cond, hempty, hname]
  cases fields.isEmpty with
  | true => exact .const []
  | false =>
      simp only [cond_false, List.flatMap_cons, List.flatMap_nil, Item.chars]
      refine .append hdefinition.trimmed (.append ?_ (.const _))
      simp only [RecordPlan.formatItem, Impl.chars, Impl.headChars, typesChars, Function.chars,
        Function.headChars, Body.chars, Text.fed, List.flatMap_cons, List.flatMap_nil,
        List.flatMap_map, List.append_assoc]
      fun_prop (disch := rfl)

end

include hmethod hparams houtputs

theorem methodItems_uniform :
    Uniform (fun items => Closed t fun root => (items root).flatMap Item.chars)
      fun root => (t.methodAt service method params outputs root).items := by
  refine (sendItem_uniform hmethod hparams houtputs).bind fun sends hsends => ?_
  refine throwTypes_uniform.bind fun throws hthrows => ?_
  refine (receiveItems_uniform hmethod houtputs hthrows).bind fun receives hreceives => .ok ?_
  have hreceive : Closed t fun root => (receives root).flatMap Item.chars :=
    hreceives.closed fun _ h => h
  simp only [List.flatMap_append, List.flatMap_cons, List.flatMap_nil, Item.chars,
    List.append_assoc, List.append_nil]
  refine .append ?_ (.append ?_ (.append hsends (.append hreceive ?_)))
  · exact (templated_callDefinition hparams).trimmed
  · exact templated_newItem hparams
  · exact templated_errorItems hthrows

/-- The function of a client, which may call the trait of an ancestor. -/
theorem templated_clientFunction {inherited? : String → Option String}
    (h : OptionalText t inherited?) : Closed t fun root =>
      ((t.methodAt service method params outputs root).clientFunction (inherited? root)).chars := by
  obtain ⟨returns, hreturns, hreturn⟩ :=
    exists_family (P := ClosedText t) (templated_returnType params outputs hmethod houtputs)
  have hargs := templated_argChars (some "&mut self") (namedTypes_of_params hparams)
  obtain ⟨idents, hidents⟩ : ∃ idents, ∀ root, (params root).map (·.ident) = idents := by
    refine hparams.exists_map fun family hfamily root => ?_
    obtain ⟨p, types, _, rfl⟩ := hfamily
    rfl
  obtain ⟨calls, hcalls, hcall⟩ : ∃ calls, TemplatedText t calls ∧ ∀ root,
      (t.methodAt service method params outputs root).path
        (t.methodAt service method params outputs root).callName = calls root :=
    ⟨_, .path (.call service method) hmethod, fun _ => rfl⟩
  simp only [MethodPlan.clientFunction, Function.chars, Function.headChars, ite_eq_cond, hreturn,
    hcall]
  simp only [methodAt, hidents]
  -- A method of its own refers to the type of the call, an inherited one to the trait.
  obtain rfl | ⟨paths, hpaths, rfl⟩ := h
  · cases method.oneWay with
    | true | false =>
        simp only [cond_true, cond_false, Body.chars, Text.alone, Option.toList_some,
          List.flatMap_cons, List.flatMap_nil, String.toList_append, List.append_assoc]
        fun_prop (disch := rfl)
  · simp only [Body.chars, Text.alone, Option.toList_some, List.flatMap_cons, List.flatMap_nil,
      String.toList_append, List.append_assoc]
    fun_prop (disch := rfl)

end Method

/-! ### Services -/

theorem traitSteps_eq (service : ServiceDecl n) (methods : List (MethodPlan n)) :
    t.traitSteps service methods = headSteps service.doc? service.deprecated ++
      [.block ("pub trait " ++ Ident.type service.name ++ service.extends?.elim "" fun parent =>
          ": " ++ t.servicePath (t.schema.service parent))
        (List.intercalate [.blank] (methods.map (·.traitSteps)))] := by
  unfold Target.traitSteps
  cases service.extends? with
  | none | some parent =>
      cases methods with
      | nil => rfl
      | cons first rest =>
          rw [List.map_cons, intercalate_cons, List.flatMap_map]
          rfl

theorem templated_traitSteps {service : Fin n.services} {methods : String → List (MethodPlan n)}
    (h : ListOf (t.MethodPlans service) methods) :
    TemplatedSteps t fun root =>
      (t.rooted root).traitSteps (t.schema.service service) (methods root) := by
  have hmethods : TemplatedSteps t fun root =>
      List.intercalate [.blank] ((methods root).map (·.traitSteps)) := by
    refine TemplatedSteps.intercalate ?_
    simp only [List.flatMap_map]
    refine h.closed fun family hfamily => ?_
    obtain ⟨method, hmethod, params, outputs, hparams, houtputs, rfl⟩ := hfamily
    exact templated_methodTraitSteps hmethod hparams houtputs
  have hheader : Closed t fun root => ("pub trait " ++ Ident.type (t.schema.service service).name ++
      (t.schema.service service).extends?.elim "" (fun parent =>
        ": " ++ (t.rooted root).servicePath (t.schema.service parent)) ++ " \x7b").toList := by
    cases (t.schema.service service).extends? with
    | none =>
        simp only [Option.elim_none]
        exact .const _
    | some parent =>
        have hparent := Templated.path (t := t) (.trait parent) trivial
        simp only [Option.elim_some, String.toList_append, List.append_assoc]
        exact .after _ (.after _ (.before rfl (.append hparent (.const _) rfl)))
  simp only [TemplatedSteps, traitSteps_eq, rooted_schema, Step.allChars_append, Step.allChars,
    Step.chars]
  refine .after _ (.after _ (.append ?_ (.const _)))
  simpa only [List.append_assoc] using
    hheader.append (hmethods.append (.const ("\x7d".toList ++ ['\n'])))

theorem optionalText_parentClient (service : ServiceDecl n) :
    OptionalText t fun root => (t.rooted root).parentClient? service := by
  simp only [Reference.parentClient?_eq_path]
  cases service.extends? with
  | none => exact .inl rfl
  | some parent => exact .inr ⟨_, .path (.client parent) trivial, rfl⟩

theorem templated_clientDefinition (service : ServiceDecl n) :
    TemplatedSteps t fun root => (t.rooted root).clientDefinition service := by
  obtain hnone | ⟨paths, hpaths, hsome⟩ := t.optionalText_parentClient service
  · have hparent := congrFun hnone
    simp only [TemplatedSteps, clientDefinition, hparent, runtime, rooted_runtimePath]
    exact .const _
  · have hparent := congrFun hsome
    simp only [TemplatedSteps, clientDefinition, hparent, Step.allChars, Step.chars,
      String.toList_append, List.append_assoc]
    fun_prop (disch := rfl)

theorem templated_clientImpl (service : ServiceDecl n) {traits : String → Option String}
    {functions : String → List Function} (htraits : OptionalText t traits)
    (hfunctions : Closed t fun root => (functions root).flatMap fun f => ['\n'] ++ f.chars) :
    Closed t fun root =>
      ((t.rooted root).clientImpl service (traits root) (functions root)).chars := by
  have htrait : Closed t fun root => (traits root).toList.flatMap fun name =>
      " ".toList ++ (name.toList ++ " for".toList) := by
    obtain rfl | ⟨paths, hpaths, rfl⟩ := htraits
    · exact .const []
    · simp only [Option.toList_some, List.flatMap_cons, List.flatMap_nil, List.append_assoc]
      fun_prop (disch := rfl)
  simp only [clientImpl, runtime, rooted_runtimePath, Item.chars, Impl.chars, Impl.headChars,
    typesChars, List.append_assoc]
  fun_prop (disch := rfl)

theorem templated_clientBasics (service : ServiceDecl n) :
    Closed t fun root => ((t.rooted root).clientBasics service).chars := by
  obtain hnone | ⟨paths, hpaths, hsome⟩ := t.optionalText_parentClient service
  · have hparent := congrFun hnone
    simp only [clientBasics, hparent]
    refine t.templated_clientImpl service (.inl rfl) ?_
    simp only [runtime, rooted_runtimePath]
    exact .const _
  · have hparent := congrFun hsome
    simp only [clientBasics, hparent]
    refine t.templated_clientImpl service (.inl rfl) ?_
    simp only [runtime, rooted_runtimePath, List.flatMap_cons, List.flatMap_nil, Function.chars,
      Function.headChars, Body.chars, Text.alone, String.toList_append, List.append_assoc]
    fun_prop (disch := rfl)

theorem clientTraits_uniform (surface : Surface) (service : ServiceDecl n)
    (chain : List (Fin n.services)) :
    Uniform (ListOf fun items => Closed t fun root => (items root).chars)
      fun root => (t.rooted root).clientTraits surface service chain := by
  refine Uniform.mapM fun part _ => ?_
  obtain ⟨ancestor, depth⟩ := part
  refine (t.planMethods_uniform surface ancestor).bind fun methods hmethods => .ok ?_
  have htrait : TemplatedText t fun root =>
      (t.rooted root).servicePath (t.schema.service ancestor) := .path (.trait ancestor) trivial
  refine t.templated_clientImpl service (.inr ⟨_, htrait, rfl⟩) ?_
  simp only [List.flatMap_map]
  refine hmethods.closed fun family hfamily => ?_
  obtain ⟨method, hmethod, params, outputs, hparams, houtputs, rfl⟩ := hfamily
  refine .after _ (templated_clientFunction hmethod hparams houtputs ?_)
  cases depth with
  | zero => exact .inl rfl
  | succ depth => exact .inr ⟨_, htrait, rfl⟩

theorem clientItems_uniform (surface : Surface) (id : Fin n.services) :
    Uniform (fun items => Closed t fun root => (items root).flatMap Item.chars)
      fun root => (t.rooted root).clientItems surface id := by
  simp only [clientItems, ite_eq_cond]
  simp only [rooted_schema]
  cases (clientName (t.schema.service id)).contains '<' with
  | true => exact .error .genericName
  | false =>
      refine (t.clientTraits_uniform surface _ _).bind fun traits htraits => .ok ?_
      have htrait : Closed t fun root => (traits root).flatMap Item.chars :=
        htraits.closed fun _ h => h
      simp only [List.flatMap_cons, Item.chars]
      exact .append (t.templated_clientDefinition _).trimmed
        (.append (t.templated_clientBasics _) htrait)

theorem serviceCode_uniform (surface : Surface) (id : Fin n.services) :
    Uniform (TemplatedCode t) fun root => (t.rooted root).serviceCode surface id := by
  refine (t.planMethods_uniform surface id).bind fun methods hmethods => ?_
  have hitems : Uniform (ListOf fun items => Closed t fun root => (items root).flatMap Item.chars)
      fun root => (methods root).mapM (·.items) := by
    refine Uniform.mapM_families hmethods fun family hfamily => ?_
    obtain ⟨method, hmethod, params, outputs, hparams, houtputs, rfl⟩ := hfamily
    exact methodItems_uniform hmethod hparams houtputs
  refine hitems.bind fun calls hcalls => ?_
  refine (t.clientItems_uniform surface id).bind fun client hclient => .ok ?_
  have hcall : Closed t fun root => (calls root).flatMap fun items => items.flatMap Item.chars :=
    hcalls.closed fun _ h => h
  refine Closed.items ?_
  simp only [List.flatMap_append, List.flatMap_cons, Item.chars, List.flatten_eq_flatMap,
    List.flatMap_assoc, List.append_assoc]
  exact .append (t.templated_traitSteps hmethods).trimmed (.append hcall hclient)

end Target

end WireIdl
