import WireIdl.Proofs.Emit.Template

/-! Types, statements, initializers and constants at every root. What is refused does not depend on
the root, and the texts are templated. -/

namespace WireIdl

open Code

variable {n : Census}

namespace Target

variable (t : Target n) (root : String)

@[simp] theorem rooted_schema : (t.rooted root).schema = t.schema := rfl
@[simp] theorem rooted_list : (t.rooted root).config.list = t.config.list := rfl
@[simp] theorem rooted_set : (t.rooted root).config.set = t.config.set := rfl
@[simp] theorem rooted_map : (t.rooted root).config.map = t.config.map := rfl
@[simp] theorem rooted_runtimePath :
    (t.rooted root).config.runtimePath = t.config.runtimePath := rfl
@[simp] theorem rooted_fieldTypeChecks :
    (t.rooted root).config.fieldTypeChecks = t.config.fieldTypeChecks := rfl
@[simp] theorem rooted_allowListKey :
    (t.rooted root).config.allowListKey = t.config.allowListKey := rfl
@[simp] theorem shape_rooted (ty : Ty n) : (t.rooted root).shape ty = t.shape ty := rfl
@[simp] theorem mismatch_rooted (ty : Ty n) (v : Literal) :
    (t.rooted root).mismatch ty v = t.mismatch ty v := rfl
@[simp] theorem tagPath_rooted (shape : Shape n) :
    (t.rooted root).tagPath shape = t.tagPath shape := rfl

theorem isHashable_rooted (shape : Shape n) :
    (t.rooted root).isHashable shape = t.isHashable shape := by
  induction shape with
  | list _ _ ih => exact ih ()
  | set _ _ ih => simp only [isHashable, rooted_set, ih]
  | map _ _ _ _ ihKey ihValue => simp only [isHashable, rooted_map, ihKey, ihValue]
  | _ => rfl

theorem isOrdered_rooted (shape : Shape n) :
    (t.rooted root).isOrdered shape = t.isOrdered shape := by
  induction shape with
  | list _ _ ih => exact ih ()
  | set _ _ ih => simp only [isOrdered, rooted_set, ih]
  | map _ _ _ _ ihKey ihValue => simp only [isOrdered, rooted_map, ihKey, ihValue]
  | _ => rfl

@[simp] theorem checkKey_rooted (form : KeyedForm) (written : Ty n) (shape : Shape n) :
    (t.rooted root).checkKey form written shape = t.checkKey form written shape := by
  simp only [checkKey, isHashable_rooted, isOrdered_rooted, rooted_schema]

theorem templated_enumPath (id : Fin n.enums) :
    TemplatedText t fun root => (t.rooted root).enumPath id :=
  .path (.enum id) trivial

theorem templated_recordPath (id : Fin n.records) :
    TemplatedText t fun root => (t.rooted root).recordPath id :=
  .path (.record id) trivial

theorem typeText_uniform (shape : Shape n) :
    Uniform (TemplatedText t) fun root => (t.rooted root).typeText shape := by
  induction shape with
  | enum id => exact .ok (t.templated_enumPath id)
  | record id => exact .ok (t.templated_recordPath id)
  | list _ element ih =>
      refine (ih ()).bind fun texts htexts => .ok (Closed.templated ?_)
      simp only [String.toList_append, List.append_assoc, rooted_list]
      fun_prop (disch := rfl)
  | set written element ih =>
      simp only [typeText, checkKey_rooted, rooted_set]
      refine .bind_same fun _ _ => ?_
      refine (ih ()).bind fun texts htexts => .ok (Closed.templated ?_)
      simp only [String.toList_append, List.append_assoc]
      fun_prop (disch := rfl)
  | map writtenKey key _ value ihKey ihValue =>
      simp only [typeText, checkKey_rooted, rooted_map]
      refine .bind_same fun _ _ => ?_
      refine (ihKey ()).bind fun keys hkeys => ?_
      refine (ihValue ()).bind fun values hvalues => .ok (Closed.templated ?_)
      simp only [String.toList_append, List.append_assoc]
      fun_prop (disch := rfl)
  | service id => exact .error (t.unexpected .valueType (.service id))
  | cyclic cycle => exact .error (.typedefCycle cycle)
  | _ => exact .ok (.const _)

theorem writeValue_rooted (source : Temporary) (next : Nat) (shape : Shape n) :
    (t.rooted root).writeValue source next shape = t.writeValue source next shape := by
  induction shape generalizing source next with
  | list _ _ ih | set _ _ ih => simp only [writeValue, tagPath_rooted, ih]
  | map _ _ _ _ ihKey ihValue => simp only [writeValue, tagPath_rooted, ihKey, ihValue]
  | _ => rfl

@[simp] theorem writeFrame_rooted (name : String) (fields : List (Field n × Access)) :
    (t.rooted root).writeFrame name fields = t.writeFrame name fields := by
  have hfields : ∀ next, (t.rooted root).writeFields next fields = t.writeFields next fields := by
    induction fields with
    | nil => exact fun next => rfl
    | cons field fields ih =>
        intro next
        simp only [writeFields, ih, writeValue_rooted, shape_rooted, tagPath_rooted]
  simp only [writeFrame, hfields, rooted_runtimePath]

/-- Statements that read into one temporary at every root. -/
structure ReadsUniformly (statements : String → ReadStmt) : Prop where
  result : ∃ result, ∀ root, (statements root).result = result
  steps : Closed t fun root => Step.allChars ((statements root).steps t.config.runtimePath)

theorem readValue_uniform (next : Nat) (shape : Shape n) :
    Uniform (fun results => ∃ statements after, (results = fun root => (statements root, after)) ∧
        t.ReadsUniformly statements)
      fun root => (t.rooted root).readValue next shape := by
  induction shape generalizing next with
  | enum id =>
      refine .ok ⟨_, _, rfl, ⟨_, fun _ => rfl⟩, ?_⟩
      have hpath := t.templated_enumPath id
      simp only [ReadStmt.steps, Step.allChars, Step.chars, String.toList_append, List.append_assoc,
        rooted_schema]
      fun_prop (disch := rfl)
  | record id =>
      refine .ok ⟨_, _, rfl, ⟨_, fun _ => rfl⟩, ?_⟩
      have hpath := t.templated_recordPath id
      simp only [ReadStmt.steps, Step.allChars, Step.chars, String.toList_append, List.append_assoc]
      fun_prop (disch := rfl)
  | list _ element ih | set _ element ih =>
      simp only [readValue]
      refine (ih () _).bind fun results hresults => ?_
      obtain ⟨items, after, rfl, ⟨result, hresult⟩, hsteps⟩ := hresults
      refine .ok ⟨_, _, rfl, ⟨_, fun _ => rfl⟩, ?_⟩
      simp only [ReadStmt.steps, Step.allChars, Step.chars, Step.allChars_append,
        String.toList_append, List.append_assoc, hresult, rooted_list, rooted_set]
      fun_prop (disch := rfl)
  | map _ key _ value ihKey ihValue =>
      simp only [readValue]
      refine (ihKey () _).bind fun results hresults => ?_
      obtain ⟨keys, after, rfl, ⟨result, hresult⟩, hsteps⟩ := hresults
      refine (ihValue () _).bind fun results hresults => ?_
      obtain ⟨values, after, rfl, ⟨result', hresult'⟩, hsteps'⟩ := hresults
      refine .ok ⟨_, _, rfl, ⟨_, fun _ => rfl⟩, ?_⟩
      simp only [ReadStmt.steps, Step.allChars, Step.chars, Step.allChars_append,
        String.toList_append, List.append_assoc, hresult, hresult', rooted_map]
      fun_prop (disch := rfl)
  | void => exact .error (t.unexpected .field .void)
  | service id => exact .error (t.unexpected .field (.service id))
  | cyclic cycle => exact .error (.typedefCycle cycle)
  | _ => exact .ok ⟨_, _, rfl, ⟨_, fun _ => rfl⟩, .const _⟩

theorem readFields_uniform (next : Nat) (readings : List (Reading n)) :
    Uniform (ListOf fun reads => Closed t fun root =>
        Step.allChars ((reads root).steps t.config.runtimePath t.config.fieldTypeChecks))
      fun root => (t.rooted root).readFields next readings := by
  induction readings generalizing next with
  | nil => exact .ok .nil
  | cons reading readings ih =>
      simp only [readFields, shape_rooted, tagPath_rooted]
      refine .bind_same fun tag _ => ?_
      refine (t.readValue_uniform next _).bind fun results hresults => ?_
      obtain ⟨statements, after, rfl, ⟨result, hresult⟩, hsteps⟩ := hresults
      refine (ih after).bind fun rest hrest => .ok (.cons ?_ hrest)
      simp only [FieldRead.steps, FieldRead.mismatchLine, Step.allChars, Step.chars,
        Step.allChars_append, String.toList_append, List.append_assoc, hresult]
      fun_prop (disch := rfl)

theorem readFrame_uniform (readings : List (Reading n)) :
    Uniform (TemplatedSteps t) fun root => (t.rooted root).readFrame readings := by
  refine (t.readFields_uniform 0 readings).bind fun reads hreads => .ok ?_
  have hfields : Closed t fun root => (reads root).flatMap fun read =>
      Step.allChars (read.steps t.config.runtimePath t.config.fieldTypeChecks) :=
    hreads.closed fun _ h => h
  simp only [TemplatedSteps, readFrameSteps, Step.allChars, Step.chars, String.toList_append,
    Step.allChars_append, Step.allChars_flatMap, List.append_assoc, rooted_runtimePath,
    rooted_fieldTypeChecks]
  fun_prop (disch := rfl)

/-! ### Initializers and constants -/

/-- That a type has a text does not depend on the root. -/
theorem typeText_bind_rooted {α : Type} (shape : Shape n) (next : Except EmitFault α) :
    ((t.rooted root).typeText shape >>= fun _ => next) = t.typeText shape >>= fun _ => next := by
  have hall := t.typeText_uniform shape
  have hhere : t.typeText shape = (t.rooted t.config.rootPath).typeText shape := rfl
  rw [hhere]
  generalize hruns : (fun root => (t.rooted root).typeText shape) = runs at hall
  rw [congrFun hruns root, congrFun hruns t.config.rootPath]
  cases hall with
  | ok _ => rfl
  | error _ => rfl

mutual

theorem initializerWith_rooted
    (deref : Ty n → Shape n → Literal → Except EmitFault (Initializer n)) (ty : Ty n)
    (shape : Shape n) (v : Literal) :
    (t.rooted root).initializerWith deref ty shape v = t.initializerWith deref ty shape v := by
  match v with
  | .identifier _ | .int _ | .double _ | .string _ => cases shape <;> rfl
  | .list items =>
      cases shape with
      | list written element | set written element =>
          simp only [initializerWith, typeText_bind_rooted,
            initializerItems_rooted deref written (element ()) items]
      | _ => rfl
  | .map entries =>
      cases shape with
      | map writtenKey key writtenValue value =>
          simp only [initializerWith, typeText_bind_rooted,
            initializerEntries_rooted deref writtenKey (key ()) writtenValue (value ()) entries]
      | _ => rfl

theorem initializerItems_rooted
    (deref : Ty n → Shape n → Literal → Except EmitFault (Initializer n)) (ty : Ty n)
    (shape : Shape n) (items : List Literal) :
    (t.rooted root).initializerItems deref ty shape items =
      t.initializerItems deref ty shape items := by
  match items with
  | [] => rw [initializerItems, initializerItems]
  | item :: items =>
      rw [initializerItems, initializerItems, initializerWith_rooted deref ty shape item,
        initializerItems_rooted deref ty shape items]

theorem initializerEntries_rooted
    (deref : Ty n → Shape n → Literal → Except EmitFault (Initializer n)) (keyTy : Ty n)
    (keyShape : Shape n) (valueTy : Ty n) (valueShape : Shape n)
    (entries : List (Literal × Literal)) :
    (t.rooted root).initializerEntries deref keyTy keyShape valueTy valueShape entries =
      t.initializerEntries deref keyTy keyShape valueTy valueShape entries := by
  match entries with
  | [] => rw [initializerEntries, initializerEntries]
  | (key, value) :: entries =>
      rw [initializerEntries, initializerEntries, initializerWith_rooted deref keyTy keyShape key,
        initializerWith_rooted deref valueTy valueShape value,
        initializerEntries_rooted deref keyTy keyShape valueTy valueShape entries]

end

@[simp] theorem initializer_rooted (ty : Ty n) (v : Literal) :
    (t.rooted root).initializer ty v = t.initializer ty v := by
  have hwithin : ∀ references, (t.rooted root).initializerWithin references =
      t.initializerWithin references := by
    intro references
    induction references with
    | zero =>
        funext ty shape v
        exact t.initializerWith_rooted root _ ty shape v
    | succ references ih =>
        funext ty shape v
        rw [initializerWithin, initializerWithin, ih]
        exact t.initializerWith_rooted root _ ty shape v
  rw [initializer, initializer, hwithin]
  rfl

end Target

namespace Initializer

variable (t : Target n)

theorem templated_containerText (path : String) {lists : String → List String}
    (h : ListOf (TemplatedText t) lists) :
    TemplatedText t fun root => containerText path (lists root) := by
  have hparts := h.intercalate_texts
  obtain ⟨families, h⟩ := h
  cases families with
  | nil => exact .const ((path ++ "::new()").toList)
  | cons first families =>
      refine Closed.templated ?_
      simp only [containerText, List.map_cons, List.isEmpty_cons, Bool.false_eq_true, if_false,
        String.toList_append, List.append_assoc] at hparts ⊢
      fun_prop (disch := rfl)

mutual

theorem templated_text (i : Initializer n) :
    TemplatedText t fun root => i.text (t.rooted root) := by
  match i with
  | .member id m =>
      have hpath := t.templated_enumPath id
      have hafter : Ended t fun root =>
          ((t.rooted root).enumPath id ++ "::" ++ Ident.variant m.name).toList := by
        simp only [String.toList_append, List.append_assoc]
        fun_prop (disch := rfl)
      exact hafter.templated
  | .list items => exact templated_containerText t t.config.list.path (itemTexts_listOf items)
  | .set items => exact templated_containerText t t.config.set.setPath (itemTexts_listOf items)
  | .map entries => exact templated_containerText t t.config.map.mapPath (entryTexts_listOf entries)
  | .bool _ | .int _ _ | .double _ | .string _ | .binary _ =>
      exact Closed.templated (.of_same fun _ => rfl)

theorem itemTexts_listOf (items : List (Initializer n)) :
    ListOf (TemplatedText t) fun root => itemTexts (t.rooted root) items := by
  match items with
  | [] => exact .nil
  | item :: items => exact .cons (templated_text item) (itemTexts_listOf items)

theorem entryTexts_listOf (entries : List (Initializer n × Initializer n)) :
    ListOf (TemplatedText t) fun root => entryTexts (t.rooted root) entries := by
  match entries with
  | [] => exact .nil
  | (key, value) :: entries =>
      refine .cons ?_ (entryTexts_listOf entries)
      have hkey := templated_text key
      have hvalue := templated_text value
      refine Closed.templated ?_
      simp only [String.toList_append, List.append_assoc]
      fun_prop (disch := rfl)

end

end Initializer

namespace Target

variable (t : Target n) (root : String)

theorem literalText_uniform (ty : Ty n) (v : Literal) :
    Uniform (TemplatedText t) fun root => (t.rooted root).literalText ty v := by
  simp only [literalText, initializer_rooted]
  exact .bind_same fun i _ => .ok (i.templated_text t)

theorem followNames_rooted (rounds : Nat) (v : Literal) :
    (t.rooted root).followNames rounds v = t.followNames rounds v := by
  induction rounds generalizing v with
  | zero => rfl
  | succ rounds ih =>
      cases v with
      | identifier name =>
          simp only [followNames, rooted_schema]
          split
          · exact ih _
          · rfl
      | _ => rfl

/-- A line with the type and the value of a constant in it. -/
theorem typedLine_uniform (shape : Shape n) (ty : Ty n) (v : Literal)
    {before between after : String} (hbefore : Text.endsDelimited before.toList = true)
    (hstart : Text.startsDelimited between.toList = true)
    (hend : Text.endsDelimited between.toList = true)
    (hafter : Text.startsDelimited after.toList = true) :
    Uniform (ClosedText t) fun root => do
      let type ← (t.rooted root).typeText shape
      let expr ← (t.rooted root).literalText ty v
      return before ++ type ++ between ++ expr ++ after := by
  refine (t.typeText_uniform shape).bind fun types htypes => ?_
  refine (t.literalText_uniform ty v).bind fun exprs hexprs => .ok ?_
  have hvalue := Closed.before hend (.append hexprs (.const after.toList) hafter)
  have htype := Ended.append htypes hvalue (Text.startsDelimited_append hstart _)
  simp only [ClosedText, String.toList_append, List.append_assoc]
  exact .before hbefore htype

theorem constantLine_uniform (c : Constant n) :
    Uniform (ClosedText t) fun root => (t.rooted root).constantLine c := by
  have hname : ∀ (before : String) {after : String}, Text.endsDelimited after.toList = true →
      Text.endsDelimited (before ++ after).toList = true := by
    intro before after h
    rw [String.toList_append]
    exact Text.endsDelimited_append h _
  simp only [constantLine, shape_rooted, followNames_rooted, rooted_schema, mismatch_rooted]
  generalize t.shape c.ty = shape
  cases shape with
  | void | record | service => exact .error _
  | string =>
      refine .bind_same fun v _ => ?_
      cases v with
      | string s => exact .ok (.const _)
      | _ => exact .error _
  | binary | list | set | map => exact t.typedLine_uniform _ _ _ (hname _ rfl) rfl rfl rfl
  | _ => exact t.typedLine_uniform _ _ _ (hname _ rfl) rfl rfl rfl

theorem constantsCode_uniform (constants : List (Constant n)) :
    Uniform (TemplatedCode t) fun root => (t.rooted root).constantsCode constants := by
  have hsteps : ∀ c ∈ constants,
      Uniform (TemplatedSteps t) fun root => (t.rooted root).constantSteps c := by
    intro c _
    refine (t.constantLine_uniform c).bind fun lines hlines => .ok ?_
    simp only [TemplatedSteps, Step.allChars_append, Step.allChars, Step.chars, List.append_assoc]
    fun_prop (disch := rfl)
  refine (Uniform.mapM hsteps).bind fun groups hgroups => .ok ?_
  exact (TemplatedSteps.intercalate (hgroups.closed fun _ h => h)).render

end Target

end WireIdl
