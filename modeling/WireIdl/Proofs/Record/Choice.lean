import WireIdl.Proofs.Emit.Boxing
import WireIdl.Proofs.Emit.Summaries
import WireIdl.Proofs.Record.Setters

/-! A union with one member set. A new builder of a union has the defaults of its members, and a
setter does not take them back, so a member can be chosen only if no other member has a default. -/

namespace WireIdl

variable {n : Census}

/-- After one setter, the fields with a value are its field and those that had one before. -/
theorem countP_set {k : Nat} {b : Builder n} {held : Fin k → Option Value}
    (h : b.slots = List.ofFn held) (i : Fin k) (v : Value) :
    (b.set i v).slots.countP (·.isSome) =
      (Finset.univ.filter fun j => j ≠ i ∧ (held j).isSome).card + 1 := by
  have hfilled : (Finset.univ.filter fun j => (Function.update held i (some v) j).isSome = true) =
      insert i (Finset.univ.filter fun j => j ≠ i ∧ (held j).isSome) := by
    ext j
    by_cases hj : j = i
    · simp [hj]
    · simp [hj]
  rw [Builder.slots_set h, countP_ofFn, hfilled, Finset.card_insert_of_notMem (by simp)]

namespace RecordDecl

/-- No other field has a default. -/
def OthersPlain (decl : RecordDecl n) (i : Fin decl.fields.length) : Prop :=
  ∀ j, j ≠ i → (decl.fields.get j).default? = none

/-- The other fields with a default. -/
def seededBeside (decl : RecordDecl n) (i : Fin decl.fields.length) :
    Finset (Fin decl.fields.length) :=
  Finset.univ.filter fun j => j ≠ i ∧ (decl.fields.get j).default?.isSome

theorem seededBeside_eq_empty_iff {decl : RecordDecl n} {i : Fin decl.fields.length} :
    decl.seededBeside i = ∅ ↔ decl.OthersPlain i := by
  simp [seededBeside, OthersPlain, Finset.filter_eq_empty_iff]

end RecordDecl

theorem RecordPlan.seedLine_eq_none_iff (t : Target n) (f : FieldPlan n) :
    seedLine t f = f.ident ++ ": None," ↔ f.default? = none := by
  cases hdefault : f.default? with
  | none => simp [seedLine, hdefault]
  | some initial =>
      refine iff_of_false ?_ (Option.some_ne_none initial)
      intro h
      have hchars := congrArg String.toList h
      simp only [seedLine, hdefault, FieldPlan.held, String.toList_append, List.append_assoc,
        List.append_cancel_left_eq] at hchars
      split at hchars <;> simp at hchars

namespace Target

variable {t : Target n} {id : Fin n.records}

theorem defaultValue?_of_planField {field : Field n} {p : FieldPlan n}
    (h : t.planField id field = .ok p) :
    t.defaultValue? field = p.default?.map (·.value t.config) := by
  obtain ⟨_, default?, _, _, hdefault, _, rfl⟩ := planField_eq_ok_iff.mp h
  rw [defaultValue?, hdefault]
  cases default? <;> rfl

theorem default?_eq_none_iff_of_planField {field : Field n} {p : FieldPlan n}
    (h : t.planField id field = .ok p) : p.default? = none ↔ field.default? = none := by
  obtain ⟨_, default?, _, _, hdefault, _, rfl⟩ := planField_eq_ok_iff.mp h
  rw [defaultInitializer] at hdefault
  cases hfield : field.default? with
  | none =>
      rw [hfield] at hdefault
      cases hdefault
      simp
  | some v =>
      rw [hfield] at hdefault
      obtain ⟨initial, _, hsome⟩ := except_bind_eq_ok.mp hdefault
      cases hsome
      simp

theorem defaultValue?_eq_none_iff_of_planField {field : Field n} {p : FieldPlan n}
    (h : t.planField id field = .ok p) : t.defaultValue? field = none ↔ field.default? = none := by
  rw [defaultValue?_of_planField h, Option.map_eq_none_iff, default?_eq_none_iff_of_planField h]

/-- The code of `new` leaves those fields empty that a new builder has no value for. -/
theorem forall₂_seedLine {plans : List (FieldPlan n)} (h : t.planFields id = .ok plans) :
    List.Forall₂ (fun f slot => RecordPlan.seedLine t f = f.ident ++ ": None," ↔ slot = none)
      plans (Builder.new t id).slots := by
  change List.Forall₂ _ plans ((t.schema.record id).fields.map t.defaultValue?)
  rw [List.forall₂_map_right_iff]
  refine (forall₂_of_mapM h).flip.imp fun f field hplan => ?_
  rw [RecordPlan.seedLine_eq_none_iff, defaultValue?_of_planField hplan, Option.map_eq_none_iff]

theorem countP_set_new {plans : List (FieldPlan n)} (h : t.planFields id = .ok plans)
    (i : Fin (t.schema.record id).fields.length) (v : Value) :
    ((Builder.new t id).set i v).slots.countP (·.isSome) =
      ((t.schema.record id).seededBeside i).card + 1 := by
  rw [countP_set (Builder.slots_new t id), RecordDecl.seededBeside]
  congr 2
  ext j
  obtain ⟨p, _, hplan⟩ := exists_of_mapM h (List.get_mem _ j)
  simp only [Finset.mem_filter_univ, Option.isSome_iff_ne_none, ne_eq,
    defaultValue?_eq_none_iff_of_planField hplan]

/-- A member of a union can be chosen on its own if no other member has a default; otherwise the
check of the union counts those defaults too. -/
theorem build_of_single_choice {code : String} (hunion : (t.schema.record id).isUnion = true)
    (hcode : t.recordCode id = .ok code) (i : Fin (t.schema.record id).fields.length)
    (v : Value) :
    (∃ plan, t.planRecord id = .ok plan ∧
      plan.newFunction.body = [.block "Self" (plan.fields.map (RecordPlan.seedLine t)) ""] ∧
      List.Forall₂ (fun f slot => RecordPlan.seedLine t f = f.ident ++ ": None," ↔ slot = none)
        plan.fields (Builder.new t id).slots) ∧
    (((Builder.new t id).set i v).slots.countP (·.isSome) = 1 ↔
      (t.schema.record id).OthersPlain i) ∧
    ((t.schema.record id).OthersPlain i →
      ((Builder.new t id).set i v).build t.schema =
        .ok (.record ((Builder.new t id).set i v).slots)) ∧
    (¬ (t.schema.record id).OthersPlain i →
      ((Builder.new t id).set i v).build t.schema =
        .error (.invalidUnionState (((t.schema.record id).seededBeside i).card + 1))) := by
  obtain ⟨plans, _, hplans, _⟩ := recordCode_eq_ok hcode
  have hcount := countP_set_new hplans i v
  have hone : ((t.schema.record id).seededBeside i).card + 1 = 1 ↔
      (t.schema.record id).OthersPlain i := by
    rw [Nat.add_eq_right, Finset.card_eq_zero, RecordDecl.seededBeside_eq_empty_iff]
  refine ⟨⟨⟨t, t.schema.record id, plans⟩, ?_, rfl, forall₂_seedLine hplans⟩, ?_, ?_, ?_⟩
  · exact except_bind_eq_ok.mpr ⟨plans, hplans, rfl⟩
  · rw [hcount, hone]
  · intro hplain
    exact (RecordDecl.build_union_eq_ok_iff hunion).mpr ⟨hcount.trans (hone.mpr hplain), rfl⟩
  · intro hseeded
    refine (RecordDecl.build_union_eq_error_iff hunion).mpr ⟨?_, by rw [← hcount]⟩
    exact fun hbuilt => hseeded (hone.mp (hcount.symm.trans hbuilt))

end Target

abbrev choiceCensus : Census where
  records := 1
  enums := 0
  typedefs := 0
  services := 0

abbrev choiceId : Fin choiceCensus.records := ⟨0, by decide⟩

/-- A count, which has a default, or a label. -/
def choice : RecordDecl choiceCensus where
  name := "Choice"
  kind := .union
  fields := [
    { id := 1, name := "count", ty := .i32, default? := some (.int 7) },
    { id := 2, name := "label", ty := .string }]

def choices : Target choiceCensus where
  schema := {
    records := #v[choice]
    enums := .ofFn Fin.elim0
    typedefs := .ofFn Fin.elim0
    services := .ofFn Fin.elim0 }
  config := {}

/-- The count can be chosen. -/
theorem Target.choice_of_count :
    (∃ code, choices.recordCode choiceId = .ok code) ∧
      ((Builder.new choices choiceId).set 0 (.i32 3)).build choices.schema =
        .ok (.record [some (.i32 3), none]) := by
  obtain ⟨code, hcode⟩ : ∃ code, choices.recordCode choiceId = .ok code := ⟨_, rfl⟩
  have hplain : choice.OthersPlain ⟨0, by decide⟩ := by
    unfold RecordDecl.OthersPlain
    decide
  exact ⟨⟨code, hcode⟩,
    (build_of_single_choice rfl hcode ⟨0, by decide⟩ (.i32 3)).2.2.1 hplain⟩

/-- The label cannot: with nothing else set, two fields are counted. -/
theorem Target.no_choice_of_label :
    (∃ code, choices.recordCode choiceId = .ok code) ∧
      ((Builder.new choices choiceId).set 1 (.string .owned "a")).slots.countP (·.isSome) = 2 ∧
      ((Builder.new choices choiceId).set 1 (.string .owned "a")).build choices.schema =
        .error (.invalidUnionState 2) :=
  ⟨⟨_, rfl⟩, rfl, rfl⟩

end WireIdl
