import WireIdl.Proofs.Emit.Boxing
import WireIdl.Proofs.Emit.DisplayText
import WireIdl.Proofs.Emit.FieldTable
import WireIdl.Proofs.Emit.Summaries
import WireIdl.Proofs.Emit.Whole

/-! Why a record cannot be emitted. Where no typedef holds itself, it is a field without an emitted
type, a field that has `void` somewhere in its type, or a default that does not fit; the rest of the
code of a record is there for any fields. -/

namespace WireIdl

variable {n : Census}

/-- Whether `void` stands somewhere in a type without typedefs. -/
def Ty.holdsVoid : Ty n → Bool
  | .void => true
  | .list element | .set element => element.holdsVoid
  | .map key value => key.holdsVoid || value.holdsVoid
  | _ => false

theorem Shape.calls?_map_eq_none_iff {writtenKey writtenValue : Ty n} {key value : Unit → Shape n} :
    (map writtenKey key writtenValue value).calls? = none ↔
      (key ()).calls? = none ∨ (value ()).calls? = none := by
  rw [calls?]
  cases (key ()).calls? with
  | none => simp
  | some calls => simp

namespace Target

variable {t : Target n}

/-- Of the types that can be emitted, those with `void` in them have no values that travel. -/
theorem Typed.calls?_eq_none_iff (h : t.schema.NoTypedefHoldsItself) {ty : Ty n}
    (htyped : t.Typed (t.schema.shape ty)) :
    (t.schema.shape ty).calls? = none ↔ (t.schema.expand ty).holdsVoid = true := by
  induction ty using h.induction with
  | typedef id ih =>
      rw [h.shape_typedef] at htyped ⊢
      rw [h.expand_typedef]
      exact ih htyped
  | other ty hty ih =>
      cases ty with
      | list element | set element =>
          have hpart := htyped.parts _ List.mem_cons_self
          exact Option.map_eq_none_iff.trans (ih element List.mem_cons_self hpart)
      | map key value =>
          have hkey := ih key (List.mem_cons_of_mem _ List.mem_cons_self)
            (htyped.parts _ (List.mem_cons_of_mem _ List.mem_cons_self))
          have hvalue := ih value List.mem_cons_self (htyped.parts _ List.mem_cons_self)
          rw [Schema.shape_map, Shape.calls?_map_eq_none_iff, hkey, hvalue]
          exact (Bool.or_eq_true _ _).to_iff.symm
      | typedef id => exact absurd rfl (hty id)
      | service id =>
          obtain ⟨_, htext⟩ := htyped
          cases htext
      | void => exact iff_of_true rfl rfl
      | _ => exact iff_of_false (Option.some_ne_none _) Bool.false_ne_true

/-! ### Faults of the codec -/

/-- The fault of `void` where a value is to be written. -/
def voidFault : EmitFault :=
  .unexpectedType "void" .wireValue

theorem Typed.tagPath_fault {shape : Shape n} {fault : EmitFault} (htyped : t.Typed shape)
    (h : t.tagPath shape = .error fault) : fault = voidFault := by
  obtain ⟨_, htext⟩ := htyped
  cases shape with
  | void =>
      cases h
      rfl
  | service | cyclic => cases htext
  | bool | byte | i16 | i32 | i64 | double | string | binary | enum | record | list | set | map =>
      cases h

theorem Typed.writeValue_fault {shape : Shape n} {tag : String} {fault : EmitFault}
    {x : Temporary} {next : Nat} (htyped : t.Typed shape) (htag : t.tagPath shape = .ok tag)
    (h : t.writeValue x next shape = .error fault) : fault = voidFault := by
  -- The tag of a part is asked for before the part is written, and `void` has none.
  induction shape generalizing tag x next with
  | void => cases htag
  | service | cyclic =>
      obtain ⟨_, htext⟩ := htyped
      cases htext
  | bool | byte | i16 | i32 | i64 | double | string | binary | enum | record => cases h
  | list _ element ih | set _ element ih =>
      have hpart := htyped.parts _ List.mem_cons_self
      obtain htag | ⟨tag, htag, h⟩ := except_bind_eq_error.mp h
      · exact hpart.tagPath_fault htag
      obtain hbody | ⟨_, _, h⟩ := except_bind_eq_error.mp h
      · exact ih () hpart htag hbody
      · cases h
  | map _ key _ value ihKey ihValue =>
      have hkey := htyped.parts _ (List.mem_cons_of_mem _ List.mem_cons_self)
      have hvalue := htyped.parts _ List.mem_cons_self
      rw [writeValue] at h
      obtain hkeyTag | ⟨keyTag, hkeyTag, h⟩ := except_bind_eq_error.mp h
      · exact hkey.tagPath_fault hkeyTag
      obtain hvalueTag | ⟨valueTag, hvalueTag, h⟩ := except_bind_eq_error.mp h
      · exact hvalue.tagPath_fault hvalueTag
      obtain hkeyBody | ⟨_, _, h⟩ := except_bind_eq_error.mp h
      · exact ihKey () hkey hkeyTag hkeyBody
      obtain hvalueBody | ⟨_, _, h⟩ := except_bind_eq_error.mp h
      · exact ihValue () hvalue hvalueTag hvalueBody
      · cases h

theorem writeFields_fault {fields : List (Field n × Access)} {next : Nat} {fault : EmitFault}
    (htyped : ∀ f ∈ fields, t.Typed (t.shape f.1.ty))
    (h : t.writeFields next fields = .error fault) : fault = voidFault := by
  induction fields generalizing next with
  | nil => cases h
  | cons first fields ih =>
      rw [List.forall_mem_cons] at htyped
      obtain htag | ⟨tag, htag, h⟩ := except_bind_eq_error.mp h
      · exact htyped.1.tagPath_fault htag
      obtain hvalue | ⟨_, _, h⟩ := except_bind_eq_error.mp h
      · exact htyped.1.writeValue_fault htag hvalue
      obtain hfields | ⟨_, _, h⟩ := except_bind_eq_error.mp h
      · exact ih htyped.2 hfields
      · cases h

end Target

namespace RecordPlan

/-- A field as it is written and read. -/
def carried (f : FieldPlan n) : Carried n where
  field := f.field
  access := (access f).2
  destination := .builder f.ident

theorem map_access (fields : List (FieldPlan n)) :
    fields.map access = (fields.map carried).map Carried.writing := by
  rw [List.map_map]
  rfl

theorem map_reading (fields : List (FieldPlan n)) :
    fields.map reading = (fields.map carried).map Carried.reading := by
  rw [List.map_map]
  rfl

variable {p : RecordPlan n}

theorem exists_codecItem (h : ∀ f ∈ p.fields, (p.target.shape f.field.ty).calls? ≠ none) :
    ∃ codec, p.codecItem = .ok codec := by
  have hcalls : ∀ c ∈ p.fields.map carried, (p.target.shape c.field.ty).calls? ≠ none :=
    List.forall_mem_map.mpr h
  obtain ⟨keys, hkeys⟩ := exists_forall₂ fun c hc => by
    obtain ⟨calls, hsome⟩ := Option.ne_none_iff_exists'.mp (hcalls c hc)
    exact Target.exists_fieldKey? hsome
  obtain ⟨ws, hws, _⟩ := Target.exists_writeFields hkeys hcalls 0
  obtain ⟨rs, hrs, _⟩ := Target.exists_readFields hkeys hcalls 0 true
  rw [← map_access] at hws
  rw [← map_reading] at hrs
  exact ⟨_, except_bind_eq_ok.mpr ⟨_, except_bind_eq_ok.mpr ⟨ws, hws, rfl⟩,
    except_bind_eq_ok.mpr ⟨_, except_bind_eq_ok.mpr ⟨rs, hrs, rfl⟩, rfl⟩⟩⟩

theorem calls?_ne_none_of_writeFields {ws : List FieldWrite}
    (h : p.target.writeFields 0 (p.fields.map access) = .ok ws) :
    ∀ f ∈ p.fields, (p.target.shape f.field.ty).calls? ≠ none := by
  intro f hf hnone
  rw [map_access] at h
  exact Target.writeFields_ne_ok (List.mem_map_of_mem hf) hnone 0 ws h

theorem exists_codecItem_iff :
    (∃ codec, p.codecItem = .ok codec) ↔
      ∀ f ∈ p.fields, (p.target.shape f.field.ty).calls? ≠ none := by
  constructor
  · rintro ⟨codec, h⟩
    obtain ⟨_, hwrite, _⟩ := except_bind_eq_ok.mp h
    obtain ⟨ws, hws, _⟩ := except_bind_eq_ok.mp hwrite
    exact calls?_ne_none_of_writeFields hws
  · exact exists_codecItem

/-- A codec is refused by the writer, never by the reader. -/
theorem codecItem_fault {fault : EmitFault}
    (htyped : ∀ f ∈ p.fields, p.target.Typed (p.target.shape f.field.ty))
    (h : p.codecItem = .error fault) : fault = Target.voidFault := by
  cases hws : p.target.writeFields 0 (p.fields.map access) with
  | ok ws =>
      obtain ⟨codec, hcodec⟩ := exists_codecItem (calls?_ne_none_of_writeFields hws)
      rw [hcodec] at h
      cases h
  | error other =>
      rw [codecItem, Target.writeFrame, hws] at h
      cases h
      exact Target.writeFields_fault (List.forall_mem_map.mpr htyped) hws

end RecordPlan

namespace Target

variable {t : Target n} {id : Fin n.records} {field : Field n}

/-! ### Faults of a plan -/

theorem exists_defaultInitializer_iff :
    (∃ default?, t.defaultInitializer field = .ok default?) ↔
      ∀ v ∈ field.default?, ∃ text, t.literalText field.ty v = .ok text := by
  rw [defaultInitializer]
  cases field.default? with
  | none => simp
  | some v =>
      simp only [literalText, Option.mem_some_iff, forall_eq']
      exact exists_bind_pure_iff.trans exists_bind_pure_iff.symm

theorem defaultInitializer_fault {fault : EmitFault}
    (h : t.defaultInitializer field = .error fault) :
    ∃ v ∈ field.default?, t.literalText field.ty v = .error fault := by
  rw [defaultInitializer] at h
  cases hdefault : field.default? with
  | none =>
      rw [hdefault] at h
      cases h
  | some v =>
      rw [hdefault] at h
      obtain hinitial | ⟨_, _, h⟩ := except_bind_eq_error.mp h
      · exact ⟨v, rfl, except_bind_eq_error.mpr (.inl hinitial)⟩
      · cases h

theorem exists_planField_iff (h : t.schema.NoTypedefHoldsItself) :
    (∃ plan, t.planField id field = .ok plan) ↔
      t.Typed (t.shape field.ty) ∧
        ∀ v ∈ field.default?, ∃ text, t.literalText field.ty v = .ok text := by
  obtain ⟨boxed, hboxed⟩ := exists_needsBox h.not_circular id field.ty
  rw [← exists_defaultInitializer_iff]
  constructor
  · rintro ⟨plan, hplan⟩
    obtain ⟨_, default?, text, _, hdefault, htext, _⟩ := planField_eq_ok_iff.mp hplan
    exact ⟨⟨text, htext⟩, default?, hdefault⟩
  · rintro ⟨⟨text, htext⟩, default?, hdefault⟩
    exact ⟨_, planField_eq_ok_iff.mpr ⟨boxed, default?, text, hboxed, hdefault, htext, rfl⟩⟩

theorem planField_fault (h : t.schema.NoTypedefHoldsItself) {fault : EmitFault}
    (hplan : t.planField id field = .error fault) :
    t.typeText (t.shape field.ty) = .error fault ∨
      ∃ v ∈ field.default?, t.literalText field.ty v = .error fault := by
  obtain ⟨boxed, hboxed⟩ := exists_needsBox h.not_circular id field.ty
  obtain hbox | ⟨_, _, hplan⟩ := except_bind_eq_error.mp hplan
  · rw [hboxed] at hbox
    cases hbox
  obtain hdefault | ⟨_, _, hplan⟩ := except_bind_eq_error.mp hplan
  · exact .inr (defaultInitializer_fault hdefault)
  obtain htext | ⟨_, _, hplan⟩ := except_bind_eq_error.mp hplan
  · exact .inl htext
  · cases hplan

/-! ### Faults of a record -/

theorem exists_recordCode_iff :
    (∃ code, t.recordCode id = .ok code) ↔
      ∃ plans codec, t.planFields id = .ok plans ∧
        RecordPlan.codecItem ⟨t, t.schema.record id, plans⟩ = .ok codec := by
  constructor
  · rintro ⟨code, h⟩
    obtain ⟨plans, items, hplans, hitems, _⟩ := recordCode_eq_ok h
    obtain ⟨codec, hcodec, _⟩ := except_bind_eq_ok.mp hitems
    exact ⟨plans, codec, hplans, hcodec⟩
  · rintro ⟨plans, codec, hplans, hcodec⟩
    exact ⟨_, except_bind_eq_ok.mpr ⟨_, except_bind_eq_ok.mpr ⟨plans, hplans, rfl⟩,
      except_bind_eq_ok.mpr ⟨_, except_bind_eq_ok.mpr ⟨codec, hcodec, rfl⟩, rfl⟩⟩⟩

theorem recordCode_eq_error {fault : EmitFault} (h : t.recordCode id = .error fault) :
    t.planFields id = .error fault ∨
      ∃ plans, t.planFields id = .ok plans ∧
        RecordPlan.codecItem ⟨t, t.schema.record id, plans⟩ = .error fault := by
  obtain hplan | ⟨plan, hplan, hitems⟩ := except_bind_eq_error.mp h
  · obtain hplans | ⟨_, _, hpure⟩ := except_bind_eq_error.mp hplan
    · exact .inl hplans
    · cases hpure
  · obtain ⟨plans, hplans, hsame⟩ := except_bind_eq_ok.mp hplan
    cases hsame
    obtain hitems | ⟨_, _, hpure⟩ := except_bind_eq_error.mp hitems
    · obtain hcodec | ⟨_, _, hpure⟩ := except_bind_eq_error.mp hitems
      · exact .inr ⟨plans, hplans, hcodec⟩
      · cases hpure
    · cases hpure

section Plans

variable (h : t.schema.NoTypedefHoldsItself) {plans : List (FieldPlan n)}
  (hplans : t.planFields id = .ok plans)
include h hplans

theorem typed_of_planFields : ∀ plan ∈ plans, t.Typed (t.shape plan.field.ty) := by
  intro plan hmem
  obtain ⟨field, _, hplan⟩ := exists_of_forall₂ (forall₂_of_mapM hplans).flip hmem
  rw [field_of_planField hplan]
  exact ((exists_planField_iff h).mp ⟨plan, hplan⟩).1

theorem exists_codecItem_iff_void :
    (∃ codec, RecordPlan.codecItem ⟨t, t.schema.record id, plans⟩ = .ok codec) ↔
      ∀ field ∈ (t.schema.record id).fields, (t.schema.expand field.ty).holdsVoid = false := by
  rw [RecordPlan.exists_codecItem_iff, fields_of_planFields hplans, List.forall_mem_map]
  refine forall₂_congr fun plan hmem => ?_
  rw [← Bool.not_eq_true]
  exact ((typed_of_planFields h hplans plan hmem).calls?_eq_none_iff h).not

theorem codecItem_fault {fault : EmitFault}
    (hcodec : RecordPlan.codecItem ⟨t, t.schema.record id, plans⟩ = .error fault) :
    fault = voidFault ∧
      ∃ field ∈ (t.schema.record id).fields, (t.schema.expand field.ty).holdsVoid = true := by
  refine ⟨RecordPlan.codecItem_fault (typed_of_planFields h hplans) hcodec, ?_⟩
  by_contra hvoid
  push Not at hvoid
  obtain ⟨codec, hok⟩ := (exists_codecItem_iff_void h hplans).mpr fun field hfield =>
    Bool.eq_false_of_not_eq_true (hvoid field hfield)
  rw [hcodec] at hok
  cases hok

end Plans

/-- The code of a record fails for a field that has no emitted type, that holds `void`, or whose
default does not fit, and with the fault of such a field. -/
theorem recordCode_faults (t : Target n) (h : t.schema.NoTypedefHoldsItself)
    (id : Fin n.records) :
    ((∃ code, t.recordCode id = .ok code) ↔
      ∀ field ∈ (t.schema.record id).fields,
        (∃ text, t.typeText (t.shape field.ty) = .ok text) ∧
        (t.schema.expand field.ty).holdsVoid = false ∧
        ∀ v ∈ field.default?, ∃ text, t.literalText field.ty v = .ok text) ∧
    ∀ fault, t.recordCode id = .error fault →
      ∃ field ∈ (t.schema.record id).fields,
        t.typeText (t.shape field.ty) = .error fault ∨
        (t.schema.expand field.ty).holdsVoid = true ∧ fault = voidFault ∨
        ∃ v ∈ field.default?, t.literalText field.ty v = .error fault := by
  constructor
  · rw [exists_recordCode_iff]
    constructor
    · rintro ⟨plans, codec, hplans, hcodec⟩ field hfield
      obtain ⟨plan, _, hplan⟩ := exists_of_mapM hplans hfield
      obtain ⟨htyped, hdefault⟩ := (exists_planField_iff h).mp ⟨plan, hplan⟩
      have hvoid := (exists_codecItem_iff_void h hplans).mp ⟨codec, hcodec⟩
      exact ⟨htyped, hvoid field hfield, hdefault⟩
    · intro hfields
      obtain ⟨plans, hplans⟩ := exists_mapM fun field hfield =>
        (exists_planField_iff h).mpr ⟨(hfields field hfield).1, (hfields field hfield).2.2⟩
      obtain ⟨codec, hcodec⟩ := (exists_codecItem_iff_void h hplans).mpr fun field hfield =>
        (hfields field hfield).2.1
      exact ⟨plans, codec, hplans, hcodec⟩
  · intro fault hfault
    obtain hplans | ⟨plans, hplans, hcodec⟩ := recordCode_eq_error hfault
    · obtain ⟨field, hfield, hplan⟩ := exists_error_of_mapM hplans
      obtain htext | hdefault := planField_fault h hplan
      · exact ⟨field, hfield, .inl htext⟩
      · exact ⟨field, hfield, .inr (.inr hdefault)⟩
    · obtain ⟨rfl, field, hfield, hvoid⟩ := codecItem_fault h hplans hcodec
      exact ⟨field, hfield, .inr (.inl ⟨hvoid, rfl⟩)⟩

end Target

abbrev albumCensus : Census where
  records := 2
  enums := 0
  typedefs := 1
  services := 0

abbrev photoId : Fin albumCensus.records := ⟨0, by decide⟩
abbrev albumId : Fin albumCensus.records := ⟨1, by decide⟩
abbrev blankId : Fin albumCensus.typedefs := ⟨0, by decide⟩

def photo : RecordDecl albumCensus where
  name := "Photo"
  fields := [{ id := 1, name := "marks", ty := .list (.typedef blankId) }]

def album : RecordDecl albumCensus where
  name := "Album"
  fields := [
    { id := 1, name := "title", ty := .string, default? := some (.string "untitled") },
    { id := 2, name := "photos", ty := .list (.record .struct photoId) }]

def albums : Target albumCensus where
  schema := {
    records := #v[photo, album]
    enums := .ofFn Fin.elim0
    typedefs := #v[{ name := "Blank", target := .void }]
    services := .ofFn Fin.elim0 }
  config := {}

/-- A field may hold records that cannot be emitted themselves. -/
theorem Target.albums_faults :
    albums.schema.NoTypedefHoldsItself ∧ (∃ code, albums.recordCode albumId = .ok code) ∧
      ¬ ∃ code, albums.recordCode photoId = .ok code := by
  have halbums : albums.schema.NoTypedefHoldsItself :=
    Schema.noTypedefHoldsItself_of_rank (fun _ => 0) (by decide)
  refine ⟨halbums, (recordCode_faults albums halbums albumId).1.mpr ?_, ?_⟩
  · intro field hfield
    obtain rfl | hfield := List.mem_cons.mp hfield
    · refine ⟨⟨_, rfl⟩, rfl, fun v hv => ?_⟩
      cases hv
      exact ⟨_, rfl⟩
    · cases List.mem_singleton.mp hfield
      exact ⟨⟨_, rfl⟩, rfl, fun v hv => by cases hv⟩
  · intro hcode
    obtain ⟨_, hvoid, _⟩ :=
      (recordCode_faults albums halbums photoId).1.mp hcode _ List.mem_cons_self
    cases hvoid

end WireIdl
