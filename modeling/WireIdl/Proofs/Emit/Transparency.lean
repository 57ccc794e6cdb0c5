import WireIdl.Proofs.Emit.Agreement

/-! Typedefs can be looked through. Where no typedef holds itself, a schema and the same schema with
all of its types expanded are not told apart. -/

namespace WireIdl

variable {n : Census}

namespace Schema

variable {s : Schema n}

theorem NoTypedefHoldsItself.shape_expand (h : s.NoTypedefHoldsItself) (ty : Ty n) :
    (s.shape ty).Agrees s.expand (s.expanded.shape (s.expand ty)) := by
  induction ty using h.induction with
  | typedef id ih =>
      rw [h.shape_typedef, h.expand_typedef]
      exact ih
  | other ty hty ih =>
      cases ty with
      | list element => exact .list (ih element List.mem_cons_self)
      | set element => exact .set (ih element List.mem_cons_self)
      | map key value =>
          have hkey := ih key (List.mem_cons_of_mem _ List.mem_cons_self)
          exact .map hkey (ih value List.mem_cons_self)
      | typedef id => exact absurd rfl (hty id)
      | void => exact .void
      | bool => exact .bool
      | byte => exact .byte
      | i16 => exact .i16
      | i32 => exact .i32
      | i64 => exact .i64
      | double => exact .double
      | string => exact .string
      | binary => exact .binary
      | enum id => exact .enum id
      | record _ id => exact .record id
      | service id => exact .service id

theorem trueType_of_ne_typedef {ty : Ty n} (h : ∀ id, ty ≠ .typedef id) :
    s.trueType ty = .ok ty := by
  rw [trueType, followTypedefs]
  exact h

theorem recordId?_expand {ty : Ty n} (h : ∀ id, ty ≠ .typedef id) :
    (s.expand ty).recordId? = ty.recordId? := by
  cases ty with
  | typedef id => exact absurd rfl (h id)
  | _ => rfl

theorem NoTypedefHoldsItself.retyped (h : s.NoTypedefHoldsItself) :
    s.Retyped s.expand s.expanded where
  enum _ := rfl
  record := record_mapTypes s.expand s
  service := service_mapTypes s.expand s
  constants := rfl
  shape := h.shape_expand
  trueType ty := by
    obtain ⟨core, htrue, hends⟩ := h.exists_trueType ty
    have hexpanded : ∀ id, s.expand ty ≠ .typedef id := by
      intro id hid
      have hnone := h.typedefs_expand ty
      rw [hid] at hnone
      cases hnone
    rw [htrue, trueType_of_ne_typedef hexpanded]
    refine .ok ?_
    rw [h.expand_of_chain hends.chain, recordId?_expand hends.ne_typedef]

end Schema

namespace Target

/-- What two targets make of a type, of fields and of a service: both fail or both give the same.
The types of the second target are those of the first, changed. -/
structure SameResults (g : Ty n → Ty n) (t t' : Target n) : Prop where
  wireType : ∀ ty, Parallel Eq (t.wireType (t.shape ty)) (t'.wireType (t'.shape (g ty)))
  tagPath : ∀ ty, Parallel Eq (t.tagPath (t.shape ty)) (t'.tagPath (t'.shape (g ty)))
  typeText : ∀ ty, Parallel Eq (t.typeText (t.shape ty)) (t'.typeText (t'.shape (g ty)))
  writeFrame : ∀ name fields, Parallel Eq (t.writeFrame name fields)
    (t'.writeFrame name (fields.map fun (field, access) => (field.mapType g, access)))
  readFrame : ∀ readings, Parallel Eq (t.readFrame readings)
    (t'.readFrame (readings.map (·.mapType g)))
  needsBox : ∀ owner ty, Parallel Eq (t.needsBox owner ty) (t'.needsBox owner (g ty))
  reach : ∀ key id, Parallel Eq (t.schema.reach key id) (t'.schema.reach key id)

/-- A target in which each type is expanded. -/
def expanded (t : Target n) : Target n where
  schema := t.schema.expanded
  config := t.config

/-- Typedefs make no difference: the expansion of a type names none and is that of the target for a
typedef, and all that is found out about expanded types is what is found out about the types as they
are written. -/
theorem expanded_sameResults (t : Target n) (h : t.schema.NoTypedefHoldsItself) :
    (∀ ty, (t.schema.expand ty).typedefs = []) ∧
      (∀ id, t.schema.expand (.typedef id) = t.schema.expand (t.schema.typedef id).target) ∧
      t.SameResults t.schema.expand t.expanded := by
  refine ⟨h.typedefs_expand, h.expand_typedef, ?_⟩
  have hs := h.retyped
  exact {
    wireType := fun ty => wireType_agrees (hs.shape ty)
    tagPath := fun ty => tagPath_agrees (hs.shape ty)
    typeText := fun ty => typeText_agrees hs (hs.shape ty)
    writeFrame := writeFrame_retyped hs
    readFrame := readFrame_retyped hs
    needsBox := needsBox_retyped hs
    reach := Schema.reach_retyped hs }

abbrev libraryCensus : Census where
  records := 1
  enums := 0
  typedefs := 3
  services := 0

abbrev bookId : Fin libraryCensus.records := ⟨0, by decide⟩
abbrev titleId : Fin libraryCensus.typedefs := ⟨0, by decide⟩
abbrev titlesId : Fin libraryCensus.typedefs := ⟨1, by decide⟩
abbrev shelvesId : Fin libraryCensus.typedefs := ⟨2, by decide⟩

/-- Typedefs in containers and in each other, and a record that holds itself under one. -/
def library : Target libraryCensus where
  schema := {
    records := #v[
      { name := "Book"
        fields := [
          { id := 1, name := "title", ty := .typedef titleId },
          { id := 2, name := "shelves", ty := .list (.typedef shelvesId) }] }]
    enums := .ofFn Fin.elim0
    typedefs := #v[
      { name := "Title", target := .string },
      { name := "Titles", target := .set (.typedef titleId) },
      { name := "Shelves", target := .map (.typedef titlesId) (.list (.record .struct bookId)) }]
    services := #v[] }
  config := { set := .ordered }

theorem library_noTypedefHoldsItself : library.schema.NoTypedefHoldsItself :=
  Schema.noTypedefHoldsItself_of_rank Fin.val (by decide)

theorem library_expanded_sameResults :
    library.schema.NoTypedefHoldsItself ∧
      library.schema.expand (.list (.typedef shelvesId)) =
        .list (.map (.set .string) (.list (.record .struct bookId))) ∧
      Parallel Eq (library.typeText (library.shape (.list (.typedef shelvesId))))
        (library.expanded.typeText (library.expanded.shape
          (.list (.map (.set .string) (.list (.record .struct bookId)))))) := by
  have hself := library_noTypedefHoldsItself
  exact ⟨hself, rfl, (expanded_sameResults library hself).2.2.typeText (.list (.typedef shelvesId))⟩

end Target

end WireIdl
