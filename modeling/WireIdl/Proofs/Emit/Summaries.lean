import Mathlib.Data.List.Flatten
import WireIdl.Proofs.Code.Ink
import WireIdl.Proofs.Emit.Pruned
import WireIdl.Proofs.Emit.Renaming

/-! Where the name of a typedef shows. The text of a record names the types in an obfuscated
container as they are written; if one of them is a typedef, another name for it changes the code of
the record. -/

namespace WireIdl

open Code

variable {n : Census}

theorem Text.sublist_intercalate {text separator : String} {texts : List String}
    (h : text ∈ texts) : text.toList.Sublist (separator.intercalate texts).toList := by
  induction texts with
  | nil => cases h
  | cons first texts ih =>
      cases texts with
      | nil =>
          cases List.mem_singleton.mp h
          rw [String.intercalate_singleton]
      | cons next texts =>
          rw [String.intercalate_cons_cons, String.toList_append, String.toList_append]
          obtain rfl | hrest := List.mem_cons.mp h
          · exact (List.sublist_append_left _ _).trans (List.sublist_append_left _ _)
          · exact (ih hrest).trans (List.sublist_append_right _ _)

theorem Text.sublist_middle (before text after : String) :
    text.toList.Sublist (before ++ text ++ after).toList := by
  rw [String.toList_append, String.toList_append]
  exact (List.sublist_append_right _ _).trans (List.sublist_append_left _ _)

/-- Layout loses no more than blanks of a piece. -/
theorem Code.Item.sublist_render {items : List Item} {item : Item} {piece : Piece}
    (hitem : item ∈ items) (hpiece : piece ∈ item.pieces 0) :
    (piece.chars.filter (!Text.isBlank ·)).Sublist (render items).toList := by
  have hmem : piece ∈ pieceList items := by
    cases items with
    | nil => cases hitem
    | cons first rest =>
        rw [pieceList, List.mem_append]
        obtain rfl | hrest := List.mem_cons.mp hitem
        · exact .inl hpiece
        · exact .inr (List.mem_flatMap.mpr ⟨item, hrest, List.mem_cons_of_mem _ hpiece⟩)
  have hpieces : piece.chars.Sublist ((pieceList items).flatMap Piece.chars) := by
    rw [List.flatMap_def]
    exact List.sublist_flatten_of_mem (List.mem_map_of_mem hmem)
  have hink := (sameInk_pieceList items).filter_eq
  simp only [List.filter_append, List.append_left_inj, List.append_right_inj] at hink
  have hfiltered := hpieces.filter (!Text.isBlank ·)
  rw [← hink] at hfiltered
  exact hfiltered.trans List.filter_sublist

namespace Schema

variable {s : Schema n} {k : Nat}

/-- The typedefs of a schema, all with one name. -/
def allNamed (s : Schema n) (name : String) : Vector (Typedef n) n.typedefs :=
  s.typedefs.map fun declared => { declared with name }

theorem allNamed_sameTargets (s : Schema n) (name : String) : s.SameTargets (s.allNamed name) := by
  intro id
  simp [allNamed, typedef, withTypedefs]

theorem name_allNamed (s : Schema n) (name : String) (id : Fin n.typedefs) :
    ((s.withTypedefs (s.allNamed name)).typedef id).name = name := by
  simp [allNamed, typedef, withTypedefs]

/-- A name that is told by its length from any code that does not have it. -/
def dashes (k : Nat) : String :=
  String.ofList (List.replicate k '_')

theorem dashes_sublist_typeName {ty : Ty n} (h : ty.typedefs ≠ []) :
    (List.replicate k '_').Sublist
      ((s.withTypedefs (s.allNamed (dashes k))).typeName ty).toList := by
  induction ty with
  | list element ih | set element ih =>
      simp only [typeName, String.toList_append]
      exact ((ih h).trans (List.sublist_append_right _ _)).trans (List.sublist_append_left _ _)
  | map key value ihKey ihValue =>
      simp only [typeName, String.toList_append, List.append_assoc]
      by_cases hkey : key.typedefs = []
      · have hvalue : value.typedefs ≠ [] := fun hvalue =>
          h (List.append_eq_nil_iff.mpr ⟨hkey, hvalue⟩)
        have hafter := (ihValue hvalue).trans (List.sublist_append_left _ ">".toList)
        have hsecond := hafter.trans (List.sublist_append_right ", ".toList _)
        exact (hsecond.trans (List.sublist_append_right _ _)).trans (List.sublist_append_right _ _)
      · exact ((ihKey hkey).trans (List.sublist_append_left _ _)).trans
          (List.sublist_append_right _ _)
  | typedef id => rw [typeName, name_allNamed, dashes, String.toList_ofList]
  | _ => exact absurd rfl h

theorem dashes_sublist_quote {text : String} (h : (List.replicate k '_').Sublist text.toList) :
    (List.replicate k '_').Sublist (Text.quote text).toList := by
  have hdash : Text.escapeChar '_' = ['_'] := by decide
  have hescaped : (List.replicate k '_').flatMap Text.escapeChar = List.replicate k '_' := by
    rw [List.flatMap_replicate, hdash]
    simp
  have hchars := h.flatMap Text.escapeChar
  rw [hescaped] at hchars
  rw [Text.quote, String.toList_ofList]
  exact (hchars.trans (List.sublist_cons_self _ _)).trans (List.sublist_append_left _ _)

/-- What is shown for a field whose summary has the type. -/
theorem showing_of_mem_summaryTypes {typedefs : Vector (Typedef n) n.typedefs}
    (h : s.SameTargets typedefs) {field : Field n} {ty : Ty n} (hty : ty ∈ s.summaryTypes field) :
    (∃ kind, (s.withTypedefs typedefs).showing field =
        .items kind ((s.withTypedefs typedefs).typeName ty)) ∨
      ∃ key value, (s.withTypedefs typedefs).showing field =
        .entries ((s.withTypedefs typedefs).typeName key)
          ((s.withTypedefs typedefs).typeName value) ∧ (ty = key ∨ ty = value) := by
  have hshape := h.shape field.ty
  rw [summaryTypes] at hty
  rw [showing]
  generalize s.shape field.ty = a at *
  generalize (s.withTypedefs typedefs).shape field.ty = b at *
  cases hredacted : field.redacted with
  | true =>
      rw [hredacted] at hty
      cases hty
  | false =>
      cases hobfuscated : field.obfuscated with
      | false =>
          rw [hredacted, hobfuscated] at hty
          cases hty
      | true =>
          rw [hredacted, hobfuscated] at hty
          cases hshape with
          | list _ | set _ =>
              cases List.mem_singleton.mp hty
              exact .inl ⟨_, rfl⟩
          | @map k v _ _ _ _ _ _ =>
              refine .inr ⟨k, v, rfl, ?_⟩
              simpa using hty
          | _ => cases hty

end Schema

namespace Target

variable {s : Schema n} {c : Config} {k : Nat}

theorem dashes_sublist_displayCall {plans : List (FieldPlan n)} {p : FieldPlan n} {ty : Ty n}
    (hp : p ∈ plans) (hty : ty ∈ s.summaryTypes p.field) (hnamed : ty.typedefs ≠ [])
    (name : String) :
    (List.replicate k '_').Sublist
      (displayCall ⟨s.withTypedefs (s.allNamed (Schema.dashes k)), c⟩ name plans).toList := by
  let typeName := (s.withTypedefs (s.allNamed (Schema.dashes k))).typeName
  have hquoted : (List.replicate k '_').Sublist (Text.quote (typeName ty)).toList :=
    Schema.dashes_sublist_quote (Schema.dashes_sublist_typeName hnamed)
  have harg : ∃ arg ∈ displayArgs ⟨s.withTypedefs (s.allNamed (Schema.dashes k)), c⟩ plans,
      (List.replicate k '_').Sublist (arg.text c.runtimePath).toList := by
    obtain ⟨kind, hshown⟩ | ⟨key, value, hshown, hpart⟩ :=
      Schema.showing_of_mem_summaryTypes (s.allNamed_sameTargets (Schema.dashes k)) hty
    · refine ⟨.items p.length kind (typeName ty), List.mem_filterMap.mpr ⟨p, hp, ?_⟩, ?_⟩
      · rw [FieldPlan.displayArg?, hshown]
      · rw [DisplayArg.text]
        exact hquoted.trans (Text.sublist_middle _ _ _)
    · refine ⟨.entries p.length (typeName key) (typeName value),
        List.mem_filterMap.mpr ⟨p, hp, ?_⟩, ?_⟩
      · rw [FieldPlan.displayArg?, hshown]
      · rw [DisplayArg.text]
        obtain rfl | rfl := hpart
        · rw [String.append_assoc, String.append_assoc]
          exact hquoted.trans (Text.sublist_middle _ _ _)
        · exact hquoted.trans (Text.sublist_middle _ _ _)
  obtain ⟨arg, hmem, hsub⟩ := harg
  rw [displayCall, String.toList_append]
  refine (hsub.trans ?_).trans (List.sublist_append_left _ _)
  exact Text.sublist_intercalate (List.mem_cons_of_mem _ (List.mem_map_of_mem hmem))

theorem recordCode_eq_ok {t : Target n} {id : Fin n.records} {code : String}
    (h : t.recordCode id = .ok code) :
    ∃ plans items, t.planFields id = .ok plans ∧
      RecordPlan.items ⟨t, t.schema.record id, plans⟩ = .ok items ∧ code = Item.render items := by
  obtain ⟨plan, hplan, hrest⟩ := except_bind_eq_ok.mp h
  obtain ⟨plans, hplans, hsame⟩ := except_bind_eq_ok.mp hplan
  cases hsame
  obtain ⟨items, hitems, hcode⟩ := except_bind_eq_ok.mp hrest
  cases hcode
  exact ⟨plans, items, hplans, hitems, rfl⟩

theorem displayItem_mem {p : RecordPlan n} {items : List Item} (h : p.items = .ok items) :
    RecordPlan.formatItem p.name "Display"
      [.text (p.target.displayCall p.decl.name p.fields)] ∈ items := by
  obtain ⟨codec, _, hitems⟩ := except_bind_eq_ok.mp h
  cases hitems
  simp [RecordPlan.displayItems]

theorem text_mem_formatItem (target name text : String) :
    Piece.text 2 text ∈ (RecordPlan.formatItem target name [.text text]).pieces 0 := by
  simp [RecordPlan.formatItem, Item.pieces, Impl.pieces, Function.pieces, Body.pieces, Pieces.all,
    Pieces.block, Pieces.deeper, Pieces.texts]

/-- A name that shows in the text of a record makes a difference. -/
theorem recordCode_changes {id : Fin n.records} {code : String}
    (hcode : recordCode ⟨s, c⟩ id = .ok code) (hnamed : ¬ s.SummaryIsClear id) :
    ∃ typedefs, s.SameTargets typedefs ∧ ∃ code',
      recordCode ⟨s.withTypedefs typedefs, c⟩ id = .ok code' ∧ code' ≠ code := by
  let k := code.toList.count '_' + 1
  let typedefs := s.allNamed (Schema.dashes k)
  have hsame := s.allNamed_sameTargets (Schema.dashes k)
  have hboth := recordCode_renamed (c := c) hsame id
  rw [hcode] at hboth
  obtain ⟨code', hcode', _⟩ := hboth.of_ok
  refine ⟨typedefs, hsame, code', hcode', ?_⟩
  rintro rfl
  obtain ⟨plans, items, hplans, hitems, hrender⟩ := recordCode_eq_ok hcode'
  -- The plan of the field whose text names a typedef.
  simp only [Schema.SummaryIsClear, not_forall] at hnamed
  obtain ⟨field, hfield, ty, hty, htypedefs⟩ := hnamed
  obtain ⟨p, hp, hplan⟩ := exists_of_mapM hplans hfield
  rw [← field_of_planField hplan] at hty
  have hcall := dashes_sublist_displayCall (c := c) (k := k) hp hty htypedefs (s.record id).name
  have hink := Item.sublist_render (displayItem_mem hitems) (text_mem_formatItem _ _ _)
  have hdashes := hcall.filter (!Text.isBlank ·)
  rw [List.filter_replicate_of_pos (by decide)] at hdashes
  rw [← hrender] at hink
  have hcount := List.replicate_sublist_iff.mp (hdashes.trans hink)
  exact Nat.not_succ_le_self _ hcount

theorem units_change {units : List SourceUnit} (hunits : Target.units ⟨s, c⟩ none = .ok units)
    {id : Fin n.records} (hnamed : ¬ s.SummaryIsClear id) :
    ∃ typedefs, s.SameTargets typedefs ∧ ∃ units',
      Target.units ⟨s.withTypedefs typedefs, c⟩ none = .ok units' ∧ units' ≠ units := by
  rw [units_none] at hunits
  obtain ⟨records, constants, services, hrecords, _, _, hall⟩ := allUnits_eq_ok hunits
  obtain ⟨unit, _, hunit⟩ := exists_of_mapM hrecords (Schema.mem_recordOrder s id)
  obtain ⟨code, hcode, hmake⟩ := except_bind_eq_ok.mp hunit
  obtain ⟨typedefs, hsame, code', hcode', hdiffers⟩ := recordCode_changes hcode hnamed
  have hboth := allUnits_renamed (c := c) hsame
  rw [hunits] at hboth
  obtain ⟨units', hunits', _⟩ := hboth.of_ok
  refine ⟨typedefs, hsame, units', ?_, ?_⟩
  · rw [units_none, hunits']
  · rintro rfl
    obtain ⟨records', constants', services', hrecords', _, _, hall'⟩ := allUnits_eq_ok hunits'
    have hlength : records.length = records'.length := by
      rw [← (forall₂_of_mapM hrecords).length_eq, ← (forall₂_of_mapM hrecords').length_eq]
      rfl
    -- The enums come first and are the same, so the records stand at the same places.
    have hequal : records = records' := by
      rw [hall] at hall'
      simp only [List.append_assoc] at hall'
      exact (List.append_inj (List.append_cancel_left hall') hlength).1
    subst hequal
    have hunit' := eq_of_mapM_eq hrecords hrecords' (Schema.mem_recordOrder s id)
    have hmake' : ∃ unit', recordUnit ⟨s.withTypedefs typedefs, c⟩ id = .ok unit' ∧
        unit'.code = code' := ⟨_, except_bind_eq_ok.mpr ⟨code', hcode', rfl⟩, rfl⟩
    obtain ⟨unit', hother, hothercode⟩ := hmake'
    rw [hunit, hother] at hunit'
    cases hunit'
    cases hmake
    exact hdiffers hothercode.symm

abbrev badgeCensus : Census where
  records := 1
  enums := 0
  typedefs := 1
  services := 0

abbrev badgeId : Fin badgeCensus.records := ⟨0, by decide⟩
abbrev labelId : Fin badgeCensus.typedefs := ⟨0, by decide⟩

/-- A record with an obfuscated list that is written with a typedef. -/
def badges : Schema badgeCensus where
  records := #v[
    { name := "Badge"
      fields := [
        { id := 1, name := "labels", ty := .list (.typedef labelId), obfuscated := true }] }]
  enums := #v[]
  typedefs := #v[{ name := "Label", target := .string }]
  services := #v[]

theorem badges_not_clear : ¬ badges.SummaryIsClear badgeId := by
  intro h
  have hlabel := h _ List.mem_cons_self (.typedef labelId) List.mem_cons_self
  cases hlabel

theorem exists_badges_units : ∃ emitted, units ⟨badges, {}⟩ none = .ok emitted := by
  obtain ⟨unit, hunit⟩ : ∃ unit, recordUnit ⟨badges, {}⟩ badgeId = .ok unit := ⟨_, rfl⟩
  have hrecords : badges.recordOrder = [badgeId] := by decide
  have hscopes : constantScopes ⟨badges, {}⟩ = [] := by
    simp [constantScopes, badges, Text.ascending, List.eraseReps, List.eraseRepsBy]
  rw [units_none, allUnits, hrecords, hscopes]
  refine ⟨_, except_bind_eq_ok.mpr ⟨[unit], ?_, rfl⟩⟩
  simp only [List.mapM_cons, List.mapM_nil, hunit, bind, Except.bind, pure, Except.pure]

/-- The name of a typedef shows in the units of a schema. -/
theorem badges_units_differ :
    ∃ typedefs, badges.SameTargets typedefs ∧ ∃ emitted emitted',
      units ⟨badges, {}⟩ none = .ok emitted ∧
      units ⟨badges.withTypedefs typedefs, {}⟩ none = .ok emitted' ∧ emitted' ≠ emitted := by
  obtain ⟨emitted, hemitted⟩ := exists_badges_units
  obtain ⟨typedefs, hsame, emitted', hemitted', hdiffer⟩ :=
    units_change hemitted badges_not_clear
  exact ⟨typedefs, hsame, emitted, emitted', hemitted, hemitted', hdiffer⟩

/-- Other names for typedefs leave emission as it is, save for the texts of records: a schema and
the same schema with other names emit units or fail together, and emit the same units if no such
text names a typedef. If one does, some names make a difference. -/
theorem units_withTypedefs (s : Schema n) (c : Config) :
    (∀ typedefs processor?, s.SameTargets typedefs →
      Parallel (fun units units' => (∀ id, s.SummaryIsClear id) → units = units')
          (units ⟨s, c⟩ processor?) (units ⟨s.withTypedefs typedefs, c⟩ processor?) ∧
        ∀ id, Parallel
          (fun units units' =>
            (∀ reach, s.reachAll c.allowListKey (s.serviceChain id) = .ok reach →
              ∀ record, reach.hasRecord record = true → s.SummaryIsClear record) → units = units')
          (prunedUnits ⟨s, c⟩ processor? id)
          (prunedUnits ⟨s.withTypedefs typedefs, c⟩ processor? id)) ∧
      (∀ emitted, units ⟨s, c⟩ none = .ok emitted →
        (∃ id, ¬ s.SummaryIsClear id) →
        ∃ typedefs, s.SameTargets typedefs ∧ ∃ emitted',
          units ⟨s.withTypedefs typedefs, c⟩ none = .ok emitted' ∧ emitted' ≠ emitted) := by
  refine ⟨fun typedefs processor? h => ⟨?_, fun id => ?_⟩, fun emitted hemitted hnamed => ?_⟩
  · simp only [units_eq_filterMap, map_eq_pure_bind]
    refine (allUnits_renamed h).bind fun units units' hunits => .ok fun hclear => ?_
    rw [hunits hclear]
  · simp only [prunedUnits_eq_filterMap, map_eq_pure_bind]
    refine (listedUnits_renamed h id).bind fun units units' hunits => .ok fun hclear => ?_
    rw [hunits hclear]
  · obtain ⟨id, hnamed⟩ := hnamed
    exact units_change hemitted hnamed

theorem units_withTypedefs_badges :
    badges.SameTargets (badges.allNamed "Tag") ∧ ¬ badges.SummaryIsClear badgeId ∧
      (∃ emitted', units ⟨badges.withTypedefs (badges.allNamed "Tag"), {}⟩ none = .ok emitted') ∧
      ∃ emitted, units ⟨badges, {}⟩ none = .ok emitted ∧
        ∃ typedefs, badges.SameTargets typedefs ∧ ∃ emitted',
          units ⟨badges.withTypedefs typedefs, {}⟩ none = .ok emitted' ∧ emitted' ≠ emitted := by
  have hsame := badges.allNamed_sameTargets "Tag"
  obtain ⟨emitted, hemitted⟩ := exists_badges_units
  obtain ⟨halike, hdiffer⟩ := units_withTypedefs badges {}
  have hboth := (halike _ none hsame).1
  rw [hemitted] at hboth
  obtain ⟨emitted', hemitted', _⟩ := hboth.of_ok
  exact ⟨hsame, badges_not_clear, ⟨emitted', hemitted'⟩, emitted, hemitted,
    hdiffer emitted hemitted ⟨badgeId, badges_not_clear⟩⟩

end Target

end WireIdl
