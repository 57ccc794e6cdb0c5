import WireIdl.Proofs.Emit.Hook
import WireIdl.Proofs.Schema.Chain
import WireIdl.Proofs.Schema.Reach

/-! The units of a pruned service. Its declarations are those that can be reached from the types of
its emitted methods, each once, so what an emitted declaration refers to is emitted too. -/

namespace WireIdl

open Relation

variable {n : Census}

namespace Schema

variable {s : Schema n} {key : String}

/-- A type that an emitted method of a service or of an ancestor names: the type of a parameter, of
the result or of an exception. -/
def IsListed (s : Schema n) (key : String) (id : Fin n.services) (ty : Ty n) : Prop :=
  ∃ ancestor ∈ s.serviceChain id, ∃ m ∈ (Surface.listed key).methods (s.service ancestor),
    m.returns = ty ∨ ∃ field ∈ m.params ++ m.throws, field.ty = ty

theorem reachesFrom_or {isStart isStart' : Ty n → Prop} {ty : Ty n} :
    s.ReachesFrom (fun start => isStart start ∨ isStart' start) ty ↔
      s.ReachesFrom isStart ty ∨ s.ReachesFrom isStart' ty := by
  simp only [ReachesFrom, or_and_right, exists_or]

theorem ReachesFrom.trans {isStart : Ty n → Prop} {ty next : Ty n} (h : s.ReachesFrom isStart ty)
    (hnext : s.Reaches ty next) : s.ReachesFrom isStart next := by
  obtain ⟨start, hstart, hreach⟩ := h
  exact ⟨start, hstart, hreach.trans hnext⟩

theorem advances_of_walkAll {starts : List (Ty n)} {final : Unmet n}
    (h : s.walkAll (.all n) starts = .ok final) : s.Advances ⟨.all n, starts⟩ ⟨final, []⟩ := by
  have hwalks := walksTo_walkAll_all (s := s) starts
  rw [h] at hwalks
  exact hwalks.1

/-- The declarations of a reach are those that can be reached from some types. -/
structure IsReachOf (s : Schema n) (isStart : Ty n → Prop) (reach : Reach n) : Prop where
  records : ∀ record, reach.hasRecord record = true ↔
    ∃ kind, s.ReachesFrom isStart (.record kind record)
  enums : ∀ enum, reach.hasEnum enum = true ↔ s.ReachesFrom isStart (.enum enum)

theorem isReachOf_reach {id : Fin n.services} {reach : Reach n} (h : s.reach key id = .ok reach) :
    s.IsReachOf (fun ty => s.IsParameter key id ty ∨ s.IsResult key id ty) reach := by
  obtain ⟨parameters, hparameters, h⟩ := except_bind_eq_ok.mp h
  obtain ⟨results, hresults, h⟩ := except_bind_eq_ok.mp h
  cases h
  have hfirst := advances_of_walkAll hparameters
  have hsecond := advances_of_walkAll hresults
  constructor
  case records =>
    intro record
    rw [Reach.hasRecord, Bool.or_eq_true, List.contains_iff_mem, List.contains_iff_mem,
      mem_metRecords_iff hfirst, mem_metRecords_iff hsecond]
    simp only [mem_parameterTypes_iff, mem_resultTypes_iff, reachesFrom_or, exists_or]
  case enums =>
    intro enum
    rw [Reach.hasEnum, List.contains_iff_mem, Reach.mem_union, mem_metEnums_iff hfirst,
      mem_metEnums_iff hsecond]
    simp only [mem_parameterTypes_iff, mem_resultTypes_iff, reachesFrom_or]

theorem IsReachOf.merge {isStart isStart' : Ty n → Prop} {reach other : Reach n}
    (h : s.IsReachOf isStart reach) (h' : s.IsReachOf isStart' other) :
    s.IsReachOf (fun ty => isStart ty ∨ isStart' ty) (reach.merge other) := by
  constructor
  case records =>
    intro record
    have hunion : (reach.merge other).hasRecord record = true ↔
        reach.hasRecord record = true ∨ other.hasRecord record = true := by
      simp only [Reach.hasRecord, Reach.merge, Bool.or_eq_true, List.contains_iff_mem,
        Reach.mem_union]
      exact or_or_or_comm
    rw [hunion, h.records, h'.records]
    simp only [reachesFrom_or, exists_or]
  case enums =>
    intro enum
    have hunion : (reach.merge other).hasEnum enum = true ↔
        reach.hasEnum enum = true ∨ other.hasEnum enum = true := by
      simp only [Reach.hasEnum, Reach.merge, List.contains_iff_mem, Reach.mem_union]
    rw [hunion, h.enums, h'.enums, reachesFrom_or]

theorem isReachOf_reachAll {ids : List (Fin n.services)} {reach : Reach n}
    (h : s.reachAll key ids = .ok reach) :
    s.IsReachOf (fun ty => ∃ id ∈ ids, s.IsParameter key id ty ∨ s.IsResult key id ty) reach := by
  induction ids generalizing reach with
  | nil =>
      cases h
      constructor <;> simp [Reach.hasRecord, Reach.hasEnum, ReachesFrom]
  | cons id ids ih =>
      obtain ⟨first, hfirst, h⟩ := except_bind_eq_ok.mp h
      obtain ⟨rest, hrest, h⟩ := except_bind_eq_ok.mp h
      cases h
      simp only [List.exists_mem_cons_iff]
      exact (isReachOf_reach hfirst).merge (ih hrest)

theorem IsReachOf.closed {isStart : Ty n → Prop} {reach : Reach n} (h : s.IsReachOf isStart reach)
    {ty : Ty n} (hty : s.ReachesFrom isStart ty) :
    (∀ kind record, ReflTransGen s.Holds ty (.record kind record) →
      reach.hasRecord record = true) ∧
    ∀ enum, ReflTransGen s.Holds ty (.enum enum) → reach.hasEnum enum = true := by
  constructor
  · intro kind record hholds
    exact (h.records record).mpr ⟨kind, hty.trans (reaches_of_holds hholds)⟩
  · intro enum hholds
    exact (h.enums enum).mpr (hty.trans (reaches_of_holds hholds))

theorem IsReachOf.field {isStart : Ty n → Prop} {reach : Reach n} (h : s.IsReachOf isStart reach)
    {record : Fin n.records} (hrecord : reach.hasRecord record = true) {field : Field n}
    (hfield : field ∈ (s.record record).fields) : s.ReachesFrom isStart field.ty := by
  obtain ⟨kind, hreach⟩ := (h.records record).mp hrecord
  exact hreach.trans (.single (.field hfield))

theorem isListed_iff {id : Fin n.services} {ty : Ty n} :
    s.IsListed key id ty ↔
      ∃ ancestor ∈ s.serviceChain id,
        s.IsParameter key ancestor ty ∨ s.IsResult key ancestor ty := by
  constructor
  · intro h
    obtain ⟨ancestor, hancestor, m, hm, htype⟩ := h
    obtain ⟨hmethod, hlisted⟩ := List.mem_filter.mp hm
    have hself : ancestor ∈ s.serviceChain ancestor := mem_serviceChain_iff.mpr .refl
    refine ⟨ancestor, hancestor, ?_⟩
    obtain hreturns | ⟨field, hfield, hty⟩ := htype
    · exact .inr ⟨ancestor, hself, m, hmethod, hlisted, .inl hreturns⟩
    · obtain hparam | hthrown := List.mem_append.mp hfield
      · exact .inl ⟨m, hmethod, hlisted, field, hparam, hty⟩
      · exact .inr ⟨ancestor, hself, m, hmethod, hlisted, .inr ⟨field, hthrown, hty⟩⟩
  · intro h
    obtain ⟨ancestor, hancestor, hparameter | hresult⟩ := h
    · obtain ⟨m, hmethod, hlisted, field, hparam, hty⟩ := hparameter
      exact ⟨ancestor, hancestor, m, List.mem_filter.mpr ⟨hmethod, hlisted⟩,
        .inr ⟨field, List.mem_append_left m.throws hparam, hty⟩⟩
    · obtain ⟨above, habove, m, hmethod, hlisted, htype⟩ := hresult
      refine ⟨above, serviceChain_subset hancestor habove, m,
        List.mem_filter.mpr ⟨hmethod, hlisted⟩, ?_⟩
      obtain hreturns | ⟨field, hthrown, hty⟩ := htype
      · exact .inl hreturns
      · exact .inr ⟨field, List.mem_append_right m.params hthrown, hty⟩

theorem mem_recordsOfKind {kind : RecordKind} {id : Fin n.records} :
    id ∈ s.recordsOfKind kind ↔ (s.record id).kind = kind := by
  simp [recordsOfKind]

theorem mem_recordOrder (s : Schema n) (id : Fin n.records) : id ∈ s.recordOrder := by
  refine List.mem_flatMap.mpr ⟨(s.record id).kind, ?_, mem_recordsOfKind.mpr rfl⟩
  cases (s.record id).kind <;> decide

theorem nodup_recordOrder (s : Schema n) : s.recordOrder.Nodup := by
  refine List.nodup_flatMap.mpr ⟨fun kind _ => (List.nodup_finRange n.records).filter _, ?_⟩
  have hkinds : [RecordKind.struct, .exception, .union].Nodup := by decide
  refine hkinds.imp fun hne id hfirst hsecond => ?_
  exact hne ((mem_recordsOfKind.mp hfirst).symm.trans (mem_recordsOfKind.mp hsecond))

end Schema

namespace Target

variable {t : Target n} {id : Fin n.services} {units : List SourceUnit}

theorem allUnits_eq_ok (h : t.allUnits = .ok units) :
    ∃ recordUnits constantUnits serviceUnits,
      t.schema.recordOrder.mapM t.recordUnit = .ok recordUnits ∧
      t.constantScopes.mapM t.constantsUnit = .ok constantUnits ∧
      (List.finRange n.services).mapM (t.serviceUnit .whole) = .ok serviceUnits ∧
      units = (List.finRange n.enums).map t.enumUnit ++ recordUnits ++ constantUnits ++
        serviceUnits := by
  obtain ⟨recordUnits, hrecords, h⟩ := except_bind_eq_ok.mp h
  obtain ⟨constantUnits, hconstants, h⟩ := except_bind_eq_ok.mp h
  obtain ⟨serviceUnits, hservices, h⟩ := except_bind_eq_ok.mp h
  cases h
  exact ⟨recordUnits, constantUnits, serviceUnits, hrecords, hconstants, hservices, rfl⟩

theorem listedUnits_eq_ok (h : t.listedUnits id = .ok units) :
    ∃ reach recordUnits serviceUnits,
      t.schema.reachAll t.config.allowListKey (t.schema.serviceChain id) = .ok reach ∧
      List.Forall₂ (fun record unit => t.recordUnit record = .ok unit)
        (t.schema.recordOrder.filter reach.hasRecord) recordUnits ∧
      List.Forall₂
        (fun service unit => t.serviceUnit (.listed t.config.allowListKey) service = .ok unit)
        (t.schema.serviceChain id).reverse serviceUnits ∧
      units = ((List.finRange n.enums).filter reach.hasEnum).map t.enumUnit ++ recordUnits ++
        serviceUnits := by
  obtain ⟨reach, hreach, h⟩ := except_bind_eq_ok.mp h
  obtain ⟨recordUnits, hrecords, h⟩ := except_bind_eq_ok.mp h
  obtain ⟨serviceUnits, hservices, h⟩ := except_bind_eq_ok.mp h
  cases h
  refine ⟨reach, recordUnits, serviceUnits, ?_, forall₂_of_mapM hrecords,
    forall₂_of_mapM hservices, rfl⟩
  cases hall : t.schema.reachAll t.config.allowListKey (t.schema.serviceChain id) with
  | error cycle =>
      rw [hall] at hreach
      cases hreach
  | ok found =>
      rw [hall] at hreach
      cases hreach
      rfl

/-- A pruned service comes with every record and enum that its emitted methods and records refer to,
and with no other; each declaration has one unit, and ancestors come first. -/
theorem prunedUnits_closed_minimal (h : t.prunedUnits none id = .ok units) :
    ∃ (enums : List (Fin n.enums)) (records : List (Fin n.records))
      (recordUnits serviceUnits : List SourceUnit),
      units = enums.map t.enumUnit ++ recordUnits ++ serviceUnits ∧
      List.Forall₂ (fun record unit => t.recordUnit record = .ok unit) records recordUnits ∧
      List.Forall₂
        (fun service unit => t.serviceUnit (.listed t.config.allowListKey) service = .ok unit)
        (t.schema.serviceChain id).reverse serviceUnits ∧
      enums.Nodup ∧ records.Nodup ∧ (t.schema.serviceChain id).Nodup ∧
      (∀ service, service ∈ t.schema.serviceChain id ↔
        ReflTransGen t.schema.Extends id service) ∧
      (∀ ty, (t.schema.IsListed t.config.allowListKey id ty ∨
          ∃ record ∈ records, ∃ field ∈ (t.schema.record record).fields, field.ty = ty) →
        (∀ kind record, ReflTransGen t.schema.Holds ty (.record kind record) →
          record ∈ records) ∧
        ∀ enum, ReflTransGen t.schema.Holds ty (.enum enum) → enum ∈ enums) ∧
      (∀ record ∈ records, ∃ kind,
        t.schema.ReachesFrom (t.schema.IsListed t.config.allowListKey id) (.record kind record)) ∧
      ∀ enum ∈ enums,
        t.schema.ReachesFrom (t.schema.IsListed t.config.allowListKey id) (.enum enum) := by
  rw [prunedUnits_none] at h
  obtain ⟨reach, recordUnits, serviceUnits, hall, hrecords, hservices, hunits⟩ :=
    listedUnits_eq_ok h
  have hreach := Schema.isReachOf_reachAll hall
  simp only [← Schema.isListed_iff] at hreach
  have hmem : ∀ record, record ∈ t.schema.recordOrder.filter reach.hasRecord ↔
      reach.hasRecord record = true := fun record => by
    rw [List.mem_filter, and_iff_right (t.schema.mem_recordOrder record)]
  have hmemEnum : ∀ enum, enum ∈ (List.finRange n.enums).filter reach.hasEnum ↔
      reach.hasEnum enum = true := fun enum => by
    rw [List.mem_filter, and_iff_right (List.mem_finRange enum)]
  refine ⟨_, _, recordUnits, serviceUnits, hunits, hrecords, hservices,
    (List.nodup_finRange n.enums).filter _, t.schema.nodup_recordOrder.filter _,
    (Schema.ancestry_serviceChain t.schema id).nodup, fun _ => Schema.mem_serviceChain_iff,
    ?_, ?_, ?_⟩
  · intro ty hty
    simp only [hmem, hmemEnum] at hty ⊢
    obtain hlisted | ⟨record, hrecord, field, hfield, rfl⟩ := hty
    · exact hreach.closed ⟨ty, hlisted, .refl⟩
    · exact hreach.closed (hreach.field hrecord hfield)
  · intro record hrecord
    exact (hreach.records record).mp ((hmem record).mp hrecord)
  · intro enum henum
    exact (hreach.enums enum).mp ((hmemEnum enum).mp henum)

theorem exists_serviceUnit {surface : Surface}
    (hname : '<' ∉ (clientName (t.schema.service id)).toList)
    (hmethods : ∃ plans, t.planMethods surface (t.schema.service id) = .ok plans ∧
      ∃ calls, plans.mapM (·.items) = .ok calls)
    (htraits : ∃ traits, t.clientTraits surface (t.schema.service id) (t.schema.serviceChain id) =
      .ok traits) :
    ∃ unit, t.serviceUnit surface id = .ok unit := by
  obtain ⟨plans, hplans, calls, hcalls⟩ := hmethods
  obtain ⟨traits, htraits⟩ := htraits
  rw [serviceUnit, serviceCode, clientItems]
  simp only [String.contains_char_eq, hname]
  rw [hplans, htraits]
  simp [hcalls, bind, Except.bind, pure, Except.pure]

end Target

namespace Schema

abbrev groveCensus : Census where
  records := 2
  enums := 1
  typedefs := 1
  services := 2

abbrev plantId : Fin groveCensus.records := ⟨0, by decide⟩
abbrev rockId : Fin groveCensus.records := ⟨1, by decide⟩
abbrev bloomId : Fin groveCensus.enums := ⟨0, by decide⟩
abbrev bloomsId : Fin groveCensus.typedefs := ⟨0, by decide⟩
abbrev gardenId : Fin groveCensus.services := ⟨0, by decide⟩
abbrev groveId : Fin groveCensus.services := ⟨1, by decide⟩

/-- A service that inherits a method on plants. A plant holds an enum in a list under a typedef, and
nothing holds a rock. -/
def grove : Target groveCensus where
  schema := {
    records := #v[
      { name := "Plant", fields := [{ id := 1, name := "blooms", ty := .typedef bloomsId }] },
      { name := "Rock" }]
    enums := #v[{ name := "Bloom" }]
    typedefs := #v[{ name := "Blooms", target := .list (.enum bloomId) }]
    services := #v[
      { name := "Garden"
        methods := [
          { name := "water"
            params := [{ id := 1, name := "plant", ty := .record .struct plantId }]
            annotations := [("allowlist", "true")] }] },
      { name := "Grove", extends? := some gardenId }] }
  config := {}

theorem walk_void (s : Schema n) (unmet : Unmet n) : s.walk unmet [.void] = .ok unmet := by
  rw [walk, Shape.parts, List.nil_append, walk]
  all_goals
    intros
    contradiction

theorem walk_plant :
    grove.schema.walk (.all groveCensus) [.record plantId] = .ok ⟨[rockId], []⟩ := by
  have hall : Unmet.all groveCensus = ⟨[plantId, rockId], [bloomId]⟩ := rfl
  have hfields : (grove.schema.fieldShapes plantId).reverse =
      [.list (.enum bloomId) fun _ => .enum bloomId] := rfl
  rw [hall, walk, dif_pos (by decide), hfields, List.append_nil, walk, Shape.parts,
    List.singleton_append, walk, walk]
  · rfl
  all_goals
    intros
    contradiction

theorem reachAll_grove :
    grove.schema.reachAll grove.config.allowListKey [groveId, gardenId] =
      .ok { viaParameters := [plantId], enums := [bloomId] } := by
  have hvoid : grove.schema.walkAll (.all groveCensus) [.void] = .ok (.all groveCensus) :=
    except_bind_eq_ok.mpr ⟨_, walk_void _ _, rfl⟩
  have hplant : grove.schema.walkAll (.all groveCensus) [.record .struct plantId] =
      .ok ⟨[rockId], []⟩ :=
    except_bind_eq_ok.mpr ⟨_, walk_plant, rfl⟩
  have hgrove : grove.schema.reach grove.config.allowListKey groveId = .ok {} :=
    except_bind_eq_ok.mpr ⟨.all groveCensus, rfl, except_bind_eq_ok.mpr ⟨_, hvoid, rfl⟩⟩
  have hgarden : grove.schema.reach grove.config.allowListKey gardenId =
      .ok { viaParameters := [plantId], enums := [bloomId] } :=
    except_bind_eq_ok.mpr ⟨_, hplant, except_bind_eq_ok.mpr ⟨_, hvoid, rfl⟩⟩
  exact except_bind_eq_ok.mpr ⟨_, hgrove, except_bind_eq_ok.mpr
    ⟨_, except_bind_eq_ok.mpr ⟨_, hgarden, rfl⟩, rfl⟩⟩

theorem exists_grove_units : ∃ units, grove.prunedUnits none groveId = .ok units := by
  obtain ⟨plant, hplant⟩ : ∃ unit, grove.recordUnit plantId = .ok unit := ⟨_, rfl⟩
  obtain ⟨garden, hgarden⟩ : ∃ unit,
      grove.serviceUnit (.listed grove.config.allowListKey) gardenId = .ok unit :=
    Target.exists_serviceUnit (by decide) ⟨_, rfl, _, rfl⟩ ⟨_, rfl⟩
  obtain ⟨unit, hunit⟩ : ∃ unit,
      grove.serviceUnit (.listed grove.config.allowListKey) groveId = .ok unit :=
    Target.exists_serviceUnit (by decide) ⟨_, rfl, _, rfl⟩ ⟨_, rfl⟩
  have hrecords : grove.schema.recordOrder.filter
      (Reach.hasRecord { viaParameters := [plantId], enums := [bloomId] }) = [plantId] := by
    decide
  have hchain : grove.schema.serviceChain groveId = [groveId, gardenId] := by
    decide
  rw [Target.prunedUnits_none, Target.listedUnits, hchain, reachAll_grove]
  refine ⟨_, except_bind_eq_ok.mpr ⟨_, rfl, except_bind_eq_ok.mpr ⟨[plant], ?_,
    except_bind_eq_ok.mpr ⟨[garden, unit], ?_, rfl⟩⟩⟩⟩
  · rw [hrecords]
    simp only [List.mapM_cons, List.mapM_nil, hplant, bind, Except.bind, pure, Except.pure]
  · simp only [List.reverse_cons, List.reverse_nil, List.nil_append, List.singleton_append,
      List.mapM_cons, List.mapM_nil, hgarden, hunit, bind, Except.bind, pure, Except.pure]

theorem prunedUnits_grove :
    ∃ (enums : List (Fin groveCensus.enums)) (records : List (Fin groveCensus.records))
      (recordUnits serviceUnits : List SourceUnit),
      grove.prunedUnits none groveId =
        .ok (enums.map grove.enumUnit ++ recordUnits ++ serviceUnits) ∧
      List.Forall₂ (fun record unit => grove.recordUnit record = .ok unit) records recordUnits ∧
      plantId ∈ records ∧ bloomId ∈ enums := by
  obtain ⟨units, hunits⟩ := exists_grove_units
  obtain ⟨enums, records, recordUnits, serviceUnits, rfl, hrecords, _, _, _, _, _, hclosed, _⟩ :=
    Target.prunedUnits_closed_minimal hunits
  have hlisted : grove.schema.IsListed grove.config.allowListKey groveId
      (.record .struct plantId) :=
    ⟨gardenId, by decide, _, List.mem_cons_self, .inr ⟨_, List.mem_cons_self, rfl⟩⟩
  have hplant : plantId ∈ records := (hclosed _ (.inl hlisted)).1 .struct plantId .refl
  have hbloom : bloomId ∈ enums :=
    (hclosed _ (.inr ⟨plantId, hplant, _, List.mem_cons_self, rfl⟩)).2 bloomId
      (.head (.follow (.typedef bloomsId)) (.single (.part List.mem_cons_self)))
  exact ⟨enums, records, recordUnits, serviceUnits, hunits, hrecords, hplant, hbloom⟩

end Schema

end WireIdl
