import WireIdl.Proofs.Emit.RootedServices

/-! References resolve. Every unit is a template filled with the paths of what the schema has, and a
path leads to the unit that declares it, except to the client of a service with an awkward name. -/

namespace WireIdl

open Code

variable {n : Census}

namespace Target

variable (t : Target n) (root : String)

/-- Units that differ in their code only. -/
def UnitCodes (units : String → SourceUnit) : Prop :=
  ∃ (unit : SourceUnit) (codes : String → String), TemplatedCode t codes ∧
    units = fun root => { unit with code := codes root }

theorem enumUnit_rooted (id : Fin n.enums) : (t.rooted root).enumUnit id = t.enumUnit id := by
  have hdefinition : (t.schema.enum id).definition (t.rooted root).config =
      (t.schema.enum id).definition t.config := rfl
  simp only [enumUnit, EnumDecl.code, EnumDecl.hashing, EnumDecl.equality, hdefinition,
    rooted_runtimePath, rooted_schema]

theorem enumUnits_listOf (ids : List (Fin n.enums)) :
    ListOf t.UnitCodes fun root => ids.map (t.rooted root).enumUnit := by
  induction ids with
  | nil => exact .nil
  | cons id ids ih =>
      simp only [List.map_cons, enumUnit_rooted]
      exact .cons ⟨t.enumUnit id, _, .const _, rfl⟩ ih

theorem recordUnits_uniform (ids : List (Fin n.records)) :
    Uniform (ListOf t.UnitCodes) fun root => ids.mapM (t.rooted root).recordUnit := by
  refine Uniform.mapM fun id _ => ?_
  simp only [recordUnit, rooted_schema]
  refine (recordCode_uniform t id).bind fun codes hcodes => .ok ?_
  exact ⟨⟨_, _, _, _, ""⟩, codes, hcodes, rfl⟩

theorem constantUnits_uniform (scopes : List String) :
    Uniform (ListOf t.UnitCodes) fun root => scopes.mapM (t.rooted root).constantsUnit := by
  refine Uniform.mapM fun scope _ => ?_
  simp only [constantsUnit, rooted_schema]
  refine (t.constantsCode_uniform _).bind fun codes hcodes => .ok ?_
  exact ⟨⟨_, _, _, _, ""⟩, codes, hcodes, rfl⟩

theorem serviceUnits_uniform (surface : Surface) (ids : List (Fin n.services)) :
    Uniform (ListOf t.UnitCodes) fun root => ids.mapM ((t.rooted root).serviceUnit surface) := by
  refine Uniform.mapM fun id _ => ?_
  simp only [serviceUnit, rooted_schema]
  refine (t.serviceCode_uniform surface id).bind fun codes hcodes => .ok ?_
  exact ⟨⟨_, _, _, _, ""⟩, codes, hcodes, rfl⟩

theorem allUnits_uniform : Uniform (ListOf t.UnitCodes) fun root => (t.rooted root).allUnits := by
  have hscopes : ∀ root, (t.rooted root).constantScopes = t.constantScopes := fun _ => rfl
  simp only [allUnits, rooted_schema, hscopes]
  refine (t.recordUnits_uniform _).bind fun records hrecords => ?_
  refine (t.constantUnits_uniform _).bind fun constants hconstants => ?_
  refine (t.serviceUnits_uniform .whole _).bind fun services hservices => .ok ?_
  exact (((t.enumUnits_listOf _).append hrecords).append hconstants).append hservices

theorem listedUnits_uniform (id : Fin n.services) :
    Uniform (ListOf t.UnitCodes) fun root => (t.rooted root).listedUnits id := by
  simp only [listedUnits, rooted_schema, rooted_allowListKey]
  refine .bind_same fun reach _ => ?_
  refine (t.recordUnits_uniform _).bind fun records hrecords => ?_
  refine (t.serviceUnits_uniform _ _).bind fun services hservices => .ok ?_
  exact ((t.enumUnits_listOf _).append hrecords).append hservices

/-- At every root, a run gives units whose code has the ink of the same templates. In those,
references are to what the schema has, and no character of an identifier stands next to one. -/
def FollowsTemplates (run : Target n → Except EmitFault (List SourceUnit)) : Prop :=
  ∃ templates : List (Template n),
    (∀ template ∈ templates, template.IsChain Template.Apart ∧
      ∀ ref, .inr ref ∈ template → ref.IsIn t.schema) ∧
    ∀ root, ∃ units, run (t.rooted root) = .ok units ∧
      units.map (fun unit => Text.runs unit.code.toList) =
        templates.map fun template => Text.runs (template.fill (t.rooted root))

theorem exists_templates {families : List (String → SourceUnit)}
    (h : ∀ family ∈ families, t.UnitCodes family) :
    ∃ templates : List (Template n),
      (∀ template ∈ templates, template.IsChain Template.Apart ∧
        ∀ ref, .inr ref ∈ template → ref.IsIn t.schema) ∧
      ∀ root, (families.map (· root)).map (fun unit => Text.runs unit.code.toList) =
        templates.map fun template => Text.runs (template.fill (t.rooted root)) := by
  induction families with
  | nil => exact ⟨[], by simp, fun _ => rfl⟩
  | cons family families ih =>
      rw [List.forall_mem_cons] at h
      obtain ⟨⟨unit, codes, ⟨template, hfits, _⟩, rfl⟩, hrest⟩ := h
      obtain ⟨templates, hothers, hall⟩ := ih hrest
      refine ⟨template :: templates,
        List.forall_mem_cons.mpr ⟨⟨hfits.apart, hfits.isIn⟩, hothers⟩, fun root => ?_⟩
      rw [List.map_cons, List.map_cons, List.map_cons, hall root, ← Text.runs_alone]
      exact congrArg (· :: _) (hfits.same root).runs_eq

variable {t}

theorem followsTemplates {run : Target n → Except EmitFault (List SourceUnit)}
    {units : List SourceUnit} (hrun : run t = .ok units)
    (h : Uniform (ListOf t.UnitCodes) fun root => run (t.rooted root)) :
    t.FollowsTemplates run := by
  generalize hruns : (fun root => run (t.rooted root)) = runs at h
  have hrun' : ∀ root, run (t.rooted root) = runs root := congrFun hruns
  cases h with
  | error fault =>
      have hfault : run t = .error fault := hrun' t.config.rootPath
      rw [hrun] at hfault
      cases hfault
  | ok hresults =>
      obtain ⟨families, hfamilies⟩ := hresults
      obtain ⟨templates, hrefs, hall⟩ := t.exists_templates hfamilies
      exact ⟨templates, hrefs, fun root => ⟨_, hrun' root, hall root⟩⟩

theorem exists_placed_unit {emitted : List SourceUnit} (h : t.allUnits = .ok emitted)
    (ref : Reference n) (href : ref.IsIn t.schema) :
    ∃ unit ∈ emitted, Declares unit.code ref.keyword (ref.ident t.schema) ∧
      ⟨Ident.modules (ref.scope t.schema), unit⟩ ∈ (ModuleTree.ofUnits emitted).placements := by
  obtain ⟨unit, hmem, hscope, hdeclares⟩ := exists_unit_declares h href
  refine ⟨unit, hmem, hdeclares, ?_⟩
  rw [ModuleTree.ofUnits_eq_ofPlacements, (ModuleTree.placements_ofPlacements _).mem_iff, ← hscope]
  exact List.mem_map_of_mem hmem

/-- References resolve. A path is the root, the modules of the declaration and its identifier,
unless it is that of a client with an awkward name; what a schema has is declared in those modules
and by that identifier; and where the code of a unit depends on the root, it has such a path, which
no identifier runs into. -/
theorem paths_resolve (t : Target n) :
    (∀ ref : Reference n,
      ref.path t = "::".intercalate
          (t.config.rootPath :: Ident.modules (ref.scope t.schema) ++ [ref.ident t.schema]) ↔
        ¬ ref.IsAwkwardClient t.schema) ∧
    (∀ emitted, t.units none = .ok emitted →
      (∀ ref : Reference n, ref.IsIn t.schema →
        ∃ unit ∈ emitted, Declares unit.code ref.keyword (ref.ident t.schema) ∧
          ⟨Ident.modules (ref.scope t.schema), unit⟩ ∈ (ModuleTree.ofUnits emitted).placements) ∧
      t.FollowsTemplates (·.units none)) ∧
    ∀ id emitted, t.prunedUnits none id = .ok emitted →
      t.FollowsTemplates (·.prunedUnits none id) := by
  refine ⟨fun ref => ref.path_eq_iff t, fun emitted hunits => ⟨fun ref href => ?_, ?_⟩,
    fun id emitted hunits => ?_⟩
  · rw [units_none] at hunits
    exact exists_placed_unit hunits ref href
  · refine followsTemplates hunits ?_
    simp only [units_none]
    exact t.allUnits_uniform
  · refine followsTemplates hunits ?_
    simp only [prunedUnits_none]
    exact t.listedUnits_uniform id

abbrev heirCensus : Census where
  records := 0
  enums := 0
  typedefs := 0
  services := 2

abbrev selfId : Fin heirCensus.services := ⟨0, by decide⟩
abbrev childId : Fin heirCensus.services := ⟨1, by decide⟩

/-- A service with a reserved name, and one that extends it. -/
def heirs : Target heirCensus where
  schema := {
    records := #v[]
    enums := .ofFn Fin.elim0
    typedefs := #v[]
    services := #v[{ name := "Self" }, { name := "Child", extends? := some selfId }] }
  config := {}

theorem exists_heirs_units : ∃ emitted, heirs.units none = .ok emitted := by
  obtain ⟨parent, hparent⟩ : ∃ unit, heirs.serviceUnit .whole selfId = .ok unit :=
    exists_serviceUnit (by decide) ⟨_, rfl, _, rfl⟩ ⟨_, rfl⟩
  obtain ⟨child, hchild⟩ : ∃ unit, heirs.serviceUnit .whole childId = .ok unit :=
    exists_serviceUnit (by decide) ⟨_, rfl, _, rfl⟩ ⟨_, rfl⟩
  have hrecords : heirs.schema.recordOrder = [] := by decide
  have hservices : List.finRange heirCensus.services = [selfId, childId] := by decide
  have hscopes : heirs.constantScopes = [] := by
    simp [constantScopes, heirs, Text.ascending, List.eraseReps, List.eraseRepsBy]
  rw [units_none, allUnits, hrecords, hscopes, hservices]
  refine ⟨_, except_bind_eq_ok.mpr ⟨[], rfl, except_bind_eq_ok.mpr ⟨[], rfl,
    except_bind_eq_ok.mpr ⟨[parent, child], ?_, rfl⟩⟩⟩⟩
  simp only [List.mapM_cons, List.mapM_nil, hparent, hchild, bind, Except.bind, pure, Except.pure]

/-- A child refers to a client that is not there: the client of its parent has another name. -/
theorem heirs_client_misnamed :
    heirs.parentClient? (heirs.schema.service childId) = some "crate::SelfClient" ∧
      ∃ emitted, heirs.units none = .ok emitted ∧
        ∃ unit ∈ emitted, Declares unit.code "pub struct " "Self_Client" ∧
          ⟨[], unit⟩ ∈ (ModuleTree.ofUnits emitted).placements := by
  obtain ⟨emitted, hemitted⟩ := exists_heirs_units
  have hall := hemitted
  rw [units_none] at hall
  have hclient := exists_placed_unit hall (.client selfId) trivial
  have hident : (Reference.client selfId).ident heirs.schema = "Self_Client" := by decide +kernel
  have hscope : Ident.modules ((Reference.client selfId).scope heirs.schema) = [] := by
    decide +kernel
  rw [hident, hscope] at hclient
  exact ⟨by decide +kernel, emitted, hemitted, hclient⟩

theorem heirs_paths_resolve :
    (Reference.trait selfId).path heirs = "crate::Self_" ∧
      (Reference.client selfId).path heirs ≠ "crate::Self_Client" ∧
      (∃ emitted, heirs.units none = .ok emitted ∧
        ∃ unit ∈ emitted, Declares unit.code "pub trait " "Self_" ∧
          ⟨[], unit⟩ ∈ (ModuleTree.ofUnits emitted).placements) ∧
      heirs.FollowsTemplates (·.units none) := by
  obtain ⟨hpaths, hunits, _⟩ := paths_resolve heirs
  obtain ⟨emitted, hemitted⟩ := exists_heirs_units
  obtain ⟨hdeclared, htemplates⟩ := hunits emitted hemitted
  refine ⟨?_, fun hsame => ?_, ⟨emitted, hemitted, ?_⟩, htemplates⟩
  · exact ((hpaths (.trait selfId)).mpr not_false).trans (by decide +kernel)
  · have hclient : "crate::Self_Client" = "::".intercalate (heirs.config.rootPath ::
        Ident.modules ((Reference.client selfId).scope heirs.schema) ++
          [(Reference.client selfId).ident heirs.schema]) := by decide +kernel
    exact (hpaths (.client selfId)).mp (hsame.trans hclient) (.inl (by decide))
  · have htrait := hdeclared (.trait selfId) trivial
    have hident : (Reference.trait selfId).ident heirs.schema = "Self_" := by decide +kernel
    have hscope : Ident.modules ((Reference.trait selfId).scope heirs.schema) = [] := by
      decide +kernel
    rw [hident, hscope] at htrait
    exact htrait

end Target

end WireIdl
