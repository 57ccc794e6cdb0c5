import WireIdl.Proofs.Emit.Assembly
import WireIdl.Proofs.Emit.Summaries

/-! What emitted code declares and refers to. A reference is written as an absolute path: the root,
the modules of the unit that declares it, and the identifier of the declaration. The one exception
is the client of a service whose name cannot be a part of another identifier as it is. -/

namespace WireIdl

open Code

variable {n : Census}

namespace Ident

theorem escape_of_not_mem {name : String} (h : name ∉ reserved ++ keywords) :
    escape name = name := by
  rw [List.mem_append, not_or] at h
  rw [escape, if_neg h.1, if_neg h.2]

/-- No reserved word and no keyword ends like this. -/
def EndsNoWord (suffix : String) : Prop :=
  ∀ word ∈ reserved ++ keywords, ¬ suffix.toList <:+ word.toList

instance : DecidablePred EndsNoWord := fun suffix =>
  inferInstanceAs (Decidable (∀ word ∈ reserved ++ keywords, ¬ suffix.toList <:+ word.toList))

theorem escape_append {suffix : String} (h : EndsNoWord suffix) (stem : String) :
    escape (stem ++ suffix) = stem ++ suffix :=
  escape_of_not_mem fun hword => h _ hword ⟨stem.toList, String.toList_append.symm⟩

/-- Names that cannot be a part of another identifier as they are: the words that get an underscore,
and those that are marked as raw already. -/
def IsAwkward (name : String) : Prop :=
  name ∈ reserved ∨ ['r', '#'] <+: name.toList

theorem bare_of_not_raw {ident : String} (h : ¬ ['r', '#'] <+: ident.toList) :
    bare ident = ident := by
  rw [bare]
  split
  · next rest hrest => exact absurd ⟨rest, hrest.symm⟩ h
  · rfl

theorem bare_raw (name : String) : bare ("r#" ++ name) = name := by
  have hchars : ("r#" ++ name).toList = 'r' :: '#' :: name.toList := String.toList_append
  rw [bare, hchars]
  exact String.ofList_toList

theorem bare_escape_eq_iff (name : String) : bare (escape name) = name ↔ ¬ IsAwkward name := by
  rw [IsAwkward, not_or]
  by_cases hreserved : name ∈ reserved
  · have hchanged : ∀ word ∈ reserved, bare (word ++ "_") ≠ word := by decide +kernel
    rw [escape, if_pos hreserved]
    exact ⟨fun h => absurd h (hchanged name hreserved), fun h => absurd hreserved h.1⟩
  by_cases hraw : ['r', '#'] <+: name.toList
  · have hno : ∀ word ∈ reserved ++ keywords, ¬ ['r', '#'] <+: word.toList := by decide +kernel
    obtain ⟨rest, hrest⟩ := hraw
    have hname : name = "r#" ++ String.ofList rest := by
      rw [← String.toList_inj, ← hrest]
      simp
    rw [escape_of_not_mem fun hword => hno name hword ⟨rest, hrest⟩]
    refine ⟨fun h => ?_, fun h => absurd ⟨rest, hrest⟩ h.2⟩
    rw [hname, bare_raw] at h
    have hlength := congrArg String.length h
    rw [String.length_append] at hlength
    have hmark : "r#".length = 2 := rfl
    omega
  · refine iff_of_true ?_ ⟨hreserved, hraw⟩
    rw [escape, if_neg hreserved]
    split
    · exact bare_raw name
    · exact bare_of_not_raw hraw

end Ident

/-- What a unit declares for other code to refer to. -/
inductive Reference (n : Census) where
  | record (id : Fin n.records)
  | enum (id : Fin n.enums)
  | trait (service : Fin n.services)
  /-- The type that writes the request of a method and reads its reply. -/
  | call (service : Fin n.services) (method : Method n)
  /-- The type of the exceptions of a method. -/
  | error (service : Fin n.services) (method : Method n)
  | client (service : Fin n.services)

namespace Reference

/-- The types of a method are there if the service has it, and there is no type of exceptions unless
the method has some. -/
def IsIn (s : Schema n) : Reference n → Prop
  | .call service method => method ∈ (s.service service).methods
  | .error service method => method ∈ (s.service service).methods ∧ method.throws ≠ []
  | .record _ | .enum _ | .trait _ | .client _ => True

/-- The namespace of the declaration. -/
def scope (s : Schema n) : Reference n → String
  | .record id => (s.record id).scope
  | .enum id => (s.enum id).scope
  | .trait service | .call service _ | .error service _ | .client service =>
      (s.service service).scope

/-- The path by which emitted code refers to a declaration. -/
def path (t : Target n) : Reference n → String
  | .record id => t.recordPath id
  | .enum id => t.enumPath id
  | .trait service => t.servicePath (t.schema.service service)
  | .call service method =>
      let plan : MethodPlan n := ⟨t, t.schema.service service, method, [], ""⟩
      plan.path plan.callName
  | .error service method =>
      let plan : MethodPlan n := ⟨t, t.schema.service service, method, [], ""⟩
      plan.path plan.errorName
  | .client service =>
      let decl := t.schema.service service
      Ident.qualified t.config decl.scope (decl.name ++ "Client")

theorem parentClient?_eq_path (t : Target n) (service : ServiceDecl n) :
    t.parentClient? service = service.extends?.map fun parent => (client parent).path t := rfl

/-- The name that a path is made of. -/
def name (s : Schema n) : Reference n → String
  | .record id => (s.record id).name
  | .enum id => (s.enum id).name
  | .trait service => (s.service service).name
  | .call service method => Ident.operation (s.service service).name method.name ++ "Call"
  | .error service method => Ident.operation (s.service service).name method.name ++ "Error"
  | .client service => (s.service service).name ++ "Client"

theorem path_eq_qualified (t : Target n) (ref : Reference n) :
    ref.path t = Ident.qualified t.config (ref.scope t.schema) (ref.name t.schema) := by
  cases ref <;> rfl

def keyword : Reference n → String
  | .record _ | .call _ _ | .client _ => "pub struct "
  | .enum _ | .error _ _ => "pub enum "
  | .trait _ => "pub trait "

/-- The identifier in the declaration. -/
def ident (s : Schema n) : Reference n → String
  | .record id => Ident.type (s.record id).name
  | .enum id => Ident.type (s.enum id).name
  | .trait service => Ident.type (s.service service).name
  | .call service method => Ident.operation (s.service service).name method.name ++ "Call"
  | .error service method => Ident.operation (s.service service).name method.name ++ "Error"
  | .client service => Target.clientName (s.service service)

/-- The client of a service whose name is awkward. -/
def IsAwkwardClient (s : Schema n) : Reference n → Prop
  | .client service => Ident.IsAwkward (s.service service).name
  | _ => False

theorem type_name_eq_ident_iff (s : Schema n) (ref : Reference n) :
    Ident.type (ref.name s) = ref.ident s ↔ ¬ ref.IsAwkwardClient s := by
  cases ref with
  | record | enum | trait => exact iff_of_true rfl not_false
  | call service method =>
      exact iff_of_true (Ident.escape_append (by decide +kernel) _) not_false
  | error service method =>
      exact iff_of_true (Ident.escape_append (by decide +kernel) _) not_false
  | client service =>
      have hsuffix : Ident.EndsNoWord "Client" := by decide +kernel
      have hescape := Ident.escape_append hsuffix (s.service service).name
      rw [IsAwkwardClient, ← Ident.bare_escape_eq_iff, name, ident, Ident.type, hescape,
        Target.clientName, String.append_left_inj]
      exact eq_comm

/-- A path leads to the declaration, unless it is that of an awkward client. -/
theorem path_eq_iff (t : Target n) (ref : Reference n) :
    ref.path t = "::".intercalate
        (t.config.rootPath :: Ident.modules (ref.scope t.schema) ++ [ref.ident t.schema]) ↔
      ¬ ref.IsAwkwardClient t.schema := by
  have hconcat : ∀ last : String, "::".intercalate
      (t.config.rootPath :: Ident.modules (ref.scope t.schema) ++ [last]) =
        "::".intercalate (t.config.rootPath :: Ident.modules (ref.scope t.schema)) ++ "::" ++
          last := by
    intro last
    rw [String.intercalate_append_of_ne_nil (List.cons_ne_nil _ _) (List.cons_ne_nil _ _),
      String.intercalate_singleton]
  rw [← type_name_eq_ident_iff, path_eq_qualified, Ident.qualified, hconcat, hconcat,
    String.append_right_inj]

end Reference

/-! ### Declarations -/

/-- The head of a declaration: nothing but type parameters or a parent follows the identifier. -/
def IsHead (keyword ident header : String) : Prop :=
  header = keyword ++ ident ∨ header = keyword ++ ident ++ "<P>" ∨
    ∃ parent, header = keyword ++ ident ++ (": " ++ parent)

/-- Steps with a block that is a declaration of an identifier. -/
def HasBlock (steps : List Step) (keyword ident : String) : Prop :=
  ∃ header body, Step.block header body ∈ steps ∧ IsHead keyword ident header

/-- Code laid out from items, one of which declares an identifier. -/
def Declares (code keyword ident : String) : Prop :=
  ∃ items steps, code = Item.render items ∧ Item.raw (Text.trimEnd (Step.render steps)) ∈ items ∧
    HasBlock steps keyword ident

theorem hasBlock_concat {header keyword ident : String} (h : IsHead keyword ident header)
    (steps body : List Step) : HasBlock (steps ++ [.block header body]) keyword ident :=
  ⟨header, body, List.mem_append_right _ List.mem_cons_self, h⟩

namespace Target

variable {t : Target n}

theorem declares_of_recordCode {id : Fin n.records} {code : String}
    (h : t.recordCode id = .ok code) :
    Declares code "pub struct " (Ident.type (t.schema.record id).name) := by
  obtain ⟨plans, items, _, hitems, hcode⟩ := recordCode_eq_ok h
  obtain ⟨codec, _, hall⟩ := except_bind_eq_ok.mp hitems
  cases hall
  exact ⟨_, _, hcode, List.mem_cons_self, hasBlock_concat (.inl rfl) _ _⟩

theorem declares_enumCode (c : Config) (e : EnumDecl) :
    Declares (e.code c) "pub enum " (Ident.type e.name) :=
  ⟨_, _, rfl, List.mem_cons_self, hasBlock_concat (.inl rfl) _ _⟩

theorem hasBlock_traitSteps (t : Target n) (service : ServiceDecl n)
    (methods : List (MethodPlan n)) :
    HasBlock (t.traitSteps service methods) "pub trait " (Ident.type service.name) := by
  refine hasBlock_concat ?_ _ _
  cases service.extends? with
  | none => exact .inl String.append_empty
  | some parent => exact .inr (.inr ⟨_, rfl⟩)

theorem hasBlock_clientDefinition (t : Target n) (service : ServiceDecl n) :
    HasBlock (t.clientDefinition service) "pub struct " (clientName service) :=
  hasBlock_concat (.inr (.inl rfl)) [_] _

theorem serviceCode_eq_ok {surface : Surface} {id : Fin n.services} {code : String}
    (h : t.serviceCode surface id = .ok code) :
    ∃ methods calls traits, t.planMethods surface (t.schema.service id) = .ok methods ∧
      methods.mapM (·.items) = .ok calls ∧
      code = Item.render (
        .raw (Text.trimEnd (Step.render (t.traitSteps (t.schema.service id) methods))) ::
          calls.flatten ++
          .raw (Text.trimEnd (Step.render (t.clientDefinition (t.schema.service id)))) ::
          t.clientBasics (t.schema.service id) :: traits) := by
  obtain ⟨methods, hmethods, h⟩ := except_bind_eq_ok.mp h
  obtain ⟨calls, hcalls, h⟩ := except_bind_eq_ok.mp h
  obtain ⟨client, hclient, h⟩ := except_bind_eq_ok.mp h
  cases h
  rw [clientItems] at hclient
  split at hclient
  · cases hclient
  · obtain ⟨traits, _, hall⟩ := except_bind_eq_ok.mp hclient
    cases hall
    exact ⟨methods, calls, traits, hmethods, hcalls, rfl⟩

theorem planMethod_eq_ok {service : ServiceDecl n} {method : Method n} {plan : MethodPlan n}
    (h : t.planMethod service method = .ok plan) :
    ∃ params output, plan = ⟨t, service, method, params, output⟩ := by
  obtain ⟨params, _, h⟩ := except_bind_eq_ok.mp h
  obtain ⟨output, _, h⟩ := except_bind_eq_ok.mp h
  cases h
  exact ⟨params, output, rfl⟩

/-- The types of a method are declared by its items. -/
theorem hasBlock_of_methodItems {plan : MethodPlan n} {items : List Item}
    (h : plan.items = .ok items) :
    (∃ steps, .raw (Text.trimEnd (Step.render steps)) ∈ items ∧
      HasBlock steps "pub struct " plan.callName) ∧
    (plan.method.throws ≠ [] → ∃ steps, .raw (Text.trimEnd (Step.render steps)) ∈ items ∧
      HasBlock steps "pub enum " plan.errorName) := by
  obtain ⟨send, _, h⟩ := except_bind_eq_ok.mp h
  obtain ⟨throws, hthrows, h⟩ := except_bind_eq_ok.mp h
  obtain ⟨receive, _, h⟩ := except_bind_eq_ok.mp h
  cases h
  refine ⟨⟨_, List.mem_cons_self, hasBlock_concat (.inl rfl) [_, _] _⟩, fun hthrowing => ?_⟩
  have hsome : throws.isEmpty = false := by
    have hlength := (forall₂_of_mapM hthrows).length_eq
    rw [List.isEmpty_eq_false_iff, ← List.length_pos_iff, ← hlength, List.length_pos_iff]
    exact hthrowing
  refine ⟨plan.errorDefinition throws, List.mem_append_right _ ?_,
    hasBlock_concat (.inl rfl) [_, _] _⟩
  rw [MethodPlan.errorItems, hsome]
  exact List.mem_cons_self

/-- The items of a method are among those of the service. -/
theorem exists_methodItems {surface : Surface} {id : Fin n.services} {code : String}
    (h : t.serviceCode surface id = .ok code) {method : Method n}
    (hmethod : method ∈ surface.methods (t.schema.service id)) :
    ∃ params output items all,
      MethodPlan.items ⟨t, t.schema.service id, method, params, output⟩ = .ok items ∧
      code = Item.render all ∧ ∀ item ∈ items, item ∈ all := by
  obtain ⟨methods, calls, traits, hmethods, hcalls, hcode⟩ := serviceCode_eq_ok h
  obtain ⟨plan, hmem, hplan⟩ := exists_of_mapM hmethods hmethod
  obtain ⟨params, output, rfl⟩ := planMethod_eq_ok hplan
  obtain ⟨items, hcall, hitems⟩ := exists_of_mapM hcalls hmem
  refine ⟨params, output, items, _, hitems, hcode, fun item hitem => ?_⟩
  refine List.mem_append_left _ (List.mem_cons_of_mem _ ?_)
  exact List.mem_flatten.mpr ⟨items, hcall, hitem⟩

theorem declares_of_serviceCode {id : Fin n.services} {code : String}
    (h : t.serviceCode .whole id = .ok code) :
    Declares code "pub trait " (Ident.type (t.schema.service id).name) ∧
      Declares code "pub struct " (clientName (t.schema.service id)) ∧
      ∀ method ∈ (t.schema.service id).methods,
        Declares code "pub struct "
            (Ident.operation (t.schema.service id).name method.name ++ "Call") ∧
          (method.throws ≠ [] → Declares code "pub enum "
            (Ident.operation (t.schema.service id).name method.name ++ "Error")) := by
  obtain ⟨methods, calls, traits, _, _, hcode⟩ := serviceCode_eq_ok h
  refine ⟨⟨_, _, hcode, List.mem_cons_self, hasBlock_traitSteps _ _ _⟩,
    ⟨_, _, hcode, List.mem_append_right _ List.mem_cons_self, hasBlock_clientDefinition _ _⟩,
    fun method hmethod => ?_⟩
  obtain ⟨params, output, items, all, hitems, hcode, hall⟩ := exists_methodItems h hmethod
  obtain ⟨⟨steps, hmem, hcall⟩, herror⟩ := hasBlock_of_methodItems hitems
  refine ⟨⟨all, steps, hcode, hall _ hmem, hcall⟩, fun hthrows => ?_⟩
  obtain ⟨steps, hmem, herror⟩ := herror hthrows
  exact ⟨all, steps, hcode, hall _ hmem, herror⟩

/-- Whatever a schema has is declared by a unit of its namespace. -/
theorem exists_unit_declares {emitted : List SourceUnit} (h : t.allUnits = .ok emitted)
    {ref : Reference n} (href : ref.IsIn t.schema) :
    ∃ unit ∈ emitted, unit.scope = ref.scope t.schema ∧
      Declares unit.code ref.keyword (ref.ident t.schema) := by
  obtain ⟨recordUnits, constantUnits, serviceUnits, hrecords, _, hservices, rfl⟩ :=
    allUnits_eq_ok h
  have hrecord : ∀ id, ∃ unit ∈ recordUnits, unit.scope = (t.schema.record id).scope ∧
      t.recordCode id = .ok unit.code := by
    intro id
    obtain ⟨unit, hmem, hunit⟩ := exists_of_mapM hrecords (t.schema.mem_recordOrder id)
    obtain ⟨code, hcode, hsame⟩ := except_bind_eq_ok.mp hunit
    cases hsame
    exact ⟨_, hmem, rfl, hcode⟩
  have hservice : ∀ id, ∃ unit ∈ serviceUnits, unit.scope = (t.schema.service id).scope ∧
      t.serviceCode .whole id = .ok unit.code := by
    intro id
    obtain ⟨unit, hmem, hunit⟩ := exists_of_mapM hservices (List.mem_finRange id)
    obtain ⟨code, hcode, hsame⟩ := except_bind_eq_ok.mp hunit
    cases hsame
    exact ⟨_, hmem, rfl, hcode⟩
  cases ref with
  | enum id =>
      refine ⟨t.enumUnit id, by simp [List.mem_finRange], rfl, ?_⟩
      simp only [enumUnit]
      exact declares_enumCode t.config (t.schema.enum id)
  | record id =>
      obtain ⟨unit, hmem, hscope, hcode⟩ := hrecord id
      exact ⟨unit, by simp [hmem], hscope, declares_of_recordCode hcode⟩
  | trait id =>
      obtain ⟨unit, hmem, hscope, hcode⟩ := hservice id
      exact ⟨unit, by simp [hmem], hscope, (declares_of_serviceCode hcode).1⟩
  | client id =>
      obtain ⟨unit, hmem, hscope, hcode⟩ := hservice id
      exact ⟨unit, by simp [hmem], hscope, (declares_of_serviceCode hcode).2.1⟩
  | call id method =>
      obtain ⟨unit, hmem, hscope, hcode⟩ := hservice id
      exact ⟨unit, by simp [hmem], hscope, ((declares_of_serviceCode hcode).2.2 method href).1⟩
  | error id method =>
      obtain ⟨unit, hmem, hscope, hcode⟩ := hservice id
      exact ⟨unit, by simp [hmem], hscope,
        ((declares_of_serviceCode hcode).2.2 method href.1).2 href.2⟩

end Target

end WireIdl
