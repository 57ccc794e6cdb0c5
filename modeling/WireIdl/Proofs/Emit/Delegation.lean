import WireIdl.Emit.Service
import WireIdl.Proofs.Lists
import WireIdl.Proofs.Schema.Chain

/-! Clients and the clients of their parents. A client implements the traits of the whole chain of
its service; its own it serves itself, and the others it leaves to its parent. -/

namespace WireIdl

open Code Relation

variable {n : Census}

namespace Code.Function

/-- A function without what it does. -/
def head (f : Function) : Function :=
  { f with body := [] }

/-- All that the function does is to call the function of its name in a trait, on the parent of the
client and with its own arguments. -/
def CallsParent (trait : String) (f : Function) : Prop :=
  let args := ", ".intercalate (f.args.map Prod.fst)
  f.body = [.text (trait ++ "::" ++ f.name ++ "(&mut self.parent" ++
    (if args.isEmpty then "" else ", ") ++ args ++ ")")]

end Code.Function

namespace MethodPlan

theorem head_clientFunction (p : MethodPlan n) (inherited? other? : Option String) :
    (p.clientFunction inherited?).head = (p.clientFunction other?).head := rfl

theorem callsParent_clientFunction (p : MethodPlan n) (trait : String) :
    (p.clientFunction (some trait)).CallsParent trait := by
  have hargs : (p.clientFunction (some trait)).args.map Prod.fst = p.params.map (·.ident) :=
    List.map_map
  rw [Function.CallsParent, hargs]
  rfl

end MethodPlan

namespace Target

variable {t : Target n} {surface : Surface} {service : ServiceDecl n}
  {id parent ancestor : Fin n.services} {chain : List (Fin n.services)} {items traits : List Item}

/-- The trait of an ancestor, implemented by the client of a service. -/
def traitItem (t : Target n) (service : ServiceDecl n) (ancestor : Fin n.services)
    (functions : List Function) : Item :=
  t.clientImpl service (some (t.servicePath (t.schema.service ancestor))) functions

/-- An implementation of the trait of an ancestor hands each call to the parent of the client, and
the parent, whose items are given, implements the trait with functions of the same names and
types. -/
def Delegates (t : Target n) (service parent : ServiceDecl n) (parentItems : List Item)
    (ancestor : Fin n.services) (item : Item) : Prop :=
  ∃ calling serving, item = t.traitItem service ancestor calling ∧
    t.traitItem parent ancestor serving ∈ parentItems ∧
    serving.map Function.head = calling.map Function.head ∧
    ∀ f ∈ calling, f.CallsParent (t.servicePath (t.schema.service ancestor))

theorem exists_clientTraits
    (h : ∀ ancestor ∈ chain, ∃ methods,
      t.planMethods surface (t.schema.service ancestor) = .ok methods) :
    ∃ traits, t.clientTraits surface service chain = .ok traits := by
  refine exists_mapM fun pair hpair => ?_
  obtain ⟨methods, hmethods⟩ := h pair.1 (List.fst_mem_of_mem_zipIdx hpair)
  exact ⟨_, except_bind_eq_ok.mpr ⟨methods, hmethods, rfl⟩⟩

theorem exists_mem_clientTraits (h : t.clientTraits surface service chain = .ok traits)
    (hancestor : ancestor ∈ chain) :
    ∃ methods inherited?, t.planMethods surface (t.schema.service ancestor) = .ok methods ∧
      t.traitItem service ancestor (methods.map (·.clientFunction inherited?)) ∈ traits := by
  obtain ⟨depth, hdepth⟩ := List.mem_iff_getElem?.mp hancestor
  obtain ⟨item, hitem, htrait⟩ :=
    exists_of_mapM h (List.mem_zipIdx_iff_getElem? (x := (ancestor, depth)).mpr hdepth)
  obtain ⟨methods, hmethods, hrest⟩ := except_bind_eq_ok.mp htrait
  cases hrest
  exact ⟨methods, _, hmethods, hitem⟩

theorem clientTraits_cons (h : t.clientTraits surface service (id :: chain) = .ok traits) :
    ∃ own inherited, traits = t.traitItem service id own :: inherited ∧
      List.Forall₂ (fun ancestor item => ∃ methods,
        t.planMethods surface (t.schema.service ancestor) = .ok methods ∧
        item = t.traitItem service ancestor (methods.map
          (·.clientFunction (some (t.servicePath (t.schema.service ancestor)))))) chain
        inherited := by
  rw [clientTraits, List.zipIdx_cons] at h
  cases forall₂_of_mapM h with
  | cons hfirst hrest =>
      obtain ⟨methods, _, hfirst⟩ := except_bind_eq_ok.mp hfirst
      cases hfirst
      refine ⟨_, _, rfl, ?_⟩
      rw [← List.zipIdx_map_fst 1 chain, List.forall₂_map_left_iff]
      refine forall₂_imp_of_mem (fun pair hpair item _ hitem => ?_) hrest
      obtain ⟨methods, hmethods, hitem⟩ := except_bind_eq_ok.mp hitem
      have hdepth : pair.2 ≠ 0 := Nat.one_le_iff_ne_zero.mp (List.le_snd_of_mem_zipIdx hpair)
      cases hitem
      rw [if_neg hdepth]
      exact ⟨methods, hmethods, rfl⟩

theorem clientItems_eq_ok_iff :
    t.clientItems surface id = .ok items ↔
      '<' ∉ (clientName (t.schema.service id)).toList ∧
        ∃ traits, t.clientTraits surface (t.schema.service id) (t.schema.serviceChain id) =
            .ok traits ∧
          items = .raw (Text.trimEnd (Step.render (t.clientDefinition (t.schema.service id)))) ::
            t.clientBasics (t.schema.service id) :: traits := by
  rw [clientItems]
  by_cases hname : '<' ∈ (clientName (t.schema.service id)).toList
  · simp only [String.contains_char_eq, hname]
    constructor
    · intro h
      cases h
    · exact fun h => absurd trivial h.1
  · simp only [String.contains_char_eq, hname]
    constructor
    · intro h
      obtain ⟨traits, htraits, h⟩ := except_bind_eq_ok.mp h
      cases h
      exact ⟨not_false, traits, htraits, rfl⟩
    · rintro ⟨_, traits, htraits, rfl⟩
      exact except_bind_eq_ok.mpr ⟨traits, htraits, rfl⟩

/-- If a client can be emitted, so can the client of its parent, as far as its name allows it, and
the parent implements what the client leaves to it. -/
theorem exists_delegates (hextends : t.schema.Extends id parent)
    (hname : '<' ∉ (clientName (t.schema.service parent)).toList)
    (h : t.clientItems surface id = .ok items) :
    ∃ parentItems own inherited, t.clientItems surface parent = .ok parentItems ∧
      items = .raw (Text.trimEnd (Step.render (t.clientDefinition (t.schema.service id)))) ::
        t.clientBasics (t.schema.service id) :: t.traitItem (t.schema.service id) id own ::
          inherited ∧
      List.Forall₂ (t.Delegates (t.schema.service id) (t.schema.service parent) parentItems)
        (t.schema.serviceChain id).tail inherited := by
  obtain ⟨_, traits, htraits, rfl⟩ := clientItems_eq_ok_iff.mp h
  have hplans : ∀ ancestor ∈ t.schema.serviceChain parent, ∃ methods,
      t.planMethods surface (t.schema.service ancestor) = .ok methods := by
    intro ancestor hancestor
    have hself : parent ∈ t.schema.serviceChain id :=
      Schema.mem_serviceChain_iff.mpr (.single hextends)
    obtain ⟨methods, _, hmethods, _⟩ :=
      exists_mem_clientTraits htraits (Schema.serviceChain_subset hself hancestor)
    exact ⟨methods, hmethods⟩
  obtain ⟨parentTraits, hparentTraits⟩ : ∃ traits, t.clientTraits surface
      (t.schema.service parent) (t.schema.serviceChain parent) = .ok traits :=
    exists_clientTraits hplans
  obtain ⟨above, habove⟩ := Schema.exists_serviceChain_eq_cons t.schema id
  rw [habove] at htraits
  obtain ⟨own, inherited, rfl, hinherited⟩ := clientTraits_cons htraits
  refine ⟨_, own, inherited, clientItems_eq_ok_iff.mpr ⟨hname, parentTraits, hparentTraits, rfl⟩,
    rfl, ?_⟩
  rw [habove, List.tail_cons]
  refine forall₂_imp_of_mem (fun ancestor hancestor item _ hitem => ?_) hinherited
  obtain ⟨methods, hmethods, rfl⟩ := hitem
  have hparent : ancestor ∈ t.schema.serviceChain parent := by
    refine ((Schema.mem_tail_serviceChain_iff hextends).mp ?_).1
    rwa [habove, List.tail_cons]
  obtain ⟨served, inherited?, hserved, hmem⟩ := exists_mem_clientTraits hparentTraits hparent
  cases hmethods.symm.trans hserved
  refine ⟨_, _, rfl, List.mem_cons_of_mem _ (List.mem_cons_of_mem _ hmem), ?_, ?_⟩
  · rw [List.map_map, List.map_map]
    exact List.map_congr_left fun p _ => p.head_clientFunction inherited? _
  · rw [List.forall_mem_map]
    exact fun p _ => p.callsParent_clientFunction _

/-- Chains of services are exact, also where inheritance comes back. The chain of a service begins
with it, goes from each service to its parent, has each service above it once, and ends at a service
without a parent or with one in the chain. The chain of a parent goes on from there, and is just the
rest unless the service is above itself. So whatever a client leaves to the client of its parent,
this one has. -/
theorem serviceChain_exact (t : Target n) (id : Fin n.services) :
    let s := t.schema
    let chain := s.serviceChain id
    chain.head? = some id ∧ chain.IsChain s.Extends ∧ chain.Nodup ∧
    (∀ other, other ∈ chain ↔ ReflTransGen s.Extends id other) ∧
    (∃ last, chain.getLast? = some last ∧
      ((s.service last).extends? = none ∨ ∃ parent ∈ chain, s.Extends last parent)) ∧
    ∀ parent, s.Extends id parent →
      chain.tail <+: s.serviceChain parent ∧
      (chain.tail = s.serviceChain parent ↔ ¬ TransGen s.Extends id id) ∧
      ∀ surface items, '<' ∉ (clientName (s.service parent)).toList →
        t.clientItems surface id = .ok items →
        ∃ parentItems own inherited, t.clientItems surface parent = .ok parentItems ∧
          items = .raw (Text.trimEnd (Step.render (t.clientDefinition (s.service id)))) ::
            t.clientBasics (s.service id) :: t.traitItem (s.service id) id own :: inherited ∧
          List.Forall₂ (t.Delegates (s.service id) (s.service parent) parentItems) chain.tail
            inherited := by
  intro s chain
  obtain ⟨above, habove⟩ := Schema.exists_serviceChain_eq_cons s id
  refine ⟨?_, Schema.isChain_serviceChain s id, (Schema.ancestry_serviceChain s id).nodup,
    fun _ => Schema.mem_serviceChain_iff, Schema.serviceChain_ends s id,
    fun parent hextends => ⟨Schema.tail_serviceChain_initial hextends,
      Schema.tail_serviceChain_eq_iff hextends, fun surface items hname h =>
        exists_delegates hextends hname h⟩⟩
  rw [show chain = id :: above from habove, List.head?_cons]

abbrev dayCensus : Census where
  records := 0
  enums := 0
  typedefs := 0
  services := 2

abbrev dawnId : Fin dayCensus.services := ⟨0, by decide⟩
abbrev duskId : Fin dayCensus.services := ⟨1, by decide⟩

/-- Two services that extend each other. -/
def day : Target dayCensus where
  schema := {
    records := .ofFn Fin.elim0
    enums := .ofFn Fin.elim0
    typedefs := .ofFn Fin.elim0
    services := #v[
      { name := "Dawn", extends? := some duskId, methods := [{ name := "rise" }] },
      { name := "Dusk", extends? := some dawnId, methods := [{ name := "fall" }] }] }
  config := {}

/-- The client of `Dawn` leaves `fall` to that of `Dusk`, which has it; it goes no further round. -/
theorem day_serviceChain :
    day.schema.Extends dawnId duskId ∧ (day.schema.serviceChain dawnId).tail = [duskId] ∧
      [duskId] <+: day.schema.serviceChain duskId ∧ [duskId] ≠ day.schema.serviceChain duskId ∧
      ∃ items parentItems inherited, day.clientItems .whole dawnId = .ok items ∧
        day.clientItems .whole duskId = .ok parentItems ∧ inherited ∈ items ∧
        day.Delegates (day.schema.service dawnId) (day.schema.service duskId) parentItems duskId
          inherited := by
  have hextends : day.schema.Extends dawnId duskId := rfl
  have htail : (day.schema.serviceChain dawnId).tail = [duskId] := by decide
  obtain ⟨items, hitems⟩ : ∃ items, day.clientItems .whole dawnId = .ok items :=
    ⟨_, clientItems_eq_ok_iff.mpr ⟨by decide, _, rfl, rfl⟩⟩
  obtain ⟨_, _, _, _, _, hparent⟩ := serviceChain_exact day dawnId
  obtain ⟨hinitial, hsame, hclients⟩ := hparent duskId hextends
  obtain ⟨parentItems, own, inherited, hparentItems, rfl, hdelegates⟩ :=
    hclients .whole items (by decide) hitems
  rw [htail] at hinitial hsame hdelegates
  obtain ⟨item, hitem, hdelegate⟩ := exists_of_forall₂ hdelegates List.mem_cons_self
  refine ⟨hextends, htail, hinitial, fun heq => ?_, _, parentItems, item, hitems, hparentItems, ?_,
    hdelegate⟩
  · exact hsame.mp heq (.head hextends (.single rfl))
  · exact List.mem_cons_of_mem _ (List.mem_cons_of_mem _ (List.mem_cons_of_mem _ hitem))

end Target

end WireIdl
