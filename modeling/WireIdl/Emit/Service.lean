import WireIdl.Emit.Method
import WireIdl.Schema.Reach

/-!
Services: a trait with a function per method, the types of each method, and a client that
implements the trait and the traits of all ancestors.
-/

namespace WireIdl

open Code

variable {n : Census}

/-- Which methods of a service are written. -/
inductive Surface where
  | whole
  /-- Those on the allow list with this key. -/
  | listed (key : String)

def Surface.methods (surface : Surface) (service : ServiceDecl n) : List (Method n) :=
  match surface with
  | .whole => service.methods
  | .listed key => service.methods.filter (·.isAllowListed key)

namespace Target

def planMethods (t : Target n) (surface : Surface) (service : ServiceDecl n) :
    Except EmitFault (List (MethodPlan n)) :=
  (surface.methods service).mapM (t.planMethod service)

def servicePath (t : Target n) (service : ServiceDecl n) : String :=
  Ident.qualified t.config service.scope service.name

def traitSteps (t : Target n) (service : ServiceDecl n) (methods : List (MethodPlan n)) :
    List Step :=
  let parent :=
    match service.extends? with
    | some parent => ": " ++ t.servicePath (t.schema.service parent)
    | none => ""
  let body :=
    match methods with
    | [] => []
    | first :: rest => first.traitSteps ++ rest.flatMap fun m => .blank :: m.traitSteps
  headSteps service.doc? service.deprecated ++
    [.block ("pub trait " ++ Ident.type service.name ++ parent) body]

def clientName (service : ServiceDecl n) : String :=
  Ident.bare (Ident.type service.name) ++ "Client"

def parentClient? (t : Target n) (service : ServiceDecl n) : Option String :=
  service.extends?.map fun parent =>
    let parent := t.schema.service parent
    Ident.qualified t.config parent.scope (parent.name ++ "Client")

def clientDefinition (t : Target n) (service : ServiceDecl n) : List Step := [
  .doc ("Blocking client for [`" ++ Ident.bare (Ident.type service.name) ++
    "`] over any `Protocol`."),
  .block ("pub struct " ++ clientName service ++ "<P>") [
    .line (match t.parentClient? service with
      | some parent => "parent: " ++ parent ++ "<P>,"
      | none => "base: " ++ t.runtime "ClientBase<P>,")]]

def clientImpl (t : Target n) (service : ServiceDecl n) (trait? : Option String)
    (functions : List Function) : Item :=
  .impl {
    target := clientName service
    targetGenerics := ["P"]
    trait?
    generics := ["P"]
    bounds := [("P", t.runtime "Protocol")]
    functions }

def clientBasics (t : Target n) (service : ServiceDecl n) : Item :=
  let (new, base, into) :=
    match t.parentClient? service with
    | some parent =>
        ("Self \x7b parent: " ++ parent ++ "::new(protocol) \x7d", "self.parent.base_mut()",
          "self.parent.into_protocol()")
    | none =>
        ("Self \x7b base: " ++ t.runtime "ClientBase::new(protocol) \x7d", "&mut self.base",
          "self.base.into_protocol()")
  t.clientImpl service none [
    { name := "new"
      isPublic := true
      args := [("protocol", "P")]
      returns? := some "Self"
      body := [.text new] },
    { name := "base_mut"
      isPublic := true
      receiver? := some "&mut self"
      returns? := some ("&mut " ++ t.runtime "ClientBase<P>")
      body := [.text base] },
    { name := "into_protocol"
      isPublic := true
      receiver? := some "self"
      returns? := some "P"
      body := [.text into] }]

/-- The traits that a client implements, its own first. -/
def clientTraits (t : Target n) (surface : Surface) (service : ServiceDecl n)
    (chain : List (Fin n.services)) : Except EmitFault (List Item) :=
  chain.zipIdx.mapM fun (ancestor, depth) => do
    let ancestor := t.schema.service ancestor
    let path := t.servicePath ancestor
    let methods ← t.planMethods surface ancestor
    let inherited? := if depth = 0 then none else some path
    return t.clientImpl service (some path) (methods.map (·.clientFunction inherited?))

def clientItems (t : Target n) (surface : Surface) (id : Fin n.services) :
    Except EmitFault (List Item) := do
  let service := t.schema.service id
  if (clientName service).contains '<' then throw .genericName
  let traits ← t.clientTraits surface service (t.schema.serviceChain id)
  return .raw (Text.trimEnd (Step.render (t.clientDefinition service))) ::
    t.clientBasics service :: traits

def serviceCode (t : Target n) (surface : Surface) (id : Fin n.services) :
    Except EmitFault String := do
  let service := t.schema.service id
  let methods ← t.planMethods surface service
  let calls ← methods.mapM (·.items)
  let client ← t.clientItems surface id
  return Item.render
    (.raw (Text.trimEnd (Step.render (t.traitSteps service methods))) :: calls.flatten ++ client)

end Target

end WireIdl
