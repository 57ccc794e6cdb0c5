import WireIdl.Emit.Units

/-!
A source file from units: each unit stands in the module of its namespace, and modules are nested
and in ascending order.
-/

namespace WireIdl

open Code

mutual

inductive ModuleTree where
  | node (units : List SourceUnit) (inner : Modules)

/-- Named modules, in ascending order. -/
inductive Modules where
  | none
  | cons (name : String) (tree : ModuleTree) (rest : Modules)

end

namespace ModuleTree

def empty : ModuleTree :=
  .node [] .none

end ModuleTree

/-- Changes the module of a name, which is empty if it is not there yet. -/
def Modules.update (name : String) (change : ModuleTree → ModuleTree) : Modules → Modules
  | .none => .cons name (change .empty) .none
  | .cons other tree rest =>
      if name < other then .cons name (change .empty) (.cons other tree rest)
      else if name = other then .cons other (change tree) rest
      else .cons other tree (rest.update name change)

namespace ModuleTree

def insert (unit : SourceUnit) : List String → ModuleTree → ModuleTree
  | [], .node units inner => .node (units ++ [unit]) inner
  | name :: path, .node units inner => .node units (inner.update name (insert unit path))

def ofUnits (units : List SourceUnit) : ModuleTree :=
  units.foldl (fun tree unit => tree.insert unit (Ident.modules unit.scope)) .empty

end ModuleTree

def moduleAttribute : String :=
  "allow(clippy::all, unused, deprecated, non_camel_case_types)"

def SourceUnit.steps (c : Config) (unit : SourceUnit) : List Step :=
  (if c.fileComment then unit.location?.toList.map fun l => .comment ("Source: " ++ l.text)
    else []) ++ [.lines unit.code]

mutual

def ModuleTree.items (c : Config) : ModuleTree → List (List Step)
  | .node units inner => units.map (·.steps c) ++ inner.items c

def Modules.items (c : Config) : Modules → List (List Step)
  | .none => []
  | .cons name tree rest =>
      [ .attribute moduleAttribute,
        .block ("pub mod " ++ name) (List.intercalate [.blank] (tree.items c))] ::
        rest.items c

end

namespace Config

def headerSteps (c : Config) (stamp : String) : List Step :=
  if c.fileComment then [
    .comment "Automatically generated by idlc; do not edit!",
    .comment ("Generated on: " ++ stamp),
    .blank]
  else []

/-- A source that holds the given units. `stamp` is the time that its head gives. -/
def assemble (c : Config) (stamp : String) (units : List SourceUnit) : String :=
  Step.render (c.headerSteps stamp ++
    List.intercalate [.blank] ((ModuleTree.ofUnits units).items c))

end Config

namespace Target

variable {n : Census}

def source (t : Target n) (processor? : Option Processor) (stamp : String) :
    Except EmitFault String := do
  return t.config.assemble stamp (← t.units processor?)

def prunedSource (t : Target n) (processor? : Option Processor) (stamp : String)
    (id : Fin n.services) : Except EmitFault String := do
  return t.config.assemble stamp (← t.prunedUnits processor? id)

end Target

end WireIdl
