import WireIdl.Client.Basic
import WireIdl.Demo.Schema

/-!
The three ways in which the demo schema is emitted: with the usual choices, with ordered containers
and tolerant readers, and pruned to the allow list of the search service.
-/

namespace WireIdl.Demo

def hashed : Target census where
  schema
  config := {}

def ordered : Target census where
  schema
  config := {
    list := .deque
    set := .ordered
    map := .ordered
    fieldTypeChecks := false }

def pruned : Target census where
  schema
  config := { rootPath := "crate::pruned", allowListKey }

end WireIdl.Demo
