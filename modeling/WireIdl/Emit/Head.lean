import WireIdl.Code.Writer
import WireIdl.Config

/-!
What stands before a declaration: documentation and attributes.
-/

namespace WireIdl

open Code

def headSteps (doc? : Option String) (deprecated : Bool) : List Step :=
  doc?.toList.map .doc ++ if deprecated then [.attribute "deprecated"] else []

def serdeSteps (c : Config) : List Step :=
  if c.serde then [.attribute "derive(::serde::Serialize, ::serde::Deserialize)"] else []

end WireIdl
