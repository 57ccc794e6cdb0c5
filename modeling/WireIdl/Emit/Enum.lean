import WireIdl.Code.Item
import WireIdl.Emit.Head
import WireIdl.Emit.Ident

/-!
Enums: a type with explicit discriminants, lookup by wire value, the declared names, and identity.
-/

namespace WireIdl.EnumDecl

open Code

def definition (c : Config) (e : EnumDecl) : List Step :=
  e.doc?.toList.map .doc ++
    [.attribute "derive(Debug, Clone, Copy, PartialEq, Eq, PartialOrd, Ord, Hash)"] ++
    serdeSteps c ++
    (if e.deprecated then [.attribute "deprecated"] else []) ++
    (if e.members.isEmpty then [] else [.attribute "repr(i32)"]) ++
    [.block ("pub enum " ++ Ident.type e.name) (e.members.flatMap fun m =>
      headSteps m.doc? m.deprecated ++
        [.line (Ident.variant m.name ++ " = " ++ toString m.value ++ ",")])]

def memberPath (e : EnumDecl) (m : EnumMember) : String :=
  Ident.type e.name ++ "::" ++ Ident.variant m.name

def lookups (e : EnumDecl) : Impl where
  target := Ident.type e.name
  functions := [
    { name := "value"
      doc? := some "The wire value of this member."
      isPublic := true
      receiver? := some "self"
      returns? := some "i32"
      body := [.block "match self"
        (e.members.map fun m => e.memberPath m ++ " => " ++ toString m.value ++ ",") ""] },
    { name := "find_by_value"
      doc? := some "The member with the given wire value, if any."
      isPublic := true
      args := [("value", "i32")]
      returns? := some "Option<Self>"
      body := [.block "match value"
        ((e.members.map fun m => toString m.value ++ " => Some(" ++ e.memberPath m ++ "),") ++
          ["_ => None,"]) ""] }]

def display (e : EnumDecl) : Impl where
  target := Ident.type e.name
  trait? := some "::std::fmt::Display"
  functions := [
    { name := "fmt"
      receiver? := some "&self"
      args := [("f", "&mut ::std::fmt::Formatter<'_>")]
      returns? := some "::std::fmt::Result"
      body := [.block "match *self" (e.members.map fun m =>
        e.memberPath m ++ " => f.write_str(" ++ Text.quote m.name ++ "),") ""] }]

def hashing (c : Config) (e : EnumDecl) : Impl where
  target := Ident.type e.name
  trait? := some (c.runtimePath ++ "::ThriftHash")
  functions := [
    { name := "thrift_hash"
      receiver? := some "&self"
      returns? := some "i32"
      body := [.text "self.value()"] }]

def equality (c : Config) (e : EnumDecl) : Impl where
  target := Ident.type e.name
  trait? := some (c.runtimePath ++ "::ThriftEq")
  functions := [
    { name := "thrift_eq"
      receiver? := some "&self"
      args := [("other", "&Self")]
      returns? := some "bool"
      body := [.text "self == other"] }]

def code (c : Config) (e : EnumDecl) : String :=
  Item.render [
    .raw (Text.trimEnd (Step.render (e.definition c))),
    .impl e.lookups, .impl e.display, .impl (e.hashing c), .impl (e.equality c)]

end WireIdl.EnumDecl
