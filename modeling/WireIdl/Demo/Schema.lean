import WireIdl.Schema.Basic

/-!
A schema of a small search service, with every kind of declaration: an enum, structs of which one
contains itself, a union, an exception, fields that are secret or have defaults, constants, and a
service that extends another.
-/

namespace WireIdl.Demo

abbrev census : Census where
  records := 7
  enums := 1
  typedefs := 0
  services := 2

abbrev inputId : Fin census.records := 0
abbrev queryId : Fin census.records := 1
abbrev valueId : Fin census.records := 2
abbrev notFoundId : Fin census.records := 3
abbrev credentialsId : Fin census.records := 4
abbrev nodeId : Fin census.records := 5
abbrev limitsId : Fin census.records := 6

abbrev colorId : Fin census.enums := 0

abbrev baseId : Fin census.services := 0
abbrev searchId : Fin census.services := 1

def allowListKey : String := "allowlist"

def color : EnumDecl where
  name := "Color"
  scope := "demo"
  members := [
    { name := "RED", value := 1 },
    { name := "GREEN", value := 2 },
    { name := "DARK_BLUE", value := 7 }]
  doc? := some "Colours a search can be narrowed to."

def input : RecordDecl census where
  name := "Input"
  scope := "demo"
  fields := [
    { id := 1, name := "name", ty := .string, requiredness := .required },
    { id := 2
      name := "color"
      ty := .enum colorId
      requiredness := .optional
      default? := some (.identifier "Color.GREEN") },
    { id := 3, name := "tags", ty := .list .string, requiredness := .optional },
    { id := 4, name := "weights", ty := .map .string .double, requiredness := .optional }]

def query : RecordDecl census where
  name := "Query"
  scope := "demo.search"
  fields := [
    { id := 1, name := "text", ty := .string, requiredness := .required },
    { id := 2, name := "resultsNewerThan", ty := .i64, requiredness := .required },
    { id := 3, name := "input", ty := .record .struct inputId, requiredness := .required }]
  doc? := some "A full-text query."
  location? := some { path := "search.thrift", line := 12, column := 1 }

def value : RecordDecl census where
  name := "Value"
  scope := "demo"
  kind := .union
  fields := [
    { id := 1, name := "text", ty := .string },
    { id := 2, name := "number", ty := .i64 },
    { id := 3, name := "flag", ty := .bool }]

def notFound : RecordDecl census where
  name := "NotFound"
  scope := "demo"
  kind := .exception
  fields := [{ id := 1, name := "message", ty := .string, requiredness := .required }]

def credentials : RecordDecl census where
  name := "Credentials"
  scope := "demo"
  fields := [
    { id := 1, name := "user", ty := .string, requiredness := .required },
    { id := 2, name := "password", ty := .string, redacted := true },
    { id := 3, name := "token", ty := .string, obfuscated := true },
    { id := 4, name := "scopes", ty := .set .string, obfuscated := true },
    { id := 5
      name := "legacyId"
      ty := .i32
      deprecated := true
      doc? := some "Replaced by `user`." }]

def node : RecordDecl census where
  name := "Node"
  scope := "demo"
  fields := [
    { id := 1, name := "value", ty := .i32, requiredness := .required },
    { id := 2, name := "next", ty := .record .struct nodeId },
    { id := 3, name := "children", ty := .list (.record .struct nodeId) }]

def limits : RecordDecl census where
  name := "Limits"
  scope := "demo"
  fields := [
    { id := 1
      name := "maxResults"
      ty := .i32
      requiredness := .required
      default? := some (.identifier "MAX_RESULTS") },
    { id := 2, name := "label", ty := .string, default? := some (.string "all") }]

def ping : Method census where
  name := "ping"
  annotations := [(allowListKey, "true")]

def log : Method census where
  name := "log"
  params := [{ id := 1, name := "line", ty := .string, requiredness := .required }]
  oneWay := true

def find : Method census where
  name := "find"
  returns := .list (.record .struct queryId)
  params := [
    { id := 1, name := "query", ty := .record .struct queryId, requiredness := .required },
    { id := 2, name := "limit", ty := .i32, default? := some (.int 10) }]
  throws := [{ id := 1, name := "notFound", ty := .record .exception notFoundId }]
  annotations := [(allowListKey, "true")]

def describe : Method census where
  name := "describe"
  returns := .string
  params := [{ id := 1, name := "value", ty := .record .union valueId }]

def base : ServiceDecl census where
  name := "Base"
  scope := "demo"
  methods := [ping, log]

def search : ServiceDecl census where
  name := "Search"
  scope := "demo.search"
  extends? := some baseId
  methods := [find, describe]

def constants : List (Constant census) := [
  { name := "MAX_RESULTS", scope := "demo", ty := .i32, value := .int 100 },
  { name := "GREETING", scope := "demo", ty := .string, value := .string "hello" },
  { name := "DEFAULT_COLOR"
    scope := "demo"
    ty := .enum colorId
    value := .identifier "Color.DARK_BLUE" },
  { name := "PRIMES"
    scope := "demo"
    ty := .list .i32
    value := .list [.int 2, .int 3, .int 5, .int 7] },
  { name := "WEIGHTS"
    scope := "demo"
    ty := .map .string .double
    value := .map [(.string "title", .int 2)] }]

def schema : Schema census where
  records := #v[input, query, value, notFound, credentials, node, limits]
  enums := #v[color]
  typedefs := #v[]
  services := #v[base, search]
  constants

end WireIdl.Demo
