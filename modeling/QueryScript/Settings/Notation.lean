import QueryScript.Error
import QueryScript.Json.Record
import QueryScript.Settings.Basic
import QueryScript.Toml.Reader

/-!
# Settings in writing

Settings are read from a value or from TOML, in the same way but for what the two notations
allow; every section and every field may be left out.  They are written as a value with every
field present.
-/

namespace QueryScript

/-- The policy that a value writes. -/
def PolicySettings.ofJson? (d : Dialect) (v : Json) : Option PolicySettings := do
  let es ← d.record? ["mode", "list"] v
  let mode ← Entries.withDefault? es "mode" .none fun m => (d.name? m).bind PolicyMode.ofText?
  let list ← Entries.withDefault? es "list" [] (Json.listOf? Json.string?)
  return ⟨mode, list⟩

/-- The policy as a value. -/
def PolicySettings.toJson (s : PolicySettings) : Json :=
  .obj [("mode", .str s.mode.text), ("list", .arr (s.list.map .str))]

/-- The catalog rule that a value writes. -/
def RuleSettings.ofJson? (d : Dialect) (v : Json) : Option RuleSettings := do
  let es ← d.record? ["category", "name", "pattern", "keywords"] v
  let category ← Entries.required? es "category" Json.string?
  let name ← Entries.required? es "name" Json.string?
  let pattern ← Entries.required? es "pattern" Json.string?
  let keywords ← Entries.withDefault? es "keywords" [] (Json.listOf? Json.string?)
  return ⟨.ofName category, name, pattern, keywords⟩

/-- The catalog rule as a value. -/
def RuleSettings.toJson (r : RuleSettings) : Json :=
  .obj
    [("category", .str r.category.name), ("name", .str r.name), ("pattern", .str r.pattern),
      ("keywords", .arr (r.keywords.map .str))]

namespace SecuritySettings

/-- The friendly names that an object writes. -/
def aliasesOfJson? (v : Json) : Option (List (String × String)) := do
  let es ← v.entries?
  es.foldlM (fun acc (friendly, actual) =>
    actual.string?.map fun name => insertSorted acc friendly name) []

/-- The names of the fields in order. -/
def fieldNames : List String :=
  ["tables", "actions", "executors", "table_aliases", "raw_patterns",
    "replace_default_patterns"]

/-- The security rules that a value writes. -/
def ofJson? (d : Dialect) (v : Json) : Option SecuritySettings := do
  let es ← d.record? fieldNames v
  let tables ← Entries.withDefault? es "tables" {} (PolicySettings.ofJson? d)
  let actions ← Entries.withDefault? es "actions" {} (PolicySettings.ofJson? d)
  let executors ← Entries.withDefault? es "executors" {} (PolicySettings.ofJson? d)
  let tableAliases ← Entries.withDefault? es "table_aliases" [] aliasesOfJson?
  let rawPatterns ← Entries.withDefault? es "raw_patterns" []
    (Json.listOf? (RuleSettings.ofJson? d))
  let replaceDefaultPatterns ← Entries.withDefault? es "replace_default_patterns" false Json.bool?
  return { tables, actions, executors, tableAliases, rawPatterns, replaceDefaultPatterns }

/-- The security rules as a value. -/
def toJson (s : SecuritySettings) : Json :=
  .obj
    [("tables", s.tables.toJson), ("actions", s.actions.toJson),
      ("executors", s.executors.toJson),
      ("table_aliases",
        .obj (s.tableAliases.map fun (friendly, actual) => (friendly, .str actual))),
      ("raw_patterns", .arr (s.rawPatterns.map RuleSettings.toJson)),
      ("replace_default_patterns", .bool s.replaceDefaultPatterns)]

end SecuritySettings

mutual

/-- The value with `null` for every number that JSON cannot write. -/
def Json.finiteOnly : Json → Json
  | .num (.double x) => if x.isFinite then .num (.double x) else .null
  | .arr xs => .arr (Json.finiteItems xs)
  | .obj es => .obj (Json.finiteEntries es)
  | v => v

/-- The items with finite numbers only. -/
def Json.finiteItems : List Json → List Json
  | [] => []
  | x :: rest => x.finiteOnly :: Json.finiteItems rest

/-- The entries with finite numbers only. -/
def Json.finiteEntries : List (String × Json) → List (String × Json)
  | [] => []
  | (k, v) :: rest => (k, v.finiteOnly) :: Json.finiteEntries rest

end

namespace DefaultSettings

/-- The names of the fields in order. -/
def fieldNames : List String :=
  ["return_format", "max_rows", "datasource", "timeout", "username", "password"]

/-- The defaults that a value writes. -/
def ofJson? (d : Dialect) (v : Json) : Option DefaultSettings := do
  let es ← d.record? fieldNames v
  let returnFormat ← Entries.nullable? es "return_format" fun f =>
    (Format.ofJson f.finiteOnly).toOption
  let maxRows ← Entries.nullable? es "max_rows" Json.natural?
  let datasource ← Entries.nullable? es "datasource" Json.string?
  let timeout ← Entries.nullable? es "timeout" Json.natural?
  let username ← Entries.nullable? es "username" Json.string?
  let password ← Entries.nullable? es "password" Json.string?
  return { returnFormat, maxRows, datasource, timeout, username, password }

/-- The defaults as a value. -/
def toJson (s : DefaultSettings) : Json :=
  .obj
    [("return_format", Json.orNull Format.toJson s.returnFormat),
      ("max_rows", Json.orNull Json.nat s.maxRows),
      ("datasource", Json.orNull .str s.datasource), ("timeout", Json.orNull Json.nat s.timeout),
      ("username", Json.orNull .str s.username), ("password", Json.orNull .str s.password)]

end DefaultSettings

namespace Settings

/-- The settings that a value writes. -/
def ofJson? (d : Dialect) (v : Json) : Option Settings := do
  let es ← d.record? ["security", "defaults"] v
  let security ← Entries.withDefault? es "security" {} (SecuritySettings.ofJson? d)
  let defaults ← Entries.withDefault? es "defaults" {} (DefaultSettings.ofJson? d)
  return { security, defaults }

/-- The settings that a text in TOML writes. -/
def ofToml (text : String) : Except Error Settings :=
  match (Toml.parse? text).bind (ofJson? .toml) with
  | some settings => .ok settings
  | none => .error (.config "Failed to parse config: not the TOML of a configuration")

/-- The settings as a value. -/
def toJson (s : Settings) : Json :=
  .obj [("security", s.security.toJson), ("defaults", s.defaults.toJson)]

end Settings

end QueryScript
