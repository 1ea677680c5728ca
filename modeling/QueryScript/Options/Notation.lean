import QueryScript.Json.Record
import QueryScript.Options
import QueryScript.Text.Debug

/-!
# Options in writing

Options are read from a record.  They are written in two ways, and in neither can the password
be read.
-/

namespace QueryScript.Options

/-- The names of the fields in order. -/
def fieldNames : List String :=
  ["datasource", "timeout", "username", "password", "native"]

/-- The options in the fields of a record. -/
def ofEntries? (es : Entries) : Option Options := do
  let datasource ← Entries.nullable? es "datasource" Json.string?
  let timeout ← Entries.nullable? es "timeout" Json.natural?
  let username ← Entries.nullable? es "username" Json.string?
  let password ← Entries.nullable? es "password" Json.string?
  let native ← Entries.withDefault? es "native" false Json.bool?
  return { datasource, timeout, username, password, native }

/-- The options that a value writes. -/
def ofJson? (v : Json) : Option Options :=
  (Dialect.json.record? fieldNames v).bind ofEntries?

/-- The options without the password. -/
def toJson (o : Options) : Json :=
  .obj
    [("datasource", Json.orNull .str o.datasource), ("timeout", Json.orNull Json.nat o.timeout),
      ("username", Json.orNull .str o.username), ("native", .bool o.native)]

/-- The options on one line for a log; of a password only its presence shows. -/
def describe (o : Options) : String :=
  "ExecutionOptions \x7b datasource: " ++ Text.Debug.optional Text.Debug.quote o.datasource ++
    ", timeout: " ++ Text.Debug.optional toString o.timeout ++
    ", username: " ++ Text.Debug.optional Text.Debug.quote o.username ++
    ", password: " ++ Text.Debug.optional Text.Debug.quote (o.password.map fun _ => "***") ++
    ", native: " ++ (if o.native then "true" else "false") ++ " \x7d"

end QueryScript.Options
