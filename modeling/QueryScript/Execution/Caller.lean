import QueryScript.Options.Notation
import QueryScript.Params
import QueryScript.Result.Format

/-!
# What a caller passes

A caller passes parameters with a definition, and may choose a result format and options.
-/

namespace QueryScript

/-- What a caller passes with a definition. -/
structure CallerOptions where
  params : Params := .empty
  returnFormat : Option Format := none
  options : Options := {}

namespace CallerOptions

/-- Parameters as a caller passes them: an object. -/
def paramsOfJson? (v : Json) : Option Params :=
  v.entries?.map Params.mk

/-- What an object passes; the connection options stand beside the other fields. -/
def ofJson? : Json → Option CallerOptions
  | .obj es => do
    let params ← Entries.withDefault? es "params" .empty paramsOfJson?
    let returnFormat ← Entries.nullable? es "returnFormat" fun v => (Format.ofJson v).toOption
    let options ← Options.ofEntries? es
    return { params, returnFormat, options }
  | _ => none

end CallerOptions

end QueryScript
