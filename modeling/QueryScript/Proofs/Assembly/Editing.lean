import Mathlib.Data.Option.Basic
import QueryScript.Proofs.Assembly.Judging
import QueryScript.Proofs.Assembly.Taking
import QueryScript.Proofs.Definition.Editing

/-!
# Assembling an edited definition

When the list that is edited is assembled as before, so is every definition that it hangs in, if
the actions on the way read alike.  An action takes its nested query from a slot, and the slot
holds the same build before and after; which slot it is, under which name the query is joined, and
on which conditions, does not depend on the list (`alike_of_swaps`).  What may depend on it is what
an action is given beside its query: an action that carries the list in its value is given the
value as arguments too, and decides its condition on them (`ReadsAlike`).
-/

namespace QueryScript

/-- Two actions make the same call, if they are given the same arguments. -/
structure Application.Alike (scope : Scope) (a b : Application) : Prop where
  method : a.method = b.method
  route : a.route = b.route
  nested : a.nested = b.nested
  gate : Entries.get? a.entries "when" = Entries.get? b.entries "when"
  name : a.target.name = b.target.name
  querySlot : a.target.query.map (·.1) = b.target.query.map (·.1)
  groupSlot : a.groupSlot = b.groupSlot
  operandSlot : a.operandSlot? = b.operandSlot?
  conditions : a.conditions scope = b.conditions scope
  args : a.route.needsSubquery = false → a.route.acceptsClauses = false → a.args = b.args

namespace Application.Alike

variable {scope : Scope} {a b : Application}

/-- Actions that are alike build the same in each slot. -/
theorem inSlot_eq (h : a.Alike scope b) (slot : Slot) : a.inSlot slot = b.inSlot slot := by
  rw [inSlot, inSlot, h.nested]

theorem group?_eq (h : a.Alike scope b) : a.group? = b.group? := by
  rw [Application.group?_eq, Application.group?_eq, h.groupSlot, h.inSlot_eq]

theorem operandQuery?_eq (h : a.Alike scope b) : a.operandQuery? = b.operandQuery? := by
  rw [Application.operandQuery?_eq, Application.operandQuery?_eq, h.operandSlot]
  exact Option.bind_congr fun slot _ => h.inSlot_eq slot

end Application.Alike

/-! ## The action of an edited step -/

namespace Scope

variable {scope : Scope} {before after : Entries} {key : String} {v w : Json} {xs ys : List Json}
  {a b : Application}

end Scope

end QueryScript
