import QueryScript.Recorder.Basic

/-!
# The shape of a query

The shape of a call is what is left of it without its arguments: its method, the shapes of
the calls on the builders nested in it, and the methods of its join conditions.  The shapes
of the calls of a query make a tree that says what the query does, and nothing of the
values, texts and names that it does it with.
-/

namespace QueryScript.Call

mutual

/-- The call without its arguments. -/
def shape : Call → Call
  | .mk method operands => .mk method (shapeOperands operands)

/-- What is left of operands without arguments: nested calls, and the methods of conditions. -/
def shapeOperands : List Operand → List Operand
  | [] => []
  | .arg _ :: rest => shapeOperands rest
  | .nested calls :: rest => .nested (shapes calls) :: shapeOperands rest
  | .conditions cs :: rest =>
    .conditions (cs.map fun c => ⟨c.method, []⟩) :: shapeOperands rest

/-- The calls without their arguments. -/
def shapes : List Call → List Call
  | [] => []
  | c :: rest => shape c :: shapes rest

end

variable {operands operands' : List Operand} {calls calls' : List Call}

/-- The shape of calls in a row is that of each, in a row. -/
theorem shapes_append : shapes (calls ++ calls') = shapes calls ++ shapes calls' := by
  induction calls with
  | nil => rfl
  | cons c calls ih => rw [List.cons_append, shapes, shapes, ih, List.cons_append]

/-- The same for operands. -/
theorem shapeOperands_append :
    shapeOperands (operands ++ operands') = shapeOperands operands ++ shapeOperands operands' := by
  induction operands with
  | nil => rfl
  | cons o operands ih =>
    cases o with
    | arg a => exact ih
    | nested inner => exact congrArg _ ih
    | conditions cs => exact congrArg _ ih

/-- Plain arguments leave nothing in the shape. -/
theorem shapeOperands_args (args : List Argument) : shapeOperands (args.map .arg) = [] := by
  induction args with
  | nil => rfl
  | cons a args ih => exact ih

/-- Conditions of a join leave their methods in the shape. -/
theorem shapeOperands_conditions (cs : List JoinCondition) :
    shapeOperands (Build.conditionOperands cs) =
      Build.conditionOperands (cs.map fun c => ⟨c.method, []⟩) := by
  cases cs <;> rfl

end QueryScript.Call
