import QueryScript.Recorder.Argument

/-!
# Builder calls

A call is a method with operands.  An operand is an argument, the calls made on a nested
builder, or the conditions of a join; so the calls of a query form a tree, and its text is
only one view of it:

    whereExists(from("orders").whereColumn("orders.user_id","users.id"))

with braces around the nested calls.
-/

namespace QueryScript

/-- One condition of a join. -/
structure JoinCondition where
  method : String
  args : List Argument
deriving Repr

mutual

/-- A call on a query builder. -/
inductive Call where
  | mk (method : String) (operands : List Operand)

/-- What is passed to a call. -/
inductive Operand where
  | arg (a : Argument)
  | nested (calls : List Call)
  | conditions (cs : List JoinCondition)

end

namespace Call

/-- The method of a call. -/
def method : Call → String
  | .mk method _ => method

/-- The operands of a call. -/
def operands : Call → List Operand
  | .mk _ operands => operands

/-- A method with its operands as it is shown. -/
def application (method : String) (operands : List String) : String :=
  method ++ "(" ++ Text.joinWith "," operands ++ ")"

/-- Nested calls as they are shown. -/
def braced (calls : List String) : String :=
  "\x7b" ++ Text.joinWith "." calls ++ "\x7d"

end Call

/-- The condition as it is shown. -/
def JoinCondition.text (c : JoinCondition) : String :=
  Call.application c.method (c.args.map Argument.text)

namespace Call

mutual

/-- The call as it is shown. -/
def text : Call → String
  | .mk method operands => application method (operandTexts operands)

/-- An operand as it is shown. -/
def operandText : Operand → String
  | .arg a => a.text
  | .nested calls => braced (texts calls)
  | .conditions cs => braced (cs.map JoinCondition.text)

/-- The operands as they are shown. -/
def operandTexts : List Operand → List String
  | [] => []
  | o :: rest => operandText o :: operandTexts rest

/-- The calls as they are shown. -/
def texts : List Call → List String
  | [] => []
  | c :: rest => text c :: texts rest

end

/-- The calls in one line. -/
def trace (calls : List Call) : String :=
  Text.joinWith "." (texts calls)

end Call

end QueryScript
