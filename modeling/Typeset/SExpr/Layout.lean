import Typeset.Layout.Combinators
import Typeset.SExpr.Basic

/-!
Laying out S-expressions. A call stands on one line where it fits. Else its arguments
are stacked below the operator, indented by a step, and the closing parenthesis stands
on a line of its own.
-/

set_option autoImplicit false

namespace Typeset

namespace SExpr

mutual

def layout (step : Int) : SExpr → Build Layout
  | .atom value => return .text (toString value)
  | .call operator [] => return .text s!"({operator.text})"
  | .call operator (first :: rest) => do
      let head := Layout.text s!"({operator.text}"
      let arguments ← Layout.stack (layoutItems step (first :: rest))
      let body := Layout.indent step (.concat .lineBreak arguments)
      let opened ← Layout.group (.concat head body)
      Layout.groupWith "" (Layout.breakJoin opened (.text ")"))

def layoutItems (step : Int) : List SExpr → List Item
  | [] => []
  | argument :: rest => .described (layout step argument) :: layoutItems step rest

end

end SExpr

def Call.layout (step : Int) (call : Call) : Build Layout := call.toExpr.layout step

end Typeset
