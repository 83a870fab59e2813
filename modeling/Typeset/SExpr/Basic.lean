import Typeset.Schema.Name

/-!
Arithmetic S-expressions: whole numbers, and operators applied to arguments.
-/

set_option autoImplicit false

namespace Typeset

inductive SExpr where
  | atom (value : Int)
  | call (operator : Name) (arguments : List SExpr)

/-- An operator with its arguments, the outermost form of a document. -/
structure Call where
  operator : Name
  arguments : List SExpr

namespace SExpr

mutual

def toJson : SExpr → Json
  | .atom value => .int value
  | .call operator arguments =>
      .obj [("name", .str operator.text), ("args", .arr (toJsonList arguments))]

def toJsonList : List SExpr → List Json
  | [] => []
  | argument :: rest => toJson argument :: toJsonList rest

end

end SExpr

namespace Call

def toExpr (call : Call) : SExpr := .call call.operator call.arguments

def toJson (call : Call) : Json := call.toExpr.toJson

/-- An expression with two nested quotients and products. -/
def sample : Call where
  operator := { text := "add" }
  arguments :=
    [ .call { text := "mul" } [.atom 2, .atom 6],
      .call { text := "div" }
        [ .call { text := "mul" } [.atom 4, .call { text := "mul" } [.atom 3, .atom 2, .atom 1]],
          .call { text := "add" }
            [ .atom 1,
              .call { text := "sub" }
                [.atom 3, .call { text := "add" } [.atom 1, .atom 1]]]]]

end Call

end Typeset
