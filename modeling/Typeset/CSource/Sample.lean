import Typeset.CSource.Basic

/-!
A translation unit with a struct, an enum and a function that uses both.
-/

set_option autoImplicit false

namespace Typeset.CSource

def localVariable (type : CType) (name : Name) : Statement := .decl (.var type name)

def Program.sample : Program where
  declarations :=
    [ .struct { text := "point" }
        [⟨.int, { text := "x" }⟩, ⟨.int, { text := "y" }⟩],
      .enum { text := "state" }
        ["left", "right", "up", "down", "forward", "backward", "random"],
      .function { text := "main" } .int []
        [ localVariable .int { text := "n" },
          localVariable (.pointer .char) { text := "fmt" },
          .assign { text := "n" } (.int 32),
          .assign { text := "fmt" } (.str "Hello world n°%d!"),
          .expr (.call { text := "printf" } [.ident { text := "fmt" }, .ident { text := "n" }]),
          localVariable (.struct { text := "point" }) { text := "p" },
          localVariable (.enum { text := "state" }) { text := "s" },
          .returns (.int 0)]]

end Typeset.CSource
