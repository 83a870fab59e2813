import Typeset.Layout.Basic

/-!
What can go wrong with a layout: a walk meets a stray, or a choice is checked and its
branches hold different texts.
-/

set_option autoImplicit false

namespace Typeset

inductive LayoutFault where
  | stray (value : Stray)
  | branchesDiffer (primary secondary : String)
  deriving DecidableEq

def LayoutFault.message : LayoutFault → String
  | .stray value => s!"Expected a Formattable or str, got {value.kindName}: {value.shown}"
  | .branchesDiffer primary secondary =>
      s!"Choice branches flatten differently: primary={Text.quoted primary}, " ++
        s!"secondary={Text.quoted secondary}"

end Typeset
