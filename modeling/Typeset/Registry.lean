import Std.Data.TreeMap.Lemmas
import Typeset.Formatter

/-!
The registry of formatters. A name stands for the formatter that was registered under it
last. Names are listed in the order of their code points.
-/

set_option autoImplicit false

namespace Typeset

/-- Every formatter stands under its own name. -/
structure Registry where
  entries : Std.TreeMap String Formatter

namespace Registry

def empty : Registry := ⟨∅⟩

def register (registry : Registry) (formatter : Formatter) : Registry :=
  ⟨registry.entries.insert formatter.name formatter⟩

/-- The registry that holds the bundled formatters alone. -/
def bundled : Registry := Formatter.bundled.foldl register empty

def find? (registry : Registry) (name : String) : Option Formatter := registry.entries[name]?

def names (registry : Registry) : List String := registry.entries.keys

theorem find_register (registry : Registry) (formatter : Formatter) (name : String) :
    (registry.register formatter).find? name =
      if formatter.name = name then some formatter else registry.find? name := by
  simp [register, find?, Std.TreeMap.getElem?_insert]

theorem names_ordered (registry : Registry) : registry.names.Pairwise (· < ·) := by
  refine registry.entries.ordered_keys.imp fun {left right} (less : compare left right = .lt) => ?_
  change compareOfLessAndEq left right = .lt at less
  exact compareOfLessAndEq_eq_lt.mp less

theorem mem_names (registry : Registry) (name : String) :
    name ∈ registry.names ↔ (registry.find? name).isSome := by
  simp [names, find?, Std.TreeMap.mem_keys]

end Registry

end Typeset
