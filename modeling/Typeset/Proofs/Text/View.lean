/-!
Views of texts. A view takes a text piece by piece, so what it shows of two texts in a row
is what it shows of each. One view shows everything, another one hides the spaces and the
line breaks.
-/

set_option autoImplicit false

namespace Typeset.Text

structure View where
  seen : String → String
  seen_append : ∀ before after, seen (before ++ after) = seen before ++ seen after

/-- The characters of a text that are neither spaces nor line breaks. -/
def ink (text : String) : String :=
  String.ofList (text.toList.filter fun c => c != ' ' && c != '\n')

namespace View

def whole : View where
  seen := id
  seen_append _ _ := rfl

def inked : View where
  seen := ink
  seen_append before after := by
    simp [ink, String.toList_append, List.filter_append, String.ofList_append]

end View

theorem ink_eq_empty
    (text : String)
    (blank : ∀ c ∈ text.toList, c = ' ' ∨ c = '\n') :
    ink text = "" := by
  have none : text.toList.filter (fun c => c != ' ' && c != '\n') = [] := by
    rw [List.filter_eq_nil_iff]
    intro c member
    rcases blank c member with rfl | rfl <;> decide
  rw [ink, none]

end Typeset.Text
