import Mathlib.Data.List.Forall2
import Typeset.Proofs.Document.Steady
import Typeset.Proofs.Resolution.Breaks
import Typeset.Proofs.Resolution.Described
import Typeset.Proofs.Session.Outcome
import Typeset.Proofs.Token.Written

/-!
Texts on lines of their own. A stack is printed as its parts are printed one by one, with a
line break between each two of them, and all but the first one from the left margin. A C
program is such a stack: `breaks_separate`.
-/

set_option autoImplicit false

namespace Typeset

namespace Layout

open Build

/-- A break at the left margin parts two texts, and the first fault is that of both. -/
theorem pretty_break_join (left right : Layout) (width column : Int) :
    (breakJoin left right).pretty width column = (do
      let first ← left.pretty width column
      let second ← right.pretty width 0
      return first ++ "\n" ++ second) := by
  have margin : Token.chunk (.line 0) = "\n" := rfl
  have whole := Queue.resolve_break_join width column 0 left right
  simp only [pretty, resolve, whole]
  generalize (Queue.resolve width column [⟨0, left⟩]).all = before
  generalize (Queue.resolve width 0 [⟨0, right⟩]).all = after
  obtain ⟨first, fault⟩ := before
  obtain ⟨second, other⟩ := after
  cases fault with
  | some fault => rfl
  | none =>
      cases other with
      | some fault => rfl
      | none =>
          simp only [Delivery.andThen, Token.render_append, Token.render_cons, margin,
            String.append_assoc]
          rfl

theorem pretty_stacked (first : Layout) (rest : List Layout) (width column : Int) :
    (rest.foldl breakJoin first).pretty width column = (do
      let head ← first.pretty width column
      let others ← rest.mapM fun layout => layout.pretty width 0
      return String.intercalate "\n" (head :: others)) := by
  induction rest generalizing first with
  | nil => simp
  | cons next rest ih =>
      rw [List.foldl_cons, ih, pretty_break_join, List.mapM_cons]
      simp [String.append_assoc]

theorem stack_gives
    {first : Item}
    {rest : List Item}
    {head : Layout}
    {others : List Layout}
    (start : first.toLayout.Gives head)
    (later : List.Forall₂ (fun item layout => item.toLayout.Gives layout) rest others) :
    (stack (first :: rest)).Gives (others.foldl breakJoin head) := by
  refine Gives.bind start ?_
  clear start
  induction later generalizing head with
  | nil =>
      intro checked
      rfl
  | cons given later ih =>
      rw [List.foldlM_cons]
      refine Gives.bind (Gives.bind given ?_) ih
      intro checked
      rfl

end Layout

namespace CSource

open Build

/-- Whatever the session is, the declaration is printed on its own with this text. -/
def Declaration.Prints (declaration : Declaration) (width column : Int) (text : String) : Prop :=
  (Action.pretty (.described declaration.layout) width column).Yields text

theorem Declaration.prints (declaration : Declaration) (width column : Int) :
    ∃ layout text, declaration.layout.Gives layout ∧ layout.pretty width column = .ok text ∧
      declaration.Prints width column text := by
  obtain ⟨layout, clean, given⟩ := declaration.layout_steady
  obtain ⟨text, written⟩ := layout.pretty_of_clean clean width column
  refine ⟨layout, text, given, written, ?_⟩
  apply Action.pretty_yields _ written
  exact given

theorem Declaration.all_print (declarations : List Declaration) (width : Int) :
    ∃ layouts texts,
      List.Forall₂ (fun declaration layout => declaration.layout.Gives layout)
          declarations layouts ∧
        (layouts.mapM fun layout => layout.pretty width 0) = .ok texts ∧
        List.Forall₂ (fun declaration text => declaration.Prints width 0 text)
          declarations texts := by
  induction declarations with
  | nil => exact ⟨[], [], .nil, rfl, .nil⟩
  | cons first rest ih =>
      obtain ⟨layout, text, given, written, prints⟩ := first.prints width 0
      obtain ⟨layouts, texts, allGiven, allWritten, allPrint⟩ := ih
      refine ⟨layout :: layouts, text :: texts, .cons given allGiven, ?_, .cons prints allPrint⟩
      rw [List.mapM_cons, written, allWritten]
      rfl

theorem Program.empty_prints (width column : Int) :
    (Action.pretty (.described (Program.layout ⟨[]⟩)) width column).Yields "" := by
  obtain ⟨tokens, delivered, described⟩ :=
    Layout.empty.resolve_described trivial width column
  cases described
  apply Action.pretty_yields _ (Layout.pretty_of_all delivered)
  intro checked
  rfl

/-- The text of a program is that of its declarations, each printed on its own. -/
theorem Program.prints
    (first : Declaration)
    (rest : List Declaration)
    (width column : Int) :
    ∃ head others, first.Prints width column head ∧
      List.Forall₂ (fun declaration text => declaration.Prints width 0 text) rest others ∧
      (Action.pretty (.described (Program.layout ⟨first :: rest⟩)) width column).Yields
        (String.intercalate "\n" (head :: others)) := by
  obtain ⟨layout, head, given, written, prints⟩ := first.prints width column
  obtain ⟨layouts, others, allGiven, allWritten, allPrint⟩ :=
    Declaration.all_print rest width
  have items : List.Forall₂ (fun (item : Item) layout => item.toLayout.Gives layout)
      (rest.map fun declaration => .described declaration.layout) layouts :=
    List.forall₂_map_left_iff.mpr allGiven
  have whole : (Program.layout ⟨first :: rest⟩).Gives (layouts.foldl Layout.breakJoin layout) :=
    Layout.stack_gives given items
  have printed : (layouts.foldl Layout.breakJoin layout).pretty width column =
      .ok (String.intercalate "\n" (head :: others)) := by
    rw [Layout.pretty_stacked, written, allWritten]
    rfl
  refine ⟨head, others, prints, allPrint, ?_⟩
  apply Action.pretty_yields _ printed
  exact whole

end CSource

namespace Layout

open Build

/-- A break of its own keeps two layouts apart: each is resolved as if it stood alone, the
second one at the column of the break. So a stack is printed as its parts are, one by one,
and a fault of a part is the fault of the stack. -/
theorem breaks_separate :
    (∀ first second : Layout, first.Clean → second.Clean → ∀ amount width column,
      ∃ before after,
        ((indent amount first).resolve width column).all = ⟨before, none⟩ ∧
        ((indent amount second).resolve width amount).all = ⟨after, none⟩ ∧
        ((indent amount (.concat first (.concat .lineBreak second))).resolve width column).all =
          ⟨before ++ .line amount :: after, none⟩) ∧
    (∀ (first : Layout) (rest : List Layout), ∃ stacked,
      (stack ((first :: rest).map .node)).Gives stacked ∧
        ∀ width column, stacked.pretty width column = do
          let head ← first.pretty width column
          let others ← rest.mapM fun layout => layout.pretty width 0
          return String.intercalate "\n" (head :: others)) ∧
    (∀ first rest width column, ∃ head others,
      (first : CSource.Declaration).Prints width column head ∧
        List.Forall₂ (fun declaration text => declaration.Prints width 0 text) rest others ∧
        (Action.pretty (.described (CSource.Program.layout ⟨first :: rest⟩)) width column).Yields
          (String.intercalate "\n" (head :: others))) ∧
    ∀ width column,
      (Action.pretty (.described (CSource.Program.layout ⟨[]⟩)) width column).Yields "" := by
  refine ⟨?_, ?_, CSource.Program.prints, CSource.Program.empty_prints⟩
  · intro first second firstClean secondClean amount width column
    obtain ⟨before, firstWhole, _⟩ :=
      resolve_described (.indent amount first) firstClean width column
    obtain ⟨after, secondWhole, _⟩ :=
      resolve_described (.indent amount second) secondClean width amount
    refine ⟨before, after, firstWhole, secondWhole, ?_⟩
    have parted := Queue.resolve_break_join width column amount first second
    simp only [resolve, Queue.resolve_indent, Int.zero_add] at firstWhole secondWhole ⊢
    rw [firstWhole, secondWhole] at parted
    exact parted
  · intro first rest
    refine ⟨rest.foldl breakJoin first, ?_, pretty_stacked first rest⟩
    apply stack_gives (fun _ => rfl)
    rw [List.forall₂_map_left_iff]
    apply List.forall₂_same.mpr
    intro layout _ checked
    rfl

/-- The second text starts one column to the left of the margin, which is enough for its
space, but not for the longer end that the first one has behind its break. -/
theorem look_ahead_stops_at_break :
    lookAhead.Clean ∧
      ((indent (-1) (.concat lookAhead (.concat .lineBreak lookAhead))).resolve 3 0).all =
        ⟨[.text "a", .line (-1), .text "bc", .text "d", .line (-1),
          .text "a", .text " ", .text "b", .text "d"], none⟩ := by
  have clean : lookAhead.Clean := by decide
  have first : ((indent (-1) lookAhead).resolve 3 0).all =
      ⟨[.text "a", .line (-1), .text "bc", .text "d"], none⟩ := by decide +kernel
  have second : ((indent (-1) lookAhead).resolve 3 (-1)).all =
      ⟨[.text "a", .text " ", .text "b", .text "d"], none⟩ := by decide +kernel
  obtain ⟨apart, _⟩ := breaks_separate
  obtain ⟨before, after, firstAlone, secondAlone, whole⟩ :=
    apart lookAhead lookAhead clean clean (-1) 3 0
  rw [first] at firstAlone
  rw [second] at secondAlone
  cases firstAlone
  cases secondAlone
  exact ⟨clean, whole⟩

end Layout

end Typeset
