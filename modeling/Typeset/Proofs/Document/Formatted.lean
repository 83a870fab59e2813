import Typeset.Proofs.Document.Steady
import Typeset.Proofs.Resolution.Described
import Typeset.Proofs.Session.Outcome

/-!
Formatted documents. What a bundled model loads has a layout that is the same with the
check of choices on and off, so formatting it always succeeds, and with one and the same
rendering in every session: `check_never_shows`.
-/

set_option autoImplicit false

namespace Typeset

theorem Check.map_eq_valid
    {α β : Type}
    {f : α → β}
    {check : Check α}
    {wanted : β} :
    f <$> check = .valid wanted ↔ ∃ value, check = .valid value ∧ f value = wanted := by
  constructor
  · intro accepted
    cases check with
    | valid value =>
        cases accepted
        exact ⟨value, rfl, rfl⟩
    | invalid issues => cases accepted
  · rintro ⟨value, rfl, rfl⟩
    rfl

theorem Model.read_of_load
    {model : Model}
    {source : String}
    {document : Document}
    (loaded : model.load source = .ok document) :
    ∃ value, Json.read? Json.documentLimits source = some value ∧
      model.read value = .valid document := by
  rw [load] at loaded
  split at loaded
  · cases loaded
  · rename_i value parsed
    split at loaded
    · rename_i found accepted
      cases loaded
      exact ⟨value, parsed, accepted⟩
    · cases loaded

/-- A document of a bundled model is a program, an expression or a tree. -/
theorem Formatter.bundled_layout_steady
    {formatter : Formatter}
    (bundled : formatter ∈ Formatter.bundled)
    (step : Int)
    {source : String}
    {document : Document}
    (loaded : formatter.model.load source = .ok document) :
    Build.Steady Layout.Clean (document.layout step) := by
  obtain ⟨value, _, accepted⟩ := Model.read_of_load loaded
  simp only [Formatter.bundled, List.mem_cons, List.not_mem_nil, or_false] at bundled
  rcases bundled with rfl | rfl | rfl
  · obtain ⟨program, _, rfl⟩ := Check.map_eq_valid.mp accepted
    exact program.layout_steady
  · obtain ⟨call, _, rfl⟩ := Check.map_eq_valid.mp accepted
    exact call.toExpr.layout_steady step
  · obtain ⟨tree, _, rfl⟩ := Check.map_eq_valid.mp accepted
    exact tree.layout_steady

namespace Layout

open Build

/-- Only a choice of one's own can fail the check. All else that is made of layouts without
strays, of which the choices may have any branches, is the same with the check on and off.
So every session formats a document that a bundled model accepts, and in the same way. -/
theorem check_never_shows :
    (∀ layout : Layout, layout.Clean →
      Steady Clean (group layout) ∧ ∀ separator, Steady Clean (groupWith separator layout)) ∧
    (∀ left right : Layout, left.Clean → right.Clean → Steady Clean (softJoin left right)) ∧
    (∀ items : List Item, (∀ item ∈ items, item.Steady) →
      Steady Clean (spread items) ∧ Steady Clean (stack items) ∧
        (∀ between, Steady Clean (separated between items)) ∧ Steady Clean (fill items)) ∧
    (∀ body : Item, body.Steady →
      (∀ amount left right, Steady Clean (bracket amount left body right)) ∧
        Steady Clean (parenthesized body)) ∧
    ∀ formatter ∈ Formatter.bundled, ∀ step source document,
      formatter.model.load source = .ok document →
      ∃ layout, layout.Clean ∧ (document.layout step).Gives layout ∧
        ∀ width column, ∃ text, layout.pretty width column = .ok text ∧
          ((formatter.prepare step).format source width column).Yields
            ⟨text, formatter.name, width, column⟩ := by
  refine ⟨?_, ?_, ?_, ?_, ?_⟩
  · intro layout clean
    exact ⟨group_steady clean, fun separator => group_with_steady separator clean⟩
  · intro left right leftClean rightClean
    exact soft_join_steady leftClean rightClean
  · intro items steady
    exact ⟨spread_steady steady, stack_steady steady,
      fun between => separated_steady between steady, fill_steady steady⟩
  · intro body steady
    exact ⟨fun amount left right => bracket_steady amount left right body steady,
      parenthesized_steady body steady⟩
  · intro formatter bundled step source document loaded
    obtain ⟨layout, clean, given⟩ := Formatter.bundled_layout_steady bundled step loaded
    refine ⟨layout, clean, given, ?_⟩
    intro width column
    obtain ⟨text, written⟩ := layout.pretty_of_clean clean width column
    exact ⟨text, written, (formatter.prepare step).format_yields loaded given written⟩

/-- A choice whose branches hold different texts. -/
def clashing : Layout := .choice (.text "a") (.text "b")

theorem nested_call_loads :
    ∃ document, Formatter.sExpr.model.load "[\"add\",1,[\"mul\",2]]" = .ok document := by
  have parsed : Json.read? Json.documentLimits "[\"add\",1,[\"mul\",2]]" =
      some (.arr [.str "add", .int 1, .arr [.str "mul", .int 2]]) := by decide +kernel
  have number (value : Int) : Call.readArgument (.int value) = .valid (.atom value) := by
    rw [Call.readArgument]
    rfl
  have inner : ∃ call, Call.read (.arr [.str "mul", .int 2]) = .valid call := by
    rw [Call.read]
    simp only [Call.parts, Check.andThen, Check.list, Check.eachFrom, number]
    exact ⟨_, rfl⟩
  obtain ⟨product, innerRead⟩ := inner
  have argument : Call.readArgument (.arr [.str "mul", .int 2]) = .valid product.toExpr := by
    rw [Call.readArgument]
    simp only [innerRead]
    rfl
  have accepted :
      ∃ call, Call.read (.arr [.str "add", .int 1, .arr [.str "mul", .int 2]]) = .valid call := by
    rw [Call.read]
    simp only [Call.parts, Check.andThen, Check.list, Check.eachFrom, number, argument]
    exact ⟨_, rfl⟩
  obtain ⟨sum, sumRead⟩ := accepted
  refine ⟨.ofCall sum, ?_⟩
  rw [Formatter.sExpr, Model.call, Model.load, parsed]
  dsimp only
  rw [sumRead]
  rfl

/-- A clash that was there before is not looked for in a filled text, and a document has
none to be found. -/
theorem clash_and_call_never_show :
    (∀ item ∈ [Item.node clashing, .text "c"], item.Steady) ∧
      Steady Clean (fill [.node clashing, .text "c"]) ∧
      ∃ text, ((Formatter.sExpr.prepare (-1)).format "[\"add\",1,[\"mul\",2]]" 5 0).Yields
        ⟨text, "sexpr", 5, 0⟩ := by
  obtain ⟨_, _, listed, _, formatted⟩ := check_never_shows
  have steady : ∀ item ∈ [Item.node clashing, .text "c"], item.Steady := by
    simp [Item.Steady, clashing, Clean]
  have bundled : Formatter.sExpr ∈ Formatter.bundled := by simp [Formatter.bundled]
  obtain ⟨document, loaded⟩ := nested_call_loads
  obtain ⟨layout, _, _, everyWidth⟩ := formatted _ bundled (-1) _ _ loaded
  obtain ⟨text, _, yields⟩ := everyWidth 5 0
  exact ⟨steady, (listed _ steady).2.2.2, text, yields⟩

end Layout

end Typeset
