import Typeset.Proofs.CSource.Loading
import Typeset.Proofs.Document.Formatted
import Typeset.Proofs.SExpr.Loading
import Typeset.Proofs.Tree.Loading

/-!
Loading documents. Whatever a model loads comes back from its data and from every text that spells
them (`load_undoes_dumping`), and however a call or a leaf is written, the same is loaded
(`spellings_load_alike`).
-/

set_option autoImplicit false

namespace Typeset.Model

/-- A model loads values of one type. Their data are as declared, and from them, also when they
are printed, each value comes back. -/
structure UndoesDumping
    {α : Type}
    (model : Model)
    (document : α → Document)
    (read : Json → Check α)
    (declared : Json → Prop) :
    Prop where
  loads : ∀ text loaded, model.load text = .ok loaded →
    ∃ data value, Json.read? Json.documentLimits text = some data ∧ read data = .valid value ∧
      loaded = document value
  declared : ∀ value, declared (document value).data
  readBack : ∀ value, read (document value).data = .valid value
  loadedBack : ∀ value text, Json.Spelled Json.documentLimits (document value).data text →
    model.load text = .ok (document value)
  printedBack : ∀ value, (document value).data.nesting ≤ 200 →
    (document value).data.longestWhole ≤ 4300 →
    model.load (document value).data.text = .ok (document value)

theorem load_of_spelled
    {model : Model}
    {data : Json}
    {loaded : Document}
    (accepted : model.read data = .valid loaded)
    {text : String}
    (spelled : Json.Spelled Json.documentLimits data text) :
    model.load text = .ok loaded := by
  rw [load, Json.read_of_spelled spelled]
  dsimp only
  rw [accepted]

/-- Loading undoes dumping if each value reloads from its data. -/
theorem undoes_dumping_of_reloads
    {α : Type}
    {model : Model}
    {document : α → Document}
    {read : Json → Check α}
    {declared : Json → Prop}
    (reads : ∀ data, model.read data = document <$> read data)
    (reloads : ∀ value, Json.Reloads declared read (document value).data value) :
    UndoesDumping model document read declared := by
  have accepted (value : α) : model.read (document value).data = .valid (document value) := by
    rw [reads, (reloads value).readBack, Check.map_valid]
  refine ⟨?loads, fun value => (reloads value).declared, fun value => (reloads value).readBack,
    fun value text spelled => load_of_spelled (accepted value) spelled, ?printed⟩
  case loads =>
    intro text loaded taken
    obtain ⟨data, parsed, valid⟩ := read_of_load taken
    rw [reads] at valid
    obtain ⟨value, checked, rfl⟩ := Check.map_eq_valid.mp valid
    exact ⟨data, value, parsed, checked, rfl⟩
  case printed =>
    intro value shallow short
    exact load_of_spelled (accepted value) (Json.text_spelled (reloads value).tidy shallow short)

/-- Every program, call and tree that can be loaded is as declared and comes back from its data. -/
theorem load_undoes_dumping :
    UndoesDumping program Document.ofProgram CSource.Program.read CSource.Program.Declared ∧
    UndoesDumping call Document.ofCall Call.read Call.Declared ∧
    UndoesDumping tree Document.ofTree Tree.read Tree.Declared :=
  ⟨undoes_dumping_of_reloads (fun _ => rfl) CSource.Program.reloads,
    undoes_dumping_of_reloads (fun _ => rfl) Call.reloads,
    undoes_dumping_of_reloads (fun _ => rfl) Tree.reloads⟩

/-- A program with a pointer below a parameter, and with the kind `int` of a type and of an
expression. -/
def small : CSource.Program :=
  ⟨[.function ⟨"copy", by decide⟩ .int [⟨.pointer .char, ⟨"from", by decide⟩⟩]
    [.returns (.int (-12))]]⟩

theorem small_program_comes_back :
    small.toJson.nesting ≤ 200 ∧ small.toJson.longestWhole ≤ 4300 ∧
      program.load small.toJson.text = .ok (.ofProgram small) := by
  have shallow : small.toJson.nesting ≤ 200 := by decide +kernel
  have short : small.toJson.longestWhole ≤ 4300 := by decide +kernel
  exact ⟨shallow, short, load_undoes_dumping.1.printedBack small shallow short⟩

/-- Each call and each leaf of a document may be written in any of its forms. -/
theorem spellings_load_alike :
    (∀ (value : Json) (expr : Call), SExpr.Spells value expr.toExpr →
      Call.read value = .valid expr ∧
        ∀ text, Json.Spelled Json.documentLimits value text → call.load text = .ok (.ofCall expr)) ∧
    ∀ (value : Json) (node : Tree), Tree.Spells value node →
      Tree.read value = .valid node ∧
        ∀ text, Json.Spelled Json.documentLimits value text →
          tree.load text = .ok (.ofTree node) := by
  constructor
  · intro value expr spells
    have ⟨accepted, _⟩ := Call.read_of_spells expr.operator expr.arguments value spells
    have taken : call.read value = .valid (.ofCall expr) :=
      Check.map_eq_valid.mpr ⟨expr, accepted, rfl⟩
    exact ⟨accepted, fun text spelled => load_of_spelled taken spelled⟩
  · intro value node spells
    have accepted := Tree.read_of_spells node value spells
    have taken : tree.read value = .valid (.ofTree node) :=
      Check.map_eq_valid.mpr ⟨node, accepted, rfl⟩
    exact ⟨accepted, fun text spelled => load_of_spelled taken spelled⟩

/-- A call in a call, the outer one written as an object with a field that is not known. -/
def mixedCall : Json :=
  .obj
    [("x", .bool true), ("name", .str "add"),
      ("args", .arr [.arr [.str "mul", .int 1], .obj [("name", .str "z")], .int 2])]

/-- A node with its three kinds of leaves. -/
def mixedTree : Json :=
  .obj
    [("label", .str "a"),
      ("children",
        .arr [.str "b", .obj [("label", .str "c")],
          .obj [("children", .arr []), ("label", .str "d")]])]

theorem mixed_spellings_load :
    call.load mixedCall.text =
        .ok (.ofCall ⟨⟨"add", by decide⟩,
          [.call ⟨"mul", by decide⟩ [.atom 1], .call ⟨"z", by decide⟩ [], .atom 2]⟩) ∧
      tree.load mixedTree.text =
        .ok (.ofTree (.node ⟨"a", by decide⟩
          [.leaf ⟨"b", by decide⟩, .leaf ⟨"c", by decide⟩, .leaf ⟨"d", by decide⟩])) := by
  have callSpelled : Json.Spelled Json.documentLimits mixedCall mixedCall.text :=
    Json.text_spelled (by simp [mixedCall, Json.Tidy, Json.TidyItems, Json.TidyFields])
      (by decide +kernel) (by decide +kernel)
  have treeSpelled : Json.Spelled Json.documentLimits mixedTree mixedTree.text :=
    Json.text_spelled (by simp [mixedTree, Json.Tidy, Json.TidyItems, Json.TidyFields])
      (by decide +kernel) (by decide +kernel)
  constructor
  · refine (spellings_load_alike.1 mixedCall _ ?_).2 _ callSpelled
    have product : SExpr.Spells (.arr [.str "mul", .int 1]) (.call ⟨"mul", by decide⟩ [.atom 1]) :=
      @SExpr.Spells.listed ⟨"mul", by decide⟩ _ _ (.cons (.atom 1) .nil)
    exact .named rfl rfl (.cons product (.cons (.bare rfl rfl) (.cons (.atom 2) .nil)))
  · refine (spellings_load_alike.2 mixedTree _ ?_).2 _ treeSpelled
    exact .node rfl rfl
      (.cons (.bare ⟨"b", by decide⟩) (.cons (.leaf rfl rfl) (.cons (.node rfl rfl .nil) .nil)))

end Typeset.Model
