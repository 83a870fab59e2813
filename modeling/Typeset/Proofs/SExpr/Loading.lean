import Typeset.Proofs.Schema.Reloads
import Typeset.SExpr.Schema

/-!
Loading expressions. Every call of a document may be written as a list or as an object, each on
its own, and whichever is chosen, the same expression is read (`Call.read_of_spells`). From its
own data, in which every field is written out, an expression comes back as well (`Call.reloads`).
-/

set_option autoImplicit false

namespace Typeset

namespace SExpr

mutual

/-- A value spells an expression. A call is a list that starts with its name, or an object with a
name and arguments, which may be left out where there are none. An object may have other fields,
too. -/
inductive Spells : Json → SExpr → Prop where
  | atom (value : Int) : Spells (.int value) (.atom value)
  | listed {operator : Name} {items : List Json} {arguments : List SExpr} :
      SpellsAll items arguments →
      Spells (.arr (.str operator.text :: items)) (.call operator arguments)
  | named {fields : List (String × Json)} {operator : Name} {items : List Json}
      {arguments : List SExpr} :
      Json.field? fields "name" = some (.str operator.text) →
      Json.field? fields "args" = some (.arr items) → SpellsAll items arguments →
      Spells (.obj fields) (.call operator arguments)
  | bare {fields : List (String × Json)} {operator : Name} :
      Json.field? fields "name" = some (.str operator.text) →
      Json.field? fields "args" = none →
      Spells (.obj fields) (.call operator [])

/-- The items of a list spell the arguments in order. -/
inductive SpellsAll : List Json → List SExpr → Prop where
  | nil : SpellsAll [] []
  | cons {item : Json} {argument : SExpr} {items : List Json} {arguments : List SExpr} :
      Spells item argument → SpellsAll items arguments →
      SpellsAll (item :: items) (argument :: arguments)

end

end SExpr

/-! What the data of an expression must be: every field is there, and no name is empty. -/

mutual

inductive SExpr.Declared : Json → Prop where
  | atom (value : Int) : SExpr.Declared (.int value)
  | call {data : Json} : Call.Declared data → SExpr.Declared data

inductive Call.Declared : Json → Prop where
  | call {name : String} {arguments : List Json} :
      name ≠ "" → (∀ argument ∈ arguments, SExpr.Declared argument) →
      Call.Declared (.obj [("name", .str name), ("args", .arr arguments)])

end

theorem SExpr.to_json_list_eq (exprs : List SExpr) : toJsonList exprs = exprs.map toJson := by
  induction exprs with
  | nil => rfl
  | cons expr rest ih => rw [toJsonList, ih, List.map_cons]

namespace Call

theorem read_listed
    (operator : Name)
    {items : List Json}
    {arguments : List SExpr}
    (accepted : List.Forall₂ (fun item argument => readArgument item = .valid argument) items
      arguments) :
    read (.arr (.str operator.text :: items)) = .valid ⟨operator, arguments⟩ := by
  rw [read]
  simp only [parts, Check.andThen, Parts.readName, Check.name, Name.ofString_text,
    Check.list_valid accepted]
  rfl

theorem read_named
    {fields : List (String × Json)}
    {operator : Name}
    {items : List Json}
    {arguments : List SExpr}
    (name : Json.field? fields "name" = some (.str operator.text))
    (args : Json.field? fields "args" = some (.arr items))
    (accepted : List.Forall₂ (fun item argument => readArgument item = .valid argument) items
      arguments) :
    read (.obj fields) = .valid ⟨operator, arguments⟩ := by
  rw [read]
  simp only [parts, Check.andThen, Parts.readName, Check.name, name, args, Name.ofString_text,
    Check.list_valid accepted]
  rfl

theorem read_bare
    {fields : List (String × Json)}
    {operator : Name}
    (name : Json.field? fields "name" = some (.str operator.text))
    (args : Json.field? fields "args" = none) :
    read (.obj fields) = .valid ⟨operator, []⟩ := by
  rw [read]
  simp only [parts, Check.andThen, Parts.readName, Check.name, name, args, Name.ofString_text]
  rfl

/-- What is no whole number is read as a call. -/
theorem argument_of_call
    {value : Json}
    {call : Call}
    (form : (∃ items, value = .arr items) ∨ ∃ fields, value = .obj fields)
    (accepted : read value = .valid call) :
    readArgument value = .valid call.toExpr := by
  rw [readArgument, accepted]
  rcases form with ⟨items, rfl⟩ | ⟨fields, rfl⟩ <;> rfl

mutual

theorem read_of_spells :
    (operator : Name) → (arguments : List SExpr) → ∀ value,
    SExpr.Spells value (.call operator arguments) →
    read value = .valid ⟨operator, arguments⟩ ∧
      ((∃ items, value = .arr items) ∨ ∃ fields, value = .obj fields)
  | operator, arguments, _, .listed spelled =>
      ⟨read_listed operator (arguments_of_spells arguments _ spelled), .inl ⟨_, rfl⟩⟩
  | operator, arguments, _, .named name args spelled =>
      ⟨read_named name args (arguments_of_spells arguments _ spelled), .inr ⟨_, rfl⟩⟩
  | operator, _, _, .bare name args => ⟨read_bare name args, .inr ⟨_, rfl⟩⟩

theorem argument_of_spells :
    (argument : SExpr) → ∀ item, SExpr.Spells item argument →
    readArgument item = .valid argument
  | .atom value, _, .atom _ => by
      rw [readArgument]
      rfl
  | .call operator arguments, item, spelled =>
      have ⟨accepted, form⟩ := read_of_spells operator arguments item spelled
      argument_of_call form accepted

theorem arguments_of_spells :
    (arguments : List SExpr) → ∀ items, SExpr.SpellsAll items arguments →
    List.Forall₂ (fun item argument => readArgument item = .valid argument) items arguments
  | [], _, .nil => .nil
  | argument :: rest, _, .cons spelled others =>
      .cons (argument_of_spells argument _ spelled) (arguments_of_spells rest _ others)

end

/-- A call reloads from its data if its arguments do. -/
theorem reloads_of_arguments
    (operator : Name)
    {arguments : List SExpr}
    (each : ∀ argument ∈ arguments,
      Json.Reloads SExpr.Declared readArgument argument.toJson argument) :
    Json.Reloads Declared read (SExpr.call operator arguments).toJson ⟨operator, arguments⟩ := by
  rw [SExpr.toJson, SExpr.to_json_list_eq]
  refine ⟨.call operator.nonempty (Json.Reloads.all_declared each), ⟨?_, ?_⟩, ?_⟩
  · simp
  · exact ⟨trivial, Json.Reloads.all_tidy each, trivial⟩
  · exact read_named rfl rfl (Json.Reloads.all_read_back each)

mutual

theorem argument_reloads :
    (argument : SExpr) → Json.Reloads SExpr.Declared readArgument argument.toJson argument
  | .atom value => ⟨.atom value, trivial, argument_of_spells _ _ (.atom value)⟩
  | .call operator arguments =>
      have whole := reloads_of_arguments operator (arguments_reload arguments)
      ⟨.call whole.declared, whole.tidy, argument_of_call (.inr ⟨_, rfl⟩) whole.readBack⟩

theorem arguments_reload :
    (arguments : List SExpr) → ∀ argument ∈ arguments,
    Json.Reloads SExpr.Declared readArgument argument.toJson argument
  | first :: rest, argument, member =>
      (List.mem_cons.mp member).elim (fun same => same ▸ argument_reloads first)
        (arguments_reload rest argument)

end

theorem reloads (call : Call) : Json.Reloads Declared read call.toJson call :=
  reloads_of_arguments call.operator (arguments_reload call.arguments)

end Call

end Typeset
