import Typeset.CSource.Schema
import Typeset.Proofs.Schema.Reloads

/-!
Loading C documents. Every type, expression, member, declaration, statement and program comes
back from its own data, in which every field is written out and the kind comes first
(`Program.reloads` and the lemmas before it).
-/

set_option autoImplicit false

namespace Typeset.CSource

/-! What the data of each form must be. Every field is there, every record is of the kind that it
names, and no name, function or target is empty. -/

inductive CType.Declared : Json → Prop where
  | int : Declared (.obj [("kind", .str "int")])
  | char : Declared (.obj [("kind", .str "char")])
  | struct {name : String} :
      name ≠ "" → Declared (.obj [("kind", .str "struct"), ("name", .str name)])
  | enum {name : String} :
      name ≠ "" → Declared (.obj [("kind", .str "enum"), ("name", .str name)])
  | pointer {target : Json} :
      Declared target → Declared (.obj [("kind", .str "pointer"), ("target", target)])

inductive Expr.Declared : Json → Prop where
  | int (value : Int) : Declared (.obj [("kind", .str "int"), ("value", .int value)])
  | str (value : String) : Declared (.obj [("kind", .str "str"), ("value", .str value)])
  | ident {name : String} :
      name ≠ "" → Declared (.obj [("kind", .str "ident"), ("name", .str name)])
  | call {function : String} {arguments : List Json} :
      function ≠ "" → (∀ argument ∈ arguments, Declared argument) →
      Declared
        (.obj [("kind", .str "call"), ("function", .str function), ("args", .arr arguments)])

inductive Member.Declared : Json → Prop where
  | member {type : Json} {name : String} :
      CType.Declared type → name ≠ "" → Declared (.obj [("type", type), ("name", .str name)])

mutual

inductive Declaration.Declared : Json → Prop where
  | struct {name : String} {members : List Json} :
      name ≠ "" → (∀ member ∈ members, Member.Declared member) →
      Declaration.Declared
        (.obj [("kind", .str "struct"), ("name", .str name), ("members", .arr members)])
  | enum {name : String} (variants : List String) :
      name ≠ "" →
      Declaration.Declared
        (.obj [("kind", .str "enum"), ("name", .str name), ("variants", .arr (variants.map .str))])
  | var {type : Json} {name : String} :
      CType.Declared type → name ≠ "" →
      Declaration.Declared (.obj [("kind", .str "var"), ("type", type), ("name", .str name)])
  | function {name : String} {returns : Json} {params body : List Json} :
      name ≠ "" → CType.Declared returns → (∀ param ∈ params, Member.Declared param) →
      (∀ statement ∈ body, Statement.Declared statement) →
      Declaration.Declared
        (.obj [("kind", .str "function"), ("name", .str name), ("returns", returns),
          ("params", .arr params), ("body", .arr body)])

inductive Statement.Declared : Json → Prop where
  | decl {declaration : Json} :
      Declaration.Declared declaration →
      Statement.Declared (.obj [("kind", .str "decl"), ("decl", declaration)])
  | assign {target : String} {value : Json} :
      target ≠ "" → Expr.Declared value →
      Statement.Declared (.obj [("kind", .str "assign"), ("target", .str target), ("value", value)])
  | expr {expr : Json} :
      Expr.Declared expr → Statement.Declared (.obj [("kind", .str "expr"), ("expr", expr)])
  | returns {value : Json} :
      Expr.Declared value → Statement.Declared (.obj [("kind", .str "return"), ("value", value)])

end

inductive Program.Declared : Json → Prop where
  | program {declarations : List Json} :
      (∀ declaration ∈ declarations, Declaration.Declared declaration) →
      Declared (.obj [("declarations", .arr declarations)])

theorem tidy_of_kind
    {tag : String}
    {fields : List (String × Json)}
    (different : ("kind" :: fields.map Prod.fst).Nodup)
    (inside : Json.TidyFields fields) :
    (ofKind tag fields).Tidy :=
  ⟨different, trivial, inside⟩

/-- A record of a union is read with the fields of its kind. -/
theorem read_union_of_kind
    {κ α : Type}
    {tag : κ → String}
    {kinds : List κ}
    {kind : κ}
    (listed : kind ∈ kinds)
    (different : (kinds.map tag).Nodup)
    {read : κ → List (String × Json) → Check α}
    {fields : List (String × Json)}
    {value : α}
    (accepted : read kind (("kind", .str (tag kind)) :: fields) = .valid value) :
    (readUnion tag kinds (ofKind (tag kind) fields) fun kind fields _ => read kind fields) =
      .valid value := by
  have chosen : Check.chooseKind tag kinds (("kind", .str (tag kind)) :: fields) = .valid kind :=
    Check.choose_kind_valid listed different rfl
  rw [ofKind, readUnion, chosen, Check.andThen, accepted]
  rfl

namespace CType

theorem read_of_kind
    (kind : TypeKind)
    {fields : List (String × Json)}
    {type : CType}
    (accepted : readFields kind (("kind", .str kind.tag) :: fields) = .valid type) :
    read (ofKind kind.tag fields) = .valid type := by
  rw [read]
  exact read_union_of_kind (by cases kind <;> decide) (by decide) accepted

theorem reloads (type : CType) : Json.Reloads Declared read type.toJson type := by
  induction type with
  | int => exact ⟨.int, tidy_of_kind (by simp) trivial, read_of_kind .int (by rw [readFields])⟩
  | char => exact ⟨.char, tidy_of_kind (by simp) trivial, read_of_kind .char (by rw [readFields])⟩
  | struct name =>
      refine ⟨.struct name.nonempty, tidy_of_kind (by simp) ⟨trivial, trivial⟩,
        read_of_kind .struct ?_⟩
      rw [readFields, Check.name_field_valid rfl]
      rfl
  | enum name =>
      refine ⟨.enum name.nonempty, tidy_of_kind (by simp) ⟨trivial, trivial⟩,
        read_of_kind .enum ?_⟩
      rw [readFields, Check.name_field_valid rfl]
      rfl
  | pointer target ih =>
      refine ⟨.pointer ih.declared, tidy_of_kind (by simp) ⟨ih.tidy, trivial⟩,
        read_of_kind .pointer ?_⟩
      rw [readFields, Check.field_valid rfl ih.readBack]
      rfl

end CType

namespace Expr

theorem to_json_list_eq (exprs : List Expr) : toJsonList exprs = exprs.map toJson := by
  induction exprs with
  | nil => rfl
  | cons expr rest ih => rw [toJsonList, ih, List.map_cons]

theorem read_of_kind
    (kind : ExprKind)
    {fields : List (String × Json)}
    {expr : Expr}
    (accepted : readFields kind (("kind", .str kind.tag) :: fields) = .valid expr) :
    read (ofKind kind.tag fields) = .valid expr := by
  rw [read]
  exact read_union_of_kind (by cases kind <;> decide) (by decide) accepted

mutual

theorem reloads : (expr : Expr) → Json.Reloads Declared read expr.toJson expr
  | .int value => by
      refine ⟨.int value, tidy_of_kind (by simp) ⟨trivial, trivial⟩, read_of_kind .int ?_⟩
      rw [readFields, Check.field_valid rfl (Check.whole.eq_1 value)]
      rfl
  | .str value => by
      refine ⟨.str value, tidy_of_kind (by simp) ⟨trivial, trivial⟩, read_of_kind .str ?_⟩
      rw [readFields, Check.field_valid rfl (Check.text.eq_1 value)]
      rfl
  | .ident name => by
      refine ⟨.ident name.nonempty, tidy_of_kind (by simp) ⟨trivial, trivial⟩,
        read_of_kind .ident ?_⟩
      rw [readFields, Check.name_field_valid rfl]
      rfl
  | .call function arguments => by
      have each := all_reload arguments
      rw [toJson, to_json_list_eq]
      refine ⟨.call function.nonempty (Json.Reloads.all_declared each),
        tidy_of_kind (by simp) ⟨trivial, Json.Reloads.all_tidy each, trivial⟩,
        read_of_kind .call ?_⟩
      rw [readFields, Check.name_field_valid rfl,
        Check.list_field_valid rfl (Json.Reloads.all_read_back each)]
      rfl

theorem all_reload :
    (exprs : List Expr) → ∀ expr ∈ exprs, Json.Reloads Declared read expr.toJson expr
  | first :: rest, expr, member =>
      (List.mem_cons.mp member).elim (fun same => same ▸ reloads first) (all_reload rest expr)

end

end Expr

theorem Member.reloads (member : Member) :
    Json.Reloads Member.Declared Member.read member.toJson member := by
  have type := member.type.reloads
  refine ⟨.member type.declared member.name.nonempty, ⟨by simp, type.tidy, trivial, trivial⟩, ?_⟩
  rw [Member.read, Member.toJson, Check.record, Check.field_valid rfl type.readBack,
    Check.name_field_valid rfl]
  rfl

theorem Declaration.read_of_kind
    (kind : DeclarationKind)
    {fields : List (String × Json)}
    {declaration : Declaration}
    (accepted :
      Declaration.readFields kind (("kind", .str kind.tag) :: fields) = .valid declaration) :
    Declaration.read (ofKind kind.tag fields) = .valid declaration := by
  rw [Declaration.read]
  exact read_union_of_kind (by cases kind <;> decide) (by decide) accepted

theorem Statement.to_json_list_eq (statements : List Statement) :
    Statement.toJsonList statements = statements.map Statement.toJson := by
  induction statements with
  | nil => rfl
  | cons statement rest ih => rw [Statement.toJsonList, ih, List.map_cons]

theorem Statement.read_of_kind
    (kind : StatementKind)
    {fields : List (String × Json)}
    {statement : Statement}
    (accepted :
      Statement.readFields kind (("kind", .str kind.tag) :: fields) = .valid statement) :
    Statement.read (ofKind kind.tag fields) = .valid statement := by
  rw [Statement.read]
  exact read_union_of_kind (by cases kind <;> decide) (by decide) accepted

theorem texts_tidy (texts : List String) : Json.TidyItems (texts.map .str) := by
  simp [Json.tidy_items_iff, Json.Tidy]

theorem texts_read_back (texts : List String) :
    List.Forall₂ (fun item text => Check.text item = .valid text) (texts.map .str) texts := by
  rw [List.forall₂_map_left_iff, List.forall₂_same]
  exact fun _ _ => rfl

mutual

theorem Declaration.reloads :
    (declaration : Declaration) →
    Json.Reloads Declaration.Declared Declaration.read declaration.toJson declaration
  | .struct name members => by
      have each : ∀ member ∈ members, _ := fun member _ => member.reloads
      refine ⟨.struct name.nonempty (Json.Reloads.all_declared each),
        tidy_of_kind (by simp) ⟨trivial, Json.Reloads.all_tidy each, trivial⟩,
        Declaration.read_of_kind .struct ?_⟩
      rw [Declaration.readFields, Check.name_field_valid rfl,
        Check.list_field_valid rfl (Json.Reloads.all_read_back each)]
      rfl
  | .enum name variants => by
      refine ⟨.enum variants name.nonempty,
        tidy_of_kind (by simp) ⟨trivial, texts_tidy variants, trivial⟩,
        Declaration.read_of_kind .enum ?_⟩
      rw [Declaration.readFields, Check.name_field_valid rfl,
        Check.list_field_valid rfl (texts_read_back variants)]
      rfl
  | .var type name => by
      have whole := type.reloads
      refine ⟨.var whole.declared name.nonempty,
        tidy_of_kind (by simp) ⟨whole.tidy, trivial, trivial⟩, Declaration.read_of_kind .var ?_⟩
      rw [Declaration.readFields, Check.field_valid rfl whole.readBack, Check.name_field_valid rfl]
      rfl
  | .function name returns params body => by
      have result := returns.reloads
      have each : ∀ param ∈ params, _ := fun param _ => param.reloads
      have inside := Statement.all_reload body
      rw [Declaration.toJson, Statement.to_json_list_eq]
      refine ⟨.function name.nonempty result.declared (Json.Reloads.all_declared each)
          (Json.Reloads.all_declared inside),
        tidy_of_kind (by simp) ⟨trivial, result.tidy, Json.Reloads.all_tidy each,
          Json.Reloads.all_tidy inside, trivial⟩,
        Declaration.read_of_kind .function ?_⟩
      rw [Declaration.readFields, Check.name_field_valid rfl, Check.field_valid rfl result.readBack,
        Check.list_field_valid rfl (Json.Reloads.all_read_back each),
        Check.list_field_valid rfl (Json.Reloads.all_read_back inside)]
      rfl

theorem Statement.reloads :
    (statement : Statement) →
    Json.Reloads Statement.Declared Statement.read statement.toJson statement
  | .decl declaration => by
      have whole := declaration.reloads
      refine ⟨.decl whole.declared, tidy_of_kind (by simp) ⟨whole.tidy, trivial⟩,
        Statement.read_of_kind .decl ?_⟩
      rw [Statement.readFields, Check.field_valid rfl whole.readBack]
      rfl
  | .assign target value => by
      have whole := value.reloads
      refine ⟨.assign target.nonempty whole.declared,
        tidy_of_kind (by simp) ⟨trivial, whole.tidy, trivial⟩, Statement.read_of_kind .assign ?_⟩
      rw [Statement.readFields, Check.name_field_valid rfl, Check.field_valid rfl whole.readBack]
      rfl
  | .expr expr => by
      have whole := expr.reloads
      refine ⟨.expr whole.declared, tidy_of_kind (by simp) ⟨whole.tidy, trivial⟩,
        Statement.read_of_kind .expr ?_⟩
      rw [Statement.readFields, Check.field_valid rfl whole.readBack]
      rfl
  | .returns value => by
      have whole := value.reloads
      refine ⟨.returns whole.declared, tidy_of_kind (by simp) ⟨whole.tidy, trivial⟩,
        Statement.read_of_kind .returns ?_⟩
      rw [Statement.readFields, Check.field_valid rfl whole.readBack]
      rfl

theorem Statement.all_reload :
    (statements : List Statement) → ∀ statement ∈ statements,
    Json.Reloads Statement.Declared Statement.read statement.toJson statement
  | first :: rest, statement, member =>
      (List.mem_cons.mp member).elim (fun same => same ▸ first.reloads)
        (Statement.all_reload rest statement)

end

theorem Program.reloads (program : Program) :
    Json.Reloads Program.Declared Program.read program.toJson program := by
  have each : ∀ declaration ∈ program.declarations, _ :=
    fun declaration _ => declaration.reloads
  refine ⟨.program (Json.Reloads.all_declared each),
    ⟨by simp, Json.Reloads.all_tidy each, trivial⟩, ?_⟩
  rw [Program.read, Program.toJson, Check.record,
    Check.list_field_valid rfl (Json.Reloads.all_read_back each)]
  rfl

end Typeset.CSource
