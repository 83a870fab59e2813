import Typeset.Proofs.CSource.Lexemes

/-!
Types, members and expressions can be told from their lexemes. A type ends where no star follows,
and an identifier in front of a parenthesis is a call. Names are never looked at, so they may look
like keywords.
-/

set_option autoImplicit false

namespace Typeset.CSource

open Text (Code Free free_cons)

/-- The lexeme is a word. -/
def IsWord (lexeme : Lexeme) : Prop := ∃ name, lexeme = .word name

theorem mark_is_no_word (c : Char) : ¬IsWord (.mark c) := by
  rintro ⟨name, same⟩
  cases same

namespace CType

/-- The lexemes of a type without its stars. -/
def base : CType → List Lexeme
  | .int => [.word "int"]
  | .char => [.word "char"]
  | .struct name => [.word "struct", .word name.text]
  | .enum name => [.word "enum", .word name.text]
  | .pointer target => target.base

def stars : CType → Nat
  | .pointer target => target.stars + 1
  | _ => 0

theorem lexemes_eq (type : CType) :
    type.lexemes = type.base ++ List.replicate type.stars (.mark '*') := by
  induction type with
  | pointer target ih =>
      rw [lexemes, ih, base, stars, List.replicate_succ', List.append_assoc]
  | _ => rfl

theorem eq_of_base
    {type other : CType}
    (bases : type.base = other.base)
    (depths : type.stars = other.stars) :
    type = other := by
  induction type generalizing other with
  | pointer target ih =>
      cases other with
      | pointer otherTarget =>
          have targets : target.base = otherTarget.base := bases
          have below : target.stars = otherTarget.stars := Nat.succ.inj depths
          rw [ih targets below]
      | _ => cases depths
  | int =>
      cases other with
      | int => rfl
      | pointer otherTarget => cases depths
      | _ => simp [base] at bases
  | char =>
      cases other with
      | char => rfl
      | pointer otherTarget => cases depths
      | _ => simp [base] at bases
  | struct name =>
      cases other with
      | struct otherName =>
          have text : name.text = otherName.text := by simpa [base] using bases
          rw [Name.eq_of_text text]
      | pointer otherTarget => cases depths
      | _ => simp [base] at bases
  | enum name =>
      cases other with
      | enum otherName =>
          have text : name.text = otherName.text := by simpa [base] using bases
          rw [Name.eq_of_text text]
      | pointer otherTarget => cases depths
      | _ => simp [base] at bases

/-- How many lexemes a type has, without its stars, if it begins with the lexeme. -/
def baseLength (first : Lexeme) : Nat :=
  if first = .word "struct" ∨ first = .word "enum" then 2 else 1

theorem base_begins (type : CType) :
    ∃ keyword rest, type.base = .word keyword :: rest ∧
      type.base.length = baseLength (.word keyword) := by
  induction type with
  | int => exact ⟨_, _, rfl, rfl⟩
  | char => exact ⟨_, _, rfl, rfl⟩
  | struct name => exact ⟨_, _, rfl, rfl⟩
  | enum name => exact ⟨_, _, rfl, rfl⟩
  | pointer target ih => exact ih

theorem stars_determined
    {count other : Nat}
    {before after : List Lexeme}
    (closed : Free (· = .mark '*') before)
    (otherClosed : Free (· = .mark '*') after)
    (same : List.replicate count (Lexeme.mark '*') ++ before =
      List.replicate other (.mark '*') ++ after) :
    count = other ∧ before = after := by
  induction count generalizing other with
  | zero =>
      cases other with
      | zero => exact ⟨rfl, same⟩
      | succ more =>
          rw [List.replicate_zero, List.nil_append] at same
          subst same
          exact absurd rfl (closed (.mark '*') rfl)
  | succ fewer ih =>
      cases other with
      | zero =>
          rw [List.replicate_zero, List.nil_append] at same
          subst same
          exact absurd rfl (otherClosed (.mark '*') rfl)
      | succ more =>
          obtain ⟨counts, behind⟩ := ih (List.cons.inj same).2
          exact ⟨congrArg Nat.succ counts, behind⟩

/-- A type begins with a word, and more stars may make it another type. -/
def code : Code CType Lexeme where
  tokens := lexemes
  valid _ := True
  starts := IsWord
  more lexeme := lexeme = .mark '*'
  begins := by
    intro type _
    obtain ⟨keyword, rest, form, -⟩ := type.base_begins
    refine ⟨.word keyword, rest ++ List.replicate type.stars (.mark '*'), ?_, keyword, rfl⟩
    rw [lexemes_eq, form]
    rfl
  fresh := by
    rintro _ ⟨name, rfl⟩ star
    cases star

theorem determined (type : CType) : code.Determines type := by
  intro other before after _ closed otherClosed same
  change lexemes _ ++ _ = lexemes _ ++ _ at same
  rw [lexemes_eq, lexemes_eq, List.append_assoc, List.append_assoc] at same
  obtain ⟨keyword, rest, form, length⟩ := type.base_begins
  obtain ⟨otherKeyword, others, otherForm, otherLength⟩ := other.base_begins
  have first : Lexeme.word keyword = .word otherKeyword := by
    rw [form, otherForm] at same
    exact (List.cons.inj same).1
  -- The first word says how much to cut off in front of the stars.
  have lengths : type.base.length = other.base.length := by rw [length, first, otherLength]
  obtain ⟨bases, marks⟩ := List.append_inj same lengths
  obtain ⟨depths, behind⟩ := stars_determined closed otherClosed marks
  exact ⟨eq_of_base bases depths, behind⟩

/-- No mark other than a star stands in a type. -/
theorem only_stars (type : CType) {c : Char} (mark : .mark c ∈ type.lexemes) : c = '*' := by
  induction type with
  | pointer target ih =>
      rcases List.mem_append.mp mark with inside | star
      · exact ih inside
      · simpa using star
  | _ => simp [lexemes] at mark

end CType

namespace Member

theorem lexemes_begin (member : Member) :
    ∃ first rest, member.lexemes = first :: rest ∧ IsWord first := by
  obtain ⟨first, rest, form, word⟩ := CType.code.begins member.type trivial
  refine ⟨first, rest ++ [.word member.name.text], ?_, word⟩
  change member.type.lexemes = _ at form
  rw [lexemes, form]
  rfl

/-- A parameter. -/
def code : Code Member Lexeme where
  tokens := lexemes
  valid _ := True
  starts := IsWord
  more _ := False
  begins member _ := member.lexemes_begin
  fresh _ _ := id

theorem determined (member : Member) : code.Determines member := by
  intro other before after _ _ _ same
  change lexemes _ ++ _ = lexemes _ ++ _ at same
  rw [lexemes, lexemes, List.append_assoc, List.append_assoc] at same
  have named (name : Name) (rest : List Lexeme) :
      Free CType.code.more ([.word name.text] ++ rest) :=
    free_cons (by rintro ⟨⟩) rest
  obtain ⟨types, behind⟩ := CType.determined member.type other.type _ _ trivial (named _ _)
    (named _ _) same
  obtain ⟨names, following⟩ := List.cons.inj behind
  obtain ⟨type, name⟩ := member
  obtain ⟨otherType, otherName⟩ := other
  have text : name.text = otherName.text := Lexeme.word.inj names
  cases types
  rw [Name.eq_of_text text]
  exact ⟨rfl, following⟩

/-- A member of a struct, with its semicolon. -/
def fieldCode : Code Member Lexeme where
  tokens := fieldLexemes
  valid _ := True
  starts := IsWord
  more _ := False
  begins := by
    intro member _
    obtain ⟨first, rest, form, word⟩ := member.lexemes_begin
    refine ⟨first, rest ++ [.mark ';'], ?_, word⟩
    rw [fieldLexemes, form]
    rfl
  fresh _ _ := id

theorem field_determined (member : Member) : fieldCode.Determines member := by
  intro other before after _ _ _ same
  change fieldLexemes _ ++ _ = fieldLexemes _ ++ _ at same
  rw [fieldLexemes, fieldLexemes, List.append_assoc, List.append_assoc] at same
  obtain ⟨members, behind⟩ := determined member other _ _ trivial (fun _ _ => id)
    (fun _ _ => id) same
  exact ⟨members, (List.cons.inj behind).2⟩

end Member

/-- A variant of an enum. -/
def variantCode : Code String Lexeme where
  tokens variant := [.word variant]
  valid _ := True
  starts := IsWord
  more _ := False
  begins variant _ := ⟨.word variant, [], rfl, variant, rfl⟩
  fresh _ _ := id

theorem variant_determined (variant : String) : variantCode.Determines variant := by
  intro other before after _ _ _ same
  obtain ⟨words, behind⟩ := List.cons.inj same
  exact ⟨Lexeme.word.inj words, behind⟩

theorem comma_free {c : Char} (other : c ≠ ',') (rest : List Lexeme) :
    Free (· = .mark ',') (.mark c :: rest) := by
  rintro _ ⟨⟩ same
  exact other (Lexeme.mark.inj same)

namespace Expr

theorem lexemes_begin (expr : Expr) :
    ∃ first rest, expr.lexemes = first :: rest ∧ ∀ c, first ≠ .mark c := by
  cases expr with
  | int value => exact ⟨_, _, rfl, nofun⟩
  | str value => exact ⟨_, _, rfl, nofun⟩
  | ident name => exact ⟨_, _, rfl, nofun⟩
  | call function arguments => exact ⟨_, _, rfl, nofun⟩

/-- An identifier with parentheses behind it is a call. -/
def code : Code Expr Lexeme where
  tokens := lexemes
  valid _ := True
  starts lexeme := ∀ c, lexeme ≠ .mark c
  more lexeme := lexeme = .mark '('
  begins expr _ := expr.lexemes_begin
  fresh := by
    rintro _ starts rfl
    exact starts '(' rfl

theorem ends {c : Char} (other : c ≠ '(') (rest : List Lexeme) : code.Ends (.mark c :: rest) := by
  have noExpr : ¬code.starts (.mark c) := fun starts => starts c rfl
  have closed : Lexeme.mark c ≠ .mark '(' := fun same => other (Lexeme.mark.inj same)
  exact Code.ends_cons noExpr closed rest

theorem comma_closed : ¬code.more (.mark ',') := nofun

theorem ident_ne_call
    (name function : Name)
    (arguments : List Expr)
    {before after : List Lexeme}
    (closed : Free code.more before) :
    lexemes (.ident name) ++ before ≠ lexemes (.call function arguments) ++ after := by
  intro same
  obtain ⟨-, rfl⟩ := List.cons.inj same
  exact closed (.mark '(') rfl rfl

mutual

theorem determined (expr : Expr) : code.Determines expr := by
  intro other before after _ closed otherClosed same
  change lexemes _ ++ _ = lexemes _ ++ _ at same
  cases expr with
  | int value =>
      cases other with
      | int otherValue =>
          obtain ⟨first, behind⟩ := List.cons.inj same
          exact ⟨by rw [Lexeme.number.inj first], behind⟩
      | _ => cases (List.cons.inj same).1
  | str value =>
      cases other with
      | str otherValue =>
          obtain ⟨first, behind⟩ := List.cons.inj same
          exact ⟨by rw [Lexeme.quoted.inj first], behind⟩
      | _ => cases (List.cons.inj same).1
  | ident name =>
      cases other with
      | ident otherName =>
          obtain ⟨first, behind⟩ := List.cons.inj same
          exact ⟨by rw [Name.eq_of_text (Lexeme.word.inj first)], behind⟩
      | call function arguments => exact absurd same (ident_ne_call _ _ _ closed)
      | _ => cases (List.cons.inj same).1
  | call function arguments =>
      cases other with
      | call otherFunction others =>
          simp only [lexemes, expr_lexemes_each, listed, List.cons_append, List.append_assoc,
            List.cons.injEq, true_and, Lexeme.word.injEq] at same
          obtain ⟨text, behind⟩ := same
          obtain ⟨list, following⟩ := code.separated_determined (arguments_determined arguments)
            (fun _ _ => trivial) (fun _ _ => trivial) comma_closed (ends (by decide) before)
            (ends (by decide) after) (comma_free (by decide) before)
            (comma_free (by decide) after) behind
          rw [Name.eq_of_text text, list]
          exact ⟨rfl, (List.cons.inj following).2⟩
      | ident name => exact absurd same.symm (ident_ne_call _ _ _ otherClosed)
      | _ => cases (List.cons.inj same).1

theorem arguments_determined (arguments : List Expr) :
    ∀ argument ∈ arguments, code.Determines argument := by
  cases arguments with
  | nil =>
      intro argument member
      cases member
  | cons first rest =>
      exact List.forall_mem_cons.mpr ⟨determined first, arguments_determined rest⟩

end

/-- An expression in front of a semicolon. -/
theorem closed_determined
    {expr other : Expr}
    {before after : List Lexeme}
    (same : expr.lexemes ++ .mark ';' :: before = other.lexemes ++ .mark ';' :: after) :
    expr = other ∧ before = after := by
  obtain ⟨exprs, behind⟩ := expr.determined other _ _ trivial (ends (by decide) before).closed
    (ends (by decide) after).closed same
  exact ⟨exprs, (List.cons.inj behind).2⟩

end Expr

end Typeset.CSource
