import Mathlib.Data.List.Basic
import Typeset.Proofs.Layout.Steady

/-!
Codes that can be taken apart. An item is written as some tokens, and items are written one
behind the other. Some tokens may begin an item, and some may make the one before them go on. If
neither can be mistaken for what ends a list, then a list can be told from its tokens:
`Code.items_determined`, and with a mark between the items `Code.separated_determined`.
-/

set_option autoImplicit false

namespace Typeset.Text

variable {α τ : Type}

/-- What is gathered from a list item by item. -/
theorem all_eq_flat_map
    {each : α → List τ}
    {all : List α → List τ}
    (none : all [] = [])
    (some : ∀ item rest, all (item :: rest) = each item ++ all rest)
    (items : List α) :
    all items = items.flatMap each := by
  induction items with
  | nil => exact none
  | cons item rest ih => rw [some, ih, List.flatMap_cons]

/-- No token of this kind comes first. -/
def Free (kind : τ → Prop) (tokens : List τ) : Prop :=
  ∀ token, tokens.head? = some token → ¬kind token

theorem free_nil (kind : τ → Prop) : Free kind [] := by
  intro token first
  cases first

theorem free_cons {kind : τ → Prop} {token : τ} (other : ¬kind token) (rest : List τ) :
    Free kind (token :: rest) := by
  rintro _ ⟨⟩
  exact other

/-- A way to write items as tokens. The code of an item starts in one way and may go on in
another. -/
structure Code (α τ : Type) where
  tokens : α → List τ
  valid : α → Prop
  starts : τ → Prop
  more : τ → Prop
  begins : ∀ item, valid item → ∃ token rest, tokens item = token :: rest ∧ starts token
  fresh : ∀ token, starts token → ¬more token

namespace Code

variable {code : Code α τ}

/-- An item, and where its code ends, can be told from the code and what follows it. -/
def Determines (code : Code α τ) (item : α) : Prop :=
  ∀ other before after, code.valid other → Free code.more before → Free code.more after →
    code.tokens item ++ before = code.tokens other ++ after → item = other ∧ before = after

/-- Neither does an item start here, nor does one go on. -/
structure Ends (code : Code α τ) (rest : List τ) : Prop where
  none : Free code.starts rest
  closed : Free code.more rest

theorem ends_nil (code : Code α τ) : code.Ends [] := ⟨free_nil _, free_nil _⟩

theorem ends_cons
    {token : τ}
    (noItem : ¬code.starts token)
    (closed : ¬code.more token)
    (rest : List τ) :
    code.Ends (token :: rest) :=
  ⟨free_cons noItem rest, free_cons closed rest⟩

theorem Determines.eq
    {item other : α}
    (determined : code.Determines item)
    (valid : code.valid other)
    (same : code.tokens item = code.tokens other) :
    item = other :=
  (determined other [] [] valid (free_nil _) (free_nil _) (by rw [same])).1

theorem append_free
    {item : α}
    (valid : code.valid item)
    (rest : List τ) :
    Free code.more (code.tokens item ++ rest) := by
  obtain ⟨token, others, form, starts⟩ := code.begins item valid
  rw [form]
  exact free_cons (code.fresh token starts) _

theorem items_free
    (code : Code α τ)
    {items : List α}
    {rest : List τ}
    (valid : ∀ item ∈ items, code.valid item)
    (closed : Free code.more rest) :
    Free code.more (items.flatMap code.tokens ++ rest) := by
  cases items with
  | nil => exact closed
  | cons first later =>
      rw [List.flatMap_cons, List.append_assoc]
      exact append_free (valid first List.mem_cons_self) _

/-- What ends a list is not the code of a further item. -/
theorem Ends.not_item
    {rest later : List τ}
    {item : α}
    (ends : code.Ends rest)
    (valid : code.valid item) :
    rest ≠ code.tokens item ++ later := by
  obtain ⟨token, others, form, starts⟩ := code.begins item valid
  rintro rfl
  rw [form] at ends
  exact ends.none token rfl starts

theorem items_determined
    (code : Code α τ)
    {items others : List α}
    {before after : List τ}
    (determined : ∀ item ∈ items, code.Determines item)
    (valid : ∀ item ∈ items, code.valid item)
    (otherValid : ∀ item ∈ others, code.valid item)
    (ends : code.Ends before)
    (otherEnds : code.Ends after)
    (same : items.flatMap code.tokens ++ before = others.flatMap code.tokens ++ after) :
    items = others ∧ before = after := by
  induction items generalizing others with
  | nil =>
      cases others with
      | nil => exact ⟨rfl, same⟩
      | cons other later =>
          rw [List.flatMap_cons, List.append_assoc] at same
          exact absurd same (ends.not_item (otherValid other List.mem_cons_self))
  | cons item rest ih =>
      obtain ⟨itemValid, restValid⟩ := List.forall_mem_cons.mp valid
      obtain ⟨itemDetermined, restDetermined⟩ := List.forall_mem_cons.mp determined
      rw [List.flatMap_cons, List.append_assoc] at same
      cases others with
      | nil => exact absurd same.symm (otherEnds.not_item itemValid)
      | cons other later =>
          obtain ⟨validOther, laterValid⟩ := List.forall_mem_cons.mp otherValid
          rw [List.flatMap_cons, List.append_assoc] at same
          -- Behind both items stands a further item or the end, and neither makes them go on.
          obtain ⟨rfl, behind⟩ := itemDetermined other _ _ validOther
            (code.items_free restValid ends.closed) (code.items_free laterValid otherEnds.closed) same
          obtain ⟨rfl, rfl⟩ := ih restDetermined restValid laterValid behind
          exact ⟨rfl, rfl⟩

/-- Every item with a mark in front of it. -/
def behind (code : Code α τ) (mark : τ) (other : ¬code.more mark) : Code α τ where
  tokens item := mark :: code.tokens item
  valid := code.valid
  starts token := token = mark
  more := code.more
  begins item _ := ⟨mark, code.tokens item, rfl, rfl⟩
  fresh := by
    rintro _ rfl
    exact other

theorem Determines.behind
    {item : α}
    {mark : τ}
    (determined : code.Determines item)
    (other : ¬code.more mark) :
    (code.behind mark other).Determines item := by
  intro second before after valid closed otherClosed same
  exact determined second before after valid closed otherClosed (List.cons.inj same).2

/-- A list with a mark between its items is its first item and the others behind a mark. -/
theorem separated_cons (mark : τ) (other : ¬code.more mark) (first : α) (rest : List α) :
    [mark].intercalate ((first :: rest).map code.tokens) =
      code.tokens first ++ rest.flatMap (code.behind mark other).tokens := by
  rw [List.map_cons, Layout.intercalate_cons, List.flatMap_map]
  rfl

theorem separated_determined
    (code : Code α τ)
    {items others : List α}
    {mark : τ}
    {before after : List τ}
    (determined : ∀ item ∈ items, code.Determines item)
    (valid : ∀ item ∈ items, code.valid item)
    (otherValid : ∀ item ∈ others, code.valid item)
    (other : ¬code.more mark)
    (ends : code.Ends before)
    (otherEnds : code.Ends after)
    (last : Free (· = mark) before)
    (otherLast : Free (· = mark) after)
    (same : [mark].intercalate (items.map code.tokens) ++ before =
      [mark].intercalate (others.map code.tokens) ++ after) :
    items = others ∧ before = after := by
  cases items with
  | nil =>
      cases others with
      | nil => exact ⟨rfl, same⟩
      | cons second later =>
          rw [separated_cons mark other, List.append_assoc] at same
          exact absurd same (ends.not_item (otherValid second List.mem_cons_self))
  | cons first rest =>
      obtain ⟨firstValid, restValid⟩ := List.forall_mem_cons.mp valid
      obtain ⟨firstDetermined, restDetermined⟩ := List.forall_mem_cons.mp determined
      rw [separated_cons mark other, List.append_assoc] at same
      cases others with
      | nil => exact absurd same.symm (otherEnds.not_item firstValid)
      | cons second later =>
          obtain ⟨secondValid, laterValid⟩ := List.forall_mem_cons.mp otherValid
          rw [separated_cons mark other, List.append_assoc] at same
          let marked := code.behind mark other
          have restMarked : ∀ item ∈ rest, marked.Determines item := by
            intro item member
            exact (restDetermined item member).behind other
          obtain ⟨rfl, following⟩ := firstDetermined second _ _ secondValid
            (marked.items_free restValid ends.closed)
            (marked.items_free laterValid otherEnds.closed) same
          obtain ⟨rfl, rfl⟩ := marked.items_determined restMarked restValid laterValid
            ⟨last, ends.closed⟩ ⟨otherLast, otherEnds.closed⟩ following
          exact ⟨rfl, rfl⟩

end Code

end Typeset.Text
