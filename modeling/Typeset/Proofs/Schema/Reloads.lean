import Mathlib.Data.List.Forall2
import Mathlib.Data.List.Nodup
import Typeset.Proofs.Json.Printed
import Typeset.Schema.Name

/-!
Checks that succeed. A field that is there and has what is expected is read, and a list is read
item by item. A value reloads from its data if the data are as declared, if they can be printed,
and if checking them gives the value back.
-/

set_option autoImplicit false

namespace Typeset

namespace Check

variable {α β : Type}

@[simp] theorem map_valid (f : α → β) (value : α) :
    f <$> (.valid value : Check α) = .valid (f value) :=
  rfl

@[simp] theorem seq_valid (f : α → β) (value : α) :
    (.valid f : Check (α → β)) <*> .valid value = .valid (f value) :=
  rfl

/-! The readers of parts do not look at the evidence that a part is small. -/

section Parts

variable
    {read : Json → Check α}
    {fields : List (String × Json)}
    {name : String}
    {items : List Json}
    {values : List α}

theorem field_valid
    {data : Json}
    {value : α}
    (found : Json.field? fields name = some data)
    (accepted : read data = .valid value) :
    (field fields name fun data _ => read data) = .valid value := by
  unfold field
  split
  · rename_i missing
    rw [found] at missing
    cases missing
  · rename_i held here
    obtain rfl : data = held := Option.some.inj (found.symm.trans here)
    dsimp only
    rw [accepted]
    rfl

theorem name_field_valid
    {label : Name}
    (found : Json.field? fields name = some (.str label.text)) :
    nameField fields name = .valid label := by
  apply field_valid found
  rw [Check.name, Name.ofString_text]

theorem each_from_valid
    {Small : Json → Prop}
    (accepted : List.Forall₂ (fun item value => read item = .valid value) items values)
    (position : Nat)
    (small : ∀ item ∈ items, Small item) :
    eachFrom (fun item _ => read item) position items small = .valid values := by
  induction accepted generalizing position with
  | nil => rfl
  | cons first others ih =>
      rw [eachFrom, first, ih]
      rfl

theorem list_valid
    (accepted : List.Forall₂ (fun item value => read item = .valid value) items values) :
    (list (.arr items) fun item _ => read item) = .valid values :=
  each_from_valid accepted 0 _

theorem list_field_valid
    (found : Json.field? fields name = some (.arr items))
    (accepted : List.Forall₂ (fun item value => read item = .valid value) items values) :
    (listField fields name fun item _ => read item) = .valid values := by
  unfold listField
  split
  · rename_i missing
    rw [found] at missing
    cases missing
  · rename_i held here
    obtain rfl : .arr items = held := Option.some.inj (found.symm.trans here)
    rw [list_valid accepted]
    rfl

end Parts

theorem list_field_absent
    {fields : List (String × Json)}
    {name : String}
    {read : (item : Json) → sizeOf item < sizeOf fields → Check α}
    (missing : Json.field? fields name = none) :
    listField fields name read = .valid [] := by
  unfold listField
  split
  · rfl
  · rename_i held here
    rw [missing] at here
    cases here

/-- The kind that a record names is chosen, if all kinds have different names. -/
theorem choose_kind_valid
    {κ : Type}
    {tag : κ → String}
    {kinds : List κ}
    {kind : κ}
    (listed : kind ∈ kinds)
    (different : (kinds.map tag).Nodup)
    {fields : List (String × Json)}
    (found : Json.field? fields "kind" = some (.str (tag kind))) :
    chooseKind tag kinds fields = .valid kind := by
  rw [chooseKind, found]
  dsimp only
  cases chosen : kinds.find? fun other => decide (Json.str (tag kind) = .str (tag other)) with
  | none =>
      have unlike := List.find?_eq_none.mp chosen kind listed
      simp at unlike
  | some other =>
      have same := List.find?_some chosen
      simp only [decide_eq_true_eq, Json.str.injEq] at same
      have among := List.mem_of_find?_eq_some chosen
      rw [List.inj_on_of_nodup_map different among listed same.symm]

end Check

/-- The data are as declared and can be printed, and the value comes back from them. -/
structure Json.Reloads
    {α : Type}
    (declared : Json → Prop)
    (read : Json → Check α)
    (data : Json)
    (value : α) :
    Prop where
  declared : declared data
  tidy : data.Tidy
  readBack : read data = .valid value

namespace Json

variable {α : Type} {declared : Json → Prop} {read : Json → Check α} {toJson : α → Json}

theorem tidy_items_iff (items : List Json) : TidyItems items ↔ ∀ item ∈ items, item.Tidy := by
  induction items with
  | nil => simp [TidyItems]
  | cons item rest ih => simp [TidyItems, ih]

theorem Reloads.all_declared
    {values : List α}
    (each : ∀ value ∈ values, Reloads declared read (toJson value) value) :
    ∀ item ∈ values.map toJson, declared item := by
  intro item member
  obtain ⟨value, among, rfl⟩ := List.mem_map.mp member
  exact (each value among).declared

theorem Reloads.all_tidy
    {values : List α}
    (each : ∀ value ∈ values, Reloads declared read (toJson value) value) :
    TidyItems (values.map toJson) := by
  rw [tidy_items_iff]
  intro item member
  obtain ⟨value, among, rfl⟩ := List.mem_map.mp member
  exact (each value among).tidy

theorem Reloads.all_read_back
    {values : List α}
    (each : ∀ value ∈ values, Reloads declared read (toJson value) value) :
    List.Forall₂ (fun item value => read item = .valid value) (values.map toJson) values := by
  rw [List.forall₂_map_left_iff, List.forall₂_same]
  exact fun value member => (each value member).readBack

end Json

end Typeset
