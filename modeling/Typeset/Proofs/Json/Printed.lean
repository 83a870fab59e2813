import Typeset.Json.Printer
import Typeset.Proofs.Json.Reading

/-!
Printed JSON. The text of a value spells it, as long as the value has no numbers with a fraction
and names each field of an object once. So a printed value is read back, unless it nests too deep
or has a number with too many digits (`read_text`).
-/

set_option autoImplicit false

namespace Typeset.Json

mutual

/-- How deep arrays and objects nest. One without parts does not count. -/
def nesting : Json → Nat
  | .arr items => nestingItems items
  | .obj fields => nestingFields fields
  | _ => 0

def nestingItems : List Json → Nat
  | [] => 0
  | item :: rest => max (item.nesting + 1) (nestingItems rest)

def nestingFields : List (String × Json) → Nat
  | [] => 0
  | (_, value) :: rest => max (value.nesting + 1) (nestingFields rest)

end

mutual

/-- The number of digits of the longest whole number. -/
def longestWhole : Json → Nat
  | .int value => (Nat.toDigits 10 value.natAbs).length
  | .arr items => longestWholeItem items
  | .obj fields => longestWholeField fields
  | _ => 0

def longestWholeItem : List Json → Nat
  | [] => 0
  | item :: rest => max item.longestWhole (longestWholeItem rest)

def longestWholeField : List (String × Json) → Nat
  | [] => 0
  | (_, value) :: rest => max value.longestWhole (longestWholeField rest)

end

mutual

/-- All numbers are whole, and no object has two fields of one name. -/
def Tidy : Json → Prop
  | .real _ => False
  | .arr items => TidyItems items
  | .obj fields => (fields.map Prod.fst).Nodup ∧ TidyFields fields
  | _ => True

def TidyItems : List Json → Prop
  | [] => True
  | item :: rest => item.Tidy ∧ TidyItems rest

def TidyFields : List (String × Json) → Prop
  | [] => True
  | (_, value) :: rest => value.Tidy ∧ TidyFields rest

end

theorem put_field_of_new
    {fields : List (String × Json)}
    {name : String}
    (value : Json)
    (new : name ∉ fields.map Prod.fst) :
    putField fields name value = fields ++ [(name, value)] := by
  induction fields with
  | nil => rfl
  | cons head rest ih =>
      rw [List.map_cons, List.mem_cons, not_or] at new
      rw [putField, if_neg (Ne.symm new.1), ih new.2, List.cons_append]

/-- Fields with different names are kept as they are. -/
theorem of_fields_of_nodup
    {fields : List (String × Json)}
    (different : (fields.map Prod.fst).Nodup) :
    ofFields fields = .obj fields := by
  have behind (known : List (String × Json)) (different : ((known ++ fields).map Prod.fst).Nodup) :
      fields.foldl (fun known field => putField known field.1 field.2) known = known ++ fields := by
    induction fields generalizing known with
    | nil => exact (List.append_nil known).symm
    | cons head rest ih =>
        have new : head.1 ∉ known.map Prod.fst := by
          intro member
          rw [List.map_append, List.nodup_append] at different
          exact different.2.2 _ member _ List.mem_cons_self rfl
        have others : ((rest).map Prod.fst).Nodup := by
          rw [List.map_append, List.nodup_append] at different
          exact different.2.1.of_cons
        rw [List.foldl_cons, put_field_of_new head.2 new, ih others _ (by simpa using different)]
        simp
  rw [ofFields, behind [] different, List.nil_append]

theorem escaped_char_spells (c : Char) : SpellsChar c (escapedChar c) := by
  have lower : ∀ value < 16, (Text.hexDigit value).toLower = Text.hexDigit value := by decide
  have small (count : Nat) : (Text.hexDigit (count % 16)).toLower = Text.hexDigit (count % 16) :=
    lower _ (Nat.mod_lt _ (by decide))
  unfold escapedChar
  split
  · subst_vars
    exact .letter (by decide)
  · split
    · subst_vars
      exact .letter (by decide)
    · rename_i quote backslash
      split
      · rename_i control
        refine .unit (by omega) ?_
        simp [SpellsUnit, Text.hexDigits, small]
      · rename_i visible
        exact .plain quote backslash (Nat.le_of_not_lt visible)

theorem string_chars_spell (content : String) : SpellsString content (stringChars content) := by
  have inside (content : List Char) : SpellsChars content (content.flatMap escapedChar) := by
    induction content with
    | nil => exact .nil
    | cons c rest ih => exact .cons (escaped_char_spells c) ih
  exact ⟨_, inside content.toList, rfl⟩

theorem numeral_spells (value : Int) :
    SpellsNumber (Nat.toDigits 10 value.natAbs).length (.int value) (toString value).toList := by
  cases value with
  | ofNat size =>
      rw [Text.numeral_of_nat]
      exact @SpellsNumber.whole _ false size (Nat.le_refl _)
  | negSucc size =>
      rw [Text.numeral_neg_succ]
      exact @SpellsNumber.whole _ true (size + 1) (Nat.le_refl _)

theorem SpellsNumber.more_digits
    {few many : Nat}
    (enough : few ≤ many)
    {value : Json}
    {text : List Char}
    (spelled : SpellsNumber few value text) :
    SpellsNumber many value text := by
  cases spelled with
  | whole short => exact .whole (Nat.le_trans short enough)
  | real short whole power parts => exact .real (Nat.le_trans short enough) whole power parts

theorem spells_of_scalar
    {digits : Nat}
    {value : Json}
    {text : List Char}
    (spelled : ∀ part, SpellsWith digits part value text)
    (depth : Nat) :
    Spells digits depth value text := by
  cases depth with
  | zero => exact spelled _
  | succ depth => exact spelled _

theorem gap_nil : Gap [] := fun _ member => absurd member List.not_mem_nil

section Parts

variable {α : Type} {spells : α → List Char → Prop} {item : α} {text : List Char}

theorem SpellsParts.single (spelled : spells item text) : SpellsParts spells [item] text := by
  have part := SpellsParts.last gap_nil spelled gap_nil
  rwa [List.nil_append, List.append_nil] at part

theorem SpellsParts.behind
    {rest : List α}
    {later : List Char}
    (spelled : spells item text)
    (others : SpellsParts spells rest later) :
    SpellsParts spells (item :: rest) (text ++ ',' :: later) := by
  have parts := SpellsParts.more gap_nil spelled gap_nil others
  rwa [List.nil_append, List.append_nil] at parts

end Parts

theorem SpellsField.plain
    {spells : Json → List Char → Prop}
    (name : String)
    {value : Json}
    {text : List Char}
    (spelled : spells value text) :
    SpellsField spells (name, value) (stringChars name ++ ':' :: text) := by
  have field := SpellsField.field (string_chars_spell name) gap_nil gap_nil spelled
  simpa using field

/-- What separates an item from what is written before it. -/
def separated (written : String) (first : Bool) : String :=
  if first then written else written.push ','

theorem separated_later (written : String) :
    (separated written false).toList = written.toList ++ [','] := by
  simp [separated]

theorem level_left {below depth : Nat} (shallow : below + 1 ≤ depth) : ∃ rest, depth = rest + 1 :=
  Nat.exists_eq_add_one_of_ne_zero (Nat.ne_of_gt (Nat.lt_of_lt_of_le (Nat.succ_pos _) shallow))

variable {digits : Nat}

mutual

/-- What is appended for a value spells it. -/
theorem write_spells :
    (value : Json) → value.Tidy → value.longestWhole ≤ digits →
    ∀ depth, value.nesting ≤ depth → ∀ written : String,
    ∃ text, Spells digits depth value text ∧
      (write written value).toList = written.toList ++ text
  | .null, _, _, depth, _, written =>
      ⟨_, spells_of_scalar (fun _ => .null) depth, String.toList_append⟩
  | .bool true, _, _, depth, _, written =>
      ⟨_, spells_of_scalar (fun _ => .yes) depth, String.toList_append⟩
  | .bool false, _, _, depth, _, written =>
      ⟨_, spells_of_scalar (fun _ => .no) depth, String.toList_append⟩
  | .int value, _, short, depth, _, written =>
      ⟨_, spells_of_scalar (fun _ => .number ((numeral_spells value).more_digits short)) depth,
        String.toList_append⟩
  | .real value, tidy, _, _, _, _ => tidy.elim
  | .str content, _, _, depth, _, written =>
      ⟨_, spells_of_scalar (fun _ => .string (string_chars_spell content)) depth, by
        rw [write, String.toList_append, stringText, String.toList_ofList]⟩
  | .arr [], _, _, depth, _, written =>
      ⟨_, spells_of_scalar (fun _ => .noItems gap_nil) depth, by simp [write, writeItems]⟩
  | .arr (item :: rest), tidy, short, depth, shallow, written => by
      obtain ⟨depth, rfl⟩ := level_left (Nat.le_trans (Nat.le_max_left _ _) shallow)
      obtain ⟨text, parts, form⟩ := write_items_spell (item :: rest) (List.cons_ne_nil _ _) tidy
        short depth shallow (written.push '[') true
      exact ⟨_, .items parts, by simp [write, form, separated]⟩
  | .obj [], _, _, depth, _, written =>
      ⟨_, spells_of_scalar (fun _ => .noFields gap_nil) depth, by simp [write, writeFields]⟩
  | .obj ((name, value) :: rest), tidy, short, depth, shallow, written => by
      obtain ⟨depth, rfl⟩ := level_left (Nat.le_trans (Nat.le_max_left _ _) shallow)
      obtain ⟨text, parts, form⟩ := write_fields_spell ((name, value) :: rest)
        (List.cons_ne_nil _ _) tidy.2 short depth shallow (written.push '\x7b') true
      have spelled : Spells digits (depth + 1) (.obj ((name, value) :: rest)) _ :=
        of_fields_of_nodup tidy.1 ▸ SpellsWith.fields parts
      exact ⟨_, spelled, by simp [write, form, separated]⟩

theorem write_items_spell :
    (items : List Json) → items ≠ [] → TidyItems items → longestWholeItem items ≤ digits →
    ∀ depth, nestingItems items ≤ depth + 1 → ∀ (written : String) (first : Bool),
    ∃ text, SpellsParts (Spells digits depth) items text ∧
      (writeItems written first items).toList = (separated written first).toList ++ text
  | [], someItem, _, _, _, _, _, _ => absurd rfl someItem
  | item :: rest, _, tidy, short, depth, shallow, written, first => by
      let before := separated written first
      obtain ⟨text, spelled, form⟩ := write_spells item tidy.1
        (Nat.le_trans (Nat.le_max_left _ _) short) depth
        (Nat.le_of_succ_le_succ (Nat.le_trans (Nat.le_max_left _ _) shallow)) before
      have others := write_items_spell rest
      cases rest with
      | nil => exact ⟨text, .single spelled, form⟩
      | cons next rest =>
          obtain ⟨later, parts, whole⟩ := others (List.cons_ne_nil _ _) tidy.2
            (Nat.le_trans (Nat.le_max_right _ _) short) depth
            (Nat.le_trans (Nat.le_max_right _ _) shallow) (write before item) false
          refine ⟨_, .behind spelled parts, ?_⟩
          change (writeItems (write before item) false (next :: rest)).toList = _
          rw [whole, separated_later, form]
          simp [before]

theorem write_fields_spell :
    (fields : List (String × Json)) → fields ≠ [] → TidyFields fields →
    longestWholeField fields ≤ digits →
    ∀ depth, nestingFields fields ≤ depth + 1 → ∀ (written : String) (first : Bool),
    ∃ text, SpellsParts (SpellsField (Spells digits depth)) fields text ∧
      (writeFields written first fields).toList = (separated written first).toList ++ text
  | [], someField, _, _, _, _, _, _ => absurd rfl someField
  | (name, value) :: rest, _, tidy, short, depth, shallow, written, first => by
      let before := (separated written first ++ stringText name).push ':'
      obtain ⟨text, spelled, form⟩ := write_spells value tidy.1
        (Nat.le_trans (Nat.le_max_left _ _) short) depth
        (Nat.le_of_succ_le_succ (Nat.le_trans (Nat.le_max_left _ _) shallow)) before
      have named : before.toList = (separated written first).toList ++ (stringChars name ++ [':']) := by
        simp [before, stringText]
      have others := write_fields_spell rest
      cases rest with
      | nil =>
          refine ⟨_, .single (.plain name spelled), ?_⟩
          change (write before value).toList = _
          rw [form, named]
          simp
      | cons next rest =>
          obtain ⟨later, parts, whole⟩ := others (List.cons_ne_nil _ _) tidy.2
            (Nat.le_trans (Nat.le_max_right _ _) short) depth
            (Nat.le_trans (Nat.le_max_right _ _) shallow) (write before value) false
          refine ⟨_, .behind (.plain name spelled) parts, ?_⟩
          change (writeFields (write before value) false (next :: rest)).toList = _
          rw [whole, separated_later, form, named]
          simp

end

theorem text_spelled
    {limits : Limits}
    {value : Json}
    (tidy : value.Tidy)
    (shallow : value.nesting ≤ limits.depth)
    (short : value.longestWhole ≤ limits.digits) :
    Spelled limits value value.text := by
  obtain ⟨inside, spelled, form⟩ := write_spells value tidy short limits.depth shallow ""
  exact ⟨[], inside, [], gap_nil, spelled, gap_nil, by simpa [text] using form⟩

/-- A printed value is read back. -/
theorem read_text
    {limits : Limits}
    {value : Json}
    (tidy : value.Tidy)
    (shallow : value.nesting ≤ limits.depth)
    (short : value.longestWhole ≤ limits.digits) :
    read? limits value.text = some value :=
  read_of_spelled (text_spelled tidy shallow short)

end Typeset.Json
