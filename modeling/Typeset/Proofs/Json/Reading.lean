import Typeset.Proofs.Json.NumberReading
import Typeset.Proofs.Json.StringReading

/-!
The reader knows the whole grammar: what a text spells within the limits, with whatever gaps and
escapes, is what is read from it (`read_of_spelled`). Parts are read by a reader of their own,
so all that is said of arrays and objects is said of one level of them.
-/

set_option autoImplicit false

namespace Typeset.Json

/-- How a value or a field begins: neither with white space nor with a closing bracket. -/
def Begins (text : List Char) : Prop :=
  ∃ c rest, text = c :: rest ∧ Reader.isSpace c = false ∧ c ≠ ']' ∧ c ≠ '\x7d'

/-- Whatever is spelled begins as parts do, and the reader takes it back if it is no longer than
`size`. -/
structure ReadBy {α : Type} (size : Nat) (read : Reader α) (spells : α → List Char → Prop) :
    Prop where
  begins : ∀ {item text}, spells item text → Begins text
  takes : ∀ {item text rest}, spells item text → text.length ≤ size → Ended rest →
    read (text ++ rest) = some (item, rest)

theorem Ended.gap_append
    {gap rest : List Char}
    (blank : Gap gap)
    (ended : Ended rest) :
    Ended (gap ++ rest) := by
  cases gap with
  | nil => exact ended
  | cons first others =>
      intro c same
      obtain rfl : first = c := Option.some.inj same
      exact List.mem_append_left [',', ']', '\x7d'] (blank first List.mem_cons_self)

theorem Ended.gap {gap : List Char} (blank : Gap gap) : Ended gap := by
  have ended : Ended (gap ++ []) := Ended.gap_append blank nofun
  rwa [List.append_nil] at ended

namespace Reader

theorem is_space_iff (c : Char) : isSpace c = true ↔ c ∈ [' ', '\t', '\n', '\r'] := by
  simp [isSpace, or_assoc]

/-- A gap is skipped up to what begins behind it. -/
theorem skip_gap
    {gap rest : List Char}
    (blank : Gap gap)
    (begins : ∀ c, rest.head? = some c → isSpace c = false) :
    skipSpace (gap ++ rest) = rest :=
  (Text.span_append (fun c member => (is_space_iff c).mpr (blank c member)) begins).2

theorem skip_gap_alone {gap : List Char} (blank : Gap gap) : skipSpace gap = [] := by
  have skipped : skipSpace (gap ++ []) = [] := skip_gap blank nofun
  rwa [List.append_nil] at skipped

theorem skip_gap_before
    {gap : List Char}
    (blank : Gap gap)
    {c : Char}
    (visible : isSpace c = false)
    (rest : List Char) :
    skipSpace (gap ++ c :: rest) = c :: rest :=
  skip_gap blank fun _ first => Option.some.inj first ▸ visible

theorem skip_gap_begun
    {gap text : List Char}
    (blank : Gap gap)
    (begins : Begins text)
    (rest : List Char) :
    skipSpace (gap ++ (text ++ rest)) = text ++ rest := by
  obtain ⟨c, others, rfl, visible, _⟩ := begins
  exact skip_gap_before blank visible (others ++ rest)

section Parts

variable {α : Type} {size : Nat} {read : Reader α} {spells : α → List Char → Prop} {close : Char}

theorem parts_not_longer
    (readBy : ReadBy size read spells)
    {parts : List α}
    {text : List Char}
    (spelled : SpellsParts spells parts text) :
    parts.length ≤ text.length := by
  have positive {item : α} {text : List Char} (spelled : spells item text) : 0 < text.length := by
    obtain ⟨c, rest, rfl, _⟩ := readBy.begins spelled
    exact Nat.succ_pos _
  induction spelled with
  | last before item after =>
      have := positive item
      simp only [List.length_append, List.length_singleton]
      omega
  | more before item after others ih =>
      have := positive item
      simp only [List.length_append, List.length_cons]
      omega

/-- Parts are read one after the other up to the closing bracket. -/
theorem items_append
    (readBy : ReadBy size read spells)
    (closing : close = ']' ∨ close = '\x7d')
    {parts : List α}
    {text : List Char}
    (spelled : SpellsParts spells parts text)
    (short : text.length ≤ size)
    {fuel : Nat}
    (enough : parts.length ≤ fuel)
    (rest : List Char) :
    items read close fuel (text ++ close :: rest) = some (parts, rest) := by
  have visible : isSpace close = false := by rcases closing with rfl | rfl <;> rfl
  have ended (rest : List Char) : Ended (close :: rest) := by
    intro c first
    obtain rfl : close = c := Option.some.inj first
    rcases closing with rfl | rfl <;> decide
  have comma (rest : List Char) : Ended (',' :: rest) := by
    intro c first
    obtain rfl : ',' = c := Option.some.inj first
    decide
  have noComma : ',' ≠ close := by rcases closing with rfl | rfl <;> decide
  induction spelled generalizing fuel with
  | @last item before text after blankBefore spelled blankAfter =>
      obtain ⟨fuel, rfl⟩ := Nat.exists_eq_add_one_of_ne_zero (Nat.ne_of_gt enough)
      simp only [List.length_append] at short
      have taken := readBy.takes spelled (by omega) ((ended rest).gap_append blankAfter)
      have begun := skip_gap_begun blankBefore (readBy.begins spelled) (after ++ close :: rest)
      simp only [List.append_assoc, items, begun, taken, Option.bind_eq_bind, Option.bind_some,
        skip_gap_before blankAfter visible, if_true]
  | @more item others before text after later blankBefore spelled blankAfter spelledRest ih =>
      obtain ⟨fuel, rfl⟩ := Nat.exists_eq_add_one_of_ne_zero (Nat.ne_of_gt (Nat.zero_lt_of_lt enough))
      simp only [List.length_append, List.length_cons] at short enough
      have behind := ih (by omega) (show others.length ≤ fuel by omega)
      have taken := readBy.takes spelled (by omega)
        ((comma (later ++ close :: rest)).gap_append blankAfter)
      have begun := skip_gap_begun blankBefore (readBy.begins spelled)
        (after ++ ',' :: (later ++ close :: rest))
      simp only [List.append_assoc, List.cons_append, items, begun, taken, Option.bind_eq_bind,
        Option.bind_some, skip_gap_before blankAfter (c := ',') rfl, if_neg noComma, if_true, behind]

theorem parts_begin
    {parts : List α}
    {text : List Char}
    (spelled : SpellsParts spells parts text) :
    ∃ before item inside later, Gap before ∧ spells item inside ∧
      text = before ++ (inside ++ later) := by
  cases spelled with
  | @last item before inside after blank spelled _ =>
      exact ⟨before, item, inside, after, blank, spelled, List.append_assoc _ _ _⟩
  | @more item others before inside after later blank spelled _ _ =>
      exact ⟨before, item, inside, after ++ ',' :: later, blank, spelled, by simp⟩

theorem bracketed_append
    (readBy : ReadBy size read spells)
    (closing : close = ']' ∨ close = '\x7d')
    {parts : List α}
    {text : List Char}
    (spelled : SpellsParts spells parts text)
    (short : text.length ≤ size)
    (rest : List Char) :
    bracketed read close size (text ++ close :: rest) = some (parts, rest) := by
  have enough := Nat.le_trans (parts_not_longer readBy spelled) short
  have all := items_append readBy closing spelled short enough rest
  -- The first part does not look like the closing bracket.
  obtain ⟨before, item, inside, later, blank, spelledItem, rfl⟩ := parts_begin spelled
  obtain ⟨c, others, rfl, visible, square, curly⟩ := readBy.begins spelledItem
  have other : c ≠ close := by rcases closing with rfl | rfl <;> assumption
  have skipped := skip_gap_before blank visible (others ++ (later ++ close :: rest))
  simp only [List.append_assoc, List.cons_append] at skipped all ⊢
  rw [bracketed, skipped]
  dsimp only
  rw [if_neg other, all]

theorem bracketed_gap
    (closing : close = ']' ∨ close = '\x7d')
    {gap : List Char}
    (blank : Gap gap)
    (rest : List Char) :
    bracketed read close size (gap ++ close :: rest) = some ([], rest) := by
  have visible : isSpace close = false := by rcases closing with rfl | rfl <;> rfl
  rw [bracketed, skip_gap_before blank visible]
  dsimp only
  rw [if_pos rfl]

end Parts

variable {limits : Limits} {size : Nat} {part : Reader Json} {spells : Json → List Char → Prop}

theorem field_read_by (readBy : ReadBy size part spells) :
    ReadBy size (field part size) (SpellsField spells) where
  begins spelled := by
    cases spelled with
    | field spelledName =>
        obtain ⟨inside, _, rfl⟩ := spelledName
        exact ⟨'"', _, rfl, by decide⟩
  takes {_ _ rest} spelled short ended := by
    cases spelled with
    | @field name value nameText before after text spelledName blankBefore blankAfter spelledValue =>
        simp only [List.length_append, List.length_cons] at short
        have fits : nameText.length ≤ size := by omega
        obtain ⟨behind, rfl, named⟩ := string_append spelledName fits
          (before ++ ':' :: (after ++ (text ++ rest)))
        have begun := skip_gap_begun blankAfter (readBy.begins spelledValue) rest
        have taken := readBy.takes spelledValue (by omega) ended
        simp only [List.append_assoc, List.cons_append, field, named, Option.bind_eq_bind,
          Option.bind_some, skip_gap_before blankBefore (c := ':') rfl, begun, taken]

/-- What begins with neither bracket holds no other values. -/
theorem value_of_scalar
    {c : Char}
    (square : c ≠ '[')
    (curly : c ≠ '\x7b')
    (rest : List Char) :
    valueOf limits size part (c :: rest) = scalar limits size (c :: rest) := by
  unfold valueOf
  split
  · rename_i same
    exact absurd (List.cons.inj same).1 square
  · rename_i same
    exact absurd (List.cons.inj same).1 curly
  · rfl

theorem scalar_of_digit
    {digit : Char}
    (isDigit : digit.isDigit = true)
    (rest : List Char) :
    scalar limits size (digit :: rest) = number limits false (digit :: rest) := by
  unfold scalar
  split <;> first
    | rfl
    | (rename_i same; obtain ⟨rfl, _⟩ := List.cons.inj same; cases isDigit)

theorem scalar_of_minus
    {digit : Char}
    (isDigit : digit.isDigit = true)
    (rest : List Char) :
    scalar limits size ('-' :: digit :: rest) = number limits true (digit :: rest) := by
  have notI : digit ≠ 'I' := by
    rintro rfl
    cases isDigit
  rw [scalar]
  rintro _ same
  exact notI (List.cons.inj same).1

theorem number_read
    {value : Json}
    {text rest : List Char}
    (spelled : SpellsNumber limits.digits value text)
    (ended : Ended rest) :
    valueOf limits size part (text ++ rest) = some (value, rest) := by
  obtain ⟨negative, digit, others, rfl, isDigit, taken⟩ := number_append spelled ended
  cases negative with
  | false =>
      have square : digit ≠ '[' := by
        rintro rfl
        cases isDigit
      have curly : digit ≠ '\x7b' := by
        rintro rfl
        cases isDigit
      change valueOf limits size part (digit :: (others ++ rest)) = _
      rw [value_of_scalar square curly, scalar_of_digit isDigit]
      exact taken
  | true =>
      change valueOf limits size part ('-' :: digit :: (others ++ rest)) = _
      rw [value_of_scalar (by decide) (by decide), scalar_of_minus isDigit]
      exact taken

theorem begins_with_digit
    {digit : Char}
    (isDigit : digit.isDigit = true)
    (rest : List Char) :
    Begins (digit :: rest) := by
  have noDigit : ∀ c ∈ [' ', '\t', '\n', '\r', ']', '\x7d'], c.isDigit = false := by simp
  have other {c : Char} (member : c ∈ [' ', '\t', '\n', '\r', ']', '\x7d']) : digit ≠ c := by
    rintro rfl
    rw [noDigit digit member] at isDigit
    cases isDigit
  refine ⟨digit, rest, rfl, ?_, other (by decide), other (by decide)⟩
  rw [← Bool.not_eq_true, is_space_iff]
  intro white
  exact other (List.mem_append_left [']', '\x7d'] white) rfl

theorem value_begins
    {value : Json}
    {text : List Char}
    (spelled : SpellsWith limits.digits spells value text) :
    Begins text := by
  have by_sign {negative : Bool} {c : Char} {rest : List Char} (begins : Begins (c :: rest)) :
      Begins (signText negative ++ c :: rest) := by
    cases negative with
    | false => exact begins
    | true => exact ⟨'-', c :: rest, rfl, by decide⟩
  cases spelled with
  | number spelledNumber =>
      have ended : Ended [] := nofun
      obtain ⟨_, digit, others, rfl, isDigit, _⟩ := number_append spelledNumber ended
      exact by_sign (begins_with_digit isDigit others)
  | infinite => exact by_sign ⟨'I', _, rfl, by decide⟩
  | string spelledString =>
      obtain ⟨inside, _, rfl⟩ := spelledString
      exact ⟨'"', _, rfl, by decide⟩
  | null | yes | no | nan | noItems | items | noFields | fields => exact ⟨_, _, rfl, by decide⟩

theorem value_of_read_by (readBy : ReadBy size part spells) :
    ReadBy size (valueOf limits size part) (SpellsWith limits.digits spells) where
  begins := value_begins
  takes {_ _ rest} spelled short ended := by
    cases spelled with
    | null => rfl
    | yes => rfl
    | no => rfl
    | nan => rfl
    | @infinite negative => cases negative <;> rfl
    | number spelledNumber => exact number_read spelledNumber ended
    | string spelledString =>
        obtain ⟨behind, rfl, taken⟩ := string_append spelledString short rest
        rw [List.cons_append, value_of_scalar (by decide) (by decide), scalar, taken]
        rfl
    | @noItems gap blank =>
        have taken : bracketed part ']' size (gap ++ ']' :: rest) = some ([], rest) :=
          bracketed_gap (.inl rfl) blank rest
        simp only [List.cons_append, List.append_assoc, List.nil_append, valueOf, taken]
        rfl
    | @items items text spelledItems =>
        simp only [List.length_append, List.length_cons] at short
        have taken := bracketed_append readBy (.inl rfl) spelledItems (by omega) rest
        simp only [List.cons_append, List.append_assoc, List.nil_append, valueOf, taken]
        rfl
    | @noFields gap blank =>
        have taken : bracketed (field part size) '\x7d' size (gap ++ '\x7d' :: rest) =
            some ([], rest) := bracketed_gap (.inr rfl) blank rest
        simp only [List.cons_append, List.append_assoc, List.nil_append, valueOf, taken]
        rfl
    | @fields fields text spelledFields =>
        simp only [List.length_append, List.length_cons] at short
        have taken := bracketed_append (field_read_by readBy) (.inr rfl) spelledFields
          (by omega) rest
        simp only [List.cons_append, List.append_assoc, List.nil_append, valueOf, taken]
        rfl

/-- Each level of nesting is read by the reader for one level less. -/
theorem value_read_by (limits : Limits) (size depth : Nat) :
    ReadBy size (value limits size depth) (Spells limits.digits depth) := by
  induction depth with
  | zero => exact value_of_read_by ⟨nofun, nofun⟩
  | succ depth ih => exact value_of_read_by ih

end Reader

/-- A text that spells a value within the limits is read as that value. -/
theorem read_of_spelled
    {limits : Limits}
    {value : Json}
    {text : String}
    (spelled : Spelled limits value text) :
    read? limits text = some value := by
  obtain ⟨before, inside, after, blankBefore, spells, blankAfter, form⟩ := spelled
  have readBy := Reader.value_read_by limits text.toList.length limits.depth
  have short : inside.length ≤ text.toList.length := by
    rw [form, List.length_append, List.length_append]
    omega
  have begun := Reader.skip_gap_begun blankBefore (readBy.begins spells) after
  have taken := readBy.takes spells short (Ended.gap blankAfter)
  rw [← List.append_assoc, ← form] at begun
  simp only [read?, begun, taken, Option.bind_eq_bind, Option.bind_some,
    Reader.skip_gap_alone blankAfter, List.isEmpty_nil, if_true]

end Typeset.Json
