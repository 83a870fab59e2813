import Typeset.Proofs.Json.Grammar

/-!
Strings in JSON texts. Each character is read back from any of its spellings, whatever follows.
A code unit may have capital and small digits, and a character beyond the code points of four
digits is put together from two code units.
-/

set_option autoImplicit false

namespace Typeset.Json.Reader

theorem char_le_iff (left right : Char) : left ≤ right ↔ left.toNat ≤ right.toNat := by
  rw [Char.le_def, UInt32.le_iff_toNat_le]
  rfl

theorem to_lower_cases
    {c small : Char}
    (lower : c.toLower = small) :
    c = small ∨ (65 ≤ c.toNat ∧ c.toNat ≤ 90 ∧ c.toNat + 32 = small.toNat) := by
  subst lower
  unfold Char.toLower
  split
  · rename_i range
    obtain ⟨above, below⟩ := range
    rw [ge_iff_le, UInt32.le_iff_toNat_le] at above
    rw [UInt32.le_iff_toNat_le] at below
    change 65 ≤ c.toNat at above
    change c.toNat ≤ 90 at below
    refine .inr ⟨above, below, ?_⟩
    change c.val.toNat + 32 = (c.val + 32).toNat
    rw [UInt32.toNat_add]
    change c.toNat + 32 = (c.toNat + 32) % 2 ^ 32
    omega
  · exact .inl rfl

theorem hex_digit_to_nat :
    ∀ value < 16, (Text.hexDigit value).toNat = if value < 10 then 48 + value else 87 + value := by
  decide

/-- A hexadecimal digit has the same value in small and capital letters. -/
theorem hex_value_of_lower
    {c : Char}
    {value : Nat}
    (small : value < 16)
    (lower : c.toLower = Text.hexDigit value) :
    hexValue? c = some value := by
  have point := hex_digit_to_nat value small
  have place : c.toNat = (Text.hexDigit value).toNat ∨
      (65 ≤ c.toNat ∧ c.toNat ≤ 90 ∧ c.toNat + 32 = (Text.hexDigit value).toNat) :=
    (to_lower_cases lower).imp_left (congrArg Char.toNat)
  have zero : '0'.toNat = 48 := rfl
  have nine : '9'.toNat = 57 := rfl
  have smallA : 'a'.toNat = 97 := rfl
  have smallF : 'f'.toNat = 102 := rfl
  have capitalA : 'A'.toNat = 65 := rfl
  have capitalF : 'F'.toNat = 70 := rfl
  simp only [hexValue?, char_le_iff, zero, nine, smallA, smallF, capitalA, capitalF]
  split at point
  · rw [if_pos (by omega)]
    exact congrArg some (by omega)
  · rcases place with same | ⟨_, _, shifted⟩
    · rw [if_neg (by omega), if_pos (by omega)]
      exact congrArg some (by omega)
    · rw [if_neg (by omega), if_neg (by omega), if_pos (by omega)]
      exact congrArg some (by omega)

theorem code_unit_append
    {unit : Nat}
    {digits : List Char}
    (spelled : SpellsUnit unit digits)
    (small : unit < 0x10000)
    (rest : List Char) :
    codeUnit (digits ++ rest) = some (unit, rest) := by
  rw [SpellsUnit] at spelled
  simp only [Text.hexDigits, List.nil_append, List.cons_append, List.map_eq_cons_iff,
    List.map_eq_nil_iff] at spelled
  obtain ⟨a, _, rfl, first, b, _, rfl, second, c, _, rfl, third, d, _, rfl, fourth, rfl⟩ := spelled
  have value (count : Nat) : count % 16 < 16 := Nat.mod_lt _ (by decide)
  simp only [List.cons_append, List.nil_append, codeUnit, hex_value_of_lower (value _) first,
    hex_value_of_lower (value _) second, hex_value_of_lower (value _) third,
    hex_value_of_lower (value _) fourth, Option.bind_eq_bind, Option.bind_some]
  have whole : (unit / 16 / 16 / 16 % 16 * 16 + unit / 16 / 16 % 16) * 256 +
      (unit / 16 % 16 * 16 + unit % 16) = unit := by
    omega
  rw [whole]

theorem char_bounds (c : Char) :
    c.toNat < 0xD800 ∨ (0xDFFF < c.toNat ∧ c.toNat < 0x110000) :=
  c.valid

theorem escaped_unit
    {c : Char}
    {digits : List Char}
    (small : c.toNat < 0x10000)
    (spelled : SpellsUnit c.toNat digits)
    (rest : List Char) :
    escapedUnits (digits ++ rest) = some (c, rest) := by
  have bounds := char_bounds c
  have high : isHighSurrogate c.toNat = false := by
    simp only [isHighSurrogate, Bool.and_eq_false_iff, decide_eq_false_iff_not]
    omega
  have low : isLowSurrogate c.toNat = false := by
    simp only [isLowSurrogate, Bool.and_eq_false_iff, decide_eq_false_iff_not]
    omega
  simp [escapedUnits, code_unit_append spelled small rest, high, low]

/-- Two code units stand for one code point. -/
theorem surrogates_together
    {point : Nat}
    (large : 0x10000 ≤ point)
    (small : point < 0x110000)
    {first second : List Char}
    (high : SpellsUnit (0xD800 + (point - 0x10000) / 0x400) first)
    (low : SpellsUnit (0xDC00 + (point - 0x10000) % 0x400) second)
    (rest : List Char) :
    escapedUnits (first ++ '\\' :: 'u' :: second ++ rest) = some (Char.ofNat point, rest) := by
  obtain ⟨offset, rfl⟩ := Nat.exists_eq_add_of_le large
  rw [Nat.add_sub_cancel_left] at high low
  generalize inHigh : 0xD800 + offset / 0x400 = highUnit at high
  generalize inLow : 0xDC00 + offset % 0x400 = lowUnit at low
  have isHigh : isHighSurrogate highUnit = true := by
    simp only [isHighSurrogate, Bool.and_eq_true, decide_eq_true_eq]
    omega
  have isLow : isLowSurrogate lowUnit = true := by
    simp only [isLowSurrogate, Bool.and_eq_true, decide_eq_true_eq]
    omega
  have together : 0x10000 + (highUnit - 0xD800) * 0x400 + (lowUnit - 0xDC00) = 0x10000 + offset := by
    omega
  have one := code_unit_append high (by omega) ('\\' :: 'u' :: second ++ rest)
  have two := code_unit_append low (by omega) rest
  rw [List.append_assoc, escapedUnits, one]
  simp only [Option.bind_eq_bind, Option.bind_some, isHigh, if_true, List.cons_append, afterWord?,
    two, isLow, together]

theorem escaped_units
    {c : Char}
    {first second : List Char}
    (large : 0x10000 ≤ c.toNat)
    (high : SpellsUnit (0xD800 + (c.toNat - 0x10000) / 0x400) first)
    (low : SpellsUnit (0xDC00 + (c.toNat - 0x10000) % 0x400) second)
    (rest : List Char) :
    escapedUnits (first ++ '\\' :: 'u' :: second ++ rest) = some (c, rest) := by
  have bounds := char_bounds c
  rw [surrogates_together large (by omega) high low, Char.ofNat_toNat]

/-- A backslash is the beginning of an escape, which ends by itself. -/
theorem characters_of_escape
    {fuel : Nat}
    {c : Char}
    {escaped content text rest : List Char}
    (escape_read : escape (escaped ++ (text ++ '"' :: rest)) = some (c, text ++ '"' :: rest))
    (others : characters fuel (text ++ '"' :: rest) = some (content, rest)) :
    characters (fuel + 1) ('\\' :: escaped ++ (text ++ '"' :: rest)) =
      some (c :: content, rest) := by
  rw [List.cons_append, characters]
  simp [escape_read, others]

theorem letter_escape
    {letter c : Char}
    (listed : (letter, c) ∈ letterEscapes)
    (rest : List Char) :
    escape (letter :: rest) = some (c, rest) := by
  simp only [letterEscapes, List.mem_cons, Prod.mk.injEq, List.not_mem_nil, or_false] at listed
  rcases listed with ⟨rfl, rfl⟩ | ⟨rfl, rfl⟩ | ⟨rfl, rfl⟩ | ⟨rfl, rfl⟩ | ⟨rfl, rfl⟩ | ⟨rfl, rfl⟩ |
    ⟨rfl, rfl⟩ | ⟨rfl, rfl⟩ <;> rfl

/-- The inside of a string is read up to the quote that closes it. -/
theorem characters_append
    {content text : List Char}
    (spelled : SpellsChars content text)
    {fuel : Nat}
    (enough : content.length < fuel)
    (rest : List Char) :
    characters fuel (text ++ '"' :: rest) = some (content, rest) := by
  induction spelled generalizing fuel with
  | nil =>
      obtain ⟨fuel, rfl⟩ := Nat.exists_eq_add_one_of_ne_zero (Nat.ne_of_gt enough)
      rfl
  | @cons c content first later spelledChar spelledRest ih =>
      obtain ⟨fuel, rfl⟩ := Nat.exists_eq_add_one_of_ne_zero (Nat.ne_of_gt (Nat.zero_lt_of_lt enough))
      have others := ih (Nat.lt_of_succ_lt_succ enough)
      rw [List.append_assoc]
      cases spelledChar with
      | plain quote backslash control =>
          rw [List.singleton_append, characters]
          simp [quote, backslash, Nat.not_lt.mpr control, others]
      | letter listed =>
          exact characters_of_escape (letter_escape listed _) others
      | unit small spelledUnit =>
          exact characters_of_escape (escaped_unit small spelledUnit _) others
      | units large high low =>
          exact characters_of_escape (escaped_units large high low _) others

theorem chars_not_longer
    {content text : List Char}
    (spelled : SpellsChars content text) :
    content.length ≤ text.length := by
  induction spelled with
  | nil => exact Nat.le_refl _
  | @cons c content first later spelledChar spelledRest ih =>
      have positive : 0 < first.length := List.length_pos_iff.mpr (by cases spelledChar <;> simp)
      simp only [List.length_cons, List.length_append]
      omega

/-- A string is read behind its opening quote. -/
theorem string_append
    {content : String}
    {text : List Char}
    (spelled : SpellsString content text)
    {size : Nat}
    (enough : text.length ≤ size)
    (rest : List Char) :
    ∃ behind, text = '"' :: behind ∧ string size (behind ++ rest) = some (content, rest) := by
  obtain ⟨inside, chars, rfl⟩ := spelled
  have bound := chars_not_longer chars
  simp only [List.cons_append, List.length_cons, List.length_append, List.length_nil] at enough
  have read := characters_append chars (show content.toList.length < size by omega) rest
  refine ⟨inside ++ ['"'], rfl, ?_⟩
  rw [List.append_assoc, List.singleton_append, string, read]
  simp

end Typeset.Json.Reader
