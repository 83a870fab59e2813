import Typeset.Proofs.Json.Grammar
import Typeset.Proofs.Text.Numeral

/-!
Numbers in JSON texts. A number goes on for as long as its characters do, so it is read back in
front of what ends it: white space, a comma, a closing bracket or the end of the text.
-/

set_option autoImplicit false

namespace Typeset.Json

/-- What may follow a value. -/
def Ended (rest : List Char) : Prop :=
  ∀ c, rest.head? = some c → c ∈ [' ', '\t', '\n', '\r', ',', ']', '\x7d']

namespace Reader

theorem is_digit_eq (c : Char) : isDigit c = c.isDigit := by
  rw [isDigit, Text.asciiDigitValue?, Bool.eq_iff_iff]
  simp only [Char.isDigit, Char.le_def, Bool.and_eq_true, decide_eq_true_eq, ge_iff_le]
  split <;> simp_all

theorem digits_value_eq (text : List Char) (digits : Digits text) :
    digitsValue text = Nat.ofDigitChars 10 text 0 := by
  have behind (value : Nat) :
      text.foldl (fun total c => total * 10 + (Text.asciiDigitValue? c).getD 0) value =
        Nat.ofDigitChars 10 text value := by
    induction text generalizing value with
    | nil => rfl
    | cons c rest ih =>
        have digit : c.isDigit = true := digits c List.mem_cons_self
        have range : '0' ≤ c ∧ c ≤ '9' := by
          simpa only [Char.isDigit, Char.le_def, Bool.and_eq_true, decide_eq_true_eq, ge_iff_le]
            using digit
        rw [List.foldl_cons, ih fun other member => digits other (List.mem_cons_of_mem c member),
          Nat.ofDigitChars_cons, Text.asciiDigitValue?, if_pos range, Nat.mul_comm value]
        rfl
  exact behind 0

theorem digits_append
    {text rest : List Char}
    (whole : Digits text)
    (ended : ∀ c, rest.head? = some c → c.isDigit = false) :
    digits (text ++ rest) = (text, rest) := by
  have all : ∀ c ∈ text, isDigit c = true :=
    fun c member => (is_digit_eq c).trans (whole c member)
  have stops : ∀ c, rest.head? = some c → isDigit c = false :=
    fun c first => (is_digit_eq c).trans (ended c first)
  obtain ⟨taken, left⟩ := Text.span_append all stops
  rw [digits, taken, left]

theorem whole_part_append
    (size : Nat)
    {rest : List Char}
    (ended : ∀ c, rest.head? = some c → c.isDigit = false) :
    wholePart (Nat.toDigits 10 size ++ rest) = some (Nat.toDigits 10 size, rest) := by
  rw [wholePart, digits_append (Text.digits_are_digits size) ended]
  split
  · rename_i none same
    exact absurd (congrArg Prod.fst same) Nat.toDigits_ne_nil
  · rename_i second others left same
    have alone := Text.zero_stands_alone (congrArg Prod.fst same)
    cases alone
  · rename_i whole left _ _ same
    rw [same]

/-- What follows a value ends every part of a number. -/
theorem ended_head
    {rest : List Char}
    (ended : Ended rest)
    (c : Char)
    (first : rest.head? = some c) :
    c.isDigit = false ∧ c ≠ '.' ∧ c ≠ 'e' ∧ c ≠ 'E' := by
  have each : ∀ c ∈ [' ', '\t', '\n', '\r', ',', ']', '\x7d'],
      c.isDigit = false ∧ c ≠ '.' ∧ c ≠ 'e' ∧ c ≠ 'E' := by simp
  exact each c (ended c first)

theorem head_behind_fraction
    (places : List Char)
    {rest : List Char}
    (ended : ∀ c, rest.head? = some c → c.isDigit = false)
    (c : Char)
    (first : (fractionText places ++ rest).head? = some c) :
    c.isDigit = false := by
  cases places with
  | nil => exact ended c first
  | cons digit others =>
      obtain rfl : '.' = c := Option.some.inj first
      rfl

theorem head_behind_power
    {power : Int}
    {text rest : List Char}
    (spelled : SpellsPower power text)
    (ended : Ended rest)
    (c : Char)
    (first : (text ++ rest).head? = some c) :
    c.isDigit = false ∧ c ≠ '.' := by
  have letters : ∀ c, c = 'e' ∨ c = 'E' → c.isDigit = false ∧ c ≠ '.' := by
    rintro c (rfl | rfl) <;> decide
  cases spelled with
  | absent => exact ⟨(ended_head ended c first).1, (ended_head ended c first).2.1⟩
  | upward letter _ _ _ => exact letters c (Option.some.inj first ▸ letter)
  | downward letter _ _ => exact letters c (Option.some.inj first ▸ letter)

theorem fraction_append
    (places : List Char)
    (whole : Digits places)
    {rest : List Char}
    (ended : ∀ c, rest.head? = some c → c.isDigit = false ∧ c ≠ '.') :
    fraction (fractionText places ++ rest) =
      some (if places = [] then none else some places, rest) := by
  cases places with
  | nil =>
      change fraction rest = some (none, rest)
      unfold fraction
      split
      · exact absurd rfl (ended '.' rfl).2
      · rfl
  | cons digit others =>
      have taken := digits_append whole fun c first => (ended c first).1
      change fraction ('.' :: (digit :: others ++ rest)) = some (some (digit :: others), rest)
      rw [fraction, taken]

theorem signed_of_other
    {text : List Char}
    (other : ∀ c, text.head? = some c → c ≠ '+' ∧ c ≠ '-') :
    signed text = (false, text) := by
  unfold signed
  split
  · exact absurd rfl (other '+' rfl).1
  · exact absurd rfl (other '-' rfl).2
  · rfl

/-- The digits of a power of ten, behind its letter and the sign that was read. -/
theorem power_of_signed
    {letter : Char}
    {input text rest : List Char}
    {negative : Bool}
    (named : letter = 'e' ∨ letter = 'E')
    (sign : signed input = (negative, text ++ rest))
    (whole : Digits text)
    (someDigit : text ≠ [])
    (ended : Ended rest) :
    power (letter :: input) =
      some (some (signedValue negative (Nat.ofDigitChars 10 text 0)), rest) := by
  have taken := digits_append whole fun c first => (ended_head ended c first).1
  rw [power, if_pos named, sign]
  dsimp only
  rw [taken]
  cases text with
  | nil => exact absurd rfl someDigit
  | cons digit others =>
      dsimp only
      rw [digits_value_eq _ whole, signedValue]

theorem digits_bear_no_sign
    {text rest : List Char}
    (whole : Digits text)
    (someDigit : text ≠ [])
    (c : Char)
    (first : (text ++ rest).head? = some c) :
    c ≠ '+' ∧ c ≠ '-' := by
  cases text with
  | nil => exact absurd rfl someDigit
  | cons digit others =>
      obtain rfl : digit = c := Option.some.inj first
      have isDigit : digit.isDigit = true := whole digit List.mem_cons_self
      constructor <;> (rintro rfl; cases isDigit)

theorem power_append
    {value : Int}
    {text rest : List Char}
    (spelled : SpellsPower value text)
    (ended : Ended rest) :
    power (text ++ rest) = some (if text = [] then none else some value, rest) := by
  cases spelled with
  | absent =>
      change power rest = some (none, rest)
      cases rest with
      | nil => rfl
      | cons c others =>
          obtain ⟨_, _, small, capital⟩ := ended_head ended c rfl
          rw [power, if_neg (not_or.mpr ⟨small, capital⟩)]
  | @upward letter sign text named signs whole someDigit =>
      rcases signs with rfl | rfl
      · have bare : signed (text ++ rest) = (false, text ++ rest) :=
          signed_of_other (digits_bear_no_sign whole someDigit)
        exact power_of_signed named bare whole someDigit ended
      · have plus : signed ('+' :: (text ++ rest)) = (false, text ++ rest) := rfl
        exact power_of_signed named plus whole someDigit ended
  | @downward letter text named whole someDigit =>
      have minus : signed ('-' :: (text ++ rest)) = (true, text ++ rest) := rfl
      exact power_of_signed named minus whole someDigit ended

/-- The parts of a number are read back one after the other. -/
theorem number_of_parts
    (limits : Limits)
    (negative : Bool)
    {size : Nat}
    {places powerText rest : List Char}
    {power : Int}
    (short : (Nat.toDigits 10 size).length ≤ limits.digits)
    (whole : Digits places)
    (spelled : SpellsPower power powerText)
    (ended : Ended rest) :
    number limits negative
        (Nat.toDigits 10 size ++ (fractionText places ++ (powerText ++ rest))) =
      some
        (if places = [] ∧ powerText = [] then .int (signedValue negative size)
        else .real (.ofDecimal negative
          (Nat.ofDigitChars 10 (Nat.toDigits 10 size ++ places) 0) (power - places.length)),
        rest) := by
  have behindPower := head_behind_power spelled ended
  have behindPlaces := head_behind_fraction places fun c first => (behindPower c first).1
  have all : Digits (Nat.toDigits 10 size ++ places) := by
    intro c member
    exact (List.mem_append.mp member).elim (Text.digits_are_digits size c) (whole c)
  have allowed : (guard ((Nat.toDigits 10 size).length ≤ limits.digits) : Option Unit) = some () :=
    if_pos short
  rw [number, whole_part_append size behindPlaces, Option.bind_eq_bind, Option.bind_some]
  dsimp only
  rw [allowed]
  simp only [fraction_append places whole behindPower, power_append spelled ended,
    Option.bind_eq_bind, Option.bind_some]
  by_cases point : places = []
  · by_cases letter : powerText = []
    · subst point letter
      simp [signedValue, digits_value_eq _ (Text.digits_are_digits size)]
    · simp [point, letter, digits_value_eq _ (Text.digits_are_digits size)]
  · by_cases letter : powerText = []
    · have nothing : power = 0 := by
        cases spelled with
        | absent => rfl
        | upward => cases letter
        | downward => cases letter
      simp [point, letter, nothing, digits_value_eq _ all]
    · simp [point, letter, digits_value_eq _ all]

/-- A spelled number is read back, with the sign that stands before its first digit. -/
theorem number_append
    {limits : Limits}
    {value : Json}
    {text rest : List Char}
    (spelled : SpellsNumber limits.digits value text)
    (ended : Ended rest) :
    ∃ negative digit others, text = signText negative ++ digit :: others ∧
      digit.isDigit = true ∧
      number limits negative (digit :: others ++ rest) = some (value, rest) := by
  have begins (size : Nat) : ∃ digit others,
      Nat.toDigits 10 size = digit :: others ∧ digit.isDigit = true := by
    obtain ⟨digit, others, form⟩ := List.exists_cons_of_ne_nil (Nat.toDigits_ne_nil (n := size))
    exact ⟨digit, others, form, Text.digits_are_digits size digit (by rw [form]; exact .head _)⟩
  cases spelled with
  | @whole negative size short =>
      obtain ⟨digit, others, form, isDigit⟩ := begins size
      have noPlaces : Digits [] := fun _ member => absurd member List.not_mem_nil
      have read := number_of_parts limits negative short noPlaces .absent ended
      refine ⟨negative, digit, others, by rw [form], isDigit, ?_⟩
      rw [← form]
      simpa [fractionText] using read
  | @real negative size places powerText power short whole powerSpelled parts =>
      obtain ⟨digit, others, form, isDigit⟩ := begins size
      have read := number_of_parts limits negative short whole powerSpelled ended
      rw [if_neg (by rintro ⟨rfl, rfl⟩; simp at parts)] at read
      refine ⟨negative, digit, others ++ fractionText places ++ powerText, ?_, isDigit, ?_⟩
      · simp [form]
      · simpa [form] using read

end Reader

end Typeset.Json
