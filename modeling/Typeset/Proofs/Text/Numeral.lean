import Mathlib.Data.List.TakeWhile

/-!
The written form of a whole number: decimal digits, behind a minus where the number is negative.
No zero stands in front of other digits.
-/

set_option autoImplicit false

namespace Typeset.Text

/-- What goes on as long as it can ends in front of the first character that is none of it. -/
theorem span_append
    {goesOn : Char → Bool}
    {text rest : List Char}
    (whole : ∀ c ∈ text, goesOn c = true)
    (ended : ∀ c, rest.head? = some c → goesOn c = false) :
    (text ++ rest).takeWhile goesOn = text ∧ (text ++ rest).dropWhile goesOn = rest := by
  rw [List.takeWhile_append_of_pos whole, List.dropWhile_append_of_pos whole]
  cases rest with
  | nil => exact ⟨List.append_nil _, rfl⟩
  | cons c others =>
      have stops := ended c rfl
      rw [List.takeWhile_cons_of_neg (by rw [stops]; decide), List.append_nil,
        List.dropWhile_cons_of_neg (by rw [stops]; decide)]
      exact ⟨rfl, rfl⟩

theorem numeral_of_nat (size : Nat) :
    (toString (Int.ofNat size)).toList = Nat.toDigits 10 size :=
  Nat.toList_repr

theorem numeral_neg_succ (size : Nat) :
    (toString (Int.negSucc size)).toList = '-' :: Nat.toDigits 10 (size + 1) := by
  change ("-" ++ Nat.repr (size + 1)).toList = _
  rw [String.toList_append, Nat.toList_repr]
  rfl

theorem digits_are_digits (size : Nat) : ∀ c ∈ Nat.toDigits 10 size, c.isDigit = true := by
  intro c member
  exact Nat.isDigit_of_mem_toDigits (by decide) (by decide) member

theorem digit_char_ne_zero : ∀ value < 10, 0 < value → Nat.digitChar value ≠ '0' := by decide

/-- The digits of a positive number do not begin with a zero. -/
theorem to_digits_head (size : Nat) (positive : 0 < size) :
    (Nat.toDigits 10 size).head? ≠ some '0' := by
  induction size using Nat.strongRecOn with
  | ind size ih =>
      by_cases small : size < 10
      · rw [Nat.toDigits_of_lt_base small]
        intro same
        exact digit_char_ne_zero size small positive (Option.some.inj same)
      · have shorter := ih (size / 10) (by omega) (by omega)
        rw [Nat.toDigits_of_base_le (by decide) (Nat.le_of_not_lt small)]
        cases form : Nat.toDigits 10 (size / 10) with
        | nil => exact absurd form Nat.toDigits_ne_nil
        | cons first others =>
            rw [form] at shorter
            exact shorter

theorem zero_stands_alone
    {size : Nat}
    {rest : List Char}
    (form : Nat.toDigits 10 size = '0' :: rest) :
    rest = [] := by
  by_cases positive : 0 < size
  · exact absurd (by rw [form]; rfl) (to_digits_head size positive)
  · obtain rfl : size = 0 := by omega
    rw [Nat.toDigits_zero] at form
    exact (List.cons.inj form).2.symm

theorem numeral_chars (value : Int) :
    ∀ c ∈ (toString value).toList, c = '-' ∨ c.isDigit = true := by
  intro c member
  cases value with
  | ofNat size =>
      rw [numeral_of_nat] at member
      exact .inr (digits_are_digits size c member)
  | negSucc size =>
      rw [numeral_neg_succ] at member
      exact (List.mem_cons.mp member).imp_right (digits_are_digits (size + 1) c)

theorem numeral_ne_empty (value : Int) : toString value ≠ "" := by
  intro empty
  have none : (toString value).toList = [] := String.toList_inj.mpr empty
  cases value with
  | ofNat size =>
      rw [numeral_of_nat] at none
      exact Nat.toDigits_ne_nil none
  | negSucc size =>
      rw [numeral_neg_succ] at none
      cases none

theorem to_digits_inj {size other : Nat} (same : Nat.toDigits 10 size = Nat.toDigits 10 other) :
    size = other := by
  rw [← @Nat.ofDigitChars_ten_toDigits size, same, Nat.ofDigitChars_ten_toDigits]

theorem no_sign_in_digits (size : Nat) (rest : List Char) :
    Nat.toDigits 10 size ≠ '-' :: rest := by
  intro form
  have digit : '-'.isDigit = true := digits_are_digits size '-' (by rw [form]; exact .head _)
  cases digit

/-- Two numbers are written alike only if they are one. -/
theorem numeral_inj {value other : Int} (same : toString value = toString other) :
    value = other := by
  have lists : (toString value).toList = (toString other).toList := congrArg String.toList same
  cases value with
  | ofNat size =>
      cases other with
      | ofNat otherSize =>
          rw [numeral_of_nat, numeral_of_nat] at lists
          rw [to_digits_inj lists]
      | negSucc otherSize =>
          rw [numeral_of_nat, numeral_neg_succ] at lists
          exact absurd lists (no_sign_in_digits _ _)
  | negSucc size =>
      cases other with
      | ofNat otherSize =>
          rw [numeral_of_nat, numeral_neg_succ] at lists
          exact absurd lists.symm (no_sign_in_digits _ _)
      | negSucc otherSize =>
          rw [numeral_neg_succ, numeral_neg_succ] at lists
          have sizes := to_digits_inj (List.cons.inj lists).2
          rw [Nat.succ.inj sizes]

end Typeset.Text
