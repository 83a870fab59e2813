import Typeset.Proofs.Text.Reading

/-!
The words of a text: what stands between its gaps. Some characters may be marks, which are words
of their own wherever they stand. A text of words and marks is read part by part: `word_reads` and
`mark_closed`.
-/

set_option autoImplicit false

namespace Typeset.Text

/-- What stands between the gaps of a text. -/
def split (text : List Char) : List String :=
  ((text.splitOnP isGap).filter (· ≠ [])).map String.ofList

theorem split_at_gap
    (before after : List Char)
    {c : Char}
    (gap : isGap c = true) :
    split (before ++ c :: after) = split before ++ split after := by
  rw [split, List.splitOnP_append_cons before after gap, List.filter_append, List.map_append]
  rfl

theorem split_behind_gap
    (text : List Char)
    {c : Char}
    (gap : isGap c = true) :
    split (c :: text) = split text :=
  split_at_gap [] text gap

theorem split_word
    {word : String}
    (some : word ≠ "")
    (whole : ∀ c ∈ word.toList, isGap c = false) :
    split word.toList = [word] := by
  have filled : word.toList ≠ [] := by
    intro empty
    exact some (String.toList_inj.mp empty)
  rw [split, List.splitOnP_eq_singleton whole]
  simp [filled]

/-- A word in front of a gap, or at the end of the text. -/
theorem split_word_append
    {word : String}
    {rest : List Char}
    (some : word ≠ "")
    (whole : ∀ c ∈ word.toList, isGap c = false)
    (ended : ∀ c, rest.head? = Option.some c → isGap c = true) :
    split (word.toList ++ rest) = word :: split rest := by
  cases rest with
  | nil =>
      rw [List.append_nil, split_word some whole]
      rfl
  | cons c others =>
      have gap := ended c rfl
      rw [split_at_gap _ _ gap, split_word some whole, split_behind_gap others gap]
      rfl

/-- The text with a space on both sides of every mark. -/
def setApart (isMark : Char → Bool) (text : List Char) : List Char :=
  text.flatMap fun c => if isMark c then [' ', c, ' '] else [c]

theorem set_apart_nothing (text : List Char) : setApart (fun _ => false) text = text :=
  List.flatMap_singleton' text

theorem set_apart_append (isMark : Char → Bool) (before after : List Char) :
    setApart isMark (before ++ after) = setApart isMark before ++ setApart isMark after :=
  List.flatMap_append

theorem set_apart_mark
    {isMark : Char → Bool}
    {c : Char}
    (mark : isMark c = true)
    (rest : List Char) :
    setApart isMark (c :: rest) = ' ' :: c :: ' ' :: setApart isMark rest := by
  rw [setApart, List.flatMap_cons, if_pos mark]
  rfl

theorem set_apart_other
    {isMark : Char → Bool}
    {c : Char}
    (other : isMark c = false)
    (rest : List Char) :
    setApart isMark (c :: rest) = c :: setApart isMark rest := by
  rw [setApart, List.flatMap_cons, if_neg (Bool.not_eq_true _ ▸ other)]
  rfl

theorem set_apart_of_plain
    {isMark : Char → Bool}
    {text : List Char}
    (plain : ∀ c ∈ text, isMark c = false) :
    setApart isMark text = text := by
  induction text with
  | nil => rfl
  | cons c rest ih =>
      obtain ⟨first, later⟩ := List.forall_mem_cons.mp plain
      rw [set_apart_other first, ih later]

theorem is_gap_space : isGap ' ' = true := rfl

/-- Reading a text as its words, where marks are words of their own. -/
def words (isMark : Char → Bool) : Reading String where
  read text := some (split (setApart isMark text))
  bounds c := isGap c || isMark c
  read_nil := rfl
  gap_bounds := by
    intro c gap
    rw [gap, Bool.true_or]
  read_gap := by
    intro c rest gap
    cases mark : isMark c with
    | true =>
        rw [set_apart_mark mark, split_behind_gap _ is_gap_space, split_behind_gap _ gap,
          split_behind_gap _ is_gap_space]
    | false => rw [set_apart_other mark, split_behind_gap _ gap]

section Marks

variable {isMark : Char → Bool}

theorem set_apart_bounded
    {rest : List Char}
    (bounded : (words isMark).Bounded rest) :
    ∀ c, (setApart isMark rest).head? = some c → isGap c = true := by
  cases rest with
  | nil =>
      intro c same
      cases same
  | cons first others =>
      cases mark : isMark first with
      | true =>
          rw [set_apart_mark mark]
          rintro _ ⟨⟩
          rfl
      | false =>
          have bounds : (isGap first || isMark first) = true := bounded first rfl
          rw [set_apart_other mark]
          rintro _ ⟨⟩
          rwa [mark, Bool.or_false] at bounds

theorem word_reads
    {word : String}
    (some : word ≠ "")
    (whole : ∀ c ∈ word.toList, isGap c = false)
    (plain : ∀ c ∈ word.toList, isMark c = false) :
    (words isMark).ReadsAs word.toList [word] := by
  intro rest bounded
  change Option.some (split (setApart isMark (word.toList ++ rest))) = _
  rw [set_apart_append, set_apart_of_plain plain,
    split_word_append some whole (set_apart_bounded bounded)]
  rfl

theorem mark_opens {c : Char} (mark : isMark c = true) : (words isMark).Opens [c] := by
  refine ⟨c, [], rfl, ?_⟩
  change (isGap c || isMark c) = true
  rw [mark, Bool.or_true]

theorem mark_closed
    {c : Char}
    (mark : isMark c = true)
    (visible : isGap c = false) :
    (words isMark).Closed [c] [String.singleton c] := by
  intro rest
  have single : ∀ other ∈ (String.singleton c).toList, isGap other = false := by
    intro other member
    rw [String.toList_singleton, List.mem_singleton] at member
    rwa [member]
  have ended : ∀ other, (' ' :: setApart isMark rest).head? = some other → isGap other = true := by
    rintro _ ⟨⟩
    rfl
  have filled : String.singleton c ≠ "" := by simp
  have alone := split_word_append filled single ended
  change some (split (setApart isMark ([c] ++ rest))) = _
  rw [List.singleton_append, set_apart_mark mark, split_behind_gap _ is_gap_space]
  rw [String.toList_singleton, List.singleton_append] at alone
  rw [alone, split_behind_gap _ is_gap_space]
  rfl

end Marks

end Typeset.Text
