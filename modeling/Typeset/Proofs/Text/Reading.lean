/-!
Reading a text word by word. Gaps between words do not count, and some characters end whatever
word stands before them. A part of a text is looked at with what follows it still there, so that
parts can be put together without a word of theirs running into the next one: `ReadsAs.append`.
-/

set_option autoImplicit false

namespace Typeset.Text

/-- A space or a line break. -/
def isGap (c : Char) : Bool := c == ' ' || c == '\n'

def Gap (text : List Char) : Prop := text ≠ [] ∧ ∀ c ∈ text, isGap c = true

theorem gap_space : Gap [' '] := ⟨List.cons_ne_nil _ _, by simp [isGap]⟩

theorem gap_cases {c : Char} (gap : isGap c = true) : c = ' ' ∨ c = '\n' := by
  simpa [isGap] using gap

/-- Of two kinds of characters that exclude each other, either excludes the other. -/
theorem excluded
    {first second : Char → Bool}
    (c : Char)
    (apart : ∀ other, first other = true → second other = false)
    (holds : second c = true) :
    first c = false := by
  cases found : first c with
  | false => rfl
  | true =>
      rw [apart c found] at holds
      cases holds

/-- A way to read texts as words of some kind. No word goes on with a character that bounds it,
and a gap before a word makes no difference. -/
structure Reading (Word : Type) where
  read : List Char → Option (List Word)
  bounds : Char → Bool
  read_nil : read [] = some []
  gap_bounds : ∀ c, isGap c = true → bounds c = true
  read_gap : ∀ c rest, isGap c = true → read (c :: rest) = read rest

namespace Reading

variable {Word : Type} {reading : Reading Word}

/-- What comes first ends the word before it. At the end of a text nothing has to. -/
def Bounded (reading : Reading Word) (text : List Char) : Prop :=
  ∀ c, text.head? = some c → reading.bounds c = true

/-- The text ends the word before it, whatever follows the text. -/
def Opens (reading : Reading Word) (text : List Char) : Prop :=
  ∃ c rest, text = c :: rest ∧ reading.bounds c = true

/-- The text is read as the words, when what follows it ends the last of them. -/
def ReadsAs (reading : Reading Word) (text : List Char) (words : List Word) : Prop :=
  ∀ rest, reading.Bounded rest → reading.read (text ++ rest) = (reading.read rest).map (words ++ ·)

/-- The text is read as the words, whatever follows it. -/
def Closed (reading : Reading Word) (text : List Char) (words : List Word) : Prop :=
  ∀ rest, reading.read (text ++ rest) = (reading.read rest).map (words ++ ·)

theorem Closed.reads_as
    {text : List Char}
    {words : List Word}
    (closed : reading.Closed text words) :
    reading.ReadsAs text words := by
  intro rest _
  exact closed rest

theorem Opens.append
    {text : List Char}
    (opens : reading.Opens text)
    (rest : List Char) :
    reading.Opens (text ++ rest) := by
  obtain ⟨c, others, rfl, bound⟩ := opens
  exact ⟨c, others ++ rest, rfl, bound⟩

theorem Opens.bounded {text : List Char} (opens : reading.Opens text) : reading.Bounded text := by
  obtain ⟨first, others, rfl, bound⟩ := opens
  intro c same
  cases same
  exact bound

theorem words_behind (earlier later : List Word) (read : Option (List Word)) :
    (read.map (later ++ ·)).map (earlier ++ ·) = read.map (earlier ++ later ++ ·) := by
  rw [Option.map_map]
  congr 1
  funext words
  exact (List.append_assoc _ _ _).symm

theorem ReadsAs.append
    {before after : List Char}
    {earlier later : List Word}
    (first : reading.ReadsAs before earlier)
    (second : reading.ReadsAs after later)
    (opens : reading.Opens after) :
    reading.ReadsAs (before ++ after) (earlier ++ later) := by
  intro rest bounded
  rw [List.append_assoc, first _ (opens.append rest).bounded, second rest bounded, words_behind]

theorem Closed.append
    {before after : List Char}
    {earlier later : List Word}
    (first : reading.Closed before earlier)
    (second : reading.ReadsAs after later) :
    reading.ReadsAs (before ++ after) (earlier ++ later) := by
  intro rest bounded
  rw [List.append_assoc, first _, second rest bounded, words_behind]

theorem gap_opens {gap : List Char} (isGap : Gap gap) : reading.Opens gap := by
  obtain ⟨some, blank⟩ := isGap
  cases gap with
  | nil => exact absurd rfl some
  | cons c rest => exact ⟨c, rest, rfl, reading.gap_bounds c (blank c List.mem_cons_self)⟩

theorem gap_closed {gap : List Char} (isGap : Gap gap) : reading.Closed gap [] := by
  obtain ⟨-, blank⟩ := isGap
  intro rest
  have skipped : reading.read (gap ++ rest) = reading.read rest := by
    induction gap with
    | nil => rfl
    | cons c others ih =>
        obtain ⟨first, later⟩ := List.forall_mem_cons.mp blank
        rw [List.cons_append, reading.read_gap c _ first, ih later]
  rw [skipped]
  exact Option.map_id_apply.symm

theorem nothing_closed (reading : Reading Word) : reading.Closed [] [] := by
  intro rest
  exact Option.map_id_apply.symm

/-- A text that is read as words in front of others is read as these words alone. -/
theorem ReadsAs.read_eq
    {text : List Char}
    {words : List Word}
    (reads : reading.ReadsAs text words) :
    reading.read text = some words := by
  have ended : reading.Bounded [] := by
    intro c same
    cases same
  have whole := reads [] ended
  rw [List.append_nil, reading.read_nil] at whole
  rw [whole, Option.map_some, List.append_nil]

end Reading

end Typeset.Text
