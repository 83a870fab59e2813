import Typeset.Proofs.Layout.Filling
import Typeset.Proofs.Layout.Nesting
import Typeset.Proofs.Token.Lines

/-!
Words that are packed greedily. A word shares the line with the one before it if a space and the
word fit there, and else it starts a line. A filled text offers the whole rest of the words behind
every one of them, flattened or as given, and a row of soft breaks offers a space or a break
between each two. Both come to this packing, as the rest of the words is on the line only as far
as it fits: `fill_packs_greedily`.
-/

set_option autoImplicit false

namespace Typeset

namespace Token

/-- The tokens of words that follow a text which ends at the column. Lines that they start are
indented by `indent`. -/
def packBehind (width indent : Int) : (column : Int) → List String → List Token
  | _, [] => []
  | column, word :: rest =>
      if column + 1 + word.length ≤ width then
        .text " " :: .text word :: packBehind width indent (column + 1 + word.length) rest
      else .line indent :: .text word :: packBehind width indent (indent + word.length) rest

/-- The tokens of words that are packed greedily. The first word stands at the column. -/
def pack (width indent column : Int) : List String → List Token
  | [] => []
  | first :: rest => .text first :: packBehind width indent (column + first.length) rest

section

variable (width indent : Int)

/-- More words are on the line only as far as they fit, so they make no difference to whether
the line does. -/
theorem fits_pack_behind (column : Int) (words : List String) :
    fits (packBehind width indent column words) (width - column) = true ↔ column ≤ width := by
  induction words generalizing column with
  | nil =>
      rw [packBehind, fits_iff]
      simp only [firstLength]
      omega
  | cons word rest ih =>
      rw [packBehind]
      split
      · rename_i fitting
        have later := ih (column + 1 + word.length)
        have blank : (" ".length : Int) = 1 := rfl
        have remaining : width - column - (" ".length : Int) - (word.length : Int) =
            width - (column + 1 + word.length) := by omega
        rw [fits_behind_text, fits_behind_text, remaining, later]
        omega
      · rw [fits_iff]
        simp only [firstLength]
        omega

theorem widths_of_pack_behind
    (column : Int)
    (words : List String)
    (within : column ≤ width)
    (room : ∀ word ∈ words, indent + word.length ≤ width) :
    ∀ reach ∈ lineWidths column (packBehind width indent column words), reach ≤ width := by
  induction words generalizing column with
  | nil => simpa [packBehind, lineWidths] using within
  | cons word rest ih =>
      obtain ⟨here, later⟩ := List.forall_mem_cons.mp room
      rw [packBehind]
      split
      · rename_i fitting
        exact ih _ fitting later
      · simp only [lineWidths]
        exact List.forall_mem_cons.mpr ⟨within, ih _ here later⟩

/-- What holds of the break, of the space and of every word holds of all the tokens. -/
theorem all_of_pack_behind
    (holds : Token → Prop)
    (broken : holds (.line indent))
    (spaced : holds (.text " "))
    {words : List String}
    (written : ∀ word ∈ words, holds (.text word))
    (column : Int) :
    ∀ token ∈ packBehind width indent column words, holds token := by
  induction words generalizing column with
  | nil => simp [packBehind]
  | cons word rest ih =>
      obtain ⟨here, later⟩ := List.forall_mem_cons.mp written
      rw [packBehind]
      split
      · exact List.forall_mem_cons.mpr ⟨spaced, List.forall_mem_cons.mpr ⟨here, ih later _⟩⟩
      · exact List.forall_mem_cons.mpr ⟨broken, List.forall_mem_cons.mpr ⟨here, ih later _⟩⟩

theorem all_of_pack
    (holds : Token → Prop)
    (broken : holds (.line indent))
    (spaced : holds (.text " "))
    {words : List String}
    (written : ∀ word ∈ words, holds (.text word))
    (column : Int) :
    ∀ token ∈ pack width indent column words, holds token := by
  cases words with
  | nil => simp [pack]
  | cons first rest =>
      obtain ⟨here, later⟩ := List.forall_mem_cons.mp written
      have behind := all_of_pack_behind width indent holds broken spaced later (column + first.length)
      exact List.forall_mem_cons.mpr ⟨here, behind⟩

end

/-- Words that fit on lines of their own are packed into lines that fit. -/
theorem pack_within
    {width indent column : Int}
    {words : List String}
    (nonneg : 0 ≤ indent)
    (room : ∀ word ∈ words, indent + word.length ≤ width)
    (start : column + (words.headD "").length ≤ width) :
    LinesWithin width column (lines (pack width indent column words)) := by
  have widths : ∀ reach ∈ lineWidths column (pack width indent column words), reach ≤ width := by
    cases words with
    | nil => simpa [pack, lineWidths] using start
    | cons first rest =>
        exact widths_of_pack_behind width indent _ rest start (List.forall_mem_cons.mp room).2
  have breaks : ∀ other, .line other ∈ pack width indent column words → 0 ≤ other := by
    intro other member
    refine all_of_pack width indent (fun token => ∀ other, token = .line other → 0 ≤ other)
      ?_ ?_ ?_ column _ member other rfl
    · rintro _ ⟨⟩
      exact nonneg
    · rintro _ ⟨⟩
    · rintro _ _ _ ⟨⟩
  have within := lines_within "" widths breaks
  rw [String.length_empty, Int.natCast_zero, Int.sub_zero] at within
  exact within

/-- Words without line breaks have a text whose lines are those of the tokens. -/
theorem pieces_render_pack
    (width indent column : Int)
    {words : List String}
    (single : ∀ word ∈ words, '\n' ∉ word.toList) :
    Text.pieces '\n' (render (pack width indent column words)) =
      lines (pack width indent column words) := by
  have texts : ∀ content, .text content ∈ pack width indent column words →
      '\n' ∉ content.toList := by
    intro content member
    refine all_of_pack width indent (fun token => ∀ content, token = .text content →
      '\n' ∉ content.toList) ?_ ?_ ?_ column _ member content rfl
    · rintro _ ⟨⟩
    · rintro _ ⟨⟩
      decide
    · rintro word given _ ⟨⟩
      exact single word given
  rw [lines, ← pieces_render (by simp) texts, String.empty_append]

end Token

namespace Layout

open Build

/-- The text that is filled with words. Words are flat already, so both forms of every tail are
one. -/
def filledWords : List String → Layout
  | [] => .empty
  | [last] => .text last
  | word :: next :: rest =>
      .choice (spaceJoin (.text word) (filledWords (next :: rest)))
        (breakJoin (.text word) (filledWords (next :: rest)))

theorem filled_words_clean (words : List String) : (filledWords words).Clean := by
  fun_induction filledWords words with
  | case1 => trivial
  | case2 last => trivial
  | case3 word next rest ih => exact ⟨⟨trivial, trivial, ih⟩, trivial, trivial, ih⟩

theorem flatten_word (word : String) : flatten (.text word) = .ok (.text word) :=
  (flatten_eq_ok_iff _ _).mpr rfl

theorem filled_texts (words : List String) :
    filled (words.map .text) = .ok (filledWords words) := by
  fun_induction filledWords words with
  | case1 => rw [List.map_nil, filled]
  | case2 last => rw [List.map_singleton, filled]
  | case3 word next rest ih =>
      exact filled_cons (flatten_word word) (flatten_word next) ih ih

theorem words_give (words : List String) :
    ((words.map Item.text).mapM Item.toLayout).Gives (words.map .text) := by
  induction words with
  | nil => exact fun _ => rfl
  | cons word rest ih =>
      rw [List.map_cons, List.mapM_cons]
      have here : (Item.text word).toLayout.Gives (.text word) := fun _ => rfl
      exact here.bind (ih.bind fun _ => rfl)

theorem fill_words_gives (words : List String) :
    (fill (words.map .text)).Gives (filledWords words) := by
  cases words with
  | nil => exact fun _ => rfl
  | cons first rest =>
      have clean : ∀ layout ∈ Layout.text first :: rest.map .text, layout.Clean := by simp [Clean]
      obtain ⟨tail, _, fills, given⟩ := fill_tail_fills _ _ clean
      obtain same := Except.ok.inj ((filled_texts (first :: rest)).symm.trans fills.asGiven)
      intro checked
      rw [same]
      exact run_fill (words_give (first :: rest) checked) (given checked)

/-- The first words of a filled text share a line exactly if the first two fit on it. -/
theorem greedy_filled_words (width indent column : Int) (words : List String) :
    Queue.greedy width column [⟨indent, filledWords words⟩] =
      Token.pack width indent column words := by
  fun_induction filledWords words generalizing column with
  | case1 => simp [Queue.greedy, Token.pack]
  | case2 last => simp [Queue.greedy, Token.pack, Token.packBehind]
  | case3 word next rest ih =>
      have blank : (" ".length : Int) = 1 := rfl
      have preferred : Queue.greedy width column
          [⟨indent, spaceJoin (.text word) (filledWords (next :: rest))⟩] =
            .text word :: .text " " ::
              Token.pack width indent (column + word.length + 1) (next :: rest) := by
        simp only [spaceJoin, space, Queue.greedy, ih, blank]
      have other : Queue.greedy width column
          [⟨indent, breakJoin (.text word) (filledWords (next :: rest))⟩] =
            .text word :: .line indent :: Token.pack width indent indent (next :: rest) := by
        simp only [breakJoin, Queue.greedy, ih]
      have fitting := Token.fits_pack_behind width indent
        (column + word.length + 1 + next.length) rest
      have remaining : width - column - (word.length : Int) - (" ".length : Int) -
          (next.length : Int) = width - (column + word.length + 1 + next.length) := by omega
      rw [Queue.greedy]
      simp only [preferred, other, Token.pack, Token.packBehind, Token.fits_behind_text, remaining,
        fitting]
      split <;> rfl

/-- A soft break is a space exactly if what follows fits behind it. -/
theorem greedy_soft_break (width column indent : Int) (rest : Queue) :
    Queue.greedy width column (⟨indent, .choice space .lineBreak⟩ :: rest) =
      if Token.fits (Queue.greedy width (column + 1) rest) (width - column - 1) then
        .text " " :: Queue.greedy width (column + 1) rest
      else .line indent :: Queue.greedy width indent rest := by
  have blank : (" ".length : Int) = 1 := rfl
  simp only [space, Queue.greedy, blank, Token.fits_behind_text]

theorem greedy_soft_words (width indent column : Int) (words : List String) :
    Queue.greedy width column
        [⟨indent, continued (.choice space .lineBreak) (words.map .text)⟩] =
      Token.packBehind width indent column words := by
  induction words generalizing column with
  | nil => simp [continued, Queue.greedy, Token.packBehind]
  | cons word rest ih =>
      have fitting := Token.fits_pack_behind width indent (column + 1 + word.length) rest
      have remaining : width - column - 1 - (word.length : Int) =
          width - (column + 1 + word.length) := by omega
      rw [List.map_cons, continued, Queue.greedy, greedy_soft_break]
      simp only [Queue.greedy, ih, Token.packBehind, Token.fits_behind_text, remaining, fitting]

theorem soft_row_clean (words : List String) :
    (continued (.choice space .lineBreak) (words.map .text)).Clean := by
  induction words with
  | nil => trivial
  | cons word rest ih => exact ⟨⟨trivial, trivial⟩, trivial, ih⟩

/-- Items that are texts are folded as layouts are. -/
theorem fold_words (join : Layout → Layout → Build Layout) (words : List String) :
    fold join (words.map .text) = fold join ((words.map .text).map .node) := by
  cases words with
  | nil => rfl
  | cons first rest => simp only [List.map_cons, fold, List.foldlM_map, Item.toLayout]

/-- The words with soft breaks between them, up to their nesting. -/
theorem soft_words_give (words : List String) :
    ∃ joined row, (fold softJoin (words.map .text)).Gives joined ∧ row.Clean ∧
      joined.Interchangeable row ∧
      ∀ width indent column,
        Queue.greedy width column [⟨indent, row⟩] = Token.pack width indent column words := by
  cases words with
  | nil =>
      refine ⟨.empty, .empty, fun _ => rfl, trivial, .refl _, ?_⟩
      intro width indent column
      simp [Queue.greedy, Token.pack]
  | cons first rest =>
      obtain ⟨joined, given, alike⟩ :=
        joined_from_left soft_join_puts_between (.text first) (rest.map .text)
      have clean : (Layout.concat (.text first) _).Clean := ⟨trivial, soft_row_clean rest⟩
      refine ⟨joined, _, ?_, clean, alike, ?_⟩
      · rw [fold_words]
        exact given
      · intro width indent column
        rw [Queue.greedy, Queue.greedy, greedy_soft_words, Token.pack]

/-- The filled text and the one with soft breaks are resolved alike at every indentation, width
and column: to the words packed greedily. If every word fits on a line of its own and the first
one fits where it starts, then no rendered line is wider than asked for, and where no word holds a
line break, none is reported to be. -/
theorem fill_packs_greedily (words : List String) :
    ∃ filledText joinedText,
      (fill (words.map .text)).Gives filledText ∧
      (fold softJoin (words.map .text)).Gives joinedText ∧
      ∀ amount width column,
        ((indent amount filledText).resolve width column).all =
          ⟨Token.pack width amount column words, none⟩ ∧
        ((indent amount joinedText).resolve width column).all =
          ⟨Token.pack width amount column words, none⟩ ∧
        (0 ≤ amount → (∀ word ∈ words, amount + word.length ≤ width) →
          column + (words.headD "").length ≤ width →
            Token.LinesWithin width column
                (Token.lines (Token.pack width amount column words)) ∧
              ((∀ word ∈ words, '\n' ∉ word.toList) → ∀ formatter,
                Rendering.hasOverflow ⟨Token.render (Token.pack width amount column words),
                  formatter, width, column⟩ = false)) := by
  obtain ⟨joined, row, joinedGiven, rowClean, alike, rowTokens⟩ := soft_words_give words
  refine ⟨filledWords words, joined, fill_words_gives words, joinedGiven, ?_⟩
  intro amount width column
  refine ⟨?_, ?_, ?_⟩
  · have clean : (indent amount (filledWords words)).Clean := filled_words_clean words
    rw [resolve, Queue.resolve_all_eq width column _ (Queue.clean_singleton 0 clean),
      Queue.greedy, Int.zero_add, greedy_filled_words]
  · have clean : (indent amount row).Clean := rowClean
    have same := (Context.indent amount .hole).sees_alike alike width column
    simp only [Context.plug] at same
    rw [same, resolve, Queue.resolve_all_eq width column _ (Queue.clean_singleton 0 clean),
      Queue.greedy, Int.zero_add, rowTokens]
  · intro nonneg room start
    have within := Token.pack_within nonneg room start
    refine ⟨within, ?_⟩
    intro single formatter
    apply Rendering.no_overflow_of_within
    rw [Rendering.lines, Token.pieces_render_pack width amount column single]
    exact within

/-- Six columns take two words, and the third one starts a line. The empty word that follows it
takes no more than its space. -/
theorem four_words_packed :
    ∃ filledText joinedText,
      (fill (["aa", "bb", "cc", ""].map .text)).Gives filledText ∧
      (fold softJoin (["aa", "bb", "cc", ""].map .text)).Gives joinedText ∧
      ((indent 2 filledText).resolve 6 0).all =
        ⟨[.text "aa", .text " ", .text "bb", .line 2, .text "cc", .text " ", .text ""], none⟩ ∧
      ((indent 2 joinedText).resolve 6 0).all =
        ⟨[.text "aa", .text " ", .text "bb", .line 2, .text "cc", .text " ", .text ""], none⟩ ∧
      (0 : Int) ≤ 2 ∧ (∀ word ∈ ["aa", "bb", "cc", ""], 2 + (word.length : Int) ≤ 6) ∧
      (0 : Int) + (["aa", "bb", "cc", ""].headD "").length ≤ 6 ∧
      (∀ word ∈ ["aa", "bb", "cc", ""], '\n' ∉ word.toList) ∧
      Rendering.hasOverflow ⟨"aa bb\n  cc ", "words", 6, 0⟩ = false := by
  obtain ⟨filledText, joinedText, filledGiven, joinedGiven, packed⟩ :=
    fill_packs_greedily ["aa", "bb", "cc", ""]
  obtain ⟨filledTokens, joinedTokens, within⟩ := packed 2 6 0
  have tokens : Token.pack 6 2 0 ["aa", "bb", "cc", ""] =
      [.text "aa", .text " ", .text "bb", .line 2, .text "cc", .text " ", .text ""] := by decide
  have room : ∀ word ∈ ["aa", "bb", "cc", ""], 2 + (word.length : Int) ≤ 6 := by decide
  have single : ∀ word ∈ ["aa", "bb", "cc", ""], '\n' ∉ word.toList := by decide
  have start : (0 : Int) + (["aa", "bb", "cc", ""].headD "").length ≤ 6 := by decide
  obtain ⟨_, noOverflow⟩ := within (by decide) room start
  rw [tokens] at filledTokens joinedTokens noOverflow
  exact ⟨filledText, joinedText, filledGiven, joinedGiven, filledTokens, joinedTokens, by decide,
    room, start, single, noOverflow single "words"⟩

end Layout

end Typeset
