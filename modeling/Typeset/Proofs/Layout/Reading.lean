import Typeset.Proofs.Layout.Spelling
import Typeset.Proofs.Layout.Steady
import Typeset.Proofs.Session.Outcome

/-!
Layouts that are read alike in all their texts. A layout carries some words when every text that it
may be written as is read as these words. The builders put words together as they put layouts
together: what is joined by a gap carries the words of both parts, and a group carries the words of
what it groups. Where a group closes up without a space, the character that closes it has to end
the word before it: `Reads.flat_closed_up`.
-/

set_option autoImplicit false

namespace Typeset

namespace Layout

open Build

variable {Word : Type}

def Reads (reading : Text.Reading Word) (words : List Word) (layout : Layout) : Prop :=
  ∀ text, layout.Spells text → reading.ReadsAs text words

def Opens (reading : Text.Reading Word) (layout : Layout) : Prop :=
  ∀ text, layout.Spells text → reading.Opens text

def Closed (reading : Text.Reading Word) (words : List Word) (layout : Layout) : Prop :=
  ∀ text, layout.Spells text → reading.Closed text words

/-- The layout has no strays, and all its texts are read as the words. -/
structure Carries (reading : Text.Reading Word) (words : List Word) (layout : Layout) : Prop where
  clean : layout.Clean
  reads : layout.Reads reading words

/-- Flattening the layout leaves no trace of the separator. -/
def Seamless (layout : Layout) : Prop :=
  ∀ separator, flatForm separator layout = flatForm " " layout

variable {reading : Text.Reading Word} {words earlier later : List Word} {left right : Layout}

theorem text_reads
    {content : String}
    (reads : reading.ReadsAs content.toList words) :
    (Layout.text content).Reads reading words := by
  intro text spells
  cases spells
  exact reads

theorem text_opens {content : String} (opens : reading.Opens content.toList) :
    (Layout.text content).Opens reading := by
  intro text spells
  cases spells
  exact opens

theorem text_closed
    {content : String}
    (closed : reading.Closed content.toList words) :
    (Layout.text content).Closed reading words := by
  intro text spells
  cases spells
  exact closed

theorem space_opens : space.Opens reading :=
  text_opens (Text.Reading.gap_opens Text.gap_space)

theorem space_closed : space.Closed reading [] :=
  text_closed (Text.Reading.gap_closed Text.gap_space)

theorem line_break_opens : Layout.lineBreak.Opens reading := by
  intro text spells
  cases spells with
  | lineBreak gap => exact Text.Reading.gap_opens gap

theorem line_break_closed : Layout.lineBreak.Closed reading [] := by
  intro text spells
  cases spells with
  | lineBreak gap => exact Text.Reading.gap_closed gap

theorem Opens.concat (opens : left.Opens reading) (right : Layout) :
    (Layout.concat left right).Opens reading := by
  intro text spells
  cases spells with
  | concat before after => exact (opens _ before).append _

theorem Reads.concat
    (first : left.Reads reading earlier)
    (second : right.Reads reading later)
    (opens : right.Opens reading) :
    (Layout.concat left right).Reads reading (earlier ++ later) := by
  intro text spells
  cases spells with
  | concat before after => exact (first _ before).append (second _ after) (opens _ after)

theorem Closed.concat
    (first : left.Closed reading earlier)
    (second : right.Reads reading later) :
    (Layout.concat left right).Reads reading (earlier ++ later) := by
  intro text spells
  cases spells with
  | concat before after => exact (first _ before).append (second _ after)

theorem Reads.indent {layout : Layout} (reads : layout.Reads reading words) (amount : Int) :
    (Layout.indent amount layout).Reads reading words := by
  intro text spells
  cases spells with
  | indent inner => exact reads _ inner

theorem Opens.indent {layout : Layout} (opens : layout.Opens reading) (amount : Int) :
    (Layout.indent amount layout).Opens reading := by
  intro text spells
  cases spells with
  | indent inner => exact opens _ inner

theorem Reads.choice
    {primary secondary : Layout}
    (first : primary.Reads reading words)
    (second : secondary.Reads reading words) :
    (Layout.choice primary secondary).Reads reading words := by
  intro text spells
  cases spells with
  | primary spells => exact first _ spells
  | secondary spells => exact second _ spells

theorem Opens.choice
    {primary secondary : Layout}
    (first : primary.Opens reading)
    (second : secondary.Opens reading) :
    (Layout.choice primary secondary).Opens reading := by
  intro text spells
  cases spells with
  | primary spells => exact first _ spells
  | secondary spells => exact second _ spells

/-- What follows a gap is read by itself. -/
theorem Reads.behind_break {layout : Layout} (reads : layout.Reads reading words) :
    (Layout.concat .lineBreak layout).Reads reading words :=
  line_break_closed.concat reads

/-- A block on lines of its own ends the word before it. -/
theorem block_opens (amount : Int) (body : Layout) :
    (Layout.indent amount (.concat .lineBreak body)).Opens reading :=
  (line_break_opens.concat body).indent amount

theorem Reads.space_join
    (first : left.Reads reading earlier)
    (second : right.Reads reading later) :
    (spaceJoin left right).Reads reading (earlier ++ later) :=
  first.concat (space_closed.concat second) (space_opens.concat right)

theorem Reads.break_join
    (first : left.Reads reading earlier)
    (second : right.Reads reading later) :
    (breakJoin left right).Reads reading (earlier ++ later) :=
  first.concat second.behind_break (line_break_opens.concat right)

theorem Reads.flat
    {layout flat : Layout}
    (reads : layout.Reads reading words)
    (form : flatForm " " layout = .ok flat) :
    flat.Reads reading words := by
  intro text spells
  exact reads _ (spells_of_flat_form form spells)

theorem Seamless.of_is_flat {layout : Layout} (flat : layout.isFlat = true) :
    layout.Seamless := by
  intro separator
  rw [flat_form_of_is_flat separator layout flat, flat_form_of_is_flat " " layout flat]

theorem Seamless.concat (first : left.Seamless) (second : right.Seamless) :
    (Layout.concat left right).Seamless := by
  intro separator
  rw [flatForm, flatForm, first separator, second separator]

theorem Seamless.choice {primary : Layout} (first : primary.Seamless) (secondary : Layout) :
    (Layout.choice primary secondary).Seamless :=
  first

/-- The flat form of a part that is closed by a text, without anything between them. The text
ends the last word of the part, so a gap is not missed there. -/
theorem Reads.flat_closed_up
    {body flat : Layout}
    {closing : String}
    (reads : body.Reads reading earlier)
    (seamless : body.Seamless)
    (last : reading.ReadsAs closing.toList later)
    (opens : reading.Opens closing.toList)
    (form : flatForm "" (breakJoin body (.text closing)) = .ok flat) :
    flat.Reads reading (earlier ++ later) := by
  obtain ⟨flatBody, bodyForm, form⟩ := bind_eq_ok.mp form
  rw [seamless ""] at bodyForm
  cases form
  intro text spells
  cases spells with
  | concat before after =>
      cases after with
      -- The break has become the empty text.
      | concat nothing behind =>
          cases nothing
          cases behind
          exact (reads.flat bodyForm _ before).append last opens

/-- The layout carries the words, and flattening leaves no trace of the separator. -/
structure CarriesInline (reading : Text.Reading Word) (words : List Word) (layout : Layout) : Prop
    extends layout.Carries reading words where
  seamless : layout.Seamless

/-- A group carries what its layout does, if the flat form is read in that way. -/
theorem Carries.group_with
    {separator : String}
    {layout : Layout}
    (carries : layout.Carries reading words)
    (flatReads : ∀ flat, flatForm separator layout = .ok flat → flat.Reads reading words) :
    Steady (fun grouped => grouped.CarriesInline reading words ∧
      ∃ flat, flatForm separator layout = .ok flat ∧ grouped = .choice flat layout)
      (groupWith separator layout) := by
  obtain ⟨flat, form, _⟩ := flat_form_of_clean separator layout carries.clean
  obtain ⟨flatClean, given⟩ := group_with_gives carries.clean form
  refine ⟨.choice flat layout, ⟨⟨⟨⟨flatClean, carries.clean⟩, ?_⟩, ?_⟩, flat, form, rfl⟩, given⟩
  · exact (flatReads flat form).choice carries.reads
  · exact (Seamless.of_is_flat (is_flat_of_flat_form separator layout flat form)).choice layout

/-- The flat form has the texts of the layout, so a group has no others. -/
theorem Carries.group {layout : Layout} (carries : layout.Carries reading words) :
    Steady (fun grouped => grouped.CarriesInline reading words ∧
      ∀ text, grouped.Spells text → layout.Spells text) (group layout) := by
  refine Steady.mono (carries.group_with fun _ form => carries.reads.flat form) ?_
  rintro _ ⟨grouped, flat, form, rfl⟩
  refine ⟨grouped, ?_⟩
  intro text spells
  cases spells with
  | primary spells => exact spells_of_flat_form form spells
  | secondary spells => exact spells

/-- A group that closes up in front of its last text. -/
theorem CarriesInline.group_closed_up
    {body : Layout}
    {closing : String}
    (carries : body.CarriesInline reading earlier)
    (last : reading.ReadsAs closing.toList later)
    (opens : reading.Opens closing.toList) :
    Steady (Carries reading (earlier ++ later))
      (groupWith "" (breakJoin body (.text closing))) := by
  have whole : (breakJoin body (.text closing)).Carries reading (earlier ++ later) :=
    ⟨⟨carries.clean, trivial, trivial⟩, carries.reads.break_join (text_reads last)⟩
  exact Steady.mono
    (whole.group_with fun _ form => carries.reads.flat_closed_up carries.seamless last opens form)
    fun _ made => made.1.toCarries

theorem Carries.bracket
    {body : Layout}
    {opening closing : String}
    {first last : List Word}
    (carries : body.Carries reading words)
    (amount : Int)
    (opens : reading.ReadsAs opening.toList first)
    (closes : reading.ReadsAs closing.toList last) :
    Steady (fun block => block.Carries reading (first ++ (words ++ last)) ∧
      ∀ text, block.Spells text → closing.toList <:+ text)
      (bracket amount opening (.node body) closing) := by
  have inner := carries.reads.behind_break.indent amount
  have behind := inner.concat (text_reads closes).behind_break (line_break_opens.concat _)
  have whole := (text_reads opens).concat behind ((block_opens amount body).concat _)
  have clean : (Layout.concat (.text opening) (.concat (.indent amount (.concat .lineBreak body))
      (.concat .lineBreak (.text closing)))).Clean :=
    ⟨trivial, ⟨trivial, carries.clean⟩, trivial, trivial⟩
  refine Steady.mono (Carries.group ⟨clean, whole⟩) ?_
  rintro block ⟨carried, texts⟩
  refine ⟨carried.toCarries, ?_⟩
  intro text spells
  cases texts text spells with
  | concat before after =>
      cases after with
      | concat inside after =>
          cases after with
          | concat gap after =>
              cases after
              rw [← List.append_assoc, ← List.append_assoc]
              exact List.suffix_append _ _

/-- Parentheses close up, and they end the word before them. -/
theorem CarriesInline.parenthesized
    {body : Layout}
    {first last : List Word}
    (carries : body.CarriesInline reading words)
    (opens : reading.Opens "(".toList)
    (begins : reading.Closed "(".toList first)
    (closes : reading.Opens ")".toList)
    (ends : reading.ReadsAs ")".toList last) :
    Steady (fun grouped => grouped.CarriesInline reading (first ++ (words ++ last)) ∧
      grouped.Opens reading) (parenthesized (.node body)) := by
  have whole : (Layout.concat (.text "(") (breakJoin body (.text ")"))).Carries reading
      (first ++ (words ++ last)) :=
    ⟨⟨trivial, carries.clean, trivial, trivial⟩,
      (text_closed begins).concat (carries.reads.break_join (text_reads ends))⟩
  have flatReads : ∀ flat, flatForm "" (.concat (.text "(") (breakJoin body (.text ")"))) =
      .ok flat → flat.Reads reading (first ++ (words ++ last)) ∧ flat.Opens reading := by
    intro flat form
    obtain ⟨opening, openingForm, form⟩ := bind_eq_ok.mp form
    obtain ⟨behind, behindForm, form⟩ := bind_eq_ok.mp form
    cases openingForm
    cases form
    have closed := carries.reads.flat_closed_up carries.seamless ends closes behindForm
    exact ⟨(text_closed begins).concat closed, (text_opens opens).concat behind⟩
  refine Steady.mono (whole.group_with fun flat form => (flatReads flat form).1) ?_
  rintro _ ⟨grouped, flat, form, rfl⟩
  exact ⟨grouped, (flatReads flat form).2.choice ((text_opens opens).concat _)⟩

theorem empty_carries : Layout.empty.Carries reading [] := by
  refine ⟨trivial, ?_⟩
  intro text spells
  cases spells
  exact (Text.Reading.nothing_closed reading).reads_as

section Lists

variable {items : List Item} {parts : List (List Word)}

theorem spread_carries
    (given : ItemsHold (Carries reading) items parts) :
    Steady (Carries reading parts.flatten) (spread items) := by
  rw [← nil_intercalate]
  apply fold_gathers_all empty_carries _ given
  intro before after left right first second
  rw [List.append_nil]
  exact .pure ⟨⟨first.clean, trivial, second.clean⟩, first.reads.space_join second.reads⟩

theorem stack_carries
    (given : ItemsHold (Carries reading) items parts) :
    Steady (Carries reading parts.flatten) (stack items) := by
  rw [← nil_intercalate]
  apply fold_gathers_all empty_carries _ given
  intro before after left right first second
  rw [List.append_nil]
  exact .pure ⟨⟨first.clean, trivial, second.clean⟩, first.reads.break_join second.reads⟩

/-- Between two items stands what their separator is read as. -/
theorem separated_carries
    {separator : String}
    {between : List Word}
    (opens : reading.Opens separator.toList)
    (reads : reading.ReadsAs separator.toList between)
    (given : ItemsHold (CarriesInline reading) items parts) :
    Steady (CarriesInline reading (between.intercalate parts)) (separated separator items) := by
  have nothing : Layout.empty.Seamless := .of_is_flat rfl
  have mark : (Layout.text separator).Seamless := .of_is_flat rfl
  have gap : space.Seamless := .of_is_flat rfl
  apply fold_gathers_all ⟨empty_carries, nothing⟩ _ given
  intro before after left right first second
  have marked := first.reads.concat (text_reads reads) (text_opens opens)
  refine .pure ⟨⟨⟨⟨first.clean, trivial⟩, trivial, second.clean⟩, ?_⟩, ?_⟩
  · exact marked.space_join second.reads
  · exact (first.seamless.concat mark).concat (gap.concat second.seamless)

end Lists

end Layout

namespace Action

open Build

variable {Word : Type} {reading : Text.Reading Word}

/-- What is printed is one of the texts of the layout that is built. -/
theorem pretty_spelled
    {condition : Layout → Prop}
    {construction : Build Layout}
    (steady : Steady condition construction)
    (clean : ∀ layout, condition layout → layout.Clean)
    (width column : Int) :
    ∃ text layout, (pretty (.described construction) width column).Yields text ∧
      condition layout ∧ layout.Spells text.toList := by
  obtain ⟨layout, holds, given⟩ := steady
  obtain ⟨text, written, spells⟩ := layout.pretty_spells (clean layout holds) width column
  have offered : (Item.described construction).toLayout.Gives layout := given
  exact ⟨text, layout, pretty_yields offered written, holds, spells⟩

/-- At every width and from every column, what is printed is read as what the layout carries. -/
theorem pretty_read
    {words : List Word}
    {construction : Build Layout}
    (steady : Steady (Layout.Carries reading words) construction)
    (width column : Int) :
    ∃ text, (pretty (.described construction) width column).Yields text ∧
      reading.read text.toList = some words := by
  obtain ⟨text, layout, yields, carries, spells⟩ :=
    pretty_spelled steady (fun _ => Layout.Carries.clean) width column
  exact ⟨text, yields, (carries.reads _ spells).read_eq⟩

/-- What is printed alike carries the same words, whatever the widths and columns are. -/
theorem pretty_tells_apart
    {earlier later : List Word}
    {first second : Build Layout}
    (carries : Steady (Layout.Carries reading earlier) first)
    (otherCarries : Steady (Layout.Carries reading later) second)
    (width column otherWidth otherColumn : Int) :
    ∃ text other, (pretty (.described first) width column).Yields text ∧
      (pretty (.described second) otherWidth otherColumn).Yields other ∧
      (text = other → earlier = later) := by
  obtain ⟨text, yields, read⟩ := pretty_read carries width column
  obtain ⟨other, otherYields, otherRead⟩ := pretty_read otherCarries otherWidth otherColumn
  refine ⟨text, other, yields, otherYields, ?_⟩
  rintro rfl
  exact Option.some.inj (read.symm.trans otherRead)

end Action

end Typeset
