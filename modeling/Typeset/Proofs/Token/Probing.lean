import Typeset.Proofs.Token.Extent
import Typeset.Token.Feed

/-!
Looking ahead in a stream. To tell whether the first line fits, no more is taken from the stream
than the shortest first part that settles it, and what was taken is not lost: a reader of the
chosen stream gets all of its tokens in order, each of them is taken once, and none is taken from
the other stream: `Preference.looks_no_further`.
-/

set_option autoImplicit false

namespace Typeset

namespace Token

/-- The first part of a stream settles whether the first line fits: it ends with a break, or its
texts take more columns than there are. -/
def Settles (remaining : Int) (part : List Token) : Prop :=
  (∃ earlier indent, part = earlier ++ [.line indent]) ∨ remaining < textLength part

/-- What has to be seen of a stream to tell whether its first line fits: the shortest first part
that settles it, or the whole stream if none does. -/
structure Needed (remaining : Int) (tokens seen : List Token) : Prop where
  first : seen <+: tokens
  shortest : ∀ part, part <+: seen → Settles remaining part → part = seen
  enough : Settles remaining seen ∨ seen = tokens

variable {remaining : Int} {tokens seen : List Token}

theorem settles_nil : Settles remaining [] ↔ remaining < 0 := by
  simp [Settles, textLength]

theorem settles_text (content : String) (part : List Token) :
    Settles remaining (.text content :: part) ↔ Settles (remaining - content.length) part := by
  have broken : (∃ earlier indent, .text content :: part = earlier ++ [Token.line indent]) ↔
      ∃ earlier indent, part = earlier ++ [.line indent] := by
    constructor
    · rintro ⟨earlier, indent, same⟩
      cases earlier with
      | nil => cases same
      | cons token later => exact ⟨later, indent, (List.cons.inj same).2⟩
    · rintro ⟨earlier, indent, rfl⟩
      exact ⟨.text content :: earlier, indent, rfl⟩
  rw [Settles, Settles, broken, textLength]
  apply or_congr_right
  omega

theorem fits_of_negative (negative : remaining < 0) (tokens : List Token) :
    fits tokens remaining = false := by
  rw [Bool.eq_false_iff, ne_eq, fits_iff]
  omega

/-- Nothing behind a part that settles it makes a difference to the verdict. -/
theorem fits_of_settled (settled : Settles remaining seen) (later : List Token) :
    fits (seen ++ later) remaining = fits seen remaining := by
  induction seen generalizing remaining with
  | nil =>
      have negative := settles_nil.mp settled
      rw [fits_of_negative negative, fits_of_negative negative]
  | cons token rest ih =>
      cases token with
      | text content =>
          rw [List.cons_append, fits_behind_text, fits_behind_text,
            ih ((settles_text content rest).mp settled)]
      | line indent => rfl

namespace Needed

theorem nothing (negative : remaining < 0) (tokens : List Token) : Needed remaining tokens [] where
  first := List.nil_prefix
  shortest _ before _ := List.prefix_nil.mp before
  enough := .inl (settles_nil.mpr negative)

theorem nil : Needed remaining [] [] where
  first := List.prefix_rfl
  shortest _ before _ := List.prefix_nil.mp before
  enough := .inr rfl

theorem line (room : 0 ≤ remaining) (indent : Int) (later : List Token) :
    Needed remaining (.line indent :: later) [.line indent] where
  first := ⟨later, rfl⟩
  shortest part before settles := by
    cases part with
    | nil => exact absurd (settles_nil.mp settles) (Int.not_lt.mpr room)
    | cons token rest =>
        obtain ⟨rfl, tail⟩ := List.cons_prefix_cons.mp before
        rw [List.prefix_nil.mp tail]
  enough := .inl (.inl ⟨[], indent, rfl⟩)

theorem text
    (room : 0 ≤ remaining)
    (content : String)
    (needed : Needed (remaining - content.length) tokens seen) :
    Needed remaining (.text content :: tokens) (.text content :: seen) where
  first := List.cons_prefix_cons.mpr ⟨rfl, needed.first⟩
  shortest part before settles := by
    cases part with
    | nil => exact absurd (settles_nil.mp settles) (Int.not_lt.mpr room)
    | cons token rest =>
        obtain ⟨rfl, tail⟩ := List.cons_prefix_cons.mp before
        rw [needed.shortest rest tail ((settles_text content rest).mp settles)]
  enough := by
    rcases needed.enough with settled | whole
    · exact .inl ((settles_text content seen).mpr settled)
    · exact .inr (by rw [whole])

/-- The same part is needed of every stream that it settles. -/
theorem of_settled
    (needed : Needed remaining tokens seen)
    (settled : Settles remaining seen)
    (later : List Token) :
    Needed remaining (seen ++ later) seen where
  first := List.prefix_append seen later
  shortest := needed.shortest
  enough := .inl settled

theorem eq_of_prefix
    {other : List Token}
    (needed : Needed remaining tokens seen)
    (longer : Needed remaining tokens other)
    (before : seen <+: other) :
    seen = other := by
  rcases needed.enough with settled | whole
  · exact longer.shortest seen before settled
  · rw [← whole] at longer
    exact before.eq_of_length (Nat.le_antisymm before.length_le longer.first.length_le)

theorem unique
    {other : List Token}
    (needed : Needed remaining tokens seen)
    (again : Needed remaining tokens other) :
    seen = other := by
  rcases List.prefix_or_prefix_of_prefix needed.first again.first with before | before
  · exact needed.eq_of_prefix again before
  · exact (again.eq_of_prefix needed before).symm

theorem nil_of_negative (needed : Needed remaining tokens seen) (negative : remaining < 0) :
    seen = [] :=
  needed.unique (nothing negative tokens)

end Needed

end Token

namespace Feed

/-- Takes the next token, if there is one. -/
def pull (feed : Feed) : Option (Token × Feed) :=
  match feed.ahead with
  | [] => none
  | token :: rest => some (token, ⟨feed.taken + 1, rest⟩)

/-- The feed after so many tokens are taken from it, or all if there are fewer. -/
def advance (count : Nat) (feed : Feed) : Feed where
  taken := feed.taken + min count feed.ahead.length
  ahead := feed.ahead.drop count

theorem advance_zero (feed : Feed) : feed.advance 0 = feed := by
  simp [advance]

theorem advance_advance (first later : Nat) (feed : Feed) :
    (feed.advance first).advance later = feed.advance (first + later) := by
  simp only [advance, List.length_drop, List.drop_drop, Feed.mk.injEq, and_true]
  omega

theorem drain_eq_advance
    (count : Nat)
    (feed : Feed)
    (enough : feed.ahead.length ≤ count) :
    feed.drain = (feed.ahead, feed.advance count) := by
  rw [drain, advance, Nat.min_eq_right enough, List.drop_of_length_le enough]

/-- One token more is one take more, made before the others. -/
theorem advance_succ (count taken : Nat) (token : Token) (rest : List Token) :
    advance (count + 1) ⟨taken, token :: rest⟩ = advance count ⟨taken + 1, rest⟩ := by
  simp only [advance, List.length_cons, List.drop_succ_cons, Nat.succ_min_succ, Nat.add_right_comm,
    Nat.add_assoc, Nat.succ_eq_add_one]

/-- Looking takes what is needed for the verdict, in order. -/
theorem probe_needed (taken : Nat) (remaining : Int) (tokens : List Token) :
    ∃ seen, Token.Needed remaining tokens seen ∧
      probe taken remaining tokens =
        (Token.fits tokens remaining, seen, advance seen.length ⟨taken, tokens⟩) := by
  induction tokens generalizing taken remaining with
  | nil =>
      refine ⟨[], .nil, ?_⟩
      have verdict : Token.fits [] remaining = decide (0 ≤ remaining) := by
        rw [Bool.eq_iff_iff, Token.fits_iff, decide_eq_true_eq]
        rfl
      rw [verdict]
      rfl
  | cons token rest ih =>
      by_cases negative : remaining < 0
      · refine ⟨[], .nothing negative _, ?_⟩
        rw [Token.fits_of_negative negative, List.length_nil, advance_zero]
        exact if_pos negative
      · have room := Int.not_lt.mp negative
        cases token with
        | line indent =>
            refine ⟨[.line indent], .line room indent rest, ?_⟩
            rw [List.length_singleton, advance_succ 0, advance_zero]
            simp only [probe, Token.fits, if_neg negative]
        | text content =>
            obtain ⟨seen, needed, probed⟩ := ih (taken + 1) (remaining - content.length)
            refine ⟨.text content :: seen, needed.text room content, ?_⟩
            simp only [probe, if_neg negative, probed, Token.fits_behind_text, advance_succ,
              List.length_cons]

/-- Once a part settles the verdict, nothing behind it is looked at. -/
theorem fits_of_settled
    {taken : Nat}
    {remaining : Int}
    {tokens seen : List Token}
    (needed : Token.Needed remaining tokens seen)
    (settled : Token.Settles remaining seen)
    (later : List Token) :
    fits ⟨taken, seen ++ later⟩ remaining =
      (Token.fits tokens remaining, ⟨taken + seen.length, later⟩) := by
  obtain ⟨other, again, probed⟩ := probe_needed taken remaining (seen ++ later)
  obtain rfl := again.unique (needed.of_settled settled later)
  obtain ⟨rest, rfl⟩ := needed.first
  rw [fits, probed, Token.fits_of_settled settled, Token.fits_of_settled settled]
  simp [advance]

end Feed

namespace Preference

/-- The tokens of the chosen stream that have not been read. -/
def unread (preference : Preference) : List Token :=
  preference.replayed ++
    if preference.takesFirst then preference.first.ahead else preference.second.ahead

/-- Reads a token of the chosen stream: the oldest of those that were taken while looking, or
else the next one that is taken now. -/
def next (preference : Preference) : Option (Token × Preference) :=
  match preference.replayed with
  | token :: later => some (token, { preference with replayed := later })
  | [] =>
      if preference.takesFirst then
        preference.first.pull.map fun (token, after) =>
          (token, { preference with first := after })
      else
        preference.second.pull.map fun (token, after) =>
          (token, { preference with second := after })

/-- Reads so many tokens, or all if there are fewer. -/
def read : (count : Nat) → Preference → List Token × Preference
  | 0, preference => ([], preference)
  | count + 1, preference =>
      match preference.next with
      | none => ([], preference)
      | some (token, after) =>
          let (tokens, last) := read count after
          (token :: tokens, last)

/-- What so many reads leave of the streams, or all reads if there are fewer. -/
def advance (count : Nat) (preference : Preference) : Preference :=
  let pulls := count - preference.replayed.length
  { preference with
    replayed := preference.replayed.drop count
    first := if preference.takesFirst then preference.first.advance pulls else preference.first
    second := if preference.takesFirst then preference.second else preference.second.advance pulls }

theorem next_eq (preference : Preference) :
    preference.next =
      match preference.unread with
      | [] => none
      | token :: _ => some (token, preference.advance 1) := by
  obtain ⟨takesFirst, replayed, ⟨firstTaken, first⟩, ⟨secondTaken, second⟩⟩ := preference
  cases replayed with
  | cons token later => simp [next, unread, advance, Feed.advance_zero]
  | nil =>
      cases takesFirst with
      | true => cases first <;> simp [next, unread, advance, Feed.pull, Feed.advance]
      | false => cases second <;> simp [next, unread, advance, Feed.pull, Feed.advance]

theorem unread_advance (count : Nat) (preference : Preference) :
    (preference.advance count).unread = preference.unread.drop count := by
  obtain ⟨takesFirst, replayed, first, second⟩ := preference
  cases takesFirst <;> simp [unread, advance, Feed.advance, List.drop_append]

theorem advance_advance (first later : Nat) (preference : Preference) :
    (preference.advance first).advance later = preference.advance (first + later) := by
  have pulls : first - preference.replayed.length +
      (later - (preference.replayed.length - first)) =
        first + later - preference.replayed.length := by omega
  obtain ⟨takesFirst, replayed, before, after⟩ := preference
  cases takesFirst <;> simp [advance, Feed.advance_advance, pulls]

theorem advance_of_read
    (count : Nat)
    (preference : Preference)
    (read : preference.unread = []) :
    preference.advance count = preference := by
  obtain ⟨takesFirst, replayed, ⟨firstTaken, first⟩, ⟨secondTaken, second⟩⟩ := preference
  obtain ⟨rfl, ended⟩ := List.append_eq_nil_iff.mp read
  cases takesFirst with
  | true =>
      obtain rfl : first = [] := ended
      simp [advance, Feed.advance]
  | false =>
      obtain rfl : second = [] := ended
      simp [advance, Feed.advance]

/-- A reader gets the tokens of the chosen stream from its first one on. -/
theorem read_eq (count : Nat) (preference : Preference) :
    preference.read count = (preference.unread.take count, preference.advance count) := by
  induction count generalizing preference with
  | zero => simp [read, advance, Feed.advance_zero]
  | succ count ih =>
      rw [read, next_eq]
      cases waiting : preference.unread with
      | nil =>
          rw [advance_of_read (count + 1) preference waiting, List.take_nil]
      | cons token rest =>
          simp only [ih, unread_advance, advance_advance, waiting, List.drop_succ_cons,
            List.drop_zero, List.take_succ_cons, Nat.add_comm 1 count]

theorem drain_eq
    (count : Nat)
    (preference : Preference)
    (enough : preference.unread.length ≤ count) :
    preference.drain = (preference.unread, preference.advance count) := by
  obtain ⟨takesFirst, replayed, first, second⟩ := preference
  have kept : replayed.length ≤ count := by
    simp only [unread, List.length_append] at enough
    omega
  cases takesFirst with
  | true =>
      have ahead : first.ahead.length ≤ count - replayed.length := by
        simp only [unread, List.length_append, if_true] at enough
        omega
      simp [drain, Feed.drain_eq_advance _ first ahead, unread, advance, kept]
  | false =>
      have ahead : second.ahead.length ≤ count - replayed.length := by
        simp only [unread, List.length_append, Bool.false_eq_true, if_false] at enough
        omega
      simp [drain, Feed.drain_eq_advance _ second ahead, unread, advance, kept]

/-- The choice takes from the first stream what the verdict needs. -/
theorem better_needed (first second : Feed) (remaining : Int) :
    ∃ seen, Token.Needed remaining first.ahead seen ∧
      first.fits remaining = (Token.fits first.ahead remaining, first.advance seen.length) ∧
      better first second remaining =
        ⟨Token.fits first.ahead remaining,
          if Token.fits first.ahead remaining then seen else [],
          first.advance seen.length, second⟩ := by
  obtain ⟨seen, needed, probed⟩ := Feed.probe_needed first.taken remaining first.ahead
  refine ⟨seen, needed, ?_, ?_⟩
  · rw [Feed.fits, probed]
  · rw [better, probed]

/-- What was taken while looking at the first stream stands before what is still ahead of it. -/
theorem unread_first
    (first second : Feed)
    {seen : List Token}
    (before : seen <+: first.ahead) :
    unread ⟨true, seen, first.advance seen.length, second⟩ = first.ahead :=
  List.prefix_iff_eq_append.mp before

theorem advance_first (first second : Feed) (seen : List Token) (count : Nat) :
    advance count ⟨true, seen, first.advance seen.length, second⟩ =
      ⟨true, seen.drop count, first.advance (max seen.length count), second⟩ := by
  have reached : seen.length + (count - seen.length) = max seen.length count := by omega
  simp only [advance, if_true, Feed.advance_advance, reached]

/-- A reader of the first stream gets again what was taken while looking, and takes the rest. -/
theorem reads_first
    (first second : Feed)
    {seen : List Token}
    (before : seen <+: first.ahead)
    (count : Nat) :
    let chosen := Preference.mk true seen (first.advance seen.length) second
    ∃ after, chosen.read count = (first.ahead.take count, after) ∧
      (first.ahead.length ≤ count → chosen.drain = (first.ahead, after)) ∧
      after.first = first.advance (max seen.length count) ∧ after.second = second := by
  intro chosen
  have whole : chosen.unread = first.ahead := unread_first first second before
  refine ⟨chosen.advance count, ?_, ?_, ?_, ?_⟩
  · rw [read_eq, whole]
  · intro enough
    rw [drain_eq count chosen (by rwa [whole]), whole]
  · rw [advance_first]
  · rw [advance_first]

/-- A reader of the second stream takes nothing from the first one. -/
theorem reads_second (first second : Feed) (count : Nat) :
    let chosen := Preference.mk false [] first second
    ∃ after, chosen.read count = (second.ahead.take count, after) ∧
      (second.ahead.length ≤ count → chosen.drain = (second.ahead, after)) ∧
      after.first = first ∧ after.second = second.advance count := by
  intro chosen
  exact ⟨chosen.advance count, read_eq count chosen, drain_eq count chosen, rfl, rfl⟩

/-- The first line of a stream fits exactly if its texts take no more columns than there are. To
see that takes no token if there are fewer than none, and else the shortest first part that ends
with a break or takes more columns, or the whole stream if there is no such part; nothing behind
such a part is looked at. Of two streams the first one is chosen exactly if its first line fits,
and the choice takes from it what that verdict needs, and from the second one nothing. A reader
gets the chosen stream from its first token on. Each token is taken once, those that were taken
while looking not again, and nothing more is taken from the other stream. -/
theorem looks_no_further (first second : Feed) (remaining : Int) :
    ∃ seen, Token.Needed remaining first.ahead seen ∧
      (first.fits remaining).1 = Token.fits first.ahead remaining ∧
      ((first.fits remaining).1 = true ↔
        0 ≤ remaining ∧ (Token.firstLength first.ahead : Int) ≤ remaining) ∧
      (first.fits remaining).2 = first.advance seen.length ∧
      (remaining < 0 → seen = []) ∧
      (Token.Settles remaining seen → ∀ later,
        Feed.fits ⟨first.taken, seen ++ later⟩ remaining =
          ((first.fits remaining).1, ⟨first.taken + seen.length, later⟩)) ∧
      (better first second remaining).first = first.advance seen.length ∧
      (better first second remaining).second = second ∧
      ((first.fits remaining).1 = true → ∀ count, ∃ after,
        (better first second remaining).read count = (first.ahead.take count, after) ∧
          (first.ahead.length ≤ count →
            (better first second remaining).drain = (first.ahead, after)) ∧
          after.first = first.advance (max seen.length count) ∧ after.second = second) ∧
      ((first.fits remaining).1 = false → ∀ count, ∃ after,
        (better first second remaining).read count = (second.ahead.take count, after) ∧
          (second.ahead.length ≤ count →
            (better first second remaining).drain = (second.ahead, after)) ∧
          after.first = first.advance seen.length ∧ after.second = second.advance count) := by
  obtain ⟨seen, needed, looked, chosen⟩ := better_needed first second remaining
  rw [looked, chosen]
  refine ⟨seen, needed, rfl, ?_, rfl, needed.nil_of_negative, ?_, rfl, rfl, ?_, ?_⟩
  · rw [Token.fits_iff]
    omega
  · intro settled later
    rw [Feed.fits_of_settled needed settled]
  · intro (fitting : Token.fits first.ahead remaining = true) count
    rw [if_pos fitting, fitting]
    exact reads_first first second needed.first count
  · intro (wide : Token.fits first.ahead remaining = false) count
    rw [if_neg (Bool.eq_false_iff.mp wide), wide]
    exact reads_second (first.advance seen.length) second count

/-- The second text is the one too many, and the tokens behind it are left alone. -/
example :
    let wide := Feed.ofList [.text "ab", .text "c", .line 0, .text "d"]
    let narrow := Feed.ofList [.text "ab", .line 2]
    wide.fits 2 = (false, wide.advance 2) ∧
      (Preference.better wide narrow 2).read 1 =
        ([.text "ab"], ⟨false, [], wide.advance 2, narrow.advance 1⟩) := by
  decide

end Preference

end Typeset
