import Typeset.Proofs.Resolution.Described

/-!
The renderings of a layout, listed one by one: every choice stands for either of its branches,
and a part that stands in two places is rendered in each of them anew. The list has exactly the
renderings that the layout describes (`mem_renderings`). Whatever the resolver tries and takes
back, a line that it settles on is the beginning of such a rendering, and any rendering of the
queue that it leaves can come behind that line (`resolve_among_renderings`).
-/

set_option autoImplicit false

namespace Typeset

/-- Every first list with every later one behind it. -/
def Token.eachBehind (first later : List (List Token)) : List (List Token) :=
  first.flatMap fun before => later.map fun after => before ++ after

theorem Token.mem_each_behind
    {first later : List (List Token)}
    {tokens : List Token} :
    tokens ∈ eachBehind first later ↔
      ∃ before ∈ first, ∃ after ∈ later, before ++ after = tokens := by
  simp [eachBehind]

/-- All renderings of a layout whose breaks are indented by `margin`. -/
def Layout.renderings : Layout → (margin : Int) → List (List Token)
  | .empty, _ => [[]]
  | .lineBreak, margin => [[.line margin]]
  | .text content, _ => [[.text content]]
  | .indent amount child, margin => child.renderings (margin + amount)
  | .concat left right, margin =>
      Token.eachBehind (left.renderings margin) (right.renderings margin)
  | .choice primary secondary, margin =>
      primary.renderings margin ++ secondary.renderings margin
  | .stray _, _ => []

namespace Queue

/-- All renderings of the layouts of a queue in a row. -/
def renderings : Queue → List (List Token)
  | [] => [[]]
  | work :: rest => Token.eachBehind (work.node.renderings work.indent) (renderings rest)

end Queue

theorem Layout.mem_renderings
    (layout : Layout)
    (margin : Int)
    (tokens : List Token) :
    tokens ∈ layout.renderings margin ↔ layout.Describes margin tokens := by
  constructor
  · intro member
    induction layout generalizing margin tokens with
    | empty =>
        obtain rfl := List.mem_singleton.mp member
        exact .empty margin
    | lineBreak =>
        obtain rfl := List.mem_singleton.mp member
        exact .lineBreak margin
    | text content =>
        obtain rfl := List.mem_singleton.mp member
        exact .text margin content
    | indent amount child ih => exact .indent (ih _ _ member)
    | concat left right leftStep rightStep =>
        obtain ⟨before, first, after, later, rfl⟩ := Token.mem_each_behind.mp member
        exact .concat (leftStep _ _ first) (rightStep _ _ later)
    | choice primary secondary primaryStep secondaryStep =>
        rcases List.mem_append.mp member with preferred | other
        · exact .primary (primaryStep _ _ preferred)
        · exact .secondary (secondaryStep _ _ other)
    | stray value => cases member
  · intro described
    induction described with
    | empty indent => exact .head _
    | lineBreak indent => exact .head _
    | text indent content => exact .head _
    | indent described ih => exact ih
    | concat first later firstStep laterStep =>
        exact Token.mem_each_behind.mpr ⟨_, firstStep, _, laterStep, rfl⟩
    | primary described ih => exact List.mem_append_left _ ih
    | secondary described ih => exact List.mem_append_right _ ih

namespace Queue

theorem mem_renderings (queue : Queue) (tokens : List Token) :
    tokens ∈ renderings queue ↔ Describes queue tokens := by
  induction queue generalizing tokens with
  | nil => exact List.mem_singleton
  | cons work rest ih =>
      rw [renderings, Token.mem_each_behind, Describes]
      constructor
      · rintro ⟨first, head, later, tail, rfl⟩
        exact ⟨first, later, rfl, (work.node.mem_renderings _ _).mp head, (ih later).mp tail⟩
      · rintro ⟨first, later, rfl, head, tail⟩
        exact ⟨first, (work.node.mem_renderings _ _).mpr head, later, (ih later).mpr tail, rfl⟩

/-- A candidate is a beginning: what can come of the queue that it leaves can come behind it. -/
theorem described_of_candidate
    (queue : Queue)
    (clean : Clean queue)
    {candidate : Candidate}
    (offered : candidate ∈ candidates queue)
    {later : List Token}
    (described : Describes candidate.rest later) :
    Describes queue (candidate.tokens ++ later) := by
  induction queue using work_induction generalizing candidate with
  | nil =>
      rw [candidates, List.mem_singleton] at offered
      subst offered
      exact described
  | empty indent rest ih =>
      rw [candidates] at offered
      exact ⟨[], _, rfl, .empty indent, ih ((clean_cons _ _).mp clean).2 offered described⟩
  | text indent content rest ih =>
      rw [candidates] at offered
      obtain ⟨behind, among, rfl⟩ := List.mem_map.mp offered
      have tail := ih ((clean_cons _ _).mp clean).2 among described
      exact ⟨[.text content], _, rfl, .text indent content, tail⟩
  | lineBreak indent rest ih =>
      rw [candidates, List.mem_singleton] at offered
      subst offered
      exact ⟨[.line indent], later, rfl, .lineBreak indent, described⟩
  | indent indent amount child rest ih =>
      obtain ⟨inner, others⟩ := (clean_cons _ _).mp clean
      rw [candidates] at offered
      exact (ih ((clean_cons _ _).mpr ⟨inner, others⟩) offered described).replace_first
        fun _ part => .indent part
  | concat indent left right rest ih =>
      obtain ⟨parts, others⟩ := (clean_cons _ _).mp clean
      rw [candidates] at offered
      have rightFirst := (clean_cons ⟨indent, right⟩ rest).mpr ⟨parts.2, others⟩
      have leftFirst := (clean_cons ⟨indent, left⟩ _).mpr ⟨parts.1, rightFirst⟩
      obtain ⟨before, _, whole, leftPart, after, tail, rfl, rightPart, last⟩ :=
        ih leftFirst offered described
      exact ⟨before ++ after, tail, by rw [whole, List.append_assoc],
        .concat leftPart rightPart, last⟩
  | choice indent primary secondary rest primaryStep secondaryStep =>
      obtain ⟨branches, others⟩ := (clean_cons _ _).mp clean
      rw [candidates] at offered
      rcases List.mem_append.mp offered with preferred | other
      · have first := (clean_cons ⟨indent, primary⟩ rest).mpr ⟨branches.1, others⟩
        exact (primaryStep first preferred described).replace_first fun _ part => .primary part
      · have first := (clean_cons ⟨indent, secondary⟩ rest).mpr ⟨branches.2, others⟩
        exact (secondaryStep first other described).replace_first fun _ part => .secondary part
  | stray indent value rest ih => exact ((clean_cons _ _).mp clean).1.elim

end Queue

/-- A resolved line, with any rendering of the queue that it leaves behind it, is a rendering
of the queue that it was resolved from. -/
theorem Queue.line_begins_renderings
    (width column : Int)
    (queue : Queue)
    (clean : Clean queue) :
    ∀ output ∈ lines width column queue,
      ∀ later ∈ renderings output.line.rest,
        output.line.tokens ++ later ∈ renderings output.waiting := by
  induction column, queue, clean using line_induction width with
  | nil column clean =>
      intro output member
      rw [lines] at member
      cases member
  | line column work rest line clean left resolved picked ending ih =>
      intro output member later among
      rw [lines_of_line resolved] at member
      rcases List.mem_cons.mp member with rfl | behind
      · rw [mem_renderings] at among ⊢
        exact described_of_candidate (work :: rest) clean (Candidate.pick_mem picked) among
      · exact ih output behind later among

/-- What the resolver delivers for a layout is one of its renderings, and each of its lines
begins one with whatever can come of the queue that the line leaves. -/
theorem Layout.resolve_among_renderings
    (layout : Layout)
    (clean : layout.Clean)
    (width column : Int) :
    (∃ tokens, (layout.resolve width column).all = ⟨tokens, none⟩ ∧
        tokens ∈ layout.renderings 0) ∧
      ∀ output ∈ Queue.lines width column [⟨0, layout⟩],
        ∀ later ∈ Queue.renderings output.line.rest,
          output.line.tokens ++ later ∈ Queue.renderings output.waiting := by
  constructor
  · obtain ⟨tokens, delivered, described⟩ := layout.resolve_described clean width column
    exact ⟨tokens, delivered, (layout.mem_renderings 0 tokens).mpr described⟩
  · exact Queue.line_begins_renderings width column _ (Queue.clean_singleton 0 clean)

/-- A choice whose branches hold different texts, in two places of one line. -/
def Layout.twice : Layout :=
  let shared : Layout := .choice (.text "aa") (.concat (.text "b") .lineBreak)
  .concat shared (.concat (.text "c") (.indent (-1) shared))

/-- Four columns hold the primary branch once only, so the shared choice takes it in its first
place and the secondary branch in its second one. -/
theorem Layout.shared_choice_taken_both_ways :
    twice.Clean ∧ (twice.resolve 4 0).all =
        ⟨[.text "aa", .text "c", .text "b", .line (-1)], none⟩ ∧
      [.text "aa", .text "c", .text "b", .line (-1)] ∈ twice.renderings 0 := by
  have clean : twice.Clean := by decide
  obtain ⟨⟨tokens, delivered, among⟩, _⟩ := resolve_among_renderings twice clean 4 0
  have written : Queue.greedy 4 0 [⟨0, twice⟩] =
      [.text "aa", .text "c", .text "b", .line (-1)] := by
    simp only [Queue.greedy, twice]
    rfl
  have whole := Queue.resolve_all_eq 4 0 [⟨0, twice⟩] (Queue.clean_singleton 0 clean)
  rw [written] at whole
  have same : tokens = [.text "aa", .text "c", .text "b", .line (-1)] :=
    congrArg Delivery.tokens (delivered.symm.trans whole)
  exact ⟨clean, whole, same ▸ among⟩

end Typeset
