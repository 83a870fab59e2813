import Typeset.Proofs.Resolution.Greedy

/-!
The renderings that a layout describes: every choice stands for either of its branches,
each time anew. What the resolver delivers is one of them, whatever it tries and drops on
the way: `Queue.greedy_described`.
-/

set_option autoImplicit false

namespace Typeset

/-- The tokens are one of the renderings of the layout when its breaks are indented by
`indent`. -/
inductive Layout.Describes : (indent : Int) → Layout → List Token → Prop where
  | empty (indent : Int) : Describes indent .empty []
  | lineBreak (indent : Int) : Describes indent .lineBreak [.line indent]
  | text (indent : Int) (content : String) : Describes indent (.text content) [.text content]
  | indent {indent amount : Int} {child : Layout} {tokens : List Token} :
      Describes (indent + amount) child tokens → Describes indent (.indent amount child) tokens
  | concat {indent : Int} {left right : Layout} {before after : List Token} :
      Describes indent left before → Describes indent right after →
        Describes indent (.concat left right) (before ++ after)
  | primary {indent : Int} {primary secondary : Layout} {tokens : List Token} :
      Describes indent primary tokens → Describes indent (.choice primary secondary) tokens
  | secondary {indent : Int} {primary secondary : Layout} {tokens : List Token} :
      Describes indent secondary tokens → Describes indent (.choice primary secondary) tokens

namespace Queue

def Describes : Queue → List Token → Prop
  | [], tokens => tokens = []
  | work :: rest, tokens =>
      ∃ first later, tokens = first ++ later ∧
        work.node.Describes work.indent first ∧ Describes rest later

theorem Describes.replace_first
    {first other : Work}
    {rest : Queue}
    {tokens : List Token}
    (described : Describes (first :: rest) tokens)
    (wider : ∀ part, first.node.Describes first.indent part →
      other.node.Describes other.indent part) :
    Describes (other :: rest) tokens := by
  obtain ⟨part, later, whole, head, tail⟩ := described
  exact ⟨part, later, whole, wider part head, tail⟩

theorem greedy_described
    (width column : Int)
    (queue : Queue)
    (clean : Clean queue) :
    Describes queue (greedy width column queue) := by
  induction queue using work_induction generalizing column with
  | nil =>
      rw [greedy]
      rfl
  | empty indent rest ih =>
      rw [greedy]
      exact ⟨[], _, rfl, .empty indent, ih column ((clean_cons _ _).mp clean).2⟩
  | text indent content rest ih =>
      rw [greedy]
      exact ⟨[.text content], _, rfl, .text indent content, ih _ ((clean_cons _ _).mp clean).2⟩
  | lineBreak indent rest ih =>
      rw [greedy]
      exact ⟨[.line indent], _, rfl, .lineBreak indent, ih _ ((clean_cons _ _).mp clean).2⟩
  | indent indent amount child rest ih =>
      obtain ⟨inner, later⟩ := (clean_cons _ _).mp clean
      have childFirst := (clean_cons ⟨indent + amount, child⟩ rest).mpr ⟨inner, later⟩
      rw [greedy]
      exact (ih column childFirst).replace_first fun _ part => .indent part
  | concat indent left right rest ih =>
      obtain ⟨parts, later⟩ := (clean_cons _ _).mp clean
      have rightFirst := (clean_cons ⟨indent, right⟩ rest).mpr ⟨parts.2, later⟩
      have leftFirst := (clean_cons ⟨indent, left⟩ _).mpr ⟨parts.1, rightFirst⟩
      obtain ⟨before, _, whole, leftPart, after, tail, rfl, rightPart, others⟩ :=
        ih column leftFirst
      rw [greedy, whole]
      exact ⟨before ++ after, tail, by simp, .concat leftPart rightPart, others⟩
  | choice indent primary secondary rest primaryStep secondaryStep =>
      obtain ⟨branches, later⟩ := (clean_cons _ _).mp clean
      simp only [greedy]
      split
      · have preferred := primaryStep column ((clean_cons _ _).mpr ⟨branches.1, later⟩)
        exact preferred.replace_first fun _ part => .primary part
      · have other := secondaryStep column ((clean_cons _ _).mpr ⟨branches.2, later⟩)
        exact other.replace_first fun _ part => .secondary part
  | stray indent value rest ih => exact ((clean_cons _ _).mp clean).1.elim

end Queue

/-- What the resolver delivers for a layout is one of its renderings. -/
theorem Layout.resolve_described
    (layout : Layout)
    (clean : layout.Clean)
    (width column : Int) :
    ∃ tokens, (layout.resolve width column).all = ⟨tokens, none⟩ ∧
      layout.Describes 0 tokens := by
  have single := Queue.clean_singleton 0 clean
  refine ⟨_, Queue.resolve_all_eq width column [⟨0, layout⟩] single, ?_⟩
  obtain ⟨tokens, none, whole, described, rfl⟩ :=
    Queue.greedy_described width column [⟨0, layout⟩] single
  rw [whole, List.append_nil]
  exact described

theorem Layout.pretty_of_all
    {layout : Layout}
    {width column : Int}
    {tokens : List Token}
    (delivered : (layout.resolve width column).all = ⟨tokens, none⟩) :
    layout.pretty width column = .ok (Token.render tokens) := by
  simp only [pretty, delivered]

theorem Layout.pretty_of_clean
    (layout : Layout)
    (clean : layout.Clean)
    (width column : Int) :
    ∃ text, layout.pretty width column = .ok text := by
  obtain ⟨tokens, delivered, _⟩ := layout.resolve_described clean width column
  exact ⟨Token.render tokens, pretty_of_all delivered⟩

end Typeset
