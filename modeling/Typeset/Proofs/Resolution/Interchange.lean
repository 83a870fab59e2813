import Typeset.Proofs.Resolution.Trace

/-!
Layouts that can stand for one another. Two layouts are interchangeable when every queue
that starts with one of them has the trace of the queue that starts with the other. What is
made of interchangeable parts is interchangeable too, also where the parts stand in a branch
that is tried and dropped. So whatever a context puts around them, the resolver delivers the
same: `Context.sees_alike`.
-/

set_option autoImplicit false

namespace Typeset

/-- Whatever the width, the column and the indentation are and whatever follows, both layouts
have one trace. -/
def Layout.Interchangeable (first second : Layout) : Prop :=
  ∀ (width column indent : Int) (rest : Queue),
    Queue.trace width column (⟨indent, first⟩ :: rest) =
      Queue.trace width column (⟨indent, second⟩ :: rest)

/-- Queues with one trace from every column have one trace behind any other queue. -/
theorem Queue.trace_append
    {width : Int}
    {first second : Queue}
    (same : ∀ column, Queue.trace width column first = Queue.trace width column second)
    (column : Int)
    (before : Queue) :
    Queue.trace width column (before ++ first) = Queue.trace width column (before ++ second) := by
  induction before using work_induction generalizing column with
  | nil => exact same column
  | empty indent rest ih => simpa only [List.cons_append, Queue.trace] using ih column
  | text indent content rest ih =>
      have later := ih (column + content.length)
      simp only [List.cons_append, Queue.trace, later]
  | lineBreak indent rest ih =>
      have later := ih indent
      simp only [List.cons_append, Queue.trace, later]
  | indent indent amount child rest ih =>
      simpa only [List.cons_append, Queue.trace] using ih column
  | concat indent left right rest ih =>
      simpa only [List.cons_append, Queue.trace] using ih column
  | choice indent primary secondary rest primaryStep secondaryStep =>
      have preferred := primaryStep column
      have other := secondaryStep column
      simp only [List.cons_append] at preferred other
      simp only [List.cons_append, Queue.trace, preferred, other]
  | stray indent value rest ih => simp only [List.cons_append, Queue.trace]

theorem Queue.trace_behind
    {width : Int}
    {first second : Queue}
    (same : ∀ column, Queue.trace width column first = Queue.trace width column second)
    (column : Int)
    (work : Work) :
    Queue.trace width column (work :: first) = Queue.trace width column (work :: second) :=
  trace_append same column [work]

namespace Layout

namespace Interchangeable

variable {first second third : Layout}

theorem refl (layout : Layout) : layout.Interchangeable layout := fun _ _ _ _ => rfl

theorem symm (same : first.Interchangeable second) : second.Interchangeable first := by
  intro width column indent rest
  exact (same width column indent rest).symm

theorem trans
    (before : first.Interchangeable second)
    (after : second.Interchangeable third) :
    first.Interchangeable third := by
  intro width column indent rest
  exact (before width column indent rest).trans (after width column indent rest)

theorem indent (amount : Int) (same : first.Interchangeable second) :
    (Layout.indent amount first).Interchangeable (.indent amount second) := by
  intro width column around rest
  rw [Queue.trace, Queue.trace]
  exact same width column (around + amount) rest

theorem concat
    {left right otherLeft otherRight : Layout}
    (before : left.Interchangeable otherLeft)
    (after : right.Interchangeable otherRight) :
    (Layout.concat left right).Interchangeable (.concat otherLeft otherRight) := by
  intro width column around rest
  have later := Queue.trace_behind (fun column => after width column around rest) column
    ⟨around, otherLeft⟩
  rw [Queue.trace, Queue.trace]
  exact (before width column around (⟨around, right⟩ :: rest)).trans later

theorem choice
    {primary secondary otherPrimary otherSecondary : Layout}
    (preferred : primary.Interchangeable otherPrimary)
    (other : secondary.Interchangeable otherSecondary) :
    (Layout.choice primary secondary).Interchangeable (.choice otherPrimary otherSecondary) := by
  intro width column around rest
  simp only [Queue.trace, preferred width column around rest, other width column around rest]

end Interchangeable

/-- A layout with one hole, made of indentations, sequences and choices. The layouts beside
the way to the hole may be any, with strays in them or without. -/
inductive Context where
  | hole
  | indent (amount : Int) (inner : Context)
  | leftOf (inner : Context) (right : Layout)
  | rightOf (left : Layout) (inner : Context)
  | primaryOf (inner : Context) (secondary : Layout)
  | secondaryOf (primary : Layout) (inner : Context)

namespace Context

/-- The layout with the hole filled. -/
def plug : Context → Layout → Layout
  | .hole, layout => layout
  | .indent amount inner, layout => .indent amount (inner.plug layout)
  | .leftOf inner right, layout => .concat (inner.plug layout) right
  | .rightOf left inner, layout => .concat left (inner.plug layout)
  | .primaryOf inner secondary, layout => .choice (inner.plug layout) secondary
  | .secondaryOf primary inner, layout => .choice primary (inner.plug layout)

/-- In this context both layouts are delivered alike at every width and from every column:
the same tokens, and the same fault if the context has a stray that is met. -/
def SeesAlike (context : Context) (first second : Layout) : Prop :=
  ∀ width column, ((context.plug first).resolve width column).all =
    ((context.plug second).resolve width column).all

theorem plug_interchangeable
    (context : Context)
    {first second : Layout}
    (same : first.Interchangeable second) :
    (context.plug first).Interchangeable (context.plug second) := by
  induction context with
  | hole => exact same
  | indent amount inner ih => exact ih.indent amount
  | leftOf inner right ih => exact ih.concat (.refl right)
  | rightOf left inner ih => exact (Interchangeable.refl left).concat ih
  | primaryOf inner secondary ih => exact ih.choice (.refl secondary)
  | secondaryOf primary inner ih => exact (Interchangeable.refl primary).choice ih

/-- No context tells interchangeable layouts apart. -/
theorem sees_alike
    (context : Context)
    {first second : Layout}
    (same : first.Interchangeable second) :
    context.SeesAlike first second := by
  intro width column
  have whole := context.plug_interchangeable same width column 0 []
  rw [resolve, resolve, Queue.all_of_trace, Queue.all_of_trace, whole]

end Context

end Layout

end Typeset
