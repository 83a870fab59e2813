import Typeset.Proofs.Layout.Steady

/-!
Filled texts, said by recursion. Behind a first item the rest is filled twice, once with its own
first item flattened and once as it was given, so the recursion takes twice the work for every
item more. The builder makes both forms of every tail once, from the end, and its layout is the
same: `fill_gives_filled`. Flattening is idempotent, so an item that the recursion flattens on two
levels is the item that the builder flattens once.
-/

set_option autoImplicit false

namespace Typeset.Layout

open Build

/-- As many items on each line as fit. The first two share a line if both are flat and fit, and
else the second one starts a line. -/
def filled : List Layout → Except LayoutFault Layout
  | [] => .ok .empty
  | [last] => .ok last
  | item :: next :: rest => do
      let flat ← flatten item
      let flatNext ← flatten next
      let packed ← filled (flatNext :: rest)
      let broken ← filled (next :: rest)
      return .choice (spaceJoin flat packed) (breakJoin item broken)
termination_by layouts => layouts.length

/-- Both forms of the tail are what the recursion gives, for the item as it was given and for
the item flattened. -/
structure FillTail.Fills (tail : FillTail) (item : Layout) (rest : List Layout) : Prop where
  asGiven : filled (item :: rest) = .ok tail.asGiven
  flattened : ∃ flat, flatten item = .ok flat ∧ filled (flat :: rest) = .ok tail.flattened

theorem flatten_eq_ok_iff (layout flat : Layout) :
    flatten layout = .ok flat ↔ flatForm " " layout = .ok flat := by
  rw [flatten, flattenWith_eq]

theorem flatten_again {layout flat : Layout} (form : flatten layout = .ok flat) :
    flatten flat = .ok flat := by
  rw [flatten_eq_ok_iff] at form ⊢
  exact flat_form_of_is_flat " " flat (is_flat_of_flat_form " " layout flat form)

theorem filled_cons
    {item next flat flatNext packed broken : Layout}
    {rest : List Layout}
    (form : flatten item = .ok flat)
    (nextForm : flatten next = .ok flatNext)
    (packedGiven : filled (flatNext :: rest) = .ok packed)
    (brokenGiven : filled (next :: rest) = .ok broken) :
    filled (item :: next :: rest) =
      .ok (.choice (spaceJoin flat packed) (breakJoin item broken)) := by
  simp only [filled, form, nextForm, packedGiven, brokenGiven, bind, Except.bind]
  rfl

theorem FillTail.Fills.last {item flat : Layout} (form : flatten item = .ok flat) :
    FillTail.Fills ⟨item, flat⟩ item [] where
  asGiven := by rw [filled]
  flattened := ⟨flat, form, by rw [filled]⟩

/-- One item more in front. Its flattened form is flattened once more by the recursion. -/
theorem FillTail.Fills.cons
    {tail : FillTail}
    {item next flat : Layout}
    {rest : List Layout}
    (fills : tail.Fills next rest)
    (form : flatten item = .ok flat) :
    FillTail.Fills
      ⟨.choice (spaceJoin flat tail.flattened) (breakJoin item tail.asGiven),
        .choice (spaceJoin flat tail.flattened) (breakJoin flat tail.asGiven)⟩
      item (next :: rest) := by
  obtain ⟨flatNext, nextForm, packed⟩ := fills.flattened
  refine ⟨filled_cons form nextForm packed fills.asGiven, flat, form, ?_⟩
  exact filled_cons (flatten_again form) nextForm packed fills.asGiven

/-- The two forms of a text that is filled with the items, built from the end. -/
def fillTail : (first : Layout) → (rest : List Layout) → Build FillTail
  | last, [] => return ⟨last, ← flatten last⟩
  | item, next :: rest => do FillTail.cons item (← fillTail next rest)

/-- The builder goes through the items from the last one to the first. An item more in front is
a step more at the end. -/
theorem backwards_eq_fill_tail
    {first last : Layout}
    {rest before : List Layout}
    (backwards : (first :: rest).reverse = last :: before) :
    (do
      let flatLast ← flatten last
      before.foldlM (fun tail item => FillTail.cons item tail) ⟨last, flatLast⟩ : Build FillTail) =
      fillTail first rest := by
  induction rest generalizing first before with
  | nil =>
      obtain ⟨rfl, rfl⟩ := List.cons.inj backwards
      rfl
  | cons next rest ih =>
      obtain ⟨other, earlier, turned⟩ :=
        List.exists_cons_of_ne_nil (List.reverse_ne_nil_iff.mpr (List.cons_ne_nil next rest))
      rw [List.reverse_cons, turned, List.cons_append] at backwards
      obtain ⟨rfl, rfl⟩ := List.cons.inj backwards
      rw [fillTail, ← ih turned, bind_assoc]
      simp only [List.foldlM_append, List.foldlM_cons, List.foldlM_nil, bind_pure]

theorem fill_eq (items : List Item) :
    fill items = do
      match ← items.mapM Item.toLayout with
      | [] => return .empty
      | first :: rest => return (← fillTail first rest).asGiven := by
  rw [fill]
  congr 1
  funext layouts
  cases layouts with
  | nil => rfl
  | cons first rest =>
      obtain ⟨last, before, backwards⟩ :=
        List.exists_cons_of_ne_nil (List.reverse_ne_nil_iff.mpr (List.cons_ne_nil first rest))
      simp only [backwards, ← backwards_eq_fill_tail backwards, bind_assoc]

theorem fill_tail_fills
    (first : Layout)
    (rest : List Layout)
    (clean : ∀ layout ∈ first :: rest, layout.Clean) :
    ∃ tail : FillTail, tail.Sound ∧ tail.Fills first rest ∧ (fillTail first rest).Gives tail := by
  induction rest generalizing first with
  | nil =>
      have alone := clean first List.mem_cons_self
      obtain ⟨flat, form, flatClean, sameText⟩ := flat_form_of_clean " " first alone
      refine ⟨⟨first, flat⟩, ⟨alone, flatClean, sameText " "⟩,
        .last ((flatten_eq_ok_iff first flat).mpr form), ?_⟩
      exact (flatten_with_gives form).bind fun _ => rfl
  | cons next rest ih =>
      obtain ⟨firstClean, others⟩ := List.forall_mem_cons.mp clean
      obtain ⟨tail, sound, fills, given⟩ := ih next others
      obtain ⟨flat, form, _⟩ := flat_form_of_clean " " first firstClean
      refine ⟨_, fill_tail_cons_sound firstClean form sound,
        fills.cons ((flatten_eq_ok_iff first flat).mpr form), ?_⟩
      exact given.bind (fill_tail_cons_gives firstClean form sound)

theorem run_fill
    {items : List Item}
    {first : Layout}
    {rest : List Layout}
    {tail : FillTail}
    {checked : Bool}
    (given : (items.mapM Item.toLayout).run checked = .ok (first :: rest))
    (built : (fillTail first rest).run checked = .ok tail) :
    (fill items).run checked = .ok tail.asGiven := by
  rw [fill_eq, ReaderT.run_bind, given]
  change (fillTail first rest >>= fun tail => pure tail.asGiven).run checked = _
  rw [ReaderT.run_bind, built]
  rfl

/-- For layouts without strays the recursion has a result, and that is what the builder gives
for all items that stand for these layouts, whether or not choices are checked. -/
theorem fill_gives_filled
    (layouts : List Layout)
    (clean : ∀ layout ∈ layouts, layout.Clean) :
    ∃ whole, filled layouts = .ok whole ∧
      ∀ items checked, (items.mapM Item.toLayout).run checked = .ok layouts →
        (fill items).run checked = .ok whole := by
  cases layouts with
  | nil =>
      refine ⟨.empty, by rw [filled], ?_⟩
      intro items checked given
      rw [fill_eq, ReaderT.run_bind, given]
      rfl
  | cons first rest =>
      obtain ⟨tail, _, fills, tailGiven⟩ := fill_tail_fills first rest clean
      refine ⟨tail.asGiven, fills.asGiven, ?_⟩
      intro items checked given
      exact run_fill given (tailGiven checked)

/-- Two words on lines of their own, as they are and flattened. -/
def brokenPair : Layout := breakJoin (.text "b") (.text "c")

def flatPair : Layout := .concat (.text "b") (.concat (.text " ") (.text "c"))

/-- Behind the first item the pair is flattened where it shares the line, and as it was given
where it starts one. The last item is a choice, whose flat form is its primary branch. -/
theorem pair_between_items_filled :
    (∀ layout ∈ [.text "a", brokenPair, .choice (.text "d") .lineBreak], layout.Clean) ∧
      (([.text "a", .node brokenPair, .node (.choice (.text "d") .lineBreak)] : List Item).mapM
        Item.toLayout).run true = .ok [.text "a", brokenPair, .choice (.text "d") .lineBreak] ∧
      (fill [.text "a", .node brokenPair, .node (.choice (.text "d") .lineBreak)]).run true =
        .ok (.choice
          (spaceJoin (.text "a") (.choice (spaceJoin flatPair (.text "d"))
            (breakJoin flatPair (.choice (.text "d") .lineBreak))))
          (breakJoin (.text "a") (.choice (spaceJoin flatPair (.text "d"))
            (breakJoin brokenPair (.choice (.text "d") .lineBreak))))) := by
  have clean : ∀ layout ∈ [.text "a", brokenPair, .choice (.text "d") .lineBreak],
      layout.Clean := by decide
  have given : (([.text "a", .node brokenPair, .node (.choice (.text "d") .lineBreak)] :
      List Item).mapM Item.toLayout).run true =
        .ok [.text "a", brokenPair, .choice (.text "d") .lineBreak] := rfl
  obtain ⟨whole, recursion, built⟩ := fill_gives_filled _ clean
  have pairForm : flatten brokenPair = .ok flatPair := (flatten_eq_ok_iff _ _).mpr rfl
  have flatPairForm : flatten flatPair = .ok flatPair := flatten_again pairForm
  have wordForm : flatten (.text "a") = .ok (.text "a") := (flatten_eq_ok_iff _ _).mpr rfl
  have lastForm : flatten (.choice (.text "d") .lineBreak) = .ok (.text "d") :=
    (flatten_eq_ok_iff _ _).mpr rfl
  have alone (last : Layout) : filled [last] = .ok last := by rw [filled]
  have packed := filled_cons flatPairForm lastForm (alone _) (alone _)
  have broken := filled_cons pairForm lastForm (alone _) (alone _)
  obtain rfl := Except.ok.inj (recursion.symm.trans (filled_cons wordForm pairForm packed broken))
  exact ⟨clean, given, built _ true given⟩

end Typeset.Layout
