import Typeset.Proofs.Token.Extent
import Typeset.Resolution.Line

/-!
The lines that a queue can become. Every choice before the first break offers the lines
of its primary branch and then those of its secondary one, so the lines come in the order
in which they are wanted. The one to take is the first that fits, or the last one when
none does. A stray counts as nothing here.
-/

set_option autoImplicit false

namespace Typeset

def Queue.Clean (queue : Queue) : Prop := ∀ work ∈ queue, work.node.Clean

theorem Queue.clean_cons (work : Work) (rest : Queue) :
    Queue.Clean (work :: rest) ↔ work.node.Clean ∧ Queue.Clean rest :=
  List.forall_mem_cons

theorem Queue.clean_singleton
    (indent : Int)
    {layout : Layout}
    (clean : layout.Clean) :
    Queue.Clean [⟨indent, layout⟩] :=
  (Queue.clean_cons _ _).mpr ⟨clean, fun _ member => absurd member List.not_mem_nil⟩

/-- Induction on the work of a queue: what holds of the queues that taking the first layout
leads to holds of the queue itself. -/
theorem Queue.work_induction
    {motive : Queue → Prop}
    (nil : motive [])
    (empty : ∀ indent rest, motive rest → motive (⟨indent, .empty⟩ :: rest))
    (text : ∀ indent content rest, motive rest → motive (⟨indent, .text content⟩ :: rest))
    (lineBreak : ∀ indent rest, motive rest → motive (⟨indent, .lineBreak⟩ :: rest))
    (indent : ∀ indent amount child rest, motive (⟨indent + amount, child⟩ :: rest) →
      motive (⟨indent, .indent amount child⟩ :: rest))
    (concat : ∀ indent left right rest, motive (⟨indent, left⟩ :: ⟨indent, right⟩ :: rest) →
      motive (⟨indent, .concat left right⟩ :: rest))
    (choice : ∀ indent primary secondary rest, motive (⟨indent, primary⟩ :: rest) →
      motive (⟨indent, secondary⟩ :: rest) →
      motive (⟨indent, .choice primary secondary⟩ :: rest))
    (stray : ∀ indent value rest, motive rest → motive (⟨indent, .stray value⟩ :: rest))
    (queue : Queue) :
    motive queue := by
  induction measured : Queue.steps queue using Nat.strongRecOn generalizing queue with
  | ind bound below =>
      subst measured
      have smaller (next : Queue) (less : Queue.steps next < Queue.steps queue) : motive next :=
        below _ less next rfl
      match queue with
      | [] => exact nil
      | ⟨_, .empty⟩ :: rest => exact empty _ rest (smaller _ (Nat.lt_succ_self _))
      | ⟨_, .text content⟩ :: rest => exact text _ _ rest (smaller _ (Nat.lt_succ_self _))
      | ⟨_, .lineBreak⟩ :: rest => exact lineBreak _ rest (smaller _ (Nat.lt_succ_self _))
      | ⟨_, .indent amount child⟩ :: rest =>
          exact indent _ _ _ rest (smaller _ (Nat.lt_succ_self _))
      | ⟨_, .concat left right⟩ :: rest =>
          exact concat _ _ _ rest (smaller _ (Nat.lt_succ_self _))
      | ⟨_, .choice primary secondary⟩ :: rest =>
          refine choice _ _ _ rest (smaller _ ?_) (smaller _ ?_) <;>
            simp only [Queue.steps, Layout.steps] <;> omega
      | ⟨_, .stray value⟩ :: rest => exact stray _ _ rest (smaller _ (Nat.lt_succ_self _))

/-- The tokens of a first line, with the break that ends it, and the queue that is left
after them. -/
structure Candidate where
  tokens : List Token
  rest : Queue

def Line.candidate (line : Line) : Candidate := ⟨line.tokens, line.rest⟩

namespace Candidate

/-- The candidate behind tokens that are written already. -/
def after (earlier : List Token) (candidate : Candidate) : Candidate :=
  ⟨earlier ++ candidate.tokens, candidate.rest⟩

def fits (width column : Int) (candidate : Candidate) : Bool :=
  column + Token.textLength candidate.tokens ≤ width

/-- The first candidate that fits, or the last one when none does. -/
def pick (width column : Int) (candidates : List Candidate) : Option Candidate :=
  (candidates.find? (fits width column)).or candidates.getLast?

/-- A line is complete: it ends with a break, or nothing is left after it. -/
def Complete : List Token → Queue → Prop
  | [], rest => rest = []
  | .text _ :: later, rest => Complete later rest
  | .line _ :: later, _ => later = []

end Candidate

/-- All lines that the queue can start with. -/
def Queue.candidates (queue : Queue) : List Candidate :=
  match queue with
  | [] => [⟨[], []⟩]
  | ⟨_, .empty⟩ :: rest => Queue.candidates rest
  | ⟨_, .text content⟩ :: rest =>
      (Queue.candidates rest).map (Candidate.after [.text content])
  | ⟨indent, .lineBreak⟩ :: rest => [⟨[.line indent], rest⟩]
  | ⟨indent, .indent amount child⟩ :: rest =>
      Queue.candidates (⟨indent + amount, child⟩ :: rest)
  | ⟨indent, .concat left right⟩ :: rest =>
      Queue.candidates (⟨indent, left⟩ :: ⟨indent, right⟩ :: rest)
  | ⟨indent, .choice primary secondary⟩ :: rest =>
      Queue.candidates (⟨indent, primary⟩ :: rest) ++
        Queue.candidates (⟨indent, secondary⟩ :: rest)
  | ⟨_, .stray _⟩ :: rest => Queue.candidates rest
termination_by Queue.steps queue
decreasing_by
  all_goals
    simp only [Queue.steps, Layout.steps]
    omega

/-- The line that takes the secondary branch of every choice. -/
def Queue.lastResort (queue : Queue) : Candidate :=
  match queue with
  | [] => ⟨[], []⟩
  | ⟨_, .empty⟩ :: rest => Queue.lastResort rest
  | ⟨_, .text content⟩ :: rest => (Queue.lastResort rest).after [.text content]
  | ⟨indent, .lineBreak⟩ :: rest => ⟨[.line indent], rest⟩
  | ⟨indent, .indent amount child⟩ :: rest =>
      Queue.lastResort (⟨indent + amount, child⟩ :: rest)
  | ⟨indent, .concat left right⟩ :: rest =>
      Queue.lastResort (⟨indent, left⟩ :: ⟨indent, right⟩ :: rest)
  | ⟨indent, .choice _ secondary⟩ :: rest => Queue.lastResort (⟨indent, secondary⟩ :: rest)
  | ⟨_, .stray _⟩ :: rest => Queue.lastResort rest
termination_by Queue.steps queue
decreasing_by
  all_goals
    simp only [Queue.steps, Layout.steps]
    omega

namespace Candidate

variable {width column : Int}

theorem fits_after (earlier : List Token) (candidate : Candidate) :
    (candidate.after earlier).fits width column =
      candidate.fits width (column + Token.textLength earlier) := by
  simp only [fits, after, Token.text_length_append]
  congr 1
  apply propext
  omega

theorem after_after (earlier later : List Token) :
    after earlier ∘ after later = after (earlier ++ later) := by
  funext candidate
  simp [after]

theorem pick_mem
    {candidates : List Candidate}
    {chosen : Candidate}
    (picked : pick width column candidates = some chosen) :
    chosen ∈ candidates := by
  rcases Option.or_eq_some_iff.mp picked with found | ⟨_, last⟩
  · exact List.mem_of_find?_eq_some found
  · exact List.mem_of_getLast? last

theorem pick_singleton (candidate : Candidate) :
    pick width column [candidate] = some candidate := by
  by_cases fitting : candidate.fits width column = true
  · simp [pick, fitting]
  · simp [pick, fitting]

theorem pick_exists
    (width column : Int)
    {candidates : List Candidate}
    (offered : candidates ≠ []) :
    ∃ chosen, pick width column candidates = some chosen := by
  rw [← Option.isSome_iff_exists, pick, Option.isSome_or, List.getLast?_isSome.mpr offered]
  simp

theorem none_fits_of_pick
    {candidates : List Candidate}
    {chosen : Candidate}
    (picked : pick width column candidates = some chosen)
    (wide : chosen.fits width column = false) :
    ∀ candidate ∈ candidates, candidate.fits width column = false := by
  rcases Option.or_eq_some_iff.mp picked with found | ⟨absent, _⟩
  · have fitting := List.find?_some found
    rw [wide] at fitting
    cases fitting
  · intro candidate member
    simpa using List.find?_eq_none.mp absent candidate member

theorem pick_of_none_fits
    {candidates : List Candidate}
    (wide : ∀ candidate ∈ candidates, candidate.fits width column = false) :
    pick width column candidates = candidates.getLast? := by
  have absent : candidates.find? (fits width column) = none :=
    List.find?_eq_none.mpr fun candidate member => by simp [wide candidate member]
  rw [pick, absent, Option.none_or]

theorem pick_append_of_fits
    {first : List Candidate}
    {chosen : Candidate}
    (second : List Candidate)
    (picked : pick width column first = some chosen)
    (fitting : chosen.fits width column = true) :
    pick width column (first ++ second) = some chosen := by
  rcases Option.or_eq_some_iff.mp picked with found | ⟨absent, last⟩
  · rw [pick, List.find?_append, found]
    rfl
  · have wide := List.find?_eq_none.mp absent chosen (List.mem_of_getLast? last)
    exact absurd fitting wide

theorem pick_append_of_none_fits
    {first second : List Candidate}
    (wide : ∀ candidate ∈ first, candidate.fits width column = false)
    (offered : second ≠ []) :
    pick width column (first ++ second) = pick width column second := by
  have absent : first.find? (fits width column) = none :=
    List.find?_eq_none.mpr fun candidate member => by simp [wide candidate member]
  obtain ⟨last, found⟩ := Option.isSome_iff_exists.mp (List.getLast?_isSome.mpr offered)
  rw [pick, pick, List.find?_append, List.getLast?_append, absent, found]
  rfl

theorem pick_map_after (earlier : List Token) (candidates : List Candidate) :
    pick width column (candidates.map (after earlier)) =
      (pick width (column + Token.textLength earlier) candidates).map (after earlier) := by
  have same : fits width column ∘ after earlier =
      fits width (column + Token.textLength earlier) := by
    funext candidate
    exact fits_after earlier candidate
  rw [pick, pick, List.find?_map, List.getLast?_map, same]
  cases candidates.find? (fits width (column + Token.textLength earlier)) <;> rfl

end Candidate

namespace Queue

theorem candidates_ne_nil (queue : Queue) : candidates queue ≠ [] := by
  fun_induction candidates queue <;> simp_all

theorem complete_of_mem_candidates
    (queue : Queue)
    (candidate : Candidate)
    (member : candidate ∈ candidates queue) :
    Candidate.Complete candidate.tokens candidate.rest := by
  induction queue using work_induction generalizing candidate with
  | nil =>
      rw [candidates, List.mem_singleton] at member
      subst member
      rfl
  | text indent content rest ih =>
      rw [candidates] at member
      obtain ⟨later, among, rfl⟩ := List.mem_map.mp member
      exact ih later among
  | lineBreak indent rest ih =>
      rw [candidates, List.mem_singleton] at member
      subst member
      rfl
  | choice indent primary secondary rest primaryStep secondaryStep =>
      rw [candidates] at member
      rcases List.mem_append.mp member with among | among
      · exact primaryStep candidate among
      · exact secondaryStep candidate among
  | empty indent rest ih => exact ih candidate (by rwa [candidates] at member)
  | indent indent amount child rest ih => exact ih candidate (by rwa [candidates] at member)
  | concat indent left right rest ih => exact ih candidate (by rwa [candidates] at member)
  | stray indent value rest ih => exact ih candidate (by rwa [candidates] at member)

theorem last_candidate (queue : Queue) :
    (candidates queue).getLast? = some (lastResort queue) := by
  induction queue using work_induction with
  | nil => rw [candidates, lastResort, List.getLast?_singleton]
  | lineBreak indent rest ih => rw [candidates, lastResort, List.getLast?_singleton]
  | text indent content rest ih =>
      rw [candidates, lastResort, List.getLast?_map, ih]
      rfl
  | choice indent primary secondary rest primaryStep secondaryStep =>
      rw [candidates, lastResort, List.getLast?_append, secondaryStep]
      rfl
  | empty indent rest ih => rw [candidates, lastResort, ih]
  | indent indent amount child rest ih => rw [candidates, lastResort, ih]
  | concat indent left right rest ih => rw [candidates, lastResort, ih]
  | stray indent value rest ih => rw [candidates, lastResort, ih]

end Queue

end Typeset
