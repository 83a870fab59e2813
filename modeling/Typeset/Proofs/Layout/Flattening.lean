import Typeset.Layout.Flatten
import Typeset.Proofs.Layout.Stored

/-!
Flattening a stored object, with its faults. A walk looks at the last object that is pending, time
and again: it sets aside the parts that have no flat form yet, and it comes back to the object when
they have one. The same object may be pending several times, and objects are finished in another
order than they were set aside. Still each is finished once, so the number of turns is bounded by
that of the objects, and the walk finds the flat form or the leftmost stray:
`walk_finds_flat_form`.
-/

set_option autoImplicit false

namespace Typeset

namespace LayoutStore

open Layout

section

variable (store : LayoutStore)

/-- The objects that are pending, the last one first, and what was made so far. -/
structure Walk where
  pending : List (Fin store.size)
  known : store.Known

/-- One turn of the walk. An object that is finished already is dropped. A walk with nothing
pending is over. -/
def turn (walk : store.Walk) : Except LayoutFault store.Walk :=
  match walk.pending with
  | [] => .ok walk
  | place :: rest =>
      if walk.known[place.val]?.isSome then .ok ⟨rest, walk.known⟩
      else do
        match ← store.look walk.known place with
        | .made flat => return ⟨rest, walk.known.insert place flat⟩
        | .missing parts => return ⟨parts ++ place :: rest, walk.known⟩

def turns : (count : Nat) → store.Walk → Except LayoutFault store.Walk
  | 0, walk => .ok walk
  | count + 1, walk => do turns count (← store.turn walk)

def start (root : Fin store.size) : store.Walk := ⟨[root], ∅⟩

end

variable {store : LayoutStore} {separator : String}

theorem turn_of_found
    {known : store.Known}
    {place : Fin store.size}
    (found : known[place.val]?.isSome)
    (rest : List (Fin store.size)) :
    store.turn ⟨place :: rest, known⟩ = .ok ⟨rest, known⟩ := by
  simp only [turn, found, if_true]

theorem turn_of_look
    {known : store.Known}
    {place : Fin store.size}
    (unknown : known[place.val]? = none)
    (rest : List (Fin store.size)) :
    store.turn ⟨place :: rest, known⟩ = (do
      match ← store.look known place with
      | .made flat => return ⟨rest, known.insert place flat⟩
      | .missing parts => return ⟨parts ++ place :: rest, known⟩) := by
  simp only [turn, unknown, Option.isSome_none, Bool.false_eq_true, if_false]

theorem turn_of_missing
    {known : store.Known}
    {place : Fin store.size}
    {parts : List (Fin store.size)}
    (unknown : known[place.val]? = none)
    (missing : store.look known place = .ok (.missing parts))
    (rest : List (Fin store.size)) :
    store.turn ⟨place :: rest, known⟩ = .ok ⟨parts ++ place :: rest, known⟩ := by
  rw [turn_of_look unknown, missing]
  rfl

theorem turn_of_made
    {known : store.Known}
    {place : Fin store.size}
    {flat : FlatPart store.size}
    (unknown : known[place.val]? = none)
    (made : store.look known place = .ok (.made flat))
    (rest : List (Fin store.size)) :
    store.turn ⟨place :: rest, known⟩ = .ok ⟨rest, known.insert place flat⟩ := by
  rw [turn_of_look unknown, made]
  rfl

theorem turns_add (count more : Nat) (walk : store.Walk) :
    store.turns (count + more) walk = store.turns count walk >>= store.turns more := by
  induction count generalizing walk with
  | zero => simp [turns, bind, Except.bind]
  | succ count ih =>
      rw [Nat.succ_add, turns, turns, bind_assoc]
      congr 1
      funext next
      exact ih next

/-- Turns after some turns that come to a walk. -/
theorem turns_after
    {count more : Nat}
    {walk next : store.Walk}
    {outcome : Except LayoutFault store.Walk}
    (first : store.turns count walk = .ok next)
    (later : store.turns more next = outcome) :
    store.turns (count + more) walk = outcome := by
  rw [turns_add, first, ← later]
  rfl

theorem turns_one (walk : store.Walk) : store.turns 1 walk = store.turn walk := by
  simp only [turns]
  exact bind_pure _

/-- The objects before a bound that have no flat form yet. -/
def undone (known : store.Known) : (bound : Nat) → Nat
  | 0 => 0
  | bound + 1 => undone known bound + if known[bound]?.isSome then 0 else 1

theorem undone_empty (store : LayoutStore) (bound : Nat) : undone (∅ : store.Known) bound = bound := by
  induction bound with
  | zero => rfl
  | succ bound ih => simp [undone, ih]

theorem undone_mono (known : store.Known) {bound higher : Nat} (order : bound ≤ higher) :
    undone known bound ≤ undone known higher := by
  induction order with
  | refl => exact Nat.le_refl _
  | step order ih => exact Nat.le_trans ih (Nat.le_add_right _ _)

/-- What is alike from a bound on counts alike from there on. -/
theorem undone_above
    {known later : store.Known}
    {bound higher : Nat}
    (above : ∀ place, bound ≤ place → later[place]? = known[place]?)
    (order : bound ≤ higher) :
    undone later higher + undone known bound = undone known higher + undone later bound := by
  induction order with
  | refl => exact Nat.add_comm _ _
  | step order ih =>
      simp only [undone, above _ order]
      omega

theorem undone_insert
    {known : store.Known}
    {place : Nat}
    (unknown : known[place]? = none)
    (flat : FlatPart store.size) :
    undone (known.insert place flat) (place + 1) + 1 = undone known (place + 1) := by
  have before : ∀ bound ≤ place, undone (known.insert place flat) bound = undone known bound := by
    intro bound order
    induction bound with
    | zero => rfl
    | succ bound ih =>
        have other : place ≠ bound := by omega
        simp only [undone, ih (by omega), Std.HashMap.getElem?_insert, beq_iff_eq, other, if_false]
  simp [undone, before place (Nat.le_refl _), unknown]

/-- A stretch of a walk of so many turns. It adds flat forms of objects before a bound, three turns
for each at most, apart from some that it spends on what is there already. -/
structure Grows (separator : String) (bound count spent : Nat) (known later : store.Known) :
    Prop where
  sound : Sound separator later
  keeps : Keeps known later
  above : ∀ place, bound ≤ place → later[place]? = known[place]?
  cost : count + 3 * undone later bound ≤ spent + 3 * undone known bound

namespace Grows

variable {bound count spent more spentLater : Nat} {known later last : store.Known}

theorem still (sound : Sound separator known) (bound count : Nat) :
    Grows separator bound count count known known :=
  ⟨sound, fun _ _ found => found, fun _ _ => rfl, Nat.le_refl _⟩

theorem andThen
    (first : Grows separator bound count spent known later)
    (second : Grows separator bound more spentLater later last) :
    Grows separator bound (count + more) (spent + spentLater) known last where
  sound := second.sound
  keeps place flat found := second.keeps place flat (first.keeps place flat found)
  above place order := (second.above place order).trans (first.above place order)
  cost := by
    have firstCost := first.cost
    have secondCost := second.cost
    omega

theorem widen
    (grows : Grows separator bound count spent known later)
    {higher : Nat}
    (order : bound ≤ higher) :
    Grows separator higher count spent known later where
  sound := grows.sound
  keeps := grows.keeps
  above place beyond := grows.above place (Nat.le_trans order beyond)
  cost := by
    have cost := grows.cost
    have alike := undone_above grows.above order
    omega

/-- The flat form of the last object pays for three turns. -/
theorem enter
    {place : Fin store.size}
    {flat : FlatPart store.size}
    (grows : Grows separator place count spent known later)
    (unknown : known[place.val]? = none)
    (form : flatForm separator (store.layout place) = .ok (flat.layout store separator))
    (few : spent ≤ 3) :
    Grows separator (place + 1) (count + 1) 1 known (later.insert place flat) where
  sound other otherFlat found := by
    rw [Std.HashMap.getElem?_insert] at found
    split at found
    next same =>
      obtain rfl : place = other := Fin.ext (eq_of_beq same)
      cases found
      exact form
    next => exact grows.sound other otherFlat found
  keeps other otherFlat found := by
    have apart : place.val ≠ other := by
      rintro rfl
      rw [unknown] at found
      cases found
    simpa [Std.HashMap.getElem?_insert, apart] using grows.keeps other otherFlat found
  above other order := by
    have apart : place.val ≠ other := by omega
    simpa [Std.HashMap.getElem?_insert, apart] using grows.above other (by omega)
  cost := by
    have cost := (grows.widen (Nat.le_add_right place.val 1)).cost
    have gain := undone_insert ((grows.above place (Nat.le_refl _)).trans unknown) flat
    omega

end Grows

/-- From any sound table on, a walk finishes the objects that are pending first, or it stops at the
first stray on their lines. -/
structure Settles (separator : String) (bound : Nat) (parts : List (Fin store.size)) : Prop where
  stops : ∀ {known : store.Known}, Sound separator known →
    ∀ {first : Stray} {others : List Stray}, straysAt parts = first :: others →
    ∀ rest, ∃ count, count + 1 ≤ parts.length + 3 * undone known bound ∧
      store.turns count ⟨parts ++ rest, known⟩ = .error (.stray first)
  ends : ∀ {known : store.Known}, Sound separator known → straysAt parts = [] →
    ∀ rest, ∃ count later, store.turns count ⟨parts ++ rest, known⟩ = .ok ⟨rest, later⟩ ∧
      Grows separator bound count parts.length known later ∧
      ∀ inner ∈ parts, later[inner.val]?.isSome

namespace Settles

variable {bound : Nat} {place : Fin store.size} {parts : List (Fin store.size)}

theorem nil (separator : String) (bound : Nat) :
    Settles separator bound ([] : List (Fin store.size)) where
  stops _ _ _ strays := by cases strays
  ends sound _ rest := ⟨0, _, rfl, .still sound bound 0, by simp⟩

theorem widen
    (settles : Settles separator bound parts)
    {higher : Nat}
    (order : bound ≤ higher) :
    Settles separator higher parts where
  stops {known} sound _ _ strays rest := by
    obtain ⟨count, within, outcome⟩ := settles.stops sound strays rest
    have more := undone_mono known order
    exact ⟨count, by omega, outcome⟩
  ends sound clean rest := by
    obtain ⟨count, later, outcome, grows, found⟩ := settles.ends sound clean rest
    exact ⟨count, later, outcome, grows.widen order, found⟩

theorem cons
    (here : Settles separator bound [place])
    (there : Settles separator bound parts) :
    Settles separator bound (place :: parts) where
  stops {known} sound first others strays rest := by
    have split : straysAt [place] ++ straysAt parts = first :: others := by
      simpa [straysAt] using strays
    cases mine : straysAt [place] with
    | cons stray more =>
        rw [mine] at split
        cases split
        obtain ⟨count, within, outcome⟩ := here.stops sound mine (parts ++ rest)
        refine ⟨count, ?_, outcome⟩
        simp only [List.length_cons, List.length_nil] at within ⊢
        omega
    | nil =>
        rw [mine] at split
        obtain ⟨count, later, outcome, grows, -⟩ := here.ends sound mine (parts ++ rest)
        obtain ⟨more, within, stop⟩ := there.stops grows.sound split rest
        refine ⟨count + more, ?_, turns_after outcome stop⟩
        have cost := grows.cost
        simp only [List.length_cons, List.length_nil] at cost ⊢
        omega
  ends sound clean rest := by
    have split : straysAt [place] ++ straysAt parts = [] := by
      simpa [straysAt] using clean
    obtain ⟨mine, theirs⟩ := List.append_eq_nil_iff.mp split
    obtain ⟨count, later, outcome, grows, found⟩ := here.ends sound mine (parts ++ rest)
    obtain ⟨more, last, ending, growsLater, foundLater⟩ := there.ends grows.sound theirs rest
    refine ⟨count + more, last, turns_after outcome ending, ?_, ?_⟩
    · have both := grows.andThen growsLater
      rwa [List.length_singleton, Nat.add_comm 1] at both
    · intro inner listed
      rcases List.mem_cons.mp listed with rfl | listed
      · obtain ⟨flat, made⟩ := Option.isSome_iff_exists.mp (found inner (by simp))
        simp [growsLater.keeps inner.val flat made]
      · exact foundLater inner listed

/-- Objects before a bound settle together if each of them does. -/
theorem all
    (parts : List (Fin store.size))
    (each : ∀ inner ∈ parts, inner.val < bound ∧ Settles separator (inner + 1) [inner]) :
    Settles separator bound parts := by
  induction parts with
  | nil => exact nil separator bound
  | cons inner others ih =>
      obtain ⟨below, settles⟩ := each inner (by simp)
      exact (settles.widen below).cons (ih fun other listed => each other (by simp [listed]))

end Settles

section before

variable {place : Fin store.size} {known : store.Known}

/-- The missing parts of an object settle if all objects before it do. -/
theorem Lacks.settles
    {parts : List (Fin store.size)}
    (lacks : Lacks known place parts)
    (each : ∀ inner < place, Settles separator (inner + 1) [inner]) :
    Settles separator place parts :=
  .all parts fun inner listed =>
    ⟨lacks.before inner listed, each inner (lacks.before inner listed)⟩

/-- A walk stops at the first stray of an object at the look at it, or while it settles the missing
parts. -/
theorem stops_of_before
    (each : ∀ inner < place, Settles separator (inner + 1) [inner])
    (sound : Sound separator known)
    {first : Stray}
    {others : List Stray}
    (line : (store.layout place).straysOnLine = first :: others)
    (rest : List (Fin store.size)) :
    ∃ count, count ≤ 3 * undone known (place + 1) ∧
      store.turns count ⟨place :: rest, known⟩ = .error (.stray first) := by
  have unknown : known[place.val]? = none := by
    cases found : known[place.val]? with
    | none => rfl
    | some flat => simp [sound.no_strays found] at line
  have room : undone known (place + 1) = undone known place + 1 := by simp [undone, unknown]
  cases seen : store.look known place with
  | error fault =>
      obtain ⟨value, rfl, only⟩ := look_fault seen
      rw [only] at line
      cases line
      refine ⟨1, by omega, ?_⟩
      rw [turns_one, turn_of_look unknown, seen]
      rfl
  | ok look =>
      cases look with
      | made flat =>
          have form := flat_form_fails_at separator (store.layout place)
          rw [look_made sound seen, line] at form
          cases form
      | missing parts =>
          have lacks := look_missing sound seen
          obtain ⟨count, within, stop⟩ :=
            (lacks.settles each).stops sound (lacks.strays.symm.trans line) (place :: rest)
          have few := lacks.few
          refine ⟨1 + count, by omega, turns_after ?_ stop⟩
          rw [turns_one, turn_of_missing unknown seen]

/-- A walk finishes an object at the look at it, or it settles the missing parts and finishes the
object at a second look. -/
theorem ends_of_before
    (each : ∀ inner < place, Settles separator (inner + 1) [inner])
    (sound : Sound separator known)
    (clean : (store.layout place).straysOnLine = [])
    (rest : List (Fin store.size)) :
    ∃ count later, store.turns count ⟨place :: rest, known⟩ = .ok ⟨rest, later⟩ ∧
      Grows separator (place + 1) count 1 known later ∧ later[place.val]?.isSome := by
  cases found : known[place.val]? with
  | some flat =>
      refine ⟨1, known, ?_, .still sound _ 1, by rw [found]; rfl⟩
      rw [turns_one, turn_of_found (by rw [found]; rfl)]
  | none =>
      cases seen : store.look known place with
      | error fault =>
          obtain ⟨value, -, only⟩ := look_fault seen
          rw [only] at clean
          cases clean
      | ok look =>
          cases look with
          | made flat =>
              refine ⟨1, known.insert place flat, ?_, ?_, by simp⟩
              · rw [turns_one, turn_of_made found seen]
              · exact (Grows.still sound place 0).enter found (look_made sound seen) (by omega)
          | missing parts =>
              have lacks := look_missing sound seen
              obtain ⟨count, later, middle, grows, all⟩ :=
                (lacks.settles each).ends sound (lacks.strays.symm.trans clean) (place :: rest)
              obtain ⟨flat, made⟩ := lacks.again later grows.keeps all
              -- What stands before the object cannot have finished it.
              have unknown := (grows.above place (Nat.le_refl _)).trans found
              have first : store.turns 1 ⟨place :: rest, known⟩ =
                  .ok ⟨parts ++ place :: rest, known⟩ := by
                rw [turns_one, turn_of_missing found seen]
              have few := lacks.few
              refine ⟨1 + count + 1, later.insert place flat, ?_, ?_, by simp⟩
              · refine turns_after (turns_after first middle) ?_
                rw [turns_one, turn_of_made unknown made]
              · exact ((Grows.still sound place 1).andThen grows).enter found
                  (look_made grows.sound made) (by omega)

theorem settles_of_before
    (each : ∀ inner < place, Settles separator (inner + 1) [inner]) :
    Settles separator (place + 1) [place] where
  stops sound _ _ strays rest := by
    have line := (strays_at_singleton _).symm.trans strays
    obtain ⟨count, within, stop⟩ := stops_of_before each sound line rest
    exact ⟨count, by rw [List.length_singleton]; omega, stop⟩
  ends sound clean rest := by
    have line := (strays_at_singleton _).symm.trans clean
    obtain ⟨count, later, ending, grows, found⟩ := ends_of_before each sound line rest
    exact ⟨count, later, ending, grows, by simpa using found⟩

end before

/-- Every object settles, as its parts stand before it. -/
theorem settles (separator : String) (place : Fin store.size) :
    Settles separator (place + 1) [place] :=
  settles_of_before fun inner _ => settles separator inner
termination_by place.val

/-- What a walk from one object comes to. -/
theorem start_outcome (separator : String) (store : LayoutStore) (root : Fin store.size) :
    ∃ count ≤ 3 * store.size + 1,
      ((store.turns count (store.start root)).map fun walk =>
        (walk.pending, walk.known[root.val]?.map (·.layout store separator))) =
      (flatForm separator (store.layout root)).map fun flat => ([], some flat) := by
  have fresh : Sound separator (∅ : store.Known) := by
    intro place flat found
    simp at found
  have room := undone_empty store (root + 1)
  have settled := settles separator root
  cases strays : (store.layout root).straysOnLine with
  | cons first others =>
      obtain ⟨count, within, stop⟩ :=
        settled.stops fresh ((strays_at_singleton root).trans strays) []
      rw [List.length_singleton] at within
      have fails := flat_form_fails_at separator (store.layout root)
      rw [strays] at fails
      refine ⟨count, by omega, ?_⟩
      rw [fails]
      exact congrArg _ stop
  | nil =>
      obtain ⟨count, later, ending, grows, found⟩ :=
        settled.ends fresh ((strays_at_singleton root).trans strays) []
      obtain ⟨flat, made⟩ := Option.isSome_iff_exists.mp (found root (List.mem_singleton.mpr rfl))
      have cost := grows.cost
      rw [List.length_singleton] at cost
      refine ⟨count, by omega, (congrArg _ ending).trans ?_⟩
      rw [grows.sound root flat made]
      simp only [Except.map, made, Option.map_some]

end LayoutStore

namespace Layout

/-- Flattening finds the single-line form said by recursion, or the leftmost stray that the form
would hold, and the single-line text has the same faults. A walk over stored objects comes to that
outcome within three turns for each object and one more, however often the objects are shared. -/
theorem walk_finds_flat_form :
    (∀ separator layout,
      flattenWith separator layout = flatForm separator layout ∧
      ∀ fault,
        (flattenWith separator layout = .error fault ↔
          layout.straysOnLine.head?.map .stray = some fault) ∧
        (flatText separator layout = .error fault ↔
          layout.straysOnLine.head?.map .stray = some fault)) ∧
    ∀ separator (store : LayoutStore) root,
      ∃ count ≤ 3 * store.size + 1,
        ((store.turns count (store.start root)).map fun walk =>
          (walk.pending, walk.known[root.val]?.map (·.layout store separator))) =
        (flattenWith separator (store.layout root)).map fun flat => ([], some flat) := by
  refine ⟨fun separator layout => ?_, fun separator store root => ?_⟩
  · rw [flattenWith_eq]
    exact ⟨rfl, fun fault => ⟨(flat_form_fails_at separator layout).error_iff fault,
      (flat_text_fails_at separator layout).error_iff fault⟩⟩
  · rw [flattenWith_eq]
    exact store.start_outcome separator root

end Layout

end Typeset
