import Typeset.Proofs.Session.Outcome

/-!
The registry over any history. Clients register formatters, look them up and list their names, in
any order and under any names. A name stands for what was registered under it last, the names are
listed in their order, and a look-up that fails names them all: `follows_history`. It makes no
difference that the bundled formatters are loaded whenever they may be needed, since what is loaded
already is not loaded again.
-/

set_option autoImplicit false

namespace Typeset.Registry

/-- What a client asks for. -/
inductive Operation where
  | register (formatter : Formatter)
  | get (name : String)
  | list

/-- What a client is given. -/
inductive Answer where
  | registered
  | found (formatter : PreparedFormatter)
  | listed (names : List String)

theorem find_of_registered (formatters : List Formatter) (registry : Registry) (name : String) :
    (formatters.foldl register registry).find? name =
      (formatters.reverse.find? fun formatter => formatter.name == name).or
        (registry.find? name) := by
  induction formatters generalizing registry with
  | nil => rfl
  | cons first rest ih =>
      rw [List.foldl_cons, ih, find_register, List.reverse_cons, List.find?_append,
        Option.or_assoc]
      congr 1
      by_cases same : first.name = name
      · rw [if_pos same, List.find?_cons_of_pos (by simpa using same), Option.some_or]
      · rw [if_neg same, List.find?_cons_of_neg (by simpa using same), List.find?_nil,
          Option.none_or]

namespace Operation

def action : Operation → Action Answer
  | .register formatter => do
      Action.register formatter
      return .registered
  | .get name => return .found (← Action.formatter name)
  | .list => return .listed (← MonadState.get).registry.names

/-- Performs the operation in a session. A failure is an answer as well. -/
def perform (operation : Operation) (session : Session) : Except Failure Answer × Session :=
  operation.action.run session

/-- Performs the operations one after the other, in the way that each of them is performed in. -/
def performAll
    {σ : Type}
    (perform : Operation → σ → Except Failure Answer × σ) :
    List Operation → σ → List (Except Failure Answer) × σ
  | [], state => ([], state)
  | operation :: rest, state =>
      let (answer, reached) := perform operation state
      let (answers, left) := performAll perform rest reached
      (answer :: answers, left)

/-- What the operation registers, if anything. -/
def registers : Operation → List Formatter
  | .register formatter => [formatter]
  | .get _ | .list => []

/-- The formatters that a history registers, in their order. -/
def registered (history : List Operation) : List Formatter := history.flatMap registers

/-- What was registered under the name last. The bundled formatters come before all others. -/
def standing (history : List Operation) (name : String) : Option Formatter :=
  (Formatter.bundled ++ registered history).reverse.find? fun formatter => formatter.name == name

theorem perform_get (name : String) (session : Session) :
    (get name).perform session =
      match session.registry.find? name with
      | some found => (.ok (.found (found.prepare (session.environment.setting .indent))), session)
      | none => (.error (.unknownFormatter name session.registry.names), session) := by
  rw [perform, action, Action.run_bind, Action.formatter_run]
  cases session.registry.find? name <;> rfl

theorem perform_list (session : Session) :
    list.perform session = (.ok (.listed session.registry.names), session) :=
  rfl

/-- Only registering changes anything, and that is the registry. -/
theorem perform_leaves (operation : Operation) (session : Session) :
    (operation.perform session).2 =
      { session with registry := operation.registers.foldl Registry.register session.registry } := by
  cases operation with
  | register formatter => rfl
  | list => rfl
  | get name =>
      rw [perform_get]
      split <;> rfl

theorem perform_all_leaves (history : List Operation) (session : Session) :
    (performAll perform history session).2 =
      { session with registry := (registered history).foldl Registry.register session.registry } := by
  induction history generalizing session with
  | nil => rfl
  | cons operation rest ih =>
      have whole : (performAll perform (operation :: rest) session).2 =
          (performAll perform rest (operation.perform session).2).2 := rfl
      have both : registered (operation :: rest) = operation.registers ++ registered rest :=
        List.flatMap_cons
      rw [whole, ih, perform_leaves, both, List.foldl_append]

theorem find_of_history (history : List Operation) (name : String) :
    ((registered history).foldl Registry.register .bundled).find? name = standing history name := by
  have nothing : empty.find? name = none := by
    simp [empty, find?]
  rw [bundled, ← List.foldl_append, find_of_registered, nothing, Option.or_none, standing]

theorem name_of_standing
    {history : List Operation}
    {name : String}
    {formatter : Formatter}
    (stands : standing history name = some formatter) :
    formatter.name = name := by
  simpa using List.find?_some stands

theorem standing_is_some_iff (history : List Operation) (name : String) :
    (standing history name).isSome ↔
      name ∈ ["c", "sexpr", "tree"] ∨ ∃ formatter ∈ registered history, formatter.name = name := by
  have bundledNames : Formatter.bundled.map Formatter.name = ["c", "sexpr", "tree"] := rfl
  rw [standing, List.find?_isSome, ← bundledNames, List.mem_map]
  simp only [List.mem_reverse, List.mem_append, beq_iff_eq, or_and_right, exists_or]

end Operation

/-- The modules of the bundled formatters. -/
inductive Bundle where
  | cSource
  | sExpr
  | tree
  deriving DecidableEq

namespace Bundle

/-- All of them, in the order in which they are loaded. -/
def all : List Bundle := [.cSource, .sExpr, .tree]

/-- What is registered when the module is loaded. -/
def formatter : Bundle → Formatter
  | .cSource => .cSource
  | .sExpr => .sExpr
  | .tree => .tree

end Bundle

/-- A registry with the modules that were loaded into it. -/
structure Loader where
  registry : Registry
  loaded : List Bundle

namespace Loader

def fresh : Loader := ⟨.empty, []⟩

/-- Loads a module, unless that was done before. -/
def load (loader : Loader) (bundle : Bundle) : Loader :=
  if bundle ∈ loader.loaded then loader
  else ⟨loader.registry.register bundle.formatter, bundle :: loader.loaded⟩

def loadAll (loader : Loader) : Loader := Bundle.all.foldl load loader

def Complete (loader : Loader) : Prop := ∀ bundle, bundle ∈ loader.loaded

theorem load_all_of_complete {loader : Loader} (complete : loader.Complete) :
    loader.loadAll = loader := by
  simp only [loadAll, Bundle.all, List.foldl_cons, List.foldl_nil, load, complete _, if_true]

theorem fresh_load_all : fresh.loadAll = ⟨.bundled, [.tree, .sExpr, .cSource]⟩ := rfl

/-- Performs an operation when all modules are loaded for a listing, and for a name that does not
stand for anything yet. -/
def perform (step : Int) : Operation → Loader → Except Failure Answer × Loader
  | .register formatter, loader =>
      (.ok .registered, { loader with registry := loader.registry.register formatter })
  | .get name, loader =>
      let ready := if (loader.registry.find? name).isSome then loader else loader.loadAll
      match ready.registry.find? name with
      | some found => (.ok (.found (found.prepare step)), ready)
      | none => (.error (.unknownFormatter name ready.registry.names), ready)
  | .list, loader =>
      let ready := loader.loadAll
      (.ok (.listed ready.registry.names), ready)

/-- Where all is loaded, loading makes no difference to an operation. -/
theorem perform_of_complete
    {loader : Loader}
    (complete : loader.Complete)
    (operation : Operation)
    {session : Session}
    (same : session.registry = loader.registry) :
    loader.perform (session.environment.setting .indent) operation =
      ((operation.perform session).1, ⟨(operation.perform session).2.registry, loader.loaded⟩) := by
  obtain ⟨registry, loaded⟩ := loader
  subst same
  cases operation with
  | register formatter => rfl
  | get name =>
      rw [Operation.perform_get, perform, load_all_of_complete complete, ite_self]
      dsimp only
      split <;> rfl
  | list =>
      rw [perform, load_all_of_complete complete]
      rfl

/-- Nor does it make a difference to a history. -/
theorem perform_all_of_complete
    {loader : Loader}
    (complete : loader.Complete)
    (history : List Operation)
    {session : Session}
    (same : session.registry = loader.registry) :
    Operation.performAll (perform (session.environment.setting .indent)) history loader =
      ((Operation.performAll Operation.perform history session).1,
        ⟨(Operation.performAll Operation.perform history session).2.registry, loader.loaded⟩) := by
  induction history generalizing loader session with
  | nil =>
      obtain ⟨registry, loaded⟩ := loader
      subst same
      rfl
  | cons operation rest ih =>
      have environment : (operation.perform session).2.environment = session.environment := by
        rw [Operation.perform_leaves]
      let reached := (operation.perform session).2
      let left : Loader := ⟨reached.registry, loader.loaded⟩
      have agree : reached.registry = left.registry := rfl
      have later := @ih left complete reached agree
      rw [environment] at later
      rw [Operation.performAll, perform_of_complete complete operation same]
      dsimp only
      rw [later]
      rfl

end Loader

theorem unknown_formatter_message
    (name : String)
    {available : List String}
    (known : available ≠ []) :
    (Failure.unknownFormatter name available).message =
      "Unknown formatter '" ++ name ++ "'. Available: " ++ String.intercalate ", " available := by
  cases available with
  | nil => exact absurd rfl known
  | cons first rest => rfl

open Operation in
/-- After any history, whatever it begins with, the names are listed in the order of their code
points, each of them once: those of the bundled formatters and those that were registered. A listed
name stands for what was registered under it last. A look-up of any other name fails with a message
that lists the names, and leaves the registry as it is. The same answers are given, and the same
registry is left, where the modules of the bundled formatters are loaded for every listing and for
every name that is not found at once. -/
theorem follows_history (start : Session) (history : List Operation) :
    ∃ answers left,
      performAll perform history { start with registry := .bundled } = (answers, left) ∧
      left = { start with registry := left.registry } ∧
      list.perform left = (.ok (.listed left.registry.names), left) ∧
      left.registry.names.Pairwise (· < ·) ∧
      (∀ name, name ∈ left.registry.names ↔
        name ∈ ["c", "sexpr", "tree"] ∨ ∃ formatter ∈ registered history, formatter.name = name) ∧
      (∀ name ∈ left.registry.names, ∃ formatter,
        standing history name = some formatter ∧ formatter.name = name ∧
          (get name).perform left =
            (.ok (.found (formatter.prepare (start.environment.setting .indent))), left)) ∧
      (∀ name, name ∉ left.registry.names →
        (get name).perform left = (.error (.unknownFormatter name left.registry.names), left) ∧
          (Failure.unknownFormatter name left.registry.names).message =
            "Unknown formatter '" ++ name ++ "'. Available: " ++
              String.intercalate ", " left.registry.names) ∧
      performAll (Loader.perform (start.environment.setting .indent))
          history Loader.fresh.loadAll =
        (answers, ⟨left.registry, Loader.fresh.loadAll.loaded⟩) := by
  let begun : Session := { start with registry := .bundled }
  let registry := (registered history).foldl Registry.register .bundled
  have ended : (performAll perform history begun).2 = { start with registry } :=
    perform_all_leaves history begun
  have listed (name : String) : name ∈ registry.names ↔ (standing history name).isSome := by
    rw [mem_names, find_of_history]
  refine ⟨(performAll perform history begun).1, { start with registry }, Prod.ext rfl ended, rfl,
    perform_list _, registry.names_ordered, ?_, ?_, ?_, ?_⟩
  · intro name
    rw [listed, standing_is_some_iff]
  · intro name member
    obtain ⟨formatter, stands⟩ := Option.isSome_iff_exists.mp ((listed name).mp member)
    refine ⟨formatter, stands, name_of_standing stands, ?_⟩
    rw [perform_get, find_of_history, stands]
  · intro name missing
    have unknown : standing history name = none := by
      simpa using mt (listed name).mpr missing
    refine ⟨?_, ?_⟩
    · rw [perform_get, find_of_history, unknown]
    · have known : "c" ∈ registry.names := by
        rw [listed, standing_is_some_iff]
        exact .inl List.mem_cons_self
      exact unknown_formatter_message name (List.ne_nil_of_mem known)
  · have complete : Loader.fresh.loadAll.Complete := by
      rw [Loader.fresh_load_all]
      rintro (_ | _ | _) <;> decide
    have same : begun.registry = Loader.fresh.loadAll.registry := by
      rw [Loader.fresh_load_all]
    have loading := Loader.perform_all_of_complete complete history same
    rw [ended] at loading
    exact loading

end Typeset.Registry
