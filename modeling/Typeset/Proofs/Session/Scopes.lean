import Typeset.Proofs.Session.Frame

/-!
Blocks in which the check of choices is forced on or off, or left to the environment. A script
assigns the setting and the environment, does work that may fail, and opens blocks to any depth. At
every moment the setting is the one on top of a stack of the blocks that are open, however the
blocks before it were left: `scopes_restore`.
-/

set_option autoImplicit false

namespace Typeset

namespace Script

/-- A task that may fail: building, resolving, writing and printing layouts, and looking formatters up
and using them. -/
inductive Task where
  | build (construction : Build Layout)
  | deliver (item : Item) (width column : Int) (count : Option Nat)
  | write (item : Item) (width column : Int) (sink : Sink)
  | pretty (item : Item) (width column : Int)
  | lookUp (name : String)
  | render (formatter : PreparedFormatter) (document : Document) (width column : Int)
  | format (formatter : PreparedFormatter) (text : String) (width column : Int)

/-- Fails for the layout, if there is a fault of it. -/
def raise : Option LayoutFault → Action Unit
  | some fault => throw (.layout fault)
  | none => return ()

def Task.action : Task → Action Unit
  | .build construction => do let _ ← Action.build construction
  | .deliver item width column count => do
      let delivery ← Action.deliver item width column count
      raise delivery.fault
  | .write item width column sink => do
      let (outcome, _) ← Action.write item width column sink
      match outcome with
      | .error fault => raise (some fault)
      | .ok _ => return ()
  | .pretty item width column => do let _ ← Action.pretty item width column
  | .lookUp name => do let _ ← Action.formatter name
  | .render formatter document width column => do
      let _ ← formatter.render document width column
  | .format formatter text width column => do
      let _ ← formatter.format text width column

open Typeset.Action in
/-- A task leaves nothing behind but records, whether or not it fails. -/
theorem Task.contained (task : Task) : Contained (fun _ => True) task.action := by
  have raised (fault : Option LayoutFault) : Contained (fun _ => True) (raise fault) := by
    cases fault with
    | none => exact .pure ()
    | some fault => exact .throw trivial
  have dropped {α : Type} {fails : Failure → Prop} {action : Action α}
      (contained : Contained fails action) :
      Contained (fun _ => True) (do let _ ← action) :=
    .bind (contained.mono fun _ _ => trivial) fun _ => .pure ()
  cases task with
  | build construction => exact dropped (build_contained construction)
  | deliver item width column count =>
      exact .bind (deliver_contained item width column count) fun delivery => raised _
  | write item width column sink =>
      refine .bind (write_contained item width column sink) fun written => ?_
      obtain ⟨outcome, left⟩ := written
      cases outcome with
      | error fault => exact raised _
      | ok count => exact .pure ()
  | pretty item width column => exact dropped (pretty_contained item width column)
  | lookUp name => exact dropped (formatter_contained name)
  | render formatter document width column =>
      exact dropped (formatter.render_contained document width column)
  | format formatter text width column =>
      cases loaded : formatter.model.load text with
      | ok document => exact dropped (formatter.format_contained loaded width column)
      | error reason =>
          have stopped : formatter.format text width column = throw (.invalid reason) := by
            rw [PreparedFormatter.format, loaded]
          have thrown : Contained (fun _ => True) (formatter.format text width column) := by
            rw [stopped]
            exact .throw trivial
          exact dropped thrown

/-- A step of a script. Where a step fails, the script is cut short, and the blocks that are open
with it, up to the innermost attempt around the step. -/
inductive Step where
  | force (enabled : Option Bool)
  | setVariable (name : String) (value : Option String)
  | register (formatter : Formatter)
  | perform (task : Task)
  | block (enabled : Option Bool) (body : List Step)
  | attempt (body : List Step)

namespace Step

mutual

def action : Step → Action Unit
  | .force enabled => Action.force enabled
  | .setVariable name value => Action.setVariable name value
  | .register formatter => Action.register formatter
  | .perform task => task.action
  | .block enabled body => Action.verifying enabled (actions body)
  | .attempt body => tryCatch (actions body) fun _ => return ()

/-- Takes the steps one after the other, up to the first one that fails. -/
def actions : List Step → Action Unit
  | [] => return ()
  | step :: rest => do
      step.action
      actions rest

end

end Step

/-- What happens in a moment of a run. -/
inductive Change where
  | forced (enabled : Option Bool)
  | variable (name : String) (value : Option String)
  | registered (formatter : Formatter)
  | performed
  | entered (enabled : Option Bool)
  | left

/-- A moment of a run, and the session after it. -/
structure Moment where
  change : Change
  session : Session

namespace Step

mutual

/-- The moments of a step, in their order. Those of a block that is cut short end with the moment in
which it is left. -/
def moments : Step → Session → List Moment
  | .force enabled, session =>
      [⟨.forced enabled, ((force enabled).action.run session).2⟩]
  | .setVariable name value, session =>
      [⟨.variable name value, ((setVariable name value).action.run session).2⟩]
  | .register formatter, session =>
      [⟨.registered formatter, ((register formatter).action.run session).2⟩]
  | .perform task, session => [⟨.performed, (task.action.run session).2⟩]
  | .block enabled body, session =>
      let inside := { session with forced := enabled }
      ⟨.entered enabled, inside⟩ :: (allMoments body inside ++
        [⟨.left, ((block enabled body).action.run session).2⟩])
  | .attempt body, session => allMoments body session

def allMoments : List Step → Session → List Moment
  | [], _ => []
  | step :: rest, session =>
      step.moments session ++
        match step.action.run session with
        | (.ok (), reached) => allMoments rest reached
        | (.error _, _) => []

end

end Step

/-- What is known of a session from what has happened. The settings of the open blocks are stacked,
the innermost one on top and that outside of all blocks at the bottom. -/
structure Ledger where
  scopes : List (Option Bool)
  environment : Environment
  registry : Registry

namespace Ledger

def note (ledger : Ledger) : Change → Ledger
  | .forced enabled => { ledger with scopes := enabled :: ledger.scopes.tail }
  | .variable name value => { ledger with environment := ledger.environment.put name value }
  | .registered formatter => { ledger with registry := ledger.registry.register formatter }
  | .performed => ledger
  | .entered enabled => { ledger with scopes := enabled :: ledger.scopes }
  | .left => { ledger with scopes := ledger.scopes.tail }

def after (ledger : Ledger) (moments : List Moment) : Ledger :=
  moments.foldl (fun ledger moment => ledger.note moment.change) ledger

/-- The ledger of a session, with what is stacked below its own setting. -/
def of (session : Session) (around : List (Option Bool)) : Ledger where
  scopes := session.forced :: around
  environment := session.environment
  registry := session.registry

/-- Whether choices are checked: what the innermost block says, or else the environment. -/
def effective (ledger : Ledger) : Bool :=
  ledger.scopes.head?.join.getD (ledger.environment.setting .verifyChoices)

/-- In each of the moments the session is what the ledger says. -/
def Follows : Ledger → List Moment → Prop
  | _, [] => True
  | ledger, moment :: rest =>
      (∃ around, ledger.note moment.change = of moment.session around) ∧
        Follows (ledger.note moment.change) rest

theorem after_cons (ledger : Ledger) (moment : Moment) (later : List Moment) :
    ledger.after (moment :: later) = (ledger.note moment.change).after later :=
  rfl

theorem after_append (ledger : Ledger) (earlier later : List Moment) :
    ledger.after (earlier ++ later) = (ledger.after earlier).after later :=
  List.foldl_append

theorem follows_append (ledger : Ledger) (earlier later : List Moment) :
    ledger.Follows (earlier ++ later) ↔
      ledger.Follows earlier ∧ (ledger.after earlier).Follows later := by
  induction earlier generalizing ledger with
  | nil => exact ⟨fun follows => ⟨trivial, follows⟩, And.right⟩
  | cons moment rest ih =>
      rw [List.cons_append, Follows, Follows, ih, and_assoc, after_cons]

/-- In a moment that is followed up to its end the ledger is that of the session. -/
theorem Follows.at_moment
    {ledger : Ledger}
    {earlier later : List Moment}
    {moment : Moment}
    (follows : ledger.Follows (earlier ++ moment :: later)) :
    ∃ around, ledger.after (earlier ++ [moment]) = of moment.session around := by
  rw [follows_append] at follows
  rw [after_append]
  exact follows.2.1

end Ledger

/-- The moments lead from one session to the other, and in each of them the session is what the
ledger says. What was stacked before the first moment is stacked after the last one. -/
structure Leads (before : Session) (moments : List Moment) (after : Session) : Prop where
  follows : ∀ around, (Ledger.of before around).Follows moments
  ends : ∀ around, (Ledger.of before around).after moments = .of after around

namespace Leads

variable {before middle after : Session} {moments later : List Moment}

theorem nothing (session : Session) : Leads session [] session where
  follows _ := trivial
  ends _ := rfl

theorem single
    {change : Change}
    (noted : ∀ around, (Ledger.of before around).note change = .of after around) :
    Leads before [⟨change, after⟩] after where
  follows around := ⟨⟨around, noted around⟩, trivial⟩
  ends around := noted around

theorem append
    (first : Leads before moments middle)
    (second : Leads middle later after) :
    Leads before (moments ++ later) after where
  follows around := by
    rw [Ledger.follows_append, first.ends]
    exact ⟨first.follows around, second.follows around⟩
  ends around := by
    rw [Ledger.after_append, first.ends, second.ends]

/-- What is done in a block is done on top of what was stacked before, and that is there again when
the block is left. -/
theorem block
    (enabled : Option Bool)
    (inside : Leads { before with forced := enabled } moments middle) :
    Leads before
      (⟨.entered enabled, { before with forced := enabled }⟩ ::
        (moments ++ [⟨.left, { middle with forced := before.forced }⟩]))
      { middle with forced := before.forced } where
  follows around := by
    have opened : (Ledger.of before around).note (.entered enabled) =
        .of { before with forced := enabled } (before.forced :: around) := rfl
    refine ⟨⟨_, opened⟩, ?_⟩
    rw [opened, Ledger.follows_append, inside.ends]
    exact ⟨inside.follows _, ⟨around, rfl⟩, trivial⟩
  ends around := by
    have opened : (Ledger.of before around).note (.entered enabled) =
        .of { before with forced := enabled } (before.forced :: around) := rfl
    rw [Ledger.after_cons, opened, Ledger.after_append, inside.ends]
    rfl

end Leads

namespace Step

mutual

theorem leads (step : Step) (session : Session) :
    Leads session (step.moments session) (step.action.run session).2 := by
  cases step with
  | force enabled => exact .single fun _ => rfl
  | setVariable name value => exact .single fun _ => rfl
  | register formatter => exact .single fun _ => rfl
  | perform task =>
      obtain ⟨records, reached, _⟩ := task.contained session
      rw [moments, action, reached]
      exact .single fun _ => rfl
  | block enabled body => exact .block enabled (all_lead body _)
  | attempt body =>
      have caught : ((attempt body).action.run session).2 = ((actions body).run session).2 := by
        rw [action, Action.run_try_catch]
        cases (actions body).run session with
        | mk outcome reached => cases outcome <;> rfl
      rw [caught]
      exact all_lead body session

theorem all_lead (steps : List Step) (session : Session) :
    Leads session (allMoments steps session) ((actions steps).run session).2 := by
  cases steps with
  | nil => exact .nothing session
  | cons step rest =>
      have first := leads step session
      rw [allMoments, actions, Action.run_bind]
      cases ran : step.action.run session with
      | mk outcome reached =>
          rw [ran] at first
          cases outcome with
          | ok done => exact first.append (all_lead rest reached)
          | error failure =>
              rw [List.append_nil]
              exact first

end

end Step

/-- Whether choices are checked in the session: if so, two branches with different texts are
refused, and else every choice is built. -/
def Checks (session : Session) (enabled : Bool) : Prop :=
  ∀ primary secondary : Layout, ∀ primaryText secondaryText,
    Layout.flatText " " primary = .ok primaryText →
    Layout.flatText " " secondary = .ok secondaryText →
      ((Action.build (Layout.choose primary secondary)).run session).1 =
        if enabled ∧ primaryText ≠ secondaryText then
          .error (.layout (.branchesDiffer primaryText secondaryText))
        else .ok (.choice primary secondary)

theorem check_branches_of_texts
    {separator primaryText secondaryText : String}
    {primary secondary : Layout}
    (primaryWritten : Layout.flatText separator primary = .ok primaryText)
    (secondaryWritten : Layout.flatText separator secondary = .ok secondaryText) :
    Layout.checkBranches separator primary secondary =
      if primaryText = secondaryText then .ok ()
      else .error (.branchesDiffer primaryText secondaryText) := by
  rw [Layout.checkBranches, primaryWritten, secondaryWritten]
  rfl

theorem checks_verifies (session : Session) : Checks session session.verifies := by
  intro primary secondary primaryText secondaryText primaryWritten secondaryWritten
  rw [Action.build_outcome]
  cases session.verifies with
  | false => rfl
  | true =>
      rw [Layout.choose, Layout.run_choose_with,
        check_branches_of_texts primaryWritten secondaryWritten]
      by_cases same : primaryText = secondaryText
      · rw [if_pos same, if_neg fun refused => refused.2 same]
        rfl
      · rw [if_neg same, if_pos ⟨rfl, same⟩]
        rfl

/-- The session is what the ledger says, and choices are checked accordingly. -/
structure Ledger.Shows (ledger : Ledger) (session : Session) : Prop where
  forced : ledger.scopes.head? = some session.forced
  environment : ledger.environment = session.environment
  registry : ledger.registry = session.registry
  verifies : session.verifies = ledger.effective
  checks : Checks session ledger.effective

theorem Ledger.of_shows (session : Session) (around : List (Option Bool)) :
    (Ledger.of session around).Shows session where
  forced := rfl
  environment := rfl
  registry := rfl
  verifies := rfl
  checks := checks_verifies session

theorem Step.failed_leaves
    (step : Step)
    {before after : Session}
    {failure : Failure}
    (failed : step.action.run before = (.error failure, after)) :
    (∃ enabled body, step = .block enabled body) ∨ ∃ records, after = before.logged records := by
  cases step with
  | force enabled => cases failed
  | setVariable name value => cases failed
  | register formatter => cases failed
  | block enabled body => exact .inl ⟨enabled, body, rfl⟩
  | perform task =>
      obtain ⟨records, reached, _⟩ := task.contained before
      rw [action] at failed
      rw [failed] at reached
      exact .inr ⟨records, reached⟩
  | attempt body =>
      rw [action, Action.run_try_catch] at failed
      split at failed <;> cases failed

/-- At every moment of a script the session is what the ledger of the moments before it says: the
setting is the one that the innermost open block was entered with or that was forced in it since,
and whether choices are checked follows from it, or where it says nothing from the environment as it
was changed last. At the end the setting is that outside of all blocks. A block gives the outcome of
its steps and leaves what they leave, except that the setting is what it was on entering the block.
A step that fails and is no block leaves nothing behind but records. -/
theorem scopes_restore (script : List Step) (start : Session) :
    (∀ earlier moment later, Step.allMoments script start = earlier ++ moment :: later →
      ((Ledger.of start []).after (earlier ++ [moment])).Shows moment.session) ∧
    (Ledger.of start []).after (Step.allMoments script start) =
      .of ((Step.actions script).run start).2 [] ∧
    (∀ enabled body before, ∃ outcome after,
      (Step.actions body).run { before with forced := enabled } = (outcome, after) ∧
        (Step.block enabled body).action.run before =
          (outcome, { after with forced := before.forced })) ∧
    ∀ step : Step, ∀ before failure after, step.action.run before = (.error failure, after) →
      (∃ enabled body, step = .block enabled body) ∨ ∃ records, after = before.logged records := by
  have leads := Step.all_lead script start
  refine ⟨?_, leads.ends [], ?_, ?_⟩
  · intro earlier moment later history
    have follows := leads.follows []
    rw [history] at follows
    obtain ⟨around, reached⟩ := follows.at_moment
    rw [reached]
    exact Ledger.of_shows moment.session around
  · intro enabled body before
    exact ⟨_, _, rfl, rfl⟩
  · intro step before failure after failed
    exact step.failed_leaves failed

/-- A block that is cut short in a block whose own setting was taken back. -/
def cutShort : List Step :=
  [.block (some false)
    [.force none, .setVariable "PRETTYFIT_VERIFY_CHOICES" (some " Yes"),
      .attempt [.block (some true) [.force (some false), .perform (.lookUp "?"), .force none]]]]

example : ((Step.allMoments cutShort .initial).map fun moment =>
      (moment.session.forced, moment.session.verifies)) =
    [(some false, false), (none, false), (none, true), (some true, true), (some false, false),
      (some false, false), (none, true), (none, true)] := by decide +kernel

end Script

end Typeset
