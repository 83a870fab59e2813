import Typeset.Proofs.Layout.Steady
import Typeset.Session

/-!
Actions whose outcome does not depend on the session. They may look at the session and
change it, but they succeed with the same value in all of them. A layout that is the same
with the check of choices on and off is built, resolved and rendered in this way.
-/

set_option autoImplicit false

namespace Typeset

namespace Action

variable {α β : Type}

/-- Whatever the session is, the action succeeds with the value. -/
def Yields (action : Action α) (value : α) : Prop :=
  ∀ session, (action.run session).1 = .ok value

theorem run_bind
    (action : Action α)
    (next : α → Action β)
    (session : Session) :
    (action >>= next).run session =
      match action.run session with
      | (.ok value, reached) => (next value).run reached
      | (.error failure, reached) => (.error failure, reached) := by
  change StateT.bind action.run (ExceptT.bindCont next) session = _
  rw [StateT.bind]
  cases action.run session with
  | mk outcome reached => cases outcome <;> rfl

theorem run_try_catch
    (action : Action α)
    (handle : Failure → Action α)
    (session : Session) :
    (tryCatch action handle : Action α).run session =
      match action.run session with
      | (.ok value, reached) => (.ok value, reached)
      | (.error failure, reached) => (handle failure).run reached := by
  change (ExceptT.tryCatch action handle).run session = _
  rw [ExceptT.tryCatch, ExceptT.run_mk]
  change StateT.bind action.run _ session = _
  rw [StateT.bind]
  cases action.run session with
  | mk outcome reached => cases outcome <;> rfl

theorem run_get (session : Session) : (get : Action Session).run session = (.ok session, session) :=
  rfl

theorem run_verifying (enabled : Option Bool) (action : Action α) (session : Session) :
    (verifying enabled action).run session =
      let ended := action.run { session with forced := enabled }
      (ended.1, { ended.2 with forced := session.forced }) :=
  rfl

/-- A look-up leaves the session as it is, whether or not the name is registered. -/
theorem formatter_run (name : String) (session : Session) :
    (formatter name).run session =
      match session.registry.find? name with
      | some found => (.ok (found.prepare (session.environment.setting .indent)), session)
      | none => (.error (.unknownFormatter name session.registry.names), session) := by
  rw [formatter, run_bind, run_get]
  dsimp only
  cases session.registry.find? name <;> rfl

theorem Yields.run_eq
    {action : Action α}
    {value : α}
    (yields : action.Yields value)
    (session : Session) :
    action.run session = (.ok value, (action.run session).2) :=
  Prod.ext (yields session) rfl

theorem Yields.pure (value : α) : Yields (Pure.pure value) value := by
  intro session
  rfl

theorem Yields.bind
    {action : Action α}
    {next : α → Action β}
    {middle : α}
    {value : β}
    (before : action.Yields middle)
    (after : (next middle).Yields value) :
    (action >>= next).Yields value := by
  intro session
  rw [run_bind, before.run_eq session]
  exact after _

theorem Yields.tryCatch
    {action : Action α}
    {value : α}
    (yields : action.Yields value)
    (handle : Failure → Action α) :
    Yields (MonadExcept.tryCatch action handle) value := by
  intro session
  rw [run_try_catch, yields.run_eq session]

theorem record_yields (logger : String) (level : Int) (message : String) :
    (record logger level message).Yields () := by
  intro session
  rfl

/-- What comes of a construction depends only on whether the session checks choices. -/
theorem build_outcome (construction : Build α) (session : Session) :
    ((build construction).run session).1 =
      (construction.run session.verifies).mapError .layout := by
  rw [build, run_bind, run_get]
  dsimp only
  cases construction.run session.verifies with
  | ok value => rfl
  | error fault => cases fault <;> rfl

theorem build_yields
    {construction : Build α}
    {value : α}
    (given : construction.Gives value) :
    (build construction).Yields value := by
  intro session
  rw [build_outcome, given session.verifies]
  rfl

theorem stream_yields
    {item : Item}
    {layout : Layout}
    (given : item.toLayout.Gives layout)
    (width column : Int) :
    (stream item width column).Yields (layout.resolve width column) := by
  apply Yields.bind (record_yields _ _ _)
  apply Yields.tryCatch
  exact .bind (build_yields given) (.pure _)

theorem pretty_yields
    {item : Item}
    {layout : Layout}
    (given : item.toLayout.Gives layout)
    {width column : Int}
    {text : String}
    (written : layout.pretty width column = .ok text) :
    (pretty item width column).Yields text := by
  have delivered : (deliver item width column none).Yields (layout.resolve width column).all :=
    .bind (stream_yields given width column) (.pure _)
  apply Yields.bind delivered
  rw [Layout.pretty] at written
  cases met : (layout.resolve width column).all.fault with
  | none =>
      simp only [met] at written ⊢
      cases written
      exact .pure _
  | some fault =>
      simp only [met] at written
      cases written

end Action

namespace PreparedFormatter

open Typeset.Action

variable {document : Document} {layout : Layout} {width column : Int} {text : String}

theorem render_yields
    (formatter : PreparedFormatter)
    (given : (document.layout formatter.step).Gives layout)
    (written : layout.pretty width column = .ok text) :
    (formatter.render document width column).Yields ⟨text, formatter.name, width, column⟩ := by
  have printed : (pretty (.node layout) width column).Yields text :=
    pretty_yields (fun _ => rfl) written
  apply Yields.bind (build_yields given)
  apply Yields.bind printed
  dsimp only
  -- Lines that are too wide leave a record, and that is all.
  split
  · exact .bind (record_yields _ _ _) (.pure _)
  · exact .pure _

theorem format_yields
    (formatter : PreparedFormatter)
    {source : String}
    (loaded : formatter.model.load source = .ok document)
    (given : (document.layout formatter.step).Gives layout)
    (written : layout.pretty width column = .ok text) :
    (formatter.format source width column).Yields ⟨text, formatter.name, width, column⟩ := by
  rw [format, loaded]
  exact formatter.render_yields given written

end PreparedFormatter

end Typeset
