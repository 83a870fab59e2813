import Typeset.Proofs.Session.Outcome

/-!
What actions leave alone. Formatting adds records to the log of a session and changes nothing else
of it, whether it succeeds or fails, and once a document is loaded it can only fail for its layout
(`PreparedFormatter.format_contained`, `PreparedFormatter.render_contained`).
-/

set_option autoImplicit false

namespace Typeset

theorem Session.logged_append (session : Session) (earlier later : List Record) :
    session.logged (earlier ++ later) = (session.logged earlier).logged later := by
  simp [logged, List.foldl_append]

/-- Records do not set the log up. -/
theorem Session.logged_level (session : Session) (records : List Record) :
    (session.logged records).log.level = session.log.level := by
  induction records generalizing session with
  | nil => rfl
  | cons first rest ih =>
      have kept : (session.log.add first).level = session.log.level := by
        unfold Log.add
        split <;> rfl
      exact (ih { session with log := session.log.add first }).trans kept

def Failure.ByLayout (failure : Failure) : Prop := ∃ fault, failure = .layout fault

namespace Action

variable {α β : Type} {fails other : Failure → Prop}

/-- The action adds records to the log and changes nothing else. If it fails, then in the way that
is given. -/
def Contained (fails : Failure → Prop) (action : Action α) : Prop :=
  ∀ session, ∃ records, (action.run session).2 = session.logged records ∧
    ∀ failure, (action.run session).1 = .error failure → fails failure

theorem Contained.mono
    {action : Action α}
    (contained : Contained fails action)
    (weaker : ∀ failure, fails failure → other failure) :
    Contained other action := by
  intro session
  obtain ⟨records, reached, failed⟩ := contained session
  exact ⟨records, reached, fun failure met => weaker failure (failed failure met)⟩

theorem Contained.pure (value : α) : Contained fails (Pure.pure value) := by
  intro session
  refine ⟨[], rfl, ?_⟩
  intro failure failed
  cases failed

theorem Contained.throw {failure : Failure} (expected : fails failure) :
    Contained fails (MonadExcept.throw failure : Action α) := by
  intro session
  refine ⟨[], rfl, ?_⟩
  intro other failed
  cases failed
  exact expected

theorem get_contained : Contained fails (get : Action Session) := by
  intro session
  refine ⟨[], rfl, ?_⟩
  intro failure failed
  cases failed

theorem record_contained (logger : String) (level : Int) (message : String) :
    Contained fails (record logger level message) := by
  intro session
  refine ⟨[⟨loggerName logger, level, message⟩], rfl, ?_⟩
  intro failure failed
  cases failed

theorem Contained.bind
    {action : Action α}
    {next : α → Action β}
    (before : Contained fails action)
    (after : ∀ value, Contained fails (next value)) :
    Contained fails (action >>= next) := by
  intro session
  obtain ⟨earlier, reached, failed⟩ := before session
  rw [run_bind]
  cases ran : action.run session with
  | mk outcome middle =>
      simp only [ran] at reached failed
      subst reached
      cases outcome with
      | error failure => exact ⟨earlier, rfl, by simpa using failed⟩
      | ok value =>
          obtain ⟨later, ended, failedLater⟩ := after value (session.logged earlier)
          exact ⟨earlier ++ later, by rw [ended, Session.logged_append], failedLater⟩

theorem Contained.tryCatch
    {inner : Failure → Prop}
    {action : Action α}
    {handle : Failure → Action α}
    (before : Contained inner action)
    (handled : ∀ failure, inner failure → Contained fails (handle failure)) :
    Contained fails (MonadExcept.tryCatch action handle) := by
  intro session
  obtain ⟨earlier, reached, failed⟩ := before session
  rw [run_try_catch]
  cases ran : action.run session with
  | mk outcome middle =>
      simp only [ran] at reached failed
      subst reached
      cases outcome with
      | ok value => exact ⟨earlier, rfl, by simp⟩
      | error failure =>
          obtain ⟨later, ended, failedLater⟩ :=
            handled failure (failed failure rfl) (session.logged earlier)
          exact ⟨earlier ++ later, by rw [ended, Session.logged_append], failedLater⟩

/-- What is forced for a while is undone, so only the records are left of the action. -/
theorem Contained.verifying
    {action : Action α}
    (contained : Contained fails action)
    (enabled : Option Bool) :
    Contained fails (Action.verifying enabled action) := by
  intro session
  obtain ⟨records, reached, failed⟩ := contained { session with forced := enabled }
  refine ⟨records, ?_, failed⟩
  rw [run_verifying]
  dsimp only
  rw [reached]
  rfl

theorem build_contained (construction : Build α) :
    Contained Failure.ByLayout (build construction) := by
  apply Contained.bind get_contained
  intro session
  split
  · exact .pure _
  · rename_i fault _
    cases fault with
    | branchesDiffer primary secondary =>
        exact .bind (record_contained _ _ _) fun _ => .throw ⟨_, rfl⟩
    | stray name => exact .bind (.pure ()) fun _ => .throw ⟨_, rfl⟩

theorem stream_contained (item : Item) (width column : Int) :
    Contained fails (stream item width column) := by
  apply Contained.bind (record_contained _ _ _)
  intro _
  refine .tryCatch (.bind (build_contained _) fun _ => .pure _) ?_
  rintro _ ⟨fault, rfl⟩
  exact .pure _

theorem deliver_contained (item : Item) (width column : Int) (count : Option Nat) :
    Contained fails (deliver item width column count) := by
  rw [deliver]
  split
  · exact .pure _
  · exact .bind (stream_contained item width column) fun _ => .pure _

theorem pretty_contained (item : Item) (width column : Int) :
    Contained Failure.ByLayout (pretty item width column) := by
  apply Contained.bind (deliver_contained item width column none)
  intro delivery
  split
  · exact .throw ⟨_, rfl⟩
  · exact .pure _

theorem write_contained (item : Item) (width column : Int) (sink : Sink) :
    Contained fails (write item width column sink) :=
  .bind (stream_contained item width column) fun _ => .pure _

/-- A look-up fails only for a name that is not registered. -/
theorem formatter_contained (name : String) :
    Contained (fun failure => ∃ available, failure = .unknownFormatter name available)
      (formatter name) := by
  apply Contained.bind get_contained
  intro session
  split
  · exact .pure _
  · exact .throw ⟨_, rfl⟩

end Action

namespace PreparedFormatter

open Typeset.Action

theorem render_contained
    (formatter : PreparedFormatter)
    (document : Document)
    (width column : Int) :
    Contained Failure.ByLayout (formatter.render document width column) := by
  apply Contained.bind (build_contained _)
  intro layout
  apply Contained.bind (pretty_contained _ _ _)
  intro text
  dsimp only
  split
  · exact .bind (record_contained _ _ _) fun _ => .pure _
  · exact .pure _

theorem format_contained
    (formatter : PreparedFormatter)
    {text : String}
    {document : Document}
    (loaded : formatter.model.load text = .ok document)
    (width column : Int) :
    Contained Failure.ByLayout (formatter.format text width column) := by
  rw [format, loaded]
  exact formatter.render_contained document width column

end PreparedFormatter

end Typeset
