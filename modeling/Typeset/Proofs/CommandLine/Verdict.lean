import Typeset.Proofs.CommandLine.World
import Typeset.Proofs.Document.Formatted

/-!
What is to come of a request to render a document. When the document is read, there is a rendering
to deliver, or a reason to report why there is none, or else something came up that no handler
expects: one of them, and no other (`settles_some`, `Settles.unique`).
-/

set_option autoImplicit false

namespace Typeset.CommandLine

/-- Formats a text with choices checked as the request says, or else as the session does. -/
def RenderRequest.formatting
    (request : RenderRequest)
    (formatter : Formatter)
    (session : Session)
    (text : String) :
    Action Rendering :=
  let prepared := formatter.prepare (session.environment.setting .indent)
  let width := session.environment.width request.width
  Action.verifying (if request.verify then some true else none)
    (prepared.format text width request.column)

theorem RenderRequest.formatting_contained
    (request : RenderRequest)
    (formatter : Formatter)
    (session : Session)
    {text : String}
    {document : Document}
    (loaded : formatter.model.load text = .ok document) :
    Action.Contained Failure.ByLayout (request.formatting formatter session text) :=
  .verifying (PreparedFormatter.format_contained _ loaded _ _) _

theorem RenderRequest.formatting_of_invalid
    (request : RenderRequest)
    {formatter : Formatter}
    (session : Session)
    {text : String}
    {reason : Invalid}
    (invalid : formatter.model.load text = .error reason) :
    (request.formatting formatter session text).run session =
      (.error (.invalid reason), session) := by
  have stopped (step width column : Int) :
      (formatter.prepare step).format text width column = throw (.invalid reason) := by
    rw [PreparedFormatter.format, Formatter.prepare, invalid]
  rw [formatting, stopped]
  rfl

/-- A formatting that does not break off is as it would be without limits. -/
theorem verifying_unbroken
    (enabled : Option Bool)
    (formatting : Action Rendering)
    (session : Session) :
    (Action.verifying enabled (formatWithin none formatting)).run session =
      let (outcome, reached) := (Action.verifying enabled formatting).run session
      (outcome.map .ok, reached) := by
  have whole (begun : Session) : (formatWithin none formatting).run begun =
      let (outcome, reached) := formatting.run begun
      (outcome.map .ok, reached) := by
    rw [formatWithin, Action.run_bind]
    cases formatting.run begun with
    | mk outcome reached => cases outcome <;> rfl
  rw [Action.run_verifying, whole]
  rfl

/-- What is to come of a request once the document is read. -/
inductive Verdict where
  | deliver (rendering : Rendering)
  | report (message : String)
  | crash (crash : Crash)

section Outcomes

variable {World : Type} [Host (StateM World)]
variable (request : RenderRequest) (session : Session) (world : World)

/-- How a verdict is reached. There is one to deliver when the formatter is registered, the document
can be read and loaded, and it is laid out within the limits of the machine. -/
inductive Settles : Verdict → Prop where
  | unknown :
      session.registry.find? request.formatter = none →
      Settles (.report
        (Failure.unknownFormatter request.formatter session.registry.names).message)
  | unreadable {formatter : Formatter} {fault : FileFault} :
      session.registry.find? request.formatter = some formatter →
      readIn world request.source = .error (.fault fault) →
      Settles (.report s!"Cannot read {request.path}: {fault.message}")
  | unread {formatter : Formatter} {crash : Crash} :
      session.registry.find? request.formatter = some formatter →
      readIn world request.source = .error (.crash crash) →
      Settles (.crash crash)
  | unbearable {formatter : Formatter} {text : String} {breakdown : Breakdown} :
      session.registry.find? request.formatter = some formatter →
      readIn world request.source = .ok text →
      Host.breakdown? (StateM World) session request text = some breakdown →
      Settles (.crash breakdown.crash)
  | invalid {formatter : Formatter} {text : String} {reason : Invalid} :
      session.registry.find? request.formatter = some formatter →
      readIn world request.source = .ok text →
      Host.breakdown? (StateM World) session request text = none →
      formatter.model.load text = .error reason →
      Settles (.report
        s!"Invalid {formatter.name} document:\n{Host.explain (StateM World) text reason}")
  | withoutLayout {formatter : Formatter} {text : String} {document : Document}
      {fault : LayoutFault} :
      session.registry.find? request.formatter = some formatter →
      readIn world request.source = .ok text →
      Host.breakdown? (StateM World) session request text = none →
      formatter.model.load text = .ok document →
      ((request.formatting formatter session text).run session).1 = .error (.layout fault) →
      Settles (.report s!"Layout error: {fault.message}")
  | formatted {formatter : Formatter} {text : String} {document : Document}
      {rendering : Rendering} :
      session.registry.find? request.formatter = some formatter →
      readIn world request.source = .ok text →
      Host.breakdown? (StateM World) session request text = none →
      formatter.model.load text = .ok document →
      ((request.formatting formatter session text).run session).1 = .ok rendering →
      Settles (.deliver rendering)

end Outcomes

section

variable {World : Type} [Host (StateM World)]
variable {request : RenderRequest} {session : Session} {world : World}

/-- There is one verdict at most. -/
theorem Settles.unique
    {verdict other : Verdict}
    (settled : Settles request session world verdict)
    (otherSettled : Settles request session world other) :
    verdict = other := by
  cases settled <;> cases otherSettled <;> simp_all

theorem Settles.iff
    {verdict : Verdict}
    (settled : Settles request session world verdict)
    (other : Verdict) :
    Settles request session world other ↔ verdict = other := by
  constructor
  · exact settled.unique
  · rintro rfl
    exact settled

variable (request session world) in
/-- There is always a verdict. -/
theorem settles_some : ∃ verdict, Settles request session world verdict := by
  cases registered : session.registry.find? request.formatter with
  | none => exact ⟨_, .unknown registered⟩
  | some formatter =>
      cases readable : readIn world request.source with
      | error obstacle =>
          cases obstacle with
          | fault fault => exact ⟨_, .unreadable registered readable⟩
          | crash crash => exact ⟨_, .unread registered readable⟩
      | ok text =>
          cases bearable : Host.breakdown? (StateM World) session request text with
          | some breakdown => exact ⟨_, .unbearable registered readable bearable⟩
          | none =>
              cases loaded : formatter.model.load text with
              | error reason => exact ⟨_, .invalid registered readable bearable loaded⟩
              | ok document =>
                  obtain ⟨_, _, failed⟩ :=
                    request.formatting_contained formatter session loaded session
                  cases ended : ((request.formatting formatter session text).run session).1 with
                  | ok rendering => exact ⟨_, .formatted registered readable bearable loaded ended⟩
                  | error failure =>
                      obtain ⟨fault, rfl⟩ := failed failure ended
                      exact ⟨_, .withoutLayout registered readable bearable loaded ended⟩

end

end Typeset.CommandLine
