import Typeset.Proofs.CommandLine.Verdict

/-!
The command that renders a document, in any world. What the verdict is on the request decides how
the command ends (`render_of_report`, `render_of_crash`, `render_of_deliver`). A rendering is
delivered as a whole by one access, and only if that is refused does the command end otherwise than
with a code (`render_delivers_or_reports`).
-/

set_option autoImplicit false

namespace Typeset.CommandLine

section Runs

variable {World : Type} [Host (StateM World)]
variable {request : RenderRequest} {session : Session} {world : World}

theorem render_of_unknown (missing : session.registry.find? request.formatter = none) :
    inWorld (render request) session world =
      ((.exited 1, session.logged [complained
        (Failure.unknownFormatter request.formatter session.registry.names).message]), world) := by
  rw [render, in_world_bind, in_world_perform, Action.formatter_run, missing]
  exact in_world_give_up _ _ _

/-- A formatter that is registered is given the document. -/
theorem render_of_registered
    {formatter : Formatter}
    (registered : session.registry.find? request.formatter = some formatter) :
    inWorld (render request) session world =
      let left := leftBy world [.read request.source]
      match readIn world request.source with
      | .error (.fault fault) =>
          ((.exited 1, session.logged
            [complained s!"Cannot read {request.path}: {fault.message}"]), left)
      | .error (.crash crash) => ((.crashed crash, session), left)
      | .ok text =>
          let prepared := formatter.prepare (session.environment.setting .indent)
          inWorld (renderText request prepared text) session left := by
  rw [render, in_world_bind, in_world_perform, Action.formatter_run, registered]
  dsimp only
  rw [in_world_bind, in_world_read]
  cases readIn world request.source with
  | ok text => rfl
  | error obstacle =>
      cases obstacle with
      | fault fault => exact in_world_give_up _ _ _
      | crash crash => rfl

section Formatting

variable (formatter : Formatter) {text : String}

theorem render_text_of_breakdown
    {breakdown : Breakdown}
    (broken : Host.breakdown? (StateM World) session request text = some breakdown) :
    inWorld (renderText request (formatter.prepare (session.environment.setting .indent)) text)
        session world =
      ((.crashed breakdown.crash, session.logged breakdown.records), world) := by
  rw [renderText, in_world_bind, in_world_get]
  dsimp only
  rw [in_world_bind, in_world_perform, broken]
  rfl

/-- Within the limits of the machine all depends on the formatting. -/
theorem render_text_of_formatting
    (bearable : Host.breakdown? (StateM World) session request text = none)
    {outcome : Except Failure Rendering}
    {reached : Session}
    (ran : (request.formatting formatter session text).run session = (outcome, reached)) :
    ∃ records,
      inWorld (renderText request (formatter.prepare (session.environment.setting .indent)) text)
          session world =
        match outcome with
        | .ok rendering =>
            ((.ofDelivery (putIn world request.target (rendering.text ++ "\n")),
              reached.logged records), leftBy world [.put request.target (rendering.text ++ "\n")])
        | .error (.invalid reason) =>
            ((.exited 1, reached.logged [complained
              s!"Invalid {formatter.name} document:\n{Host.explain (StateM World) text reason}"]),
              world)
        | .error failure =>
            ((.exited 1, reached.logged [complained s!"Layout error: {failure.message}"]),
              world) := by
  rw [RenderRequest.formatting] at ran
  rw [renderText, in_world_bind, in_world_get]
  dsimp only
  rw [in_world_bind, in_world_perform, bearable, verifying_unbroken, ran]
  cases outcome with
  | error failure =>
      refine ⟨[], ?_⟩
      cases failure <;> exact in_world_give_up _ _ _
  | ok rendering =>
      dsimp only [Except.map]
      split
      · rw [in_world_bind, in_world_log]
        dsimp only
        obtain ⟨records, ended⟩ :=
          deliver_text_ends request.target rendering.text (reached.logged _) world
        simp only [← Session.logged_append] at ended
        exact ⟨_, ended⟩
      · exact deliver_text_ends request.target rendering.text reached world

end Formatting

/-- What is reported is the last record of the log, and nothing was asked for but the document. -/
theorem render_of_report
    {message : String}
    (settled : Settles request session world (.report message)) :
    ∃ earlier accesses,
      inWorld (render request) session world =
        ((.exited 1, session.logged (earlier ++ [complained message])), leftBy world accesses) ∧
      (accesses = [] ∨ accesses = [.read request.source]) := by
  cases settled with
  | unknown missing => exact ⟨[], [], render_of_unknown missing, .inl rfl⟩
  | unreadable registered stopped =>
      refine ⟨[], _, ?_, .inr rfl⟩
      rw [render_of_registered registered, stopped]
      rfl
  | @invalid formatter text reason registered readable bearable invalid =>
      obtain ⟨_, ended⟩ := render_text_of_formatting formatter bearable
        (request.formatting_of_invalid session invalid)
      refine ⟨[], _, ?_, .inr rfl⟩
      rw [render_of_registered registered, readable]
      exact ended
  | @withoutLayout formatter text document fault registered readable bearable loaded failed =>
      obtain ⟨records, reached, _⟩ :=
        (request.formatting_contained formatter session loaded) session
      obtain ⟨_, ended⟩ := render_text_of_formatting formatter bearable (Prod.ext failed reached)
      refine ⟨records, _, ?_, .inr rfl⟩
      rw [render_of_registered registered, readable, session.logged_append]
      exact ended

theorem render_of_crash
    {crash : Crash}
    (settled : Settles request session world (.crash crash)) :
    ∃ records, inWorld (render request) session world =
      ((.crashed crash, session.logged records), leftBy world [.read request.source]) := by
  cases settled with
  | unread registered stopped =>
      refine ⟨[], ?_⟩
      rw [render_of_registered registered, stopped]
      rfl
  | @unbearable formatter _ breakdown registered readable broken =>
      refine ⟨breakdown.records, ?_⟩
      rw [render_of_registered registered, readable]
      exact render_text_of_breakdown formatter broken

variable (request world) in
/-- What comes of delivering a text when the document is read. -/
def delivery (text : String) : Except Obstacle Unit :=
  putIn (leftBy world [.read request.source]) request.target (text ++ "\n")

/-- A rendering is delivered by one access, and how that ends is how the command ends. -/
theorem render_of_deliver
    {rendering : Rendering}
    (settled : Settles request session world (.deliver rendering)) :
    ∃ records, inWorld (render request) session world =
      ((.ofDelivery (delivery request world rendering.text), session.logged records),
        leftBy world [.read request.source, .put request.target (rendering.text ++ "\n")]) := by
  cases settled with
  | @formatted formatter text document _ registered readable bearable loaded formatted =>
      obtain ⟨earlier, reached, _⟩ := request.formatting_contained formatter session loaded session
      obtain ⟨later, ended⟩ :=
        render_text_of_formatting formatter bearable (Prod.ext formatted reached)
      refine ⟨earlier ++ later, ?_⟩
      rw [render_of_registered registered, readable, session.logged_append]
      exact ended

end Runs

section Endings

variable {World : Type} [Host (StateM World)]
variable (request : RenderRequest) (session : Session) (world : World)

/-- The endings that no handler expects. -/
inductive Unexpected : Ending → Prop where
  | crashed {crash : Crash} :
      Settles request session world (.crash crash) → Unexpected (.crashed crash)
  | refused {rendering : Rendering} {obstacle : Obstacle} :
      Settles request session world (.deliver rendering) →
      delivery request world rendering.text = .error obstacle →
      Unexpected (.ofObstacle obstacle)

/-- How the command ends, which session it leaves and what it asks the world for. -/
structure RenderEnds (ending : Ending) (after : Session) (accesses : List Access) : Prop where
  delivers : ending = .exited 0 ↔ ∃ rendering : Rendering,
    Settles request session world (.deliver rendering) ∧
      delivery request world rendering.text = .ok ()
  givesUp : ending = .exited 1 ↔ ∃ message, Settles request session world (.report message)
  breaks : ∀ other, (ending = other ∧ ∀ code, other ≠ .exited code) ↔
    Unexpected request session world other
  ends : ending = .exited 0 ∨ ending = .exited 1 ∨ Unexpected request session world ending
  /-- The document is read, and one access delivers the rendering. -/
  took : ending = .exited 0 → ∃ rendering : Rendering,
    Settles request session world (.deliver rendering) ∧
      accesses = [.read request.source, .put request.target (rendering.text ++ "\n")]
  /-- Nothing is printed or written. -/
  untouched : ending = .exited 1 → accesses = [] ∨ accesses = [.read request.source]
  /-- Nothing is printed or written, or else that was tried and refused. -/
  tried : Unexpected request session world ending → accesses = [.read request.source] ∨
    ∃ (rendering : Rendering) (obstacle : Obstacle),
      delivery request world rendering.text = .error obstacle ∧
      accesses = [.read request.source, .put request.target (rendering.text ++ "\n")]
  /-- What is reported is the last record. It is written unless the log is set up to hold only what
  is worse than an error. -/
  complains : ending = .exited 1 → ∃ message earlier,
    Settles request session world (.report message) ∧
      after = session.logged (earlier ++ [complained message]) ∧
      after.log.written = (session.logged earlier).log.written ++
        if session.log.threshold ≤ Level.error then session.log.line (complained message) else ""

end Endings

section Ends

variable {World : Type} [Host (StateM World)]
variable {request : RenderRequest} {session : Session} {world : World}

/-- A complaint is written at the end of the log, if the log holds errors. -/
theorem written_complaint (session : Session) (earlier : List Record) (message : String) :
    (session.logged (earlier ++ [complained message])).log.written =
      (session.logged earlier).log.written ++
        if session.log.threshold ≤ Level.error then session.log.line (complained message)
        else "" := by
  have level := session.logged_level earlier
  have threshold : (session.logged earlier).log.threshold = session.log.threshold := by
    rw [Log.threshold, level, Log.threshold]
  have line (record : Record) :
      (session.logged earlier).log.line record = session.log.line record := by
    rw [Log.line, level, Log.line]
  have positive : 0 < (complained message).level := by
    change (0 : Int) < 40
    decide
  rw [session.logged_append]
  change ((session.logged earlier).log.add (complained message)).written = _
  rw [Log.add, threshold, line]
  by_cases held : session.log.threshold ≤ Level.error
  · rw [if_pos ⟨positive, held⟩, if_pos held]
  · rw [if_neg (fun both => held both.2), if_neg held, String.append_empty]

theorem Unexpected.not_exited
    {ending : Ending}
    (unexpected : Unexpected request session world ending)
    (code : Nat) :
    ending ≠ .exited code := by
  cases unexpected with
  | crashed => exact nofun
  | @refused rendering obstacle => exact obstacle.not_exited code

/-- A verdict leaves one way to end unexpectedly, or none. -/
theorem unexpected_of_deliver
    {rendering : Rendering}
    (settled : Settles request session world (.deliver rendering))
    (other : Ending) :
    Unexpected request session world other ↔
      ∃ obstacle, delivery request world rendering.text = .error obstacle ∧
        other = .ofObstacle obstacle := by
  constructor
  · rintro (crashed | ⟨otherSettled, refused⟩)
    · cases settled.unique crashed
    · cases settled.unique otherSettled
      exact ⟨_, refused, rfl⟩
  · rintro ⟨obstacle, refused, rfl⟩
    exact .refused settled refused

theorem unexpected_of_crash
    {crash : Crash}
    (settled : Settles request session world (.crash crash))
    (other : Ending) :
    Unexpected request session world other ↔ other = .crashed crash := by
  constructor
  · rintro (crashed | ⟨otherSettled, _⟩)
    · cases settled.unique crashed
      rfl
    · cases settled.unique otherSettled
  · rintro rfl
    exact .crashed settled

theorem expected_of_report
    {message : String}
    (settled : Settles request session world (.report message))
    (other : Ending) :
    ¬Unexpected request session world other := by
  rintro (crashed | ⟨otherSettled, _⟩)
  · cases settled.unique crashed
  · cases settled.unique otherSettled

theorem ends_delivered
    {rendering : Rendering}
    (settled : Settles request session world (.deliver rendering))
    (taken : delivery request world rendering.text = .ok ())
    (after : Session) :
    RenderEnds request session world (.exited 0) after
      [.read request.source, .put request.target (rendering.text ++ "\n")] where
  delivers := by simp [settled.iff, taken]
  givesUp := by simp [settled.iff]
  breaks other := by
    rw [unexpected_of_deliver settled, taken]
    constructor
    · rintro ⟨rfl, noCode⟩
      exact absurd rfl (noCode 0)
    · rintro ⟨obstacle, refused, _⟩
      cases refused
  ends := .inl rfl
  took _ := ⟨rendering, settled, rfl⟩
  untouched := nofun
  tried unexpected := absurd rfl (unexpected.not_exited 0)
  complains := nofun

theorem ends_refused
    {rendering : Rendering}
    (settled : Settles request session world (.deliver rendering))
    {obstacle : Obstacle}
    (refused : delivery request world rendering.text = .error obstacle)
    (after : Session) :
    RenderEnds request session world (.ofObstacle obstacle) after
      [.read request.source, .put request.target (rendering.text ++ "\n")] where
  delivers := by simp [settled.iff, refused, obstacle.not_exited]
  givesUp := by simp [settled.iff, obstacle.not_exited]
  breaks other := by
    rw [unexpected_of_deliver settled, refused]
    constructor
    · rintro ⟨rfl, _⟩
      exact ⟨obstacle, rfl, rfl⟩
    · rintro ⟨_, same, rfl⟩
      cases same
      exact ⟨rfl, obstacle.not_exited⟩
  ends := .inr (.inr (.refused settled refused))
  took same := absurd same (obstacle.not_exited 0)
  untouched same := absurd same (obstacle.not_exited 1)
  tried _ := .inr ⟨rendering, obstacle, refused, rfl⟩
  complains same := absurd same (obstacle.not_exited 1)

theorem ends_crashed
    {crash : Crash}
    (settled : Settles request session world (.crash crash))
    (after : Session) :
    RenderEnds request session world (.crashed crash) after [.read request.source] where
  delivers := by simp [settled.iff]
  givesUp := by simp [settled.iff]
  breaks other := by
    rw [unexpected_of_crash settled]
    constructor
    · rintro ⟨rfl, _⟩
      rfl
    · rintro rfl
      exact ⟨rfl, nofun⟩
  ends := .inr (.inr (.crashed settled))
  took := nofun
  untouched := nofun
  tried _ := .inl rfl
  complains := nofun

theorem ends_reported
    {message : String}
    (settled : Settles request session world (.report message))
    (earlier : List Record)
    {accesses : List Access}
    (readOnly : accesses = [] ∨ accesses = [.read request.source]) :
    RenderEnds request session world (.exited 1)
      (session.logged (earlier ++ [complained message])) accesses where
  delivers := by simp [settled.iff]
  givesUp := by simp [settled.iff]
  breaks other := by
    constructor
    · rintro ⟨rfl, noCode⟩
      exact absurd rfl (noCode 1)
    · intro unexpected
      exact (expected_of_report settled other unexpected).elim
  ends := .inr (.inl rfl)
  took := nofun
  untouched _ := readOnly
  tried unexpected := absurd rfl (unexpected.not_exited 1)
  complains _ := ⟨message, earlier, settled, rfl, written_complaint session earlier message⟩

/-- The command delivers a rendering, or reports why there is none. Only where the document cannot
be decoded, the machine does not bear the formatting, or the rendering cannot be delivered does it
end otherwise. All that the session keeps of the command are records. -/
theorem render_delivers_or_reports
    {World : Type}
    [Host (StateM World)]
    (request : RenderRequest)
    (session : Session)
    (world : World) :
    ∃ ending after accesses,
      inWorld (render request) session world = ((ending, after), leftBy world accesses) ∧
      (∃ records, after = session.logged records) ∧ after.forced = session.forced ∧
      RenderEnds request session world ending after accesses := by
  obtain ⟨verdict, settled⟩ := settles_some request session world
  cases verdict with
  | report message =>
      obtain ⟨earlier, accesses, ended, readOnly⟩ := render_of_report settled
      exact ⟨_, _, accesses, ended, ⟨_, rfl⟩, rfl, ends_reported settled earlier readOnly⟩
  | crash crash =>
      obtain ⟨records, ended⟩ := render_of_crash settled
      exact ⟨_, _, _, ended, ⟨records, rfl⟩, rfl, ends_crashed settled _⟩
  | deliver rendering =>
      obtain ⟨records, ended⟩ := render_of_deliver settled
      cases taken : delivery request world rendering.text with
      | ok done =>
          rw [taken] at ended
          exact ⟨_, _, _, ended, ⟨records, rfl⟩, rfl, ends_delivered settled taken _⟩
      | error obstacle =>
          rw [taken] at ended
          exact ⟨_, _, _, ended, ⟨records, rfl⟩, rfl, ends_refused settled taken _⟩

end Ends

end Typeset.CommandLine
