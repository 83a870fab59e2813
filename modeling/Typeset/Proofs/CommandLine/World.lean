import Typeset.CommandLine.Command
import Typeset.Proofs.Session.Frame

/-!
Commands in a world. A world is whatever a command runs in: nothing is known of it but what it
answers when it is asked for a text or given one, and it may answer in any way at all. Each part of
a command takes the session and the world to what they are after it, and the parts follow one
another (`in_world_bind`). All that a command does to a world is to ask it, so the accesses that it
makes tell what is left of the world.
-/

set_option autoImplicit false

namespace Typeset.CommandLine

/-- What a world is asked for. -/
inductive Access where
  | read (source : Source)
  | put (target : Target) (text : String)
  deriving DecidableEq

section Running

variable {World α β : Type}

/-- Runs a part of a command in a world. -/
def inWorld
    (part : StateT Session (StateM World) α)
    (session : Session)
    (world : World) :
    (α × Session) × World :=
  (part.run session).run world

theorem in_world_bind
    (part : StateT Session (StateM World) α)
    (next : α → StateT Session (StateM World) β)
    (session : Session)
    (world : World) :
    inWorld (part >>= next) session world =
      let ((value, reached), left) := inWorld part session world
      inWorld (next value) reached left :=
  rfl

theorem in_world_get (session : Session) (world : World) :
    inWorld get session world = ((session, session), world) :=
  rfl

theorem in_world_perform (action : Action α) (session : Session) (world : World) :
    inWorld (perform action) session world = (action.run session, world) :=
  rfl

theorem in_world_log (level : Int) (message : String) (session : Session) (world : World) :
    inWorld (log level message) session world =
      (((), session.logged [⟨loggerName "cli", level, message⟩]), world) :=
  rfl

/-- The record of an error of the command line. -/
def complained (message : String) : Record := ⟨"prettyfit.cli", Level.error, message⟩

theorem in_world_give_up (message : String) (session : Session) (world : World) :
    inWorld (giveUp message) session world =
      ((.exited 1, session.logged [complained message]), world) :=
  rfl

end Running

section Asking

variable {World : Type} [Host (StateM World)]

/-- What is read from a source. -/
def readIn (world : World) (source : Source) : Except Obstacle String :=
  ((Host.read source : StateM World _).run world).1

/-- What comes of putting a text somewhere. -/
def putIn (world : World) (target : Target) (text : String) : Except Obstacle Unit :=
  ((Host.put target text : StateM World _).run world).1

/-- The world after an access, whatever came of that. -/
def Access.leaves (world : World) : Access → World
  | .read source => ((Host.read source : StateM World _).run world).2
  | .put target text => ((Host.put target text : StateM World _).run world).2

/-- The world after some accesses. -/
def leftBy (world : World) (accesses : List Access) : World := accesses.foldl Access.leaves world

theorem in_world_read (source : Source) (session : Session) (world : World) :
    inWorld (read source) session world =
      ((readIn world source, session), leftBy world [.read source]) :=
  rfl

theorem in_world_put (target : Target) (text : String) (session : Session) (world : World) :
    inWorld (put target text) session world =
      ((putIn world target text, session), leftBy world [.put target text]) :=
  rfl

/-- How a command ends by which a text was delivered, or was not. -/
def Ending.ofDelivery : Except Obstacle Unit → Ending
  | .ok () => .exited 0
  | .error obstacle => .ofObstacle obstacle

theorem Obstacle.not_exited (obstacle : Obstacle) (code : Nat) :
    Ending.ofObstacle obstacle ≠ .exited code := by
  cases obstacle <;> exact nofun

/-- A text is put with a line feed, by one access. -/
theorem deliver_text_ends
    (target : Target)
    (text : String)
    (session : Session)
    (world : World) :
    ∃ records, inWorld (deliverText target text) session world =
      ((.ofDelivery (putIn world target (text ++ "\n")), session.logged records),
        leftBy world [.put target (text ++ "\n")]) := by
  rw [deliverText, in_world_bind, in_world_put]
  cases putIn world target (text ++ "\n") with
  | error obstacle => exact ⟨[], rfl⟩
  | ok done =>
      cases target with
      | output => exact ⟨[], rfl⟩
      | file path => exact ⟨[⟨loggerName "cli", Level.info, s!"Output saved to {path}"⟩], rfl⟩

end Asking

end Typeset.CommandLine
