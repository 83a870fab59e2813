import Typeset.CommandLine.Request
import Typeset.Files
import Typeset.Session

/-!
What a command needs from the place where it runs: texts to read, and somewhere to put a
text. Neither need succeed. The system may refuse, or something else may come up, such as
a file that holds no text. Commands expect a refusal where they read a document, and nothing
of the kind anywhere else.

A desk is such a place in memory.
-/

set_option autoImplicit false

namespace Typeset.CommandLine

/-- Where a text is read from. Paths are given in their normal form. -/
inductive Source where
  | input
  | file (path : String)
  deriving DecidableEq, Repr

/-- Where a text is put. -/
inductive Target where
  | output
  | file (path : String)
  deriving DecidableEq, Repr

namespace RenderRequest

def source (request : RenderRequest) : Source :=
  if request.path = standardInput then .input else .file (FilePath.normal request.path)

def target (request : RenderRequest) : Target :=
  match request.output with
  | none => .output
  | some path => .file (FilePath.normal path)

end RenderRequest

/-- What may come up other than that the system refuses. -/
inductive Crash where
  | undecodable (reason : String)
  | unencodable (reason : String)
  | nullInPath
  | exhausted (reason : String)
  deriving DecidableEq, Repr

def Crash.message : Crash → String
  | .undecodable reason | .unencodable reason | .exhausted reason => reason
  | .nullInPath => "embedded null byte"

/-- Why a text was not read or put. -/
inductive Obstacle where
  | fault (fault : FileFault)
  | crash (crash : Crash)
  deriving DecidableEq, Repr

/-- How a formatting ended that was beyond the limits of the machine, and what it logged
until then. -/
structure Breakdown where
  crash : Crash
  records : List Record
  deriving DecidableEq

class Host (m : Type → Type) where
  read : (source : Source) → m (Except Obstacle String)
  put : (target : Target) → (text : String) → m (Except Obstacle Unit)
  /-- What is wrong with a text, in the words of whoever loads documents. -/
  explain : (text : String) → (reason : Invalid) → String
  /-- How the formatting of a text breaks off, if it is beyond the limits of the machine. -/
  breakdown? : (session : Session) → (request : RenderRequest) → (text : String) →
    Option Breakdown

structure Desk where
  input : Contents
  files : Files
  printed : String
  deriving DecidableEq, Repr

namespace Desk

def contents (desk : Desk) : Source → Except Obstacle Contents
  | .input => .ok desk.input
  | .file path =>
      if path.toList.contains '\x00' then .error (.crash .nullInPath)
      else (desk.files.read path).mapError .fault

def read (desk : Desk) (source : Source) : Except Obstacle String := do
  match ← desk.contents source with
  | .text content => return content
  | .undecodable reason => throw (.crash (.undecodable reason))

def put (desk : Desk) (target : Target) (text : String) : Except Obstacle Desk :=
  match target with
  | .output => .ok { desk with printed := desk.printed ++ text }
  | .file path =>
      if path.toList.contains '\x00' then .error (.crash .nullInPath)
      else match desk.files.write path text with
        | .ok files => .ok { desk with files }
        | .error fault => .error (.fault fault)

end Desk

/-- Only the number of things that are wrong with a document is told at a desk, and no
formatting is beyond its limits. -/
instance : Host (StateM Desk) where
  read source := return (← get).read source
  put target text := do
    match (← get).put target text with
    | .error obstacle => return .error obstacle
    | .ok desk => do
        set desk
        return .ok ()
  explain _ reason := reason.summary
  breakdown? _ _ _ := none

end Typeset.CommandLine
