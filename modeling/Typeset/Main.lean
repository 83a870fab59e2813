import Typeset.CommandLine.Command

/-!
The command line as a program: the same commands on real files.
-/

set_option autoImplicit false

namespace Typeset.CommandLine

def faultOfError (path : Option String) : IO.Error → FileFault
  | .noFileOrDirectory _ _ _ => ⟨.absent, path⟩
  | .inappropriateType _ number reason =>
      if number.toNat = FileProblem.directory.number then ⟨.directory, path⟩
      else if number.toNat = FileProblem.notDirectory.number then ⟨.notDirectory, path⟩
      else ⟨.other number.toNat reason, path⟩
  | .permissionDenied _ number reason => ⟨.other number.toNat reason, path⟩
  | error => ⟨.other 5 error.toString, path⟩

def guarded {α : Type} (path : Option String) (action : IO α) : IO (Except Obstacle α) := do
  try
    return .ok (← action)
  catch error => return .error (.fault (faultOfError path error))

/-- The text of some bytes, if they are the encoding of one. -/
def decode (bytes : ByteArray) : Except Obstacle String :=
  match String.fromUTF8? bytes with
  | some text => .ok text
  | none => .error (.crash (.undecodable "invalid UTF-8"))

/-- A path that the system can be asked for. -/
def named {α : Type} (path : String) (action : IO (Except Obstacle α)) :
    IO (Except Obstacle α) :=
  if path.toList.contains '\x00' then return .error (.crash .nullInPath) else action

instance : Host IO where
  read
    | .input => do
        let bytes ← guarded none do (← IO.getStdin).readBinToEnd
        return bytes.bind decode
    | .file path => named path do
        let bytes ← guarded (some path) (IO.FS.readBinFile path)
        return bytes.bind decode
  put
    | .output, text => guarded none (IO.print text)
    | .file path, text => named path (guarded (some path) (IO.FS.writeFile path text))
  explain _ reason := reason.summary
  breakdown? _ _ _ := none

/-- The variables that settings are read from. -/
def currentEnvironment : IO Environment :=
  Setting.all.foldlM (fun environment setting => do
    return environment.put setting.variableName (← IO.getEnv setting.variableName)) .empty

end Typeset.CommandLine

open Typeset Typeset.CommandLine in
def main (arguments : List String) : IO UInt32 := do
  let environment ← currentEnvironment
  let (ending, session) ← (run (m := IO) arguments).run { Session.initial with environment }
  IO.eprint (session.log.written ++ ending.complaint)
  return UInt32.ofNat ending.code
