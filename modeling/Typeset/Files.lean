import Typeset.Text.Pieces
import Typeset.Text.Quoted

/-!
Files, and what can go wrong with them. A path leads from the working directory or, if it
starts with a slash, from the root. Paths are written in a normal form, in which the same
path has one spelling as long as no parent directories occur in it.

Nothing is said of links and of permissions: whoever reads or writes these files may do so.
-/

set_option autoImplicit false

namespace Typeset

inductive FileProblem where
  | absent
  | notDirectory
  | directory
  | nameTooLong
  | other (number : Nat) (reason : String)
  deriving DecidableEq, Repr

namespace FileProblem

def number : FileProblem → Nat
  | .absent => 2
  | .notDirectory => 20
  | .directory => 21
  | .nameTooLong => 36
  | .other number _ => number

def reason : FileProblem → String
  | .absent => "No such file or directory"
  | .notDirectory => "Not a directory"
  | .directory => "Is a directory"
  | .nameTooLong => "File name too long"
  | .other _ reason => reason

end FileProblem

structure FileFault where
  problem : FileProblem
  /-- A fault of the standard input or output has no path. -/
  path : Option String
  deriving DecidableEq, Repr

def FileFault.message (fault : FileFault) : String :=
  let what := s!"[Errno {fault.problem.number}] {fault.problem.reason}"
  match fault.path with
  | none => what
  | some path => s!"{what}: {Text.quoted path}"

namespace FilePath

/-- The slashes with which a path starts. Two slashes differ from one, any more do not. -/
def root (path : String) : String :=
  match path.toList with
  | '/' :: '/' :: '/' :: _ => "/"
  | '/' :: '/' :: _ => "//"
  | '/' :: _ => "/"
  | _ => ""

/-- The names on the way to a file. -/
def names (path : String) : List String :=
  (Text.pieces '/' path).filter fun name => name != "" && name != "."

/-- The path without empty names and without names that stay where they are. -/
def normal (path : String) : String :=
  let written := root path ++ String.intercalate "/" (names path)
  if written.isEmpty then "." else written

end FilePath

/-- What is read when all that a file holds is decoded. -/
inductive Contents where
  | text (content : String)
  | undecodable (reason : String)
  deriving DecidableEq, Repr

/-- Files and directories. A place is given by the names on the way to it from the root. -/
structure Files where
  /-- The working directory. -/
  home : List String
  entries : List (List String × Contents)
  /-- Directories that are there whether or not a file is below them. -/
  directories : List (List String)
  deriving DecidableEq, Repr

namespace Files

/-- A working directory without files. -/
def emptyAt (home : List String) : Files := ⟨home, [], []⟩

def contents? (files : Files) (place : List String) : Option Contents :=
  (files.entries.find? fun entry => entry.1 == place).map Prod.snd

/-- Whatever is on the way to something else is a directory. -/
def isDirectory (files : Files) (place : List String) : Bool :=
  place.isPrefixOf files.home || files.directories.any place.isPrefixOf ||
    files.entries.any fun entry => place.isPrefixOf entry.1 && place.length < entry.1.length

/-- The bytes that a name and a whole path may have. -/
def maxNameSize : Nat := 255

def maxPathSize : Nat := 4095

/-- Follows the names below a directory. All but the last one must be directories. The
root is its own parent. -/
def follow (files : Files) (directory : List String) :
    List String → Except FileProblem (List String)
  | [] => .ok directory
  | ".." :: rest => follow files directory.dropLast rest
  | name :: rest =>
      let here := directory ++ [name]
      if maxNameSize < name.utf8ByteSize then .error .nameTooLong
      else if rest.isEmpty then .ok here
      else if files.isDirectory here then follow files here rest
      else if (files.contents? here).isSome then .error .notDirectory
      else .error .absent

/-- The place that a path leads to. -/
def locate (files : Files) (path : String) : Except FileProblem (List String) :=
  if maxPathSize < path.utf8ByteSize then .error .nameTooLong
  else if FilePath.root path = "" then follow files files.home (FilePath.names path)
  else follow files [] (FilePath.names path)

def read (files : Files) (path : String) : Except FileFault Contents :=
  match files.locate path with
  | .error problem => .error ⟨problem, some path⟩
  | .ok place =>
      if files.isDirectory place then .error ⟨.directory, some path⟩
      else match files.contents? place with
        | some contents => .ok contents
        | none => .error ⟨.absent, some path⟩

/-- Puts a file in the place of the one that was there. -/
def put (files : Files) (place : List String) (contents : Contents) : Files :=
  { files with
    entries := files.entries.filter (fun entry => entry.1 != place) ++ [(place, contents)] }

/-- Writes a file. Only the file itself may be new, not the directory that holds it. -/
def write (files : Files) (path text : String) : Except FileFault Files :=
  match files.locate path with
  | .error problem => .error ⟨problem, some path⟩
  | .ok place =>
      if files.isDirectory place then .error ⟨.directory, some path⟩
      else .ok (files.put place (.text text))

/-- The files below the working directory that are new or have a new text, under their
paths from there. -/
def changes (before after : Files) : List (String × String) :=
  after.entries.filterMap fun (place, contents) =>
    match contents with
    | .text text =>
        if before.home.isPrefixOf place && before.contents? place != some contents then
          some (String.intercalate "/" (place.drop before.home.length), text)
        else none
    | .undecodable _ => none

end Files

end Typeset
