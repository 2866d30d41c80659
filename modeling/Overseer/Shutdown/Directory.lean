import Overseer.FileTree
import Overseer.Settings

/-!
Where channels live: the socket of a channel has the channel's name in the directory for temporary
files, but the name may lead elsewhere.
-/
namespace Overseer.Shutdown

def temporaryVariable : String := "TMPDIR"

def defaultTemporary : String := FileTree.pathOf FileTree.scratch

def socketPath (temporary name : String) : String :=
  FileTree.join temporary (name ++ ".sock")

/-- The first length in bytes that is too long for the path of a socket. -/
def addressLimit : Nat := 108

def addressError? (path : String) : Option SystemError :=
  if holdsNul path then some (.refused .invalidInput "paths must not contain interior null bytes")
  else if addressLimit ≤ path.utf8ByteSize then
    some (.refused .invalidInput "path must be shorter than SUN_LEN")
  else none

/-- The place that the path of a socket names, be there anything or not. -/
def socketPlace (t : FileTree) (path : String) : Except Errno FileTree.Place :=
  t.locate FileTree.scratch path

/-- The place of the socket at a path, or of what is there in its stead. -/
def connectPlace (t : FileTree) (path : String) : Except Errno FileTree.Place :=
  t.resolve FileTree.scratch path

def occupied (t : FileTree) (path : String) : Bool :=
  !holdsNul path &&
    match socketPlace t path with
    | .error _ => false
    | .ok place => (t.node? place).isSome

def temporaryPlace (t : FileTree) (origin : FileTree.Place) (temporary : Option String) :
    Option FileTree.Place :=
  match temporary with
  | none => some FileTree.scratch
  | some path => (t.resolveDirectory origin (if path.isEmpty then "." else path)).toOption

end Overseer.Shutdown
