import Overseer.FileTree
import Overseer.Settings

/-!
Launching a command: the conditions under which the system makes a process of it, and the error that
it gives otherwise. The conditions are looked at in a fixed order: no word may hold a NUL, pipes
need file descriptors, the directory is entered, the program is found there, and the words must not
be too long.
-/
namespace Overseer

namespace Launch

structure System where
  files : FileTree := .usual
  /-- The directory of whoever launches. -/
  origin : FileTree.Place := FileTree.scratch
  /-- The program that can be run, if there is one; it goes by this name wherever it stands. -/
  program : Option String := none
  /-- No file descriptor can be opened. -/
  starved : Bool := false
  deriving Repr

/-- The first length in bytes that is too long for a word, with the byte that ends it. -/
def wordLimit : Nat := 131072

/-- The greatest length in bytes of all words together, with their ends and the table of them. -/
def totalLimit : Nat := 2097152

def searchVariable : String := "PATH"

def searchPath : List String :=
  ["/usr/local/sbin", "/usr/local/bin", "/usr/sbin", "/usr/bin"]

def entryOf (v : Variable) : String := v.1 ++ "=" ++ v.2

def holdsNulAnywhere (c : Command) : Bool :=
  holdsNul c.program || c.arguments.any holdsNul || holdsNul c.directory ||
    c.environment.any fun v => holdsNul v.1 || holdsNul v.2

/-- Why a path cannot be run: either it leads nowhere, or nothing there is a program. -/
def runError (files : FileTree) (place : FileTree.Place) (path : String) : Errno :=
  match files.resolve place path with
  | .error e => e
  | .ok _ => .accessDenied

/-- A program in a directory of the list. An empty entry is the current directory. -/
def inDirectory (directory name : String) : String :=
  if directory = "" then name else directory ++ "/" ++ name

/-- Tries the directories in order as long as nothing is there to be run. A refusal on the way
outlives the errors after it; without one the last error counts. -/
def searchError (files : FileTree) (place : FileTree.Place) (name : String) (refused : Bool)
    (last : Errno) : List String → Errno
  | [] => if refused then .accessDenied else last
  | directory :: rest =>
    match runError files place (inDirectory directory name) with
    | .accessDenied => searchError files place name true .accessDenied rest
    | .noSuchFile => searchError files place name refused .noSuchFile rest
    | .notADirectory => searchError files place name refused .notADirectory rest
    | e => e

/-- The directories to look in. One that is too long for a path stands for the current directory, or
for none at the end. -/
def searchable : List String → List String
  | [] => []
  | directory :: rest =>
    if directory.utf8ByteSize < FileTree.pathLimit then directory :: searchable rest
    else if rest.isEmpty then []
    else "" :: searchable rest

/-- The directories in which a command is looked for: those that it is given itself, if any. -/
def directoriesOf (c : Command) : List String :=
  match c.environment.lookup searchVariable with
  | some list => searchable (list.splitToList (· = ':'))
  | none => searchPath

def programError (files : FileTree) (place : FileTree.Place) (c : Command) : Errno :=
  if c.program = "" then .noSuchFile
  else if c.program.contains '/' then runError files place c.program
  else if FileTree.partLimit < c.program.utf8ByteSize then .nameTooLong
  else searchError files place c.program false .noSuchFile (directoriesOf c)

def wordsOf (c : Command) : List String :=
  c.program :: c.arguments ++ c.environment.map entryOf

/-- What a word takes up: its bytes, the byte that ends it, and its place in the table. -/
def spaceOf (word : String) : Nat :=
  word.utf8ByteSize + 1 + 8

def isTooLong (c : Command) : Bool :=
  (wordsOf c).any (fun word => wordLimit ≤ word.utf8ByteSize) ||
    totalLimit < (wordsOf c).foldl (fun total word => total + spaceOf word) 0

def error? (s : System) (c : Command) : Option SystemError :=
  if holdsNulAnywhere c then some (.refused .invalidInput "nul byte found in provided data")
  else if s.starved then some (.errno .tooManyOpenFiles)
  else
    match s.files.resolveDirectory s.origin c.directory with
    | .error e => some (.errno e)
    | .ok place =>
      if s.program ≠ some c.program then some (.errno (programError s.files place c))
      else if isTooLong c then some (.errno .argumentsTooLong)
      else none

def directoryOf (s : System) (c : Command) : String :=
  match s.files.resolveDirectory s.origin c.directory with
  | .error _ => c.directory
  | .ok place => FileTree.pathOf place

end Launch

end Overseer
