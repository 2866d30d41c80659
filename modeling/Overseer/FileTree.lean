import Overseer.SystemError

/-!
A tree of files, as far as it is known, and where a path leads in it. A path is walked from the
left; the first part that cannot be entered decides the error. Links in the middle of a path are
followed.
-/
namespace Overseer

namespace FileTree

/-- The way from the root down. -/
abbrev Place := List String

inductive Node where
  | directory
  /-- A directory of the system itself, in which nothing can be made. -/
  | fixed
  /-- A file that cannot be run. -/
  | file
  /-- A link to a place, or to nothing. -/
  | link (target : Option Place)
  /-- A socket and the number of the listener that made it, if it was one. -/
  | socket (owner : Option Nat)
  deriving DecidableEq, Repr

def Node.isDirectory : Node → Bool
  | .directory | .fixed => true
  | _ => false

end FileTree

structure FileTree where
  nodes : List (FileTree.Place × FileTree.Node)
  deriving DecidableEq, Repr

namespace FileTree

/-- The first length in bytes that is too long for a path. -/
def pathLimit : Nat := 4096

def partLimit : Nat := 255

def directories : List String :=
  ["/etc", "/etc/default", "/tmp", "/usr", "/usr/bin", "/usr/include", "/usr/lib", "/usr/local",
    "/usr/local/bin", "/usr/local/sbin", "/usr/sbin", "/usr/share", "/usr/share/doc", "/usr/src",
    "/var", "/var/cache", "/var/lib", "/var/log", "/var/spool", "/var/tmp", "/dev", "/dev/pts",
    "/dev/shm", "/home", "/opt", "/root", "/srv", "/mnt", "/run", "/boot", "/media"]

def fixedDirectories : List String :=
  ["/proc", "/proc/1", "/proc/sys", "/sys", "/sys/class", "/sys/devices", "/sys/fs",
    "/sys/kernel"]

def files : List String :=
  ["/etc/passwd", "/etc/group", "/etc/hosts", "/etc/hostname", "/etc/resolv.conf", "/etc/fstab",
    "/etc/issue", "/etc/nsswitch.conf", "/etc/os-release", "/etc/shells", "/etc/profile",
    "/etc/shadow", "/dev/null", "/dev/zero", "/dev/full", "/dev/random", "/dev/urandom",
    "/dev/tty", "/proc/version", "/proc/cpuinfo", "/proc/meminfo", "/proc/mounts", "/proc/uptime"]

def links : List (String × String) :=
  [("/bin", "/usr/bin"), ("/sbin", "/usr/sbin"), ("/lib", "/usr/lib"), ("/var/run", "/run")]

def splitPath (path : String) : List String :=
  (path.splitToList (· = '/'))

def names (path : String) : Place :=
  (splitPath path).filter fun part => part ≠ ""

def scratch : Place := ["tmp", "session-scratch"]

def pathOf (place : Place) : String :=
  "/" ++ "/".intercalate place

/-- The path of a file in a directory. A file that has a path from the root is not looked for there;
an empty directory is the current one. -/
def join (directory file : String) : String :=
  if file.startsWith "/" || directory.isEmpty then file
  else if directory.endsWith "/" then directory ++ file
  else directory ++ "/" ++ file

def usual : FileTree :=
  ⟨(scratch, .directory) :: directories.map (fun path => (names path, .directory)) ++
    fixedDirectories.map (fun path => (names path, .fixed)) ++
    files.map (fun path => (names path, .file)) ++
    links.map fun l => (names l.1, .link (some (names l.2)))⟩

/-- The root is always there. -/
def node? (t : FileTree) : Place → Option Node
  | [] => some .directory
  | place => t.nodes.lookup place

def isDirectory (t : FileTree) (place : Place) : Bool :=
  (t.node? place).any Node.isDirectory

def put (t : FileTree) (place : Place) (node : Node) : FileTree :=
  ⟨t.nodes.filter (fun e => e.1 ≠ place) ++ [(place, node)]⟩

def erase (t : FileTree) (place : Place) : FileTree :=
  ⟨t.nodes.filter fun e => !place.isPrefixOf e.1⟩

def unlink (t : FileTree) (place : Place) : FileTree :=
  if t.isDirectory place then t else t.erase place

/-- What stands at a place; where a link leads is taken instead of the link. -/
def follow (t : FileTree) (place : Place) : Except Errno Place :=
  match t.node? place with
  | none | some (.link none) => .error .noSuchFile
  | some (.link (some target)) => if (t.node? target).isSome then .ok target else .error .noSuchFile
  | some _ => .ok place

/-- The place that one more part of a path names, be there anything or not. An empty part and a dot
stay where they are, but only in a directory. -/
def step (t : FileTree) (place : Place) (part : String) : Except Errno Place :=
  if !t.isDirectory place then .error .notADirectory
  else if part = "" ∨ part = "." then .ok place
  else if part = ".." then .ok place.dropLast
  else if partLimit < part.utf8ByteSize then .error .nameTooLong
  else .ok (place ++ [part])

def enter (t : FileTree) (place : Place) (part : String) : Except Errno Place :=
  match t.step place part with
  | .error e => .error e
  | .ok place => t.follow place

def walk (t : FileTree) (place : Place) : List String → Except Errno Place
  | [] => .ok place
  | part :: parts =>
    match t.enter place part with
    | .error e => .error e
    | .ok place => t.walk place parts

/-- The place that a path names; only its last part need not be there, and is not followed. -/
def approach (t : FileTree) (place : Place) : List String → Except Errno Place
  | [] => .ok place
  | [part] => t.step place part
  | part :: parts =>
    match t.enter place part with
    | .error e => .error e
    | .ok place => t.approach place parts

/-- Where a path begins that is relative to a place unless it begins with a slash. -/
def base (origin : Place) (path : String) : Place :=
  if path.startsWith "/" then [] else origin

def pathError? (path : String) : Option Errno :=
  if path = "" then some .noSuchFile
  else if pathLimit ≤ path.utf8ByteSize then some .nameTooLong
  else none

def resolve (t : FileTree) (origin : Place) (path : String) : Except Errno Place :=
  match pathError? path with
  | some e => .error e
  | none => t.walk (base origin path) (splitPath path)

def locate (t : FileTree) (origin : Place) (path : String) : Except Errno Place :=
  match pathError? path with
  | some e => .error e
  | none => t.approach (base origin path) (splitPath path)

def resolveDirectory (t : FileTree) (origin : Place) (path : String) : Except Errno Place :=
  match t.resolve origin path with
  | .error e => .error e
  | .ok place => if t.isDirectory place then .ok place else .error .notADirectory

/-- Makes every directory on a way that is not there yet, as far as that goes; fails if a part of
the way is no directory then. -/
def makeAll (t : FileTree) (place : Place) : List String → Except Errno Place × FileTree
  | [] => (if t.isDirectory place then .ok place else .error .notADirectory, t)
  | part :: parts =>
    match t.step place part with
    | .error e => (.error e, t)
    | .ok below =>
      match t.node? below, t.follow below with
      | none, _ =>
        if t.node? place = some .fixed then (.error .accessDenied, t)
        else (t.put below .directory).makeAll below parts
      | some _, .error e => (.error e, t)
      | some _, .ok below => t.makeAll below parts

/-- Opens a file at the end of a way to write to it, and gives its place. One that is not there is
made, in a directory that lets it. -/
def opened? (t : FileTree) (place : Place) (parts : List String) : Option (Place × FileTree) :=
  match t.approach place parts with
  | .error _ => none
  | .ok file =>
    match t.node? file with
    | none =>
      if t.node? file.dropLast = some .directory then some (file, t.put file .file) else none
    | some _ =>
      match t.follow file with
      | .error _ => none
      | .ok file => if t.node? file = some .file then some (file, t) else none

/-- Opens a file; if that cannot be done, the directories above it are made first. -/
def openedBelow? (t : FileTree) (place : Place) (parts : List String) :
    Option (Place × FileTree) :=
  t.opened? place parts <|>
    match t.makeAll place parts.dropLast with
    | (.error _, _) => none
    | (.ok _, t) => t.opened? place parts

end FileTree

end Overseer
