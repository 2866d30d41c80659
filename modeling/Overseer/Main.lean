import Overseer.CommandLine.Session

/-!
The command line. The program plays its part to the end as the session says; the time that a hosted
listener lives passes in fact. No other program can be run here, so that `run` reports that it could
not start what it was given.
-/
open Overseer

def consulted : List String :=
  [parentVariable, Shutdown.channelVariable, Shutdown.temporaryVariable, CommandLine.logVariable]

def readEnvironment : List String → IO Environment
  | [] => pure .empty
  | name :: names => do
    let rest ← readEnvironment names
    match ← IO.getEnv name with
    | none => pure rest
    | some value => pure (rest.insert name value)

def readOwnId : IO UInt32 := do
  try
    let status ← IO.FS.readFile "/proc/self/stat"
    let digits := status.toList.takeWhile Char.isDigit
    pure ((String.ofList digits).toNat?.getD 1).toUInt32
  catch _ => pure 1

def longestSleep : Nat := Nat.pow 2 32 - 1

def printAll : List String → IO Unit
  | [] => pure ()
  | line :: lines => do
    IO.println line
    printAll lines

def main (words : List String) : IO UInt32 := do
  let place : CommandLine.Surroundings :=
    { self := ← readOwnId
      environment := ← readEnvironment consulted
      system := {}
      processes := ⟨[1], []⟩
      script := {} }
  let session := CommandLine.Session.start place words
  printAll session.printed
  (← IO.getStdout).flush
  IO.sleep (min session.remaining longestSleep).toUInt32
  let ended := session.await
  printAll (ended.printed.drop session.printed.length)
  match ended.report with
  | some message => IO.eprintln message
  | none => pure ()
  pure ((ended.code?.map UInt8.toUInt32).getD 1)
