import Overseer.Shutdown.World

/-!
Scripts of steps on channels by name, and what can be seen of listeners, clients and signalers after
each step. After every step a little time passes.
-/
namespace Overseer.Shutdown

inductive Item where
  | file
  | directory
  | link
  /-- A socket that nobody listens at. -/
  | stale
  /-- The directories above the path. -/
  | parents
  | nothing
  deriving DecidableEq, Repr

inductive Finish where
  | eof
  | close
  deriving DecidableEq, Repr

inductive Step where
  | listen (id name : String)
  | connect (id name : String)
  | send (id : String) (bytes : List UInt8) (finish : Option Finish)
  | eof (id : String)
  | close (id : String)
  | stop (id : String)
  | drop (id : String)
  | finished (id : String)
  | signal (id name : String)
  | advance (ms : Nat)
  | put (name : String) (item : Item)
  | starve (on : Bool)
  deriving DecidableEq, Repr

inductive Result where
  | none
  | channel (name : String)
  | error (e : SystemError)
  /-- An error of which only the kind is told. -/
  | errorKind (e : SystemError)
  | flag (b : Bool)
  | outcome (o : ListenOutcome)
  | pending
  deriving DecidableEq, Repr

/-- A world with the names that a script gives to what is in it. -/
structure Stage where
  world : World := {}
  listeners : List (String × Nat) := []
  /-- Also of listeners that were dropped. -/
  counted : List (String × Nat) := []
  clients : List (String × Nat) := []
  /-- The channels that were named in order to listen or to put something there. -/
  named : List String := []

structure View where
  result : Result
  connections : List (String × List UInt8 × Bool)
  calls : List (String × Nat)
  outcomes : List (String × Option ListenOutcome)
  present : List (String × Bool)
  answers : List (String × Answer)

namespace Stage

def assign (key : String) (value : Nat) (table : List (String × Nat)) : List (String × Nat) :=
  table.filter (fun e => e.1 ≠ key) ++ [(key, value)]

def remember (s : Stage) (name : String) : Stage :=
  if s.named.contains name then s else { s with named := s.named ++ [name] }

/-- The listener that had the name before is dropped. -/
def listen (s : Stage) (id name : String) : Result × Stage :=
  match s.world.listen name with
  | (.error e, world) => (.error e, { s with world })
  | (.ok number, world) =>
    let world := match s.listeners.lookup id with
      | some old => world.stop old
      | none => world
    (.channel name,
      { s with
        world
        listeners := assign id number s.listeners
        counted := assign id number s.counted })

def connect (s : Stage) (id name : String) : Result × Stage :=
  match s.world.connect name .open with
  | .error e => (.errorKind e, s)
  | .ok (number, world) =>
    let world := match s.clients.lookup id with
      | some old => world.close old
      | none => world
    (.none, { s with world, clients := assign id number s.clients })

def isOpen (s : Stage) (number : Nat) : Bool :=
  (s.world.connection? number).any fun c => c.client ≠ .closed

def send (s : Stage) (id : String) (bytes : List UInt8) (finish : Option Finish) :
    Result × Stage :=
  match s.clients.lookup id with
  | none => (.none, s)
  | some number =>
    if s.isOpen number then
      let (written, world) := s.world.send number bytes
      let world := match finish with
        | none => world
        | some .eof => world.halfClose number
        | some .close => world.close number
      (.flag written, { s with world })
    else (.none, s)

def onClient (s : Stage) (id : String) (f : World → Nat → World) : Stage :=
  match s.clients.lookup id with
  | none => s
  | some number => { s with world := f s.world number }

def onListener (s : Stage) (id : String) (f : World → Nat → World) : Stage :=
  match s.listeners.lookup id with
  | none => s
  | some number => { s with world := f s.world number }

def outcomeOf (w : World) (number : Nat) : Option ListenOutcome :=
  (w.station? number).bind fun s => s.listener.outcome?

def patience : Nat := 50
def pause : Nat := 30

def finished (s : Stage) (id : String) : Result × Stage :=
  match s.listeners.lookup id with
  | none => (.none, s)
  | some number =>
    let world := s.world.await number patience
    let result := match outcomeOf world number with
      | some o => Result.outcome o
      | none => .pending
    (result, { s with world })

def putItem (w : World) (name : String) (item : Item) : World :=
  let path := w.socketPath name
  match item with
  | .parents =>
    let start := FileTree.base FileTree.scratch path
    { w with files := (w.files.makeAll start (FileTree.splitPath path).dropLast).2 }
  | _ =>
    match socketPlace w.files path with
    | .error _ => w
    | .ok place =>
      let put (node : FileTree.Node) : World :=
        if (w.files.node? place).isSome then w
        else { w with files := w.files.put place node }
      match item with
      | .file => put .file
      | .directory => put .directory
      | .link => put (.link none)
      | .stale => put (.socket none)
      | .parents | .nothing => { w with files := w.files.erase place }

def apply (s : Stage) : Step → Result × Stage
  | .listen id name => (s.remember name).listen id name
  | .connect id name => s.connect id name
  | .send id bytes finish => s.send id bytes finish
  | .eof id => (.none, s.onClient id World.halfClose)
  | .close id => (.none, s.onClient id World.close)
  | .stop id => (.none, s.onListener id World.stop)
  | .drop id =>
    (.none,
      { s.onListener id World.stop with listeners := s.listeners.filter fun e => e.1 ≠ id })
  | .finished id => s.finished id
  | .signal id name => (.none, { s with world := s.world.signal id name })
  | .advance ms => (.none, { s with world := s.world.advance ms })
  | .put name item =>
    let s := s.remember name
    (.none, { s with world := putItem s.world name item })
  | .starve on => (.none, { s with world := { s.world with starved := on } })

def viewClient (w : World) (client : String × Nat) : Option (String × List UInt8 × Bool) :=
  (w.connection? client.2).map fun c => (client.1, c.received, c.ending.isSome && !c.unseen)

def viewListener (w : World) (listener : String × Nat) : String × Option ListenOutcome :=
  (listener.1, outcomeOf w listener.2)

def viewCalls (w : World) (listener : String × Nat) : String × Nat :=
  (listener.1, ((w.station? listener.2).map Station.calls).getD 0)

def view (s : Stage) (result : Result) : View × Stage :=
  let w := s.world
  let answered := w.signalers.filterMap fun a => a.signaler.answer?.map fun r => (a.name, r)
  let present := s.named.map fun n => (n, occupied w.files (w.socketPath n))
  (⟨result, s.clients.filterMap (viewClient w), s.counted.map (viewCalls w),
      s.listeners.map (viewListener w), present, answered⟩,
    { s with
      world := { w with signalers := w.signalers.filter fun a => a.signaler.answer?.isNone } })

def step (s : Stage) (starving : Bool) (e : Step) : View × Stage :=
  let (result, s) := s.apply e
  let world := if starving then { s.world with starved := true } else s.world
  let s := { s with world := world.advance pause }
  s.view result

def execute (s : Stage) : List (Bool × Step) → List View
  | [] => []
  | (starving, e) :: steps =>
    let (shown, s) := s.step starving e
    shown :: execute s steps

end Stage

end Overseer.Shutdown
