import Overseer.Shutdown.Connection
import Overseer.Shutdown.Directory
import Overseer.Shutdown.Listener
import Overseer.Shutdown.Signaler

/-!
Listeners, signalers and other clients together, in time. Connections are reliable streams of bytes
that wait at a socket in the order in which they were made. Everything that can happen at a moment
happens before time passes.
-/
namespace Overseer.Shutdown

structure Station where
  number : Nat
  place : FileTree.Place
  listener : Listener := {}
  /-- The connections that wait, first come first. -/
  backlog : List Nat := []
  /-- An accept is worth trying. -/
  ready : Bool := false
  calls : Nat := 0
  deriving DecidableEq, Repr

structure SignalerAt where
  name : String
  signaler : Signaler

structure World where
  now : Nat := 0
  files : FileTree := .usual
  /-- The path of the directory for temporary files. -/
  temporary : String := defaultTemporary
  /-- No file descriptor can be opened. -/
  starved : Bool := false
  stations : List Station := []
  connections : List Connection := []
  signalers : List SignalerAt := []
  /-- The number that the next listener or connection gets. -/
  next : Nat := 0

namespace World

def socketPath (w : World) (channel : String) : String :=
  Shutdown.socketPath w.temporary channel

def station? (w : World) (number : Nat) : Option Station :=
  w.stations.find? fun s => s.number = number

def connection? (w : World) (number : Nat) : Option Connection :=
  w.connections.find? fun c => c.number = number

def mapStation (w : World) (number : Nat) (f : Station → Station) : World :=
  { w with stations := w.stations.map fun s => if s.number = number then f s else s }

def mapConnection (w : World) (number : Nat) (f : Connection → Connection) : World :=
  { w with connections := w.connections.map fun c => if c.number = number then f c else c }

def hangUp (w : World) (number : Nat) : World :=
  w.mapConnection number Connection.hangUp

def hangUpAll (w : World) : List Nat → World
  | [] => w
  | number :: rest => (w.hangUp number).hangUpAll rest

def writeBack (w : World) (number : Nat) (bytes : List UInt8) : World :=
  w.mapConnection number fun c => c.writeBack bytes

def perform (w : World) (station : Nat) : Listener.Effect → World
  | .acknowledge _ => w
  | .write c bytes => w.writeBack c bytes
  | .callBack => w.mapStation station fun s => { s with calls := s.calls + 1 }
  | .close c => w.hangUp c
  | .release =>
    match w.station? station with
    | none => w
    | some s =>
      let w := { w with files := w.files.unlink s.place }
      (w.hangUpAll s.backlog).mapStation station fun s => { s with backlog := [] }

def performAll (w : World) (station : Nat) : List Listener.Effect → World
  | [] => w
  | e :: effects => (w.perform station e).performAll station effects

def tell (w : World) (station : Nat) (e : Listener.Event) : World :=
  match w.station? station with
  | none => w
  | some s =>
    let (l, effects) := s.listener.step e
    (w.mapStation station fun s => { s with listener := l }).performAll station effects

/-- How writing to a client goes that may be gone. -/
def writing (w : World) (number : Nat) (bytes : List UInt8) : Listener.Event :=
  match w.connection? number with
  | none => .writeFailed
  | some c => if c.client = .closed then .writeFailed else .wrote bytes.length

/-- The next thing that happens at a station now. -/
def stationStep? (w : World) (s : Station) : Option World :=
  match s.listener.phase with
  | .finished _ => none
  | .pausing due => if due ≤ w.now then some (w.tell s.number .resumed) else none
  | .acknowledging c rest => some (w.tell s.number (w.writing c rest))
  | .accepting =>
    if s.listener.stopping then some (w.tell s.number .woken)
    else if !s.ready then none
    else if w.starved then some (w.tell s.number (.acceptFailed w.now))
    else
      match s.backlog with
      | [] => some (w.mapStation s.number fun s => { s with ready := false })
      | c :: rest =>
        let w := w.mapStation s.number fun s => { s with backlog := rest }
        some (w.tell s.number (.accepted c))
  | .serving c _ =>
    if s.listener.stopping then some (w.tell s.number .woken)
    else
      match w.connection? c with
      | none => none
      | some connection =>
        if !connection.unread.isEmpty then
          let w := w.mapConnection c fun c => c.take connection.unread.length
          some (w.tell s.number (.received connection.unread))
        else if connection.client ≠ .open then some (w.tell s.number .ended)
        else none

def attach (w : World) (owner : Nat) (c : Connection) : World :=
  { w with
    next := w.next + 1
    connections := w.connections ++ [c]
    stations := w.stations.map fun s =>
      if s.number = owner then { s with backlog := s.backlog ++ [c.number], ready := true } else s }

def isLive (w : World) (owner : Option Nat) : Bool :=
  owner.any fun number => (w.station? number).any fun s => s.listener.outcome?.isNone

def connect (w : World) (name : String) (client : ClientSide) : Except SystemError (Nat × World) :=
  match addressError? (w.socketPath name) with
  | some e => .error e
  | none =>
    if w.starved then .error (.errno .tooManyOpenFiles)
    else
      match connectPlace w.files (w.socketPath name) with
      | .error e => .error (.errno e)
      | .ok place =>
        match w.files.node? place with
        | some (.socket (some number)) =>
          if w.isLive (some number) then
            .ok (w.next, w.attach number { number := w.next, client })
          else .error (.errno .connectionRefused)
        | _ => .error (.errno .connectionRefused)

/-- Writes to the listener's side; false if it is gone or the client has ended its own. -/
def send (w : World) (number : Nat) (bytes : List UInt8) : Bool × World :=
  match w.connection? number with
  | none => (false, w)
  | some c =>
    if bytes.isEmpty then (true, w)
    else if c.isWritable then (true, w.mapConnection number fun c => c.put bytes)
    else (false, w)

def halfClose (w : World) (number : Nat) : World :=
  w.mapConnection number Connection.halfClose

def close (w : World) (number : Nat) : World :=
  w.mapConnection number Connection.close

def setSignaler (w : World) (index : Nat) (s : SignalerAt) : World :=
  { w with signalers := w.signalers.set index s }

/-- A connection that comes about is written to at once. -/
def attemptNow (w : World) (index : Nat) (s : SignalerAt) : World :=
  match w.connect s.signaler.channel .open with
  | .error e => w.setSignaler index { s with signaler := s.signaler.attempt w.now (.failed e) }
  | .ok (c, w) =>
    let w := w.setSignaler index { s with signaler := s.signaler.attempt w.now (.connected c) }
    (w.send c requestLine).2

def conclude (w : World) (index : Nat) (s : SignalerAt) (next : Signaler) : World :=
  let w := w.setSignaler index { s with signaler := next }
  match s.signaler.phase with
  | .exchanging c _ => w.close c
  | _ => w

def signalerStep? (w : World) (index : Nat) (s : SignalerAt) : Option World :=
  if s.signaler.attempts w.now then some (w.attemptNow index s)
  else
    match s.signaler.phase with
    | .exchanging c _ =>
      match w.connection? c with
      | none => none
      | some connection =>
        let heard := s.signaler.hear connection.received connection.ending
        if heard.answer?.isSome then some (w.conclude index s heard) else none
    | _ => none

def expireStep? (w : World) (index : Nat) (s : SignalerAt) : Option World :=
  let expired := s.signaler.expire w.now
  if s.signaler.answer?.isNone && expired.answer?.isSome then some (w.conclude index s expired)
  else none

def firstSome {α β : Type} (f : Nat → α → Option β) : Nat → List α → Option β
  | _, [] => none
  | index, a :: rest => f index a <|> firstSome f (index + 1) rest

/-- Limits are looked at when nothing else can happen. -/
def step? (w : World) : Option World :=
  firstSome (fun _ s => w.stationStep? s) 0 w.stations
    <|> firstSome (fun index s => w.signalerStep? index s) 0 w.signalers
    <|> firstSome (fun index s => w.expireStep? index s) 0 w.signalers

/-- More steps than can happen at one moment: a few for every party. -/
def settleBound (w : World) : Nat :=
  8 * (w.stations.length + w.connections.length + 2 * w.signalers.length + 1)

def stepMany : Nat → World → World
  | 0, w => w
  | fuel + 1, w =>
    match w.step? with
    | none => w
    | some w => stepMany fuel w

def settle (w : World) : World :=
  stepMany w.settleBound w

def stationDue? (s : Station) : Option Nat :=
  match s.listener.phase with
  | .pausing due => some due
  | _ => none

def due? (w : World) : Option Nat :=
  (w.stations.filterMap stationDue? ++ w.signalers.filterMap fun s => s.signaler.due?).min?

/-- Lets time pass up to `target`, stopping where something is due, or once `stop` holds. Time grows
with every stop. -/
def advanceTo (target : Nat) (stop : World → Bool) : Nat → World → World
  | 0, w => w
  | fuel + 1, w =>
    let w := w.settle
    if stop w then w
    else
      match w.due? with
      | some due =>
        if due ≤ target then advanceTo target stop fuel { w with now := max due (w.now + 1) }
        else { w with now := target }
      | none => { w with now := target }

def advance (w : World) (ms : Nat) : World :=
  (advanceTo (w.now + ms) (fun _ => false) (ms + 2) w).settle

def await (w : World) (station ms : Nat) : World :=
  let done (w : World) : Bool := (w.station? station).any fun s => s.listener.outcome?.isSome
  (advanceTo (w.now + ms) done (ms + 2) w).settle

/-- Looks whether a live listener answers, which it sees as a client that comes and goes. -/
def probe (w : World) (owner : Option Nat) : Bool × World :=
  if w.starved then (false, w)
  else
    match owner with
    | some number =>
      if w.isLive owner then (true, w.attach number { number := w.next, client := .closed })
      else (false, w)
    | none => (false, w)

def inUse : SystemError :=
  .refused .addrInUse "another listener is live on this channel"

def notSocket : SystemError :=
  .refused .alreadyExists "path already exists and is not a Unix domain socket"

def clearStale (w : World) (name : String) : Except SystemError Unit × World :=
  if holdsNul name then
    (.error (.refused .invalidInput "file name contained an unexpected NUL byte"), w)
  else
    match socketPlace w.files (w.socketPath name) with
    | .error .noSuchFile => (.ok (), w)
    | .error e => (.error (.errno e), w)
    | .ok place =>
      match w.files.node? place with
      | none => (.ok (), w)
      | some (.socket owner) =>
        match w.probe owner with
        | (true, w) => (.error inUse, w)
        | (false, w) => (.ok (), { w with files := w.files.unlink place })
      | some _ => (.error notSocket, w)

def bind (w : World) (name : String) : Except SystemError Nat × World :=
  match addressError? (w.socketPath name) with
  | some e => (.error e, w)
  | none =>
    if w.starved then (.error (.errno .tooManyOpenFiles), w)
    else
      match socketPlace w.files (w.socketPath name) with
      | .error e => (.error (.errno e), w)
      | .ok place =>
        if w.files.node? place.dropLast = some .fixed then (.error (.errno .notPermitted), w)
        else
          (.ok w.next,
            { w with
              next := w.next + 1
              files := w.files.put place (.socket (some w.next))
              stations := w.stations ++ [{ number := w.next, place }] })

def listen (w : World) (name : String) : Except SystemError Nat × World :=
  match w.clearStale name with
  | (.error e, w) => (.error e, w)
  | (.ok (), w) => w.bind name

def stop (w : World) (station : Nat) : World :=
  w.tell station .stopped

def signal (w : World) (name channel : String) : World :=
  { w with
    signalers := w.signalers ++ [⟨name, .begin channel w.now⟩] }

end World

end Overseer.Shutdown
