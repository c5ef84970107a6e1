import InverterDashboard.Async.Lock
import InverterDashboard.Temporal.Trace

/-
  Who writes to which browser: `_send_state`, `broadcast_state` and `handle_websocket`.

  An event is what one task does between two awaits, so a list of events is an interleaving; an
  event that is not possible changes nothing. A task can be cancelled at every await. A connection
  is a new object each time, so a peer connects once.

  A send is known by its writer and its peer: the handler of a peer has at most one, since it
  awaits it, and so has a fan-out, of which there is one at a time (`_broadcast_lock`). The
  contents of a frame are left out; a state frame has the number of the payload it was built from.
-/

namespace InverterDashboard.WebSocket

open Async

/-! ## Data -/

abbrev Peer := Nat

/-- A lock object. -/
abbrev LockId := Nat

/-- A call of `broadcast_state`. -/
abbrev CastId := Nat

/-- Who calls `_send_state`: the handler of the peer, or a task of the fan-out. -/
inductive Writer where
  | handler
  | cast
  deriving DecidableEq

abbrev SendId := Writer × Peer

inductive Frame where
  | state (number : Nat)
  | reply
  deriving DecidableEq

/-- Where a `_send_state` is. `created` is a task that has not taken its first step. -/
inductive Stage where
  | created
  | waiting (lock : LockId)
  | writing (lock : LockId)
  | closing (lock : LockId)
  deriving DecidableEq

/-- The lock that a send waits for or holds. -/
def Stage.lock? : Stage → Option LockId
  | created => none
  | waiting l | writing l | closing l => some l

structure Send where
  frame : Frame
  stage : Stage
  deriving DecidableEq

/-- What a handler awaits: its first `_send_state`, `receive_json`, `_dispatch_action` or the
    `_send_state` of a reply. -/
inductive Handler where
  | opening
  | receiving
  | dispatching
  | replying
  deriving DecidableEq

/-- What happened to a peer. -/
inductive Entry where
  | begun (p : Peer) (frame : Frame)
  | written (p : Peer) (frame : Frame)
  | gone (p : Peer)
  deriving DecidableEq

structure Hub where
  /-- `ws_clients`. -/
  clients : List Peer
  /-- `_ws_write_locks`. -/
  table : Peer → Option LockId
  locks : LockId → FairLock SendId
  nextLock : LockId
  sends : SendId → Option Send
  handlers : Peer → Option Handler
  /-- The peers that ever connected. -/
  known : List Peer
  /-- `_broadcast_lock`; its holder is in its task group. -/
  casting : FairLock CastId
  /-- How many payloads were built. -/
  built : Nat
  log : List Entry

namespace Hub

def init : Hub where
  clients := []
  table := fun _ => none
  locks := fun _ => .free
  nextLock := 0
  sends := fun _ => none
  handlers := fun _ => none
  known := []
  casting := .free
  built := 0
  log := []

/-! ## Parts of the code -/

def note (h : Hub) (e : Entry) : Hub := { h with log := h.log ++ [e] }

def setLock (h : Hub) (l : LockId) (lock : FairLock SendId) : Hub :=
  { h with locks := Function.update h.locks l lock }

def setSend (h : Hub) (i : SendId) (send : Option Send) : Hub :=
  { h with sends := Function.update h.sends i send }

def setHandler (h : Hub) (p : Peer) (stage : Option Handler) : Hub :=
  { h with handlers := Function.update h.handlers p stage }

/-- `_forget_client`. -/
def forget (h : Hub) (p : Peer) : Hub :=
  { h with
    clients := h.clients.filter (· ≠ p)
    table := Function.update h.table p none
    log := h.log ++ [.gone p] }

/-- The `finally` of `handle_websocket`. -/
def close (h : Hub) (p : Peer) : Hub := (h.forget p).setHandler p none

/-- The end of `async with lock`, and of the send. -/
def release (h : Hub) (i : SendId) (l : LockId) : Hub :=
  (h.setLock l ((h.locks l).leave i)).setSend i none

/-- A send ends wherever it is, by returning or by a cancellation. -/
def drop (h : Hub) (i : SendId) : Hub :=
  match (h.sends i).bind fun send => send.stage.lock? with
  | some l => h.release i l
  | none => h.setSend i none

/-- A send returned, and its caller goes on. A task of the fan-out has nothing left to do. -/
def resume (h : Hub) (i : SendId) (sent : Bool) : Hub :=
  match i.1, h.handlers i.2 with
  | .handler, some .opening => if sent then h.setHandler i.2 (some .receiving) else h.close i.2
  | .handler, some .replying => h.setHandler i.2 (some .receiving)
  | _, _ => h

/-- `_send_state` once it holds the lock. -/
def enter (h : Hub) (i : SendId) (frame : Frame) (l : LockId) : Hub :=
  if i.2 ∈ h.clients then
    (h.setSend i (some ⟨frame, .writing l⟩)).note (.begun i.2 frame)
  else (h.release i l).resume i false

/-- `asyncio.Lock()`, for a peer. -/
def makeLock (h : Hub) (p : Peer) : Hub :=
  { h with table := Function.update h.table p (some h.nextLock), nextLock := h.nextLock + 1 }

/-- `_ws_write_locks.setdefault(websocket, asyncio.Lock())`. -/
def lockOf (h : Hub) (p : Peer) : LockId × Hub :=
  match h.table p with
  | some l => (l, h)
  | none => (h.nextLock, h.makeLock p)

/-- `_send_state` up to its first await. -/
def sendState (h : Hub) (i : SendId) (frame : Frame) : Hub :=
  if i.2 ∈ h.clients then
    let (l, h) := h.lockOf i.2
    let acquired := h.setLock l ((h.locks l).acquire i)
    if (h.locks l).isFree then acquired.enter i frame l
    else acquired.setSend i (some ⟨frame, .waiting l⟩)
  else (h.setSend i none).resume i false

/-- `broadcast_state` once it holds the broadcast lock, up to the end of its task group. `built`
    says whether `build_payload` returned. -/
def fanOut (h : Hub) (b : CastId) (built : Bool) : Hub :=
  if h.clients.isEmpty || !built then { h with casting := h.casting.leave b }
  else
    { h with
      sends := fun i =>
        if i.1 = .cast ∧ i.2 ∈ h.clients then some ⟨.state h.built, .created⟩ else h.sends i
      built := h.built + 1 }

/-! ## Events -/

inductive Event where
  /-- `handle_websocket` from `accept` to its first await. -/
  | connect (p : Peer) (built : Bool)
  /-- A task of the fan-out takes its first step. -/
  | start (p : Peer)
  /-- A send that waits first for its lock goes on. -/
  | wake (i : SendId)
  | written (i : SendId)
  /-- `send_text` raises, or the time is up. -/
  | failed (i : SendId)
  | closed (i : SendId)
  /-- A cancellation reaches a task of the fan-out. -/
  | cancel (p : Peer)
  | receive (p : Peer)
  /-- `_dispatch_action` ends, and a reply is sent if the request has an id. -/
  | reply (p : Peer) (requested : Bool)
  | disconnect (p : Peer)
  /-- A cancellation reaches a handler. -/
  | abort (p : Peer)
  | broadcast (b : CastId) (built : Bool)
  /-- The first call of `broadcast_state` that waits goes on. -/
  | turn (b : CastId) (built : Bool)
  /-- A cancellation reaches a call of `broadcast_state` that waits. -/
  | abandon (b : CastId)
  /-- The task group of the fan-out ends. -/
  | finish (b : CastId)
  deriving DecidableEq

def connect (h : Hub) (p : Peer) (built : Bool) : Hub :=
  if p ∈ h.known then h
  else
    let h := { h with clients := p :: h.clients, known := p :: h.known }
    if built then
      ({ h with built := h.built + 1 }.setHandler p (some .opening)).sendState (.handler, p)
        (.state h.built)
    else h.close p

def step (h : Hub) : Event → Hub
  | .connect p built => h.connect p built
  | .start p => match h.sends (.cast, p) with
    | some ⟨frame, .created⟩ => h.sendState (.cast, p) frame
    | _ => h
  | .wake i => match h.sends i with
    | some ⟨frame, .waiting l⟩ =>
      if (h.locks l).isTurn i then (h.setLock l (h.locks l).grant).enter i frame l else h
    | _ => h
  | .written i => match h.sends i with
    | some ⟨frame, .writing _⟩ => ((h.note (.written i.2 frame)).drop i).resume i true
    | _ => h
  | .failed i => match h.sends i with
    | some ⟨frame, .writing l⟩ => (h.forget i.2).setSend i (some ⟨frame, .closing l⟩)
    | _ => h
  | .closed i => match h.sends i with
    | some ⟨_, .closing _⟩ => (h.drop i).resume i false
    | _ => h
  | .cancel p => h.drop (.cast, p)
  | .receive p => if h.handlers p = some .receiving then h.setHandler p (some .dispatching) else h
  | .reply p requested =>
    if h.handlers p = some .dispatching then
      if requested then (h.setHandler p (some .replying)).sendState (.handler, p) .reply
      else h.setHandler p (some .receiving)
    else h
  | .disconnect p => if h.handlers p = some .receiving then h.close p else h
  | .abort p => if (h.handlers p).isSome then (h.drop (.handler, p)).close p else h
  | .broadcast b built =>
    if h.casting.holder = some b ∨ b ∈ h.casting.waiting then h
    else
      let acquired := { h with casting := h.casting.acquire b }
      if h.casting.isFree then acquired.fanOut b built else acquired
  | .turn b built =>
    if h.casting.isTurn b then { h with casting := h.casting.grant }.fanOut b built else h
  | .abandon b =>
    if h.casting.holder = some b then h else { h with casting := h.casting.leave b }
  | .finish b =>
    if h.casting.holder = some b ∧ h.known.all fun p => (h.sends (.cast, p)).isNone then
      { h with casting := h.casting.leave b }
    else h

end Hub

end InverterDashboard.WebSocket
