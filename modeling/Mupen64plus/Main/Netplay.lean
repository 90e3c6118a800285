import Mupen64plus.Device.Memory

/-!
# The inputs of a netplay client

`main/netplay.c`: a client takes the inputs of every player from a server. `netplay_process` puts
the events of the datagrams that have come into a list for each player, and `netplay_get_input`
takes the next one out of it. Where the next one is missing, a thread asks the server for it while
the caller goes on with `netplay_process`.

## Main definitions

- `NetplayEvent`, `ControllerInputCompat`, `Netplay`
- `checkValid`, `netplayRecord`, `netplayDeleteEvent`, `netplayTakeEvent`
- `NetplayStep`, `Netplay.step` — the two threads, one access of the lists at a time
-/

namespace Mupen64plus

structure NetplayEvent where
  buttons : BitVec 32
  plugin : BitVec 8
  count : BitVec 32
  deriving DecidableEq, Repr

structure ControllerInputCompat where
  netplayCount : BitVec 32
  events : List NetplayEvent
  deriving DecidableEq, Repr

/-- `SDLNet_Read32`. -/
def sdlNetRead32 (data : Bytes) (curr : ℕ) : BitVec 32 :=
  data curr ++ data (curr + 1) ++ data (curr + 2) ++ data (curr + 3)

def udpReceiveKeyInfo : BitVec 8 := 1

def udpReceiveKeyInfoGratuitous : BitVec 8 := 3

/-- `buffer_size`, a byte. -/
def bufferSize (cin : ControllerInputCompat) : BitVec 8 := BitVec.ofNat 8 cin.events.length

/-- `check_valid`. -/
def checkValid (cin : ControllerInputCompat) (count : BitVec 32) : Bool :=
  cin.events.any fun current => current.count == count

/-- A turn of the loop of `netplay_process` over the events of a datagram. -/
def netplayRecord (cin : ControllerInputCompat) (count keys : BitVec 32) (plugin : BitVec 8) :
    ControllerInputCompat :=
  if 0xffffffff#32 / 2 < count - cin.netplayCount ∨ checkValid cin count then cin
  else { cin with events := ⟨keys, plugin, count⟩ :: cin.events }

/-- `netplay_delete_event` of the node at this place of the list. -/
def netplayDeleteEvent : List NetplayEvent → ℕ → List NetplayEvent
  | [], _ => []
  | _ :: find, 0 => find
  | event :: find, current + 1 => event :: netplayDeleteEvent find current

/-- The end of `netplay_get_input`: the event that is taken and what is left; `none` where the loop
    that looks for the event runs off the list. -/
def netplayTakeEvent (cin : ControllerInputCompat) :
    Option (NetplayEvent × ControllerInputCompat) := do
  let current ← cin.events.findIdx? fun current => current.count == cin.netplayCount
  let event ← cin.events[current]?
  some (event, ⟨cin.netplayCount + 1, netplayDeleteEvent cin.events current⟩)

/-- Who runs `netplay_process`. -/
inductive NetplayCaller where
  | getInput
  | ensureValid
  deriving DecidableEq, Repr

/-- Where the thread of the game is. -/
inductive NetplayMain where
  | idle
  /-- at `SDLNet_UDP_Recv` -/
  | receiving (caller : NetplayCaller) (controlId : Fin 4)
  /-- in the loop over the events of a datagram -/
  | recording (caller : NetplayCaller) (controlId : Fin 4) (packet : Bytes) (player : Fin 4)
      (i curr : ℕ)
  /-- at the condition of the loop of `netplay_ensure_valid` -/
  | waiting (controlId : Fin 4)
  /-- at `SDL_WaitThread` -/
  | joining (controlId : Fin 4)
  /-- an access outside of an array or through a null pointer -/
  | fault

/-- The thread of `netplay_require_response`. -/
inductive NetplayThread where
  | none
  | running (controlId : Fin 4)
  | ended (success : Bool)
  deriving DecidableEq, Repr

structure Netplay where
  cinCompats : Fin 4 → ControllerInputCompat
  udpChannel : ℤ
  status : BitVec 8
  playerLag : Fin 4 → BitVec 8
  bufferTarget : BitVec 8
  canFF : Bool
  /-- `Controls[].Plugin` -/
  plugin : Fin 4 → BitVec 8
  /-- the state of the emulator is `M64EMU_STOPPED` -/
  stopped : Bool
  main : NetplayMain
  thread : NetplayThread
  /-- what the calls of `netplay_get_input` for a player that did not lose the connection have
      returned, with the plugin they have set -/
  returned : Fin 4 → List (BitVec 32 × BitVec 8)

inductive NetplayStep where
  | getInput (controlId : Fin 4)
  /-- `SDLNet_UDP_Recv` returns 1, and this is in `packet->data` -/
  | receive (packet : Bytes)
  /-- `SDLNet_UDP_Recv` returns something else -/
  | noPacket
  | record
  | wait
  | join
  /-- a turn of the loop of the other thread, 10 seconds after its start or before -/
  | respond (timeout : Bool)

namespace Netplay

/-- `netplay_process` on a datagram, up to the loop over its events. -/
def receive (s : Netplay) (caller : NetplayCaller) (controlId : Fin 4) (packet : Bytes) : Netplay :=
  if packet 0 = udpReceiveKeyInfo ∨ packet 0 = udpReceiveKeyInfoGratuitous then
    if h : (packet 1).toNat < 4 then
      let player : Fin 4 := ⟨(packet 1).toNat, h⟩
      { s with
        playerLag := if packet 0 = udpReceiveKeyInfo then
          Function.update s.playerLag player (packet 3) else s.playerLag
        status := packet 2
        main := .recording caller controlId packet player 0 5 }
    else { s with main := .fault }
  else s

/-- A turn of that loop, or its end. -/
def record (s : Netplay) (caller : NetplayCaller) (controlId : Fin 4) (packet : Bytes)
    (player : Fin 4) (i curr : ℕ) : Netplay :=
  if i < (packet 4).toNat then
    { s with
      cinCompats := Function.update s.cinCompats player
        (netplayRecord (s.cinCompats player) (sdlNetRead32 packet curr)
          (sdlNetRead32 packet (curr + 4)) (packet (curr + 8)))
      main := .recording caller controlId packet player (i + 1) (curr + 9) }
  else { s with main := .receiving caller controlId }

/-- `netplay_get_input` when `netplay_ensure_valid` has returned 1. -/
def takeInput (s : Netplay) (controlId : Fin 4) : Netplay :=
  match netplayTakeEvent (s.cinCompats controlId) with
  | some (event, cin) =>
    { s with
      cinCompats := Function.update s.cinCompats controlId cin
      plugin := Function.update s.plugin controlId event.plugin
      main := .idle
      thread := .none
      returned := Function.update s.returned controlId
        (s.returned controlId ++ [(event.buttons, event.plugin)]) }
  | none => { s with main := .fault }

/-- `netplay_get_input` when it has returned 0. -/
def loseConnection (s : Netplay) : Netplay :=
  { s with stopped := true, main := .idle, thread := .none }

/-- `netplay_get_input` behind its call of `netplay_process`, up to the loop of
    `netplay_ensure_valid`. -/
def ensureValid (s : Netplay) (controlId : Fin 4) : Netplay :=
  let cin := s.cinCompats controlId
  let s := { s with
    canFF := decide (0 < s.playerLag controlId) && decide (s.bufferTarget < bufferSize cin) }
  if checkValid cin cin.netplayCount then s.takeInput controlId
  else if s.udpChannel = -1 then s.loseConnection
  else { s with main := .waiting controlId, thread := .running controlId }

/-- The condition of the loop of `netplay_ensure_valid`. -/
def waitLoop (s : Netplay) (controlId : Fin 4) : Netplay :=
  let cin := s.cinCompats controlId
  if ¬checkValid cin cin.netplayCount ∧ s.udpChannel ≠ -1 then
    { s with main := .receiving .ensureValid controlId }
  else { s with main := .joining controlId }

/-- A turn of the loop of `netplay_require_response`. Its requests change nothing here. -/
def requireResponse (s : Netplay) (controlId : Fin 4) (timeout : Bool) : Netplay :=
  let cin := s.cinCompats controlId
  if checkValid cin cin.netplayCount then { s with thread := .ended true }
  else if timeout then { s with udpChannel := -1, thread := .ended false }
  else s

/-- A step that a thread cannot take where it is leaves everything as it is. -/
def step (s : Netplay) : NetplayStep → Netplay
  | .getInput controlId => match s.main with
    | .idle => { s with main := .receiving .getInput controlId }
    | _ => s
  | .receive packet => match s.main with
    | .receiving caller controlId => s.receive caller controlId packet
    | _ => s
  | .noPacket => match s.main with
    | .receiving .getInput controlId => s.ensureValid controlId
    | .receiving .ensureValid controlId => { s with main := .waiting controlId }
    | _ => s
  | .record => match s.main with
    | .recording caller controlId packet player i curr =>
      s.record caller controlId packet player i curr
    | _ => s
  | .wait => match s.main with
    | .waiting controlId => s.waitLoop controlId
    | _ => s
  | .join => match s.main, s.thread with
    | .joining controlId, .ended success =>
      if success then s.takeInput controlId else s.loseConnection
    | _, _ => s
  | .respond timeout => match s.thread with
    | .running controlId => s.requireResponse controlId timeout
    | _ => s

/-- A client that has registered its players. -/
def fresh (udpChannel : ℤ) (bufferTarget : BitVec 8) (plugin : Fin 4 → BitVec 8) : Netplay where
  cinCompats := fun _ => ⟨0, []⟩
  udpChannel := udpChannel
  status := 0
  playerLag := fun _ => 0
  bufferTarget := bufferTarget
  canFF := false
  plugin := plugin
  stopped := false
  main := .idle
  thread := .none
  returned := fun _ => []

end Netplay

end Mupen64plus
