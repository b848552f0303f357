import PicoHost.Lib.Run
import Mathlib.Data.List.Basic

/-!
# The L2 TAP sockets (`esp_vfs_l2tap.c`)

A socket is opened, bound to an interface and given an EtherType by `l2tap_ioctl`.
`esp_vfs_l2tap_eth_filter` looks at every frame that an Ethernet driver receives and
puts it into the queue of a socket that takes it; the buffer then belongs to the
socket until the frame is read or the socket is closed. `l2tap_close` leaves the end
of its work to a task, and wakes a blocked reader by an empty entry.

The operations on the table are atomic here. Buffers are numbered in the order in
which the drivers hand them over; what they hold is never looked at.
-/

namespace PicoHost.L2tap

/-! ## Data -/

/-- `l2tap_iodriver_handle`, `NULL` apart. -/
abbrev Handle := Nat

/-- A receive buffer of a driver. -/
abbrev Buffer := Nat

/-- `CONFIG_ESP_NETIF_L2_TAP_RX_QUEUE_SIZE`, and `ETH_IEEE802_3_MAX_LEN` of the network
stack. -/
structure Config where
  rxQueueMaxSize : Nat
  ethIeee8023MaxLen : UInt16

/-- `l2tap_socket_state_t` -/
inductive SocketState where
  | ready | opened | closing
deriving DecidableEq, Repr

/-- `frame_queue_entry_t` -/
structure FrameQueueEntry where
  buff : Option Buffer
  len : Nat
deriving DecidableEq, Repr

/-- The empty entry that `l2tap_clean_task` pushes. -/
def FrameQueueEntry.marker : FrameQueueEntry := ⟨none, 0⟩

/-- What is left to do for the `l2tap_clean_task` of a socket. -/
inductive CleanPc where
  | push | pop | flush
deriving DecidableEq, Repr

/-- `l2tap_context_t`, and the task that cleans the socket up. -/
structure L2tapContext where
  state : SocketState
  nonBlocking : Bool
  driverHandle : Option Handle
  ethtypeFilter : UInt16
  rxQueue : Option (List FrameQueueEntry)
  cleanTask : Option CleanPc
deriving DecidableEq, Repr

/-- A static socket before it is opened for the first time. -/
def L2tapContext.zero : L2tapContext := ⟨.ready, false, none, 0, none, none⟩

/-- `errno` -/
inductive Errno where
  | eacces | einval | enodev | enosys | ebadf | eagain
deriving DecidableEq, Repr

/-! ## The queue of a socket -/

section Queue

variable (C : Config) (it : L2tapContext)

/-- `push_rx_queue` (esp_vfs_l2tap.c:92–103). `none`: `ESP_ERR_NO_MEM`. -/
def pushRxQueue (e : FrameQueueEntry) : Option L2tapContext :=
  match it.rxQueue with
  | none => none
  | some q =>
    if q.length < C.rxQueueMaxSize then some { it with rxQueue := some (q ++ [e]) } else none

/-- What a pop leaves behind, and how many bytes it has copied; `none` for -1. -/
structure Popped where
  socket : L2tapContext
  freed : List Buffer
  ret : Option Nat

/-- `pop_rx_queue` (esp_vfs_l2tap.c:105–134). `none`: it waits. -/
def popRxQueue (len : Nat) : Option Popped :=
  match it.rxQueue with
  | none => none
  | some [] => if it.nonBlocking then some ⟨it, [], none⟩ else none
  | some (frameInfo :: rest) =>
    let it := { it with rxQueue := some rest }
    if frameInfo.len = 0 then some ⟨(pushRxQueue C it .marker).getD it, [], none⟩
    else some ⟨it, frameInfo.buff.toList, some (min len frameInfo.len)⟩

/-- The buffer that `flush_rx_queue` frees for an entry (esp_vfs_l2tap.c:141–149). -/
def FrameQueueEntry.flushed (e : FrameQueueEntry) : List Buffer :=
  if 0 < e.len then e.buff.toList else []

/-- What `flush_rx_queue` frees. -/
def flushRxQueue : List Buffer := (it.rxQueue.getD []).flatMap FrameQueueEntry.flushed

end Queue

/-! ## The filter -/

/-- `sizeof(struct eth_hdr)` -/
def sizeofEthHdr : Nat := 14

/-- A received frame: the handle of its driver, its type field in host order, and its
length. There is room for the header. -/
structure EthFrame where
  driverHandle : Handle
  ethType : UInt16
  size : Nat
  header : sizeofEthHdr ≤ size

/-- What `esp_vfs_l2tap_eth_filter` leaves in the table and in `*size`, the buffers it
frees, and the sockets that it hands the frame to and notifies readers of, in order. -/
structure Filtered where
  sockets : List L2tapContext
  size : Nat
  freed : List Buffer
  notified : List Nat

section Filter

variable (C : Config)

/-- The socket takes the frames of this driver with this type field
(esp_vfs_l2tap.c:178–183). -/
def L2tapContext.takes (it : L2tapContext) (driverHandle : Handle) (ethType : UInt16) : Bool :=
  decide (it.state = .opened) && decide (it.driverHandle = some driverHandle) &&
    (decide (it.ethtypeFilter = ethType) ||
      -- IEEE 802.2 frames, which have a length there
      decide (it.ethtypeFilter ≤ C.ethIeee8023MaxLen) && decide (ethType ≤ C.ethIeee8023MaxLen))

/-- The loop of `esp_vfs_l2tap_eth_filter` from socket `i` on. -/
def ethFilterFrom (driverHandle : Handle) (ethType : UInt16) (buff : Buffer) :
    List L2tapContext → Nat → Nat → Filtered
  | [], _, size => ⟨[], size, [], []⟩
  | it :: rest, i, size =>
    if it.takes C driverHandle ethType then
      let later := ethFilterFrom driverHandle ethType buff rest (i + 1) 0
      match pushRxQueue C it ⟨some buff, size⟩ with
      | some it => ⟨it :: later.sockets, later.size, later.freed, i :: later.notified⟩
      -- tail drop when the queue is full
      | none => ⟨it :: later.sockets, later.size, buff :: later.freed, i :: later.notified⟩
    else
      let later := ethFilterFrom driverHandle ethType buff rest (i + 1) size
      { later with sockets := it :: later.sockets }

/-- `esp_vfs_l2tap_eth_filter` (esp_vfs_l2tap.c:172–202) -/
def ethFilter (sockets : List L2tapContext) (frame : EthFrame) (buff : Buffer) : Filtered :=
  ethFilterFrom C frame.driverHandle frame.ethType buff sockets 0 frame.size

end Filter

/-! ## The operations of the virtual file system -/

/-- `l2tap_open` (esp_vfs_l2tap.c:205–230); `queue` tells whether the queue can be
created. -/
def l2tapOpen (sockets : List L2tapContext) (nonBlocking queue : Bool) :
    List L2tapContext × Option Nat :=
  match sockets.findIdx? fun it => decide (it.state = .ready) with
  | none => (sockets, none)
  | some fd =>
    match sockets[fd]? with
    | none => (sockets, none)
    | some it =>
      if queue then
        (sockets.set fd { it with
          state := .opened, rxQueue := some [], ethtypeFilter := 0, driverHandle := none,
          nonBlocking }, some fd)
      else (sockets, none)

/-- The commands of `l2tap_ioctl` that set something. `netif` is the interface with the
key, if there is one, and its driver handle. -/
inductive IoctlCmd where
  | sRcvFilter (newEthtypeFilter : UInt16)
  | sIntfDevice (netif : Option (Option Handle))
  | sDeviceDrvHndl (setDriverHdl : Option Handle)
  | unsupported
deriving DecidableEq, Repr

/-- What `l2tap_ioctl` (esp_vfs_l2tap.c:334–417) makes of the socket. -/
def ioctlSocket (sockets : List L2tapContext) (it : L2tapContext) :
    IoctlCmd → Except Errno L2tapContext
  | .sRcvFilter newEthtypeFilter =>
    if it.driverHandle = none then .error .eacces
    else if it.ethtypeFilter ≠ newEthtypeFilter then
      if sockets.any fun other => decide (other.state = .opened) &&
          decide (other.driverHandle = it.driverHandle) &&
          decide (other.ethtypeFilter = newEthtypeFilter) then .error .einval
      else .ok { it with ethtypeFilter := newEthtypeFilter }
    else .ok it
  | .sIntfDevice none => .error .enodev
  | .sIntfDevice (some driverHandle) => .ok { it with driverHandle }
  | .sDeviceDrvHndl none => .error .enodev
  | .sDeviceDrvHndl (some driverHandle) => .ok { it with driverHandle := some driverHandle }
  | .unsupported => .error .enosys

/-- `l2tap_ioctl` on a socket of the table. -/
def l2tapIoctl (sockets : List L2tapContext) (fd : Nat) (cmd : IoctlCmd) :
    List L2tapContext × Option Errno :=
  match sockets[fd]? with
  | none => (sockets, some .ebadf)
  | some it =>
    match ioctlSocket sockets it cmd with
    | .error errno => (sockets, some errno)
    | .ok it => (sockets.set fd it, none)

/-- The beginning of `l2tap_close` (esp_vfs_l2tap.c:304–323), up to the wait for the clean
task; `sem` and `task` tell whether the semaphore and the task can be created. -/
def closeSocket (it : L2tapContext) (sem task : Bool) : L2tapContext :=
  if it.state ≠ .opened then it
  else if sem && task then { it with state := .closing, cleanTask := some .push }
  else { it with state := .closing }

/-! ## The table in use -/

/-- The table, the number of frames received, the buffers of those that were not passed
to the IP stack, and the buffers that the sockets have freed, the latest first. -/
structure Tap where
  sockets : List L2tapContext
  received : Nat
  taken : List Buffer
  freed : List Buffer
deriving DecidableEq, Repr

def Tap.init (maxFds : Nat) : Tap := ⟨List.replicate maxFds .zero, 0, [], []⟩

/-- What happens to the table. -/
inductive Action where
  | open_ (nonBlocking queue : Bool)
  | ioctl (fd : Nat) (cmd : IoctlCmd)
  | read (fd len : Nat)
  /-- a reader that has waited for the queue since before a close goes on -/
  | wake (fd len : Nat)
  /-- `l2tap_fcntl` with `F_SETFL` -/
  | fcntl (fd : Nat) (nonBlocking : Bool)
  | close (fd : Nat) (sem task : Bool)
  /-- the clean task of the socket goes on -/
  | clean (fd : Nat)
  | receive (frame : EthFrame)

section Step

variable (C : Config) (s : Tap)

/-- The socket is replaced, and buffers are freed. -/
def Tap.replace (fd : Nat) (it : L2tapContext) (freed : List Buffer) : Tap :=
  { s with sockets := s.sockets.set fd it, freed := freed ++ s.freed }

def Tap.pop (fd : Nat) (it : L2tapContext) (len : Nat) : Option Tap :=
  (popRxQueue C it len).map fun r => s.replace fd r.socket r.freed

/-- The steps of `l2tap_clean_task` (esp_vfs_l2tap.c:281–300). Behind the last one
`l2tap_close` returns. -/
def Tap.clean (fd : Nat) (it : L2tapContext) : Option Tap :=
  match it.cleanTask with
  | none => none
  | some .push =>
    some (s.replace fd { (pushRxQueue C it .marker).getD it with cleanTask := some .pop } [])
  | some .pop =>
    (popRxQueue C it 0).map fun r =>
      s.replace fd { r.socket with cleanTask := some .flush } r.freed
  | some .flush =>
    some (s.replace fd { it with state := .ready, rxQueue := none, cleanTask := none }
      (flushRxQueue it))

/-- A driver receives a frame into the next buffer. -/
def Tap.receive (frame : EthFrame) : Tap :=
  let r := ethFilter C s.sockets frame s.received
  { sockets := r.sockets
    received := s.received + 1
    -- the frame is not passed to the IP stack when the size is set to 0
    taken := if r.size = 0 then s.received :: s.taken else s.taken
    freed := r.freed ++ s.freed }

def Tap.step : Action → Option Tap
  | .open_ nonBlocking queue =>
    some { s with sockets := (l2tapOpen s.sockets nonBlocking queue).1 }
  | .ioctl fd cmd => some { s with sockets := (l2tapIoctl s.sockets fd cmd).1 }
  | .read fd len =>
    (s.sockets[fd]?).bind fun it =>
      if it.state ≠ .opened ∨ len = 0 then some s else s.pop C fd it len
  | .wake fd len => (s.sockets[fd]?).bind fun it => s.pop C fd it len
  | .fcntl fd nonBlocking =>
    (s.sockets[fd]?).map fun it => s.replace fd { it with nonBlocking } []
  | .close fd sem task =>
    (s.sockets[fd]?).map fun it => s.replace fd (closeSocket it sem task) []
  | .clean fd => (s.sockets[fd]?).bind fun it => s.clean C fd it
  | .receive frame => some (s.receive C frame)

end Step

end PicoHost.L2tap
