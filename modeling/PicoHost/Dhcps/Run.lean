import PicoHost.Dhcps.Invariant
import PicoHost.Dhcps.Options
import PicoHost.Lib.Run

/-!
# Runs of a started server

A run starts with one successful `dhcps_start` on a handle without leases and
goes on with any sequence of received datagrams and `dhcps_tmr` ticks.

`after_inv`: the invariant of the lease list holds in every state of a run whose
pool is `PoolOk`, in particular when the pool was computed (`Start.Auto`).
-/

namespace PicoHost.Dhcps

open ByteOrder

/-! ## The start -/

/-- A successful `dhcps_start`: the handle and heap before the call, with no
leases yet, and the arguments. -/
structure Start where
  before : Server
  netif : NetifPtr
  ip : UInt32
  pcb : PcbPtr
  plist : before.dhcps.plist = []
  heap : Owned before.heap []
  ok : (dhcpsStart before (some netif) ip (some pcb)).2.1 = true

namespace Start

/-- The server after the call. -/
def server (x : Start) : Server := (dhcpsStart x.before (some x.netif) x.ip (some x.pcb)).1

/-- The pool is computed, under a contiguous mask that leaves two host bits. -/
structure Auto (x : Start) : Prop where
  enable : x.before.dhcps.dhcpsPoll.enable = false
  mask : ∃ n ≤ 30, IsMask x.before.dhcps.dhcpsMask n

/-- The pool is configured and accepted. -/
def Configured (x : Start) : Prop := pollAccepted x.before.dhcps.dhcpsPoll x.ip = true

instance (x : Start) : Decidable x.Configured :=
  inferInstanceAs (Decidable (pollAccepted x.before.dhcps.dhcpsPoll x.ip = true))

/-- What a successful start leaves behind. -/
theorem server_eq (x : Start) : x.server =
    { x.before with
      dhcps := { x.before.dhcps with
        dhcpsNetif := some x.netif,
        broadcastDhcps := ip4 255 255 255 255,
        serverAddress := x.ip,
        dhcpsPoll := (dhcpsPollSet x.before.dhcps x.ip).dhcpsPoll,
        clientAddressPlus := (dhcpsPollSet x.before.dhcps x.ip).dhcpsPoll.startIp,
        dhcpsPcb := some x.pcb,
        state := .started } } := by
  have hok := x.ok
  unfold server
  unfold dhcpsStart at hok ⊢
  dsimp only at hok ⊢
  split at hok
  · cases hok
  · split at hok
    · cases hok
    case isFalse hip hmask =>
      rw [if_neg hip, if_neg hmask]
      dsimp only
      unfold dhcpsPollSet
      dsimp only
      split <;> rfl

/-- A started server has the pool that `dhcps_poll_set` computed. -/
theorem server_poll (x : Start) :
    x.server.dhcps.dhcpsPoll = (dhcpsPollSet x.before.dhcps x.ip).dhcpsPoll := by
  rw [server_eq]

/-- A started server is started. -/
theorem server_state (x : Start) : x.server.dhcps.state = .started := by
  rw [server_eq]

/-- A computed pool is one the invariant can be stated for. -/
theorem Auto.pool {x : Start} (hx : x.Auto) : PoolOk x.server.dhcps.dhcpsPoll := by
  obtain ⟨n, hn, hm⟩ := hx.mask
  have hrej : ¬ pollAccepted x.before.dhcps.dhcpsPoll x.ip = true := by
    intro hacc
    have henable := (pollAccepted_iff.mp hacc).1
    rw [hx.enable] at henable
    cases henable
  rw [server_poll, dhcpsPollSet, if_neg hrej]
  exact autoPoll_ok hn hm

/-- A configured pool stays. -/
theorem Configured.poll {x : Start} (hx : x.Configured) :
    x.server.dhcps.dhcpsPoll = x.before.dhcps.dhcpsPoll := by
  have hacc : pollAccepted x.before.dhcps.dhcpsPoll x.ip = true := hx
  rw [server_poll, dhcpsPollSet, if_pos hacc]

/-- The invariant holds after the start. -/
theorem server_inv (x : Start) (hpool : PoolOk x.server.dhcps.dhcpsPoll) : Inv x.server := by
  have hl : x.server.dhcps.plist = [] := by
    rw [server_eq]
    exact x.plist
  have hc : x.server.dhcps.clientAddressPlus = x.server.dhcps.dhcpsPoll.startIp := by
    rw [server_eq]
  have hh : x.server.heap = x.before.heap := by
    rw [server_eq]
  refine ⟨⟨hpool, ?_, ?_⟩, ?_⟩
  · rw [hl]
    exact ⟨List.Pairwise.nil, nofun, List.nodup_nil⟩
  · rw [hl, hh]
    exact x.heap
  · rw [hc]
    exact ⟨Nat.le_refl _, hpool.le⟩

/-- A handle as `dhcps_new` leaves it, started at 192.168.4.1. -/
def default : Start where
  before := ⟨dhcpsNew, Heap.empty⟩
  netif := 0
  ip := ip4 192 168 4 1
  pcb := 0
  plist := rfl
  heap := owned_empty
  ok := by decide +kernel

/-- The default server computes its pool. -/
theorem default_auto : default.Auto where
  enable := rfl
  mask := ⟨24, by decide, by decide⟩

end Start

/-! ## Runs -/

/-- What happens to a started server. -/
inductive Input where
  | datagram (g : Datagram)
  | tick

/-- One input and the reply to it. -/
def step (s : Server) : Input → Server × Option Sent
  | .datagram g => handleDhcp s g
  | .tick => ((dhcpsTmr s).1, none)

/-- The server after a list of inputs. -/
def after (s : Server) (inputs : List Input) : Server := (Machine.run step s inputs).1

/-- The replies to a list of inputs, one entry for each input. -/
def replies (s : Server) (inputs : List Input) : List (Option Sent) :=
  (Machine.run step s inputs).2

/-- Inputs in two parts -/
theorem after_append (s : Server) (is js : List Input) :
    after s (is ++ js) = after (after s is) js := by
  rw [after, Machine.run_append]
  rfl

/-- A datagram as the only input -/
theorem after_datagram (s : Server) (g : Datagram) :
    after s [.datagram g] = (handleDhcp s g).1 := rfl

/-- Every datagram and every tick keeps the invariant. -/
theorem step_inv {s : Server} (inv : Inv s) (i : Input) : Inv (step s i).1 := by
  cases i with
  | datagram g => exact parseMsg_inv inv g.msg g.len
  | tick => exact dhcpsTmr_inv inv

/-- Every datagram and every tick keeps the configuration. -/
theorem step_config (s : Server) (i : Input) : SameConfig s (step s i).1 := by
  cases i with
  | datagram g => exact parseMsg_config s g.msg g.len
  | tick => exact dhcpsTmr_config s

/-- The invariant holds throughout a run. -/
theorem after_inv {s : Server} (inv : Inv s) (inputs : List Input) : Inv (after s inputs) :=
  Machine.run_inv (P := Inv) (fun _ i ht => step_inv ht i) inv inputs

/-- Inputs keep the configuration. -/
theorem after_config (s : Server) (inputs : List Input) : SameConfig s (after s inputs) :=
  Machine.run_inv (P := SameConfig s) (fun t i ht => ht.trans (step_config t i))
    (SameConfig.refl s) inputs

/-- After a start with a computed pool, every sequence of datagrams and ticks
leaves the leases ascending by address, with distinct addresses and hardware
addresses, inside the pool. -/
theorem leases_of_auto (x : Start) (hx : x.Auto) (inputs : List Input) :
    (hosts (after x.server inputs).dhcps.plist).Pairwise (· < ·) ∧
      (hosts (after x.server inputs).dhcps.plist).Nodup ∧
      (macs (after x.server inputs).dhcps.plist).Nodup ∧
      ∀ p ∈ (after x.server inputs).dhcps.plist,
        host x.server.dhcps.dhcpsPoll.startIp ≤ host p.pool.ip ∧
          host p.pool.ip ≤ host x.server.dhcps.dhcpsPoll.endIp := by
  have hinv := after_inv (x.server_inv hx.pool) inputs
  have hbounds := hinv.leases.bounds
  rw [(after_config x.server inputs).poll] at hbounds
  exact ⟨hinv.leases.sorted, hinv.leases.sorted.imp Nat.ne_of_lt, hinv.leases.distinct, hbounds⟩

/-- The default server has leased one address. -/
theorem leases_of_auto_default : (hosts (after Start.default.server
    [.datagram (discover fun _ => 1), .tick]).dhcps.plist).Pairwise (· < ·) :=
  (leases_of_auto Start.default Start.default_auto [.datagram (discover fun _ => 1), .tick]).1

end PicoHost.Dhcps
