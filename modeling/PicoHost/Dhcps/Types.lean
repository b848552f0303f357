import PicoHost.Lib.ByteOrder
import PicoHost.Lib.Heap
import Mathlib.Data.Fintype.Basic

/-!
# Data model of the DHCP server (`dhcpserver.c`, `dhcpserver.h`)

- `Msg`: the memory a `struct dhcps_msg *` points to. A byte past the end of
  the buffer is still a byte of `Msg`, of unknown value, because the option loop
  of `parse_options` can read there.
- `DhcpsT`: `struct dhcps_t` without the new-lease callback. IPv4 addresses are
  network-order words on a little-endian machine, as in `ip4_addr_t`.
- `Server`: the handle together with the heap its lease nodes live in.

`CONFIG_LWIP_DHCPS_LEASE_UNIT` and `CONFIG_LWIP_DHCPS_MAX_STATION_NUM` have their
values of `sdkconfig.h`.
-/

namespace PicoHost.Dhcps

open ByteOrder

/-! ## Constants -/

def dhcpDiscover : UInt8 := 1
def dhcpOffer : UInt8 := 2
def dhcpRequest : UInt8 := 3
def dhcpDecline : UInt8 := 4
def dhcpAck : UInt8 := 5
def dhcpNak : UInt8 := 6
def dhcpRelease : UInt8 := 7

def dhcpOptionSubnetMask : UInt8 := 1
def dhcpOptionRouter : UInt8 := 3
def dhcpOptionDnsServer : UInt8 := 6
def dhcpOptionInterfaceMtu : UInt8 := 26
def dhcpOptionBroadcastAddress : UInt8 := 28
def dhcpOptionPerformRouterDiscovery : UInt8 := 31
def dhcpOptionReqIpaddr : UInt8 := 50
def dhcpOptionLeaseTime : UInt8 := 51
def dhcpOptionMsgType : UInt8 := 53
def dhcpOptionServerId : UInt8 := 54
def dhcpOptionEnd : UInt8 := 255

/-- `DHCPS_MAX_LEASE` -/
def dhcpsMaxLease : UInt32 := 0x64

/-- `DHCPS_LEASE_TIME_DEF` -/
def dhcpsLeaseTimeDef : UInt32 := 120

/-- `DHCPS_LEASE_UNIT` (`CONFIG_LWIP_DHCPS_LEASE_UNIT`) -/
def dhcpsLeaseUnit : UInt32 := 60

/-- `DHCPS_COARSE_TIMER_SECS` -/
def dhcpsCoarseTimerSecs : UInt32 := 1

/-- `MAX_STATION_NUM` (`CONFIG_LWIP_DHCPS_MAX_STATION_NUM`) -/
def maxStationNum : Nat := 8

/-- `magic_cookie`, the bytes 99.130.83.99 as a little-endian word -/
def magicCookie : UInt32 := 0x63538263

/-- `sizeof(struct dhcps_msg)` -/
def sizeofDhcpsMsg : Nat := 548

/-- The `DHCPS_STATE_*` values; `none` is the 0 that `parse_msg` returns for a
message without the cookie. -/
inductive ReplyState where
  | none | offer | decline | ack | nak | idle | release
deriving DecidableEq, Repr

/-- `dhcps_handle_state` -/
inductive HandleState where
  | created | started | stopped | deletePending
deriving DecidableEq, Repr

/-! ## Messages -/

/-- A hardware address as compared and stored: the first 6 bytes of `chaddr`. -/
abbrev Mac := Fin 6 → UInt8

/-- The bytes from a `struct dhcps_msg *` on. -/
abbrev Msg := Nat → UInt8

namespace Msg

/-- The word in memory at offset `off` (little-endian). Comparing four bytes of
memory with an `ip4_addr_t` compares this word with it. -/
def word (m : Msg) (off : Nat) : UInt32 :=
  .ofNat ((m off).toNat + 2 ^ 8 * (m (off + 1)).toNat + 2 ^ 16 * (m (off + 2)).toNat +
    2 ^ 24 * (m (off + 3)).toNat)

def xid (m : Msg) : UInt32 := m.word 4
def ciaddr (m : Msg) : UInt32 := m.word 12
def chaddr (m : Msg) : Mac := fun i => m (28 + i)

/-- Offset of `options`. -/
def options : Nat := 236

end Msg

/-- The four bytes of a word in memory order, `ip4_addr1` to `ip4_addr4`. -/
def wordBytes (w : UInt32) : List UInt8 :=
  [.ofNat w.toNat, .ofNat (w.toNat / 2 ^ 8), .ofNat (w.toNat / 2 ^ 16),
    .ofNat (w.toNat / 2 ^ 24)]

/-- `LWIP_MAKEU32` with `PP_HTONL`: an address written as its four octets. -/
def ip4 (a b c d : Nat) : UInt32 := ofHost (a * 2 ^ 24 + b * 2 ^ 16 + c * 2 ^ 8 + d)

/-! ## The handle -/

/-- `struct dhcps_pool` -/
structure DhcpsPool where
  ip : UInt32
  mac : Mac
  leaseTimer : UInt32

/-- `struct list_node` with the pool it points to. `self` and `pnode` are the
two heap blocks. -/
structure ListNode where
  self : Block
  pnode : Block
  pool : DhcpsPool

/-- `dhcps_lease_t` -/
structure DhcpsLease where
  enable : Bool
  startIp : UInt32
  endIp : UInt32
deriving DecidableEq, Repr

/-- A `struct netif *` that is not `NULL`. -/
abbrev NetifPtr := Nat

/-- A `struct udp_pcb *` that is not `NULL`. -/
abbrev PcbPtr := Nat

/-- `struct dhcps_t` -/
structure DhcpsT where
  dhcpsNetif : Option NetifPtr
  broadcastDhcps : UInt32
  serverAddress : UInt32
  dnsServer : UInt32
  clientAddress : UInt32
  clientAddressPlus : UInt32
  dhcpsMask : UInt32
  plist : List ListNode
  renew : Bool
  dhcpsPoll : DhcpsLease
  dhcpsLeaseTime : UInt32
  dhcpsOffer : UInt8
  dhcpsDns : UInt8
  dhcpsPcb : Option PcbPtr
  state : HandleState

/-- The handle and the heap of its lease nodes. -/
structure Server where
  dhcps : DhcpsT
  heap : Heap

/-- `mem_calloc`, assumed to succeed: `parse_msg` writes through its result
unchecked. -/
def memCalloc (h : Heap) : Block × Heap := h.malloc h.serial

/-- `dhcps_new` (dhcpserver.c:133–153) with the fields that `mem_calloc` leaves
zero. -/
def dhcpsNew : DhcpsT where
  dhcpsNetif := none
  broadcastDhcps := 0
  serverAddress := 0
  dnsServer := 0
  clientAddress := 0
  clientAddressPlus := 0
  dhcpsMask := ip4 255 255 255 0
  plist := []
  renew := false
  dhcpsPoll := ⟨false, 0, 0⟩
  dhcpsLeaseTime := dhcpsLeaseTimeDef
  dhcpsOffer := 0xFF
  dhcpsDns := 0
  dhcpsPcb := none
  state := .created

end PicoHost.Dhcps
