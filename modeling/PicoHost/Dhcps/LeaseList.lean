import PicoHost.Dhcps.Types

/-!
# The lease list (`plist`)

The list operations of the server: ordered insertion, removal of a node, the
search loop of `parse_msg`, lease expiry and the eviction of the oldest lease.
-/

namespace PicoHost.Dhcps

open ByteOrder

/-! ## `node_insert_to_list`, `node_remove_from_list` -/

/-- `node_insert_to_list` (dhcpserver.c:294–330): before the first node with a
larger raw address word. -/
def nodeInsertToList (pinsert : ListNode) : List ListNode → List ListNode
  | [] => [pinsert]
  | p :: plist =>
    if pinsert.pool.ip < p.pool.ip then pinsert :: p :: plist
    else p :: nodeInsertToList pinsert plist

/-- `node_remove_from_list` (dhcpserver.c:339–364): unlink the node `pdelete`
points to. -/
def nodeRemoveFromList (pdelete : Block) : List ListNode → List ListNode
  | [] => []
  | p :: plist =>
    if p.self = pdelete then plist else p :: nodeRemoveFromList pdelete plist

/-! ## The search of `parse_msg` -/

/-- The variables the search loop updates. -/
structure Search where
  clientAddress : UInt32
  clientAddressPlus : UInt32
  firstAddress : UInt32
  flag : Bool
  renew : Bool
deriving DecidableEq

/-- `addr_tmp.addr = htonl(addr); addr_tmp.addr++; htonl(addr_tmp.addr)` -/
def nextAddress (addr : UInt32) : UInt32 := byteSwap (byteSwap addr + 1)

/-- `else if (pdhcps_pool->ip.addr == dhcps->client_address_plus.addr)`: the cursor
steps over a leased address. -/
def Search.passCursor (s : Search) (ip : UInt32) : Search :=
  if ip = s.clientAddressPlus then
    { s with clientAddressPlus := nextAddress s.clientAddressPlus,
             clientAddress := nextAddress s.clientAddressPlus }
  else s

/-- `search the first unused ip`: one address further at every node, until a node
lies above it. -/
def Search.passFirst (s : Search) (ip : UInt32) : Search :=
  if s.flag = false then
    if s.firstAddress < ip then { s with flag := true }
    else { s with firstAddress := nextAddress s.firstAddress }
  else s

/-- One turn of the loop at a node of another client (dhcpserver.c:925–941). -/
def Search.pass (s : Search) (ip : UInt32) : Search := (s.passCursor ip).passFirst ip

/-- The loop over `plist` (dhcpserver.c:912–942). Returns the list, in which a
node with the client's MAC has its timer restarted, and that node. -/
def searchPool (m : Msg) (leaseTimer : UInt32) :
    Search → List ListNode → Search × List ListNode × Option ListNode
  | s, [] => (s, [], none)
  | s, p :: plist =>
    if p.pool.mac = m.chaddr then
      let p' := { p with pool := { p.pool with leaseTimer := leaseTimer } }
      ({ s with renew := s.renew || decide (p.pool.ip = m.ciaddr),
                clientAddress := p.pool.ip }, p' :: plist, some p')
    else
      let r := searchPool m leaseTimer (s.pass p.pool.ip) plist
      (r.1, p :: r.2.1, r.2.2)

/-! ## `dhcps_tmr`, `kill_oldest_dhcps_pool` -/

/-- The blocks of a node, in the order in which a removal frees them. -/
def ListNode.blocks (p : ListNode) : List Block := [p.pnode, p.self]

/-- The loop of `dhcps_tmr` (dhcpserver.c:1367–1384): every lease loses a tick,
and one that reaches zero is unlinked and freed. -/
def expireLeases : List ListNode → List ListNode × List Block
  | [] => ([], [])
  | p :: plist =>
    let p' := { p with pool := { p.pool with leaseTimer := p.pool.leaseTimer - 1 } }
    let r := expireLeases plist
    if p'.pool.leaseTimer = 0 then (r.1, p.blocks ++ r.2) else (p' :: r.1, r.2)

/-- The minimum search of `kill_oldest_dhcps_pool`: `minp` is replaced by a node
with a strictly smaller timer. -/
def minNode (minp : ListNode) : List ListNode → ListNode
  | [] => minp
  | p :: plist =>
    if p.pool.leaseTimer < minp.pool.leaseTimer then minNode p plist else minNode minp plist

/-- `kill_oldest_dhcps_pool` (dhcpserver.c:1312–1341). The search starts at the
second node; the assertion asks for two nodes. -/
def killOldestDhcpsPool : List ListNode → List ListNode × List Block
  | pre :: p :: plist =>
    let minp := minNode p plist
    (pre :: nodeRemoveFromList minp.self (p :: plist), minp.blocks)
  | plist => (plist, [])

end PicoHost.Dhcps
