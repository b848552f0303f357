import PicoHost.Dhcps.Reply

/-!
# Configured pools

A configured pool that `dhcps_poll_set` accepts may be any range of the server's
block of 256 addresses. `addressesInPool_iff`: the server stays inside it in
every run exactly when the pool does not end in `.255`.

If it does end in `.255`, the address after the last one lies in the next block
and its raw word is *smaller* than that of the last one, so the bounds check
lets it pass. The pool is filled by one DHCPDISCOVER of a new client for each of
its addresses (`fill`); the next new client is offered the address after the
pool.
-/

namespace PicoHost.Dhcps

open ByteOrder

/-- An address of the pool, compared in host order. -/
def InPool (poll : DhcpsLease) (a : UInt32) : Prop :=
  host poll.startIp ≤ host a ∧ host a ≤ host poll.endIp

instance (poll : DhcpsLease) (a : UInt32) : Decidable (InPool poll a) :=
  inferInstanceAs (Decidable (_ ∧ _))

/-- Every address leased after the inputs, and every address offered or
acknowledged on the way, lies in the pool. -/
structure AddressesInPool (x : Start) (inputs : List Input) : Prop where
  leased : ∀ p ∈ (after x.server inputs).dhcps.plist, InPool x.before.dhcps.dhcpsPoll p.pool.ip
  replied : ∀ sent, some sent ∈ replies x.server inputs →
    sent.type = dhcpOffer ∨ sent.type = dhcpAck →
      InPool x.before.dhcps.dhcpsPoll sent.msg.yiaddr

/-! ## Pools that end below `.255` -/

/-- A reply of a server with the invariant stays in the pool. -/
theorem step_inPool {s : Server} (inv : Inv s) (i : Input) {sent : Sent}
    (h : (step s i).2 = some sent) (ht : sent.type = dhcpOffer ∨ sent.type = dhcpAck) :
    InPool s.dhcps.dhcpsPoll sent.msg.yiaddr := by
  have inv' := step_inv inv i
  have hsame := step_config s i
  cases i with
  | datagram g =>
    obtain ⟨-, p, hp, -, hip, -⟩ := handleDhcp_lease inv h ht
    have hb := inv'.leases.bounds p hp
    rw [hsame.poll, hip] at hb
    exact hb
  | tick => cases h

/-- A pool that does not end with .255 is never left. -/
theorem addressesInPool_of_ne (x : Start) (hx : x.Configured)
    (hlast : host x.before.dhcps.dhcpsPoll.endIp % 256 ≠ 255) (inputs : List Input) :
    AddressesInPool x inputs := by
  have hpool : PoolOk x.server.dhcps.dhcpsPoll := by
    rw [hx.poll]
    exact accepted_ok hx hlast
  have inv₀ := x.server_inv hpool
  have hstep : ∀ t i, Inv t ∧ SameConfig x.server t →
      Inv (step t i).1 ∧ SameConfig x.server (step t i).1 := by
    rintro t i ⟨ht, hst⟩
    exact ⟨step_inv ht i, hst.trans (step_config t i)⟩
  refine ⟨fun p hp => ?_, ?_⟩
  · have hb := (after_inv inv₀ inputs).leases.bounds p hp
    rw [(after_config x.server inputs).poll, hx.poll] at hb
    exact hb
  · have houts := Machine.run_outputs (P := fun t => Inv t ∧ SameConfig x.server t)
      (Q := fun o => ∀ sent, o = some sent → sent.type = dhcpOffer ∨ sent.type = dhcpAck →
        InPool x.before.dhcps.dhcpsPoll sent.msg.yiaddr)
      hstep (fun t i ht sent hsent htype => by
        have hin := step_inPool ht.1 i hsent htype
        rwa [ht.2.poll, hx.poll] at hin)
      ⟨inv₀, SameConfig.refl _⟩ inputs
    exact fun sent hsent => houts _ hsent sent rfl

/-! ## The search for a new client -/

/-- Where the cursor stands after it has passed these addresses. -/
def passWords : UInt32 → List UInt32 → UInt32
  | w, [] => w
  | w, ip :: ips => passWords (if ip = w then nextAddress w else w) ips

/-- What a lease with the tentative address does to the search -/
theorem Search.pass_words {s : Search} (h : s.clientAddress = s.clientAddressPlus)
    (ip : UInt32) :
    (s.pass ip).clientAddressPlus =
        (if ip = s.clientAddressPlus then nextAddress s.clientAddressPlus
          else s.clientAddressPlus) ∧
      (s.pass ip).clientAddress = (s.pass ip).clientAddressPlus := by
  obtain ⟨hplus, hclient, -⟩ := (s.passCursor ip).passFirst_plus ip
  unfold Search.pass
  rw [hplus, hclient]
  unfold Search.passCursor
  split
  · exact ⟨rfl, rfl⟩
  · exact ⟨rfl, h⟩

/-- A new client finds no node, and the cursor passes all of them. -/
theorem searchPool_fresh {m : Msg} {t : UInt32} {s : Search} {plist : List ListNode}
    (h : s.clientAddress = s.clientAddressPlus) (hmac : ∀ p ∈ plist, p.pool.mac ≠ m.chaddr) :
    ∃ r, searchPool m t s plist = (r, plist, none) ∧ r.clientAddress = r.clientAddressPlus ∧
      r.clientAddressPlus = passWords s.clientAddressPlus (plist.map fun p => p.pool.ip) := by
  induction plist generalizing s with
  | nil => exact ⟨s, rfl, h, rfl⟩
  | cons p plist ih =>
    obtain ⟨hplus, hclient⟩ := s.pass_words h p.pool.ip
    obtain ⟨r, hr, hrc, hrp⟩ := ih hclient fun q hq => hmac q (List.mem_cons_of_mem p hq)
    refine ⟨r, ?_, hrc, ?_⟩
    · rw [searchPool, if_neg (hmac p (List.mem_cons_self ..))]
      dsimp only
      rw [hr]
    · rw [hrp, hplus, List.map_cons, passWords]

/-- What one DHCPDISCOVER of a new client leaves behind, when the cursor ends at
`w` and the raw bounds check lets `w` pass. -/
structure Leased (s s' : Server) (mac : Mac) (w : UInt32) (p : ListNode) : Prop where
  ip : p.pool.ip = w
  mac : p.pool.mac = mac
  plist : s'.dhcps.plist = nodeInsertToList p s.dhcps.plist
  client : s'.dhcps.clientAddress = w
  plus : s'.dhcps.clientAddressPlus =
    if w = s.dhcps.dhcpsPoll.endIp then s.dhcps.dhcpsPoll.startIp else nextAddress w
  poll : s'.dhcps.dhcpsPoll = s.dhcps.dhcpsPoll

/-- A new client gets the tentative address, moved past the leases. -/
theorem selectAddress_fresh {s : Server} {m : Msg} {w : UInt32}
    (hmac : ∀ p ∈ s.dhcps.plist, p.pool.mac ≠ m.chaddr)
    (hw : passWords s.dhcps.clientAddressPlus (s.dhcps.plist.map fun p => p.pool.ip) = w)
    (hnil : s.dhcps.plist = [] → w = s.dhcps.dhcpsPoll.startIp)
    (hend : ¬ s.dhcps.dhcpsPoll.endIp < w) :
    ∃ p, (selectAddress s m).2 = some p ∧ Leased s (selectAddress s m).1 m.chaddr w p := by
  obtain ⟨r, hr, hrc, hrp⟩ :=
    @searchPool_fresh m s.dhcps.leaseTimer s.dhcps.startSearch s.dhcps.plist rfl hmac
  have hrp' : r.clientAddressPlus = w := hrp.trans hw
  have hnew : (s.dhcps.searched r s.dhcps.plist).newClient r.firstAddress = w := by
    unfold DhcpsT.newClient DhcpsT.searched
    dsimp only
    rw [hrp', if_neg hend, hrc, hrp']
    split
    case isTrue h => exact (hnil (List.isEmpty_iff.mp h)).symm
    case isFalse => rfl
  have hend' : ¬ (s.dhcps.searched r s.dhcps.plist).dhcpsPoll.endIp < w := hend
  unfold selectAddress
  rw [hr]
  dsimp only
  rw [hnew, if_neg hend']
  exact ⟨_, rfl, rfl, rfl, rfl, rfl, rfl, rfl⟩

/-- The address is offered and leased, unless it is 0.0.0.0. -/
theorem handleDhcp_fresh {s : Server} {mac : Mac} {w : UInt32}
    (hmac : ∀ p ∈ s.dhcps.plist, p.pool.mac ≠ mac)
    (hw : passWords s.dhcps.clientAddressPlus (s.dhcps.plist.map fun p => p.pool.ip) = w)
    (hnil : s.dhcps.plist = [] → w = s.dhcps.dhcpsPoll.startIp)
    (hend : ¬ s.dhcps.dhcpsPoll.endIp < w) (hzero : w ≠ 0) :
    ∃ p, Leased s (handleDhcp s (discover mac)).1 mac w p := by
  have hsel := @selectAddress_fresh s (discover mac).msg w (by rwa [discover_chaddr]) hw hnil hend
  obtain ⟨p, -, hp⟩ := hsel
  rw [discover_chaddr] at hp
  have hcheck : ¬ ((selectAddress s (discover mac).msg).1.dhcps.dhcpsPoll.endIp <
      (selectAddress s (discover mac).msg).1.dhcps.clientAddress ∨
        (selectAddress s (discover mac).msg).1.dhcps.clientAddress = 0) := by
    rw [hp.client, hp.poll]
    exact not_or.mpr ⟨hend, hzero⟩
  have hparse : (handleDhcp s (discover mac)).1 = (selectAddress s (discover mac).msg).1 := by
    rw [handleDhcp_fst, parseMsg, if_pos (word_of_holds (discover_carries mac).holds.1)]
    dsimp only
    rw [if_neg hcheck, parseOptions_discover, if_neg (by decide)]
  rw [hparse]
  exact ⟨p, hp⟩

/-- Address 0.0.0.0 is not leased: its node is inserted and removed again. The
cursor goes on behind it. -/
theorem handleDhcp_zero {s : Server} {mac : Mac}
    (hmac : ∀ p ∈ s.dhcps.plist, p.pool.mac ≠ mac)
    (hw : passWords s.dhcps.clientAddressPlus (s.dhcps.plist.map fun p => p.pool.ip) = 0)
    (hne : s.dhcps.plist ≠ []) (hpos : ∀ p ∈ s.dhcps.plist, 0 < p.pool.ip)
    (hend : s.dhcps.dhcpsPoll.endIp ≠ 0) :
    (handleDhcp s (discover mac)).1.dhcps.plist = s.dhcps.plist ∧
      (handleDhcp s (discover mac)).1.dhcps.clientAddressPlus = nextAddress 0 ∧
      (handleDhcp s (discover mac)).1.dhcps.dhcpsPoll = s.dhcps.dhcpsPoll := by
  have hsel := @selectAddress_fresh s (discover mac).msg 0 (by rwa [discover_chaddr]) hw
    (fun h => absurd h hne) (UInt32.not_lt.mpr (UInt32.zero_le))
  obtain ⟨p, hnode, hp⟩ := hsel
  have hparse : (handleDhcp s (discover mac)).1 =
      releaseLease (selectAddress s (discover mac).msg).1 (some p) := by
    rw [handleDhcp_fst, parseMsg, if_pos (word_of_holds (discover_carries mac).holds.1)]
    dsimp only
    rw [if_pos (.inr hp.client), hnode]
  have hinsert : nodeInsertToList p s.dhcps.plist = p :: s.dhcps.plist := by
    cases hl : s.dhcps.plist with
    | nil => exact absurd hl hne
    | cons q plist =>
      have hq : p.pool.ip < q.pool.ip := hp.ip ▸ hpos q (by rw [hl]; exact List.mem_cons_self ..)
      rw [nodeInsertToList, if_pos hq]
  rw [hparse]
  refine ⟨?_, ?_, hp.poll⟩
  · show nodeRemoveFromList p.self (selectAddress s (discover mac).msg).1.dhcps.plist = _
    rw [hp.plist, hinsert, nodeRemoveFromList, if_pos rfl]
  · show (selectAddress s (discover mac).msg).1.dhcps.clientAddressPlus = _
    rw [hp.plus, if_neg (Ne.symm hend)]

/-! ## Filling a pool that ends in `.255` -/

/-- The `i`-th address of a pool, and those after it. -/
def addr (poll : DhcpsLease) : Nat → UInt32
  | 0 => poll.startIp
  | i + 1 => nextAddress (addr poll i)

/-- The pool begins with its first address. -/
theorem addr_zero (poll : DhcpsLease) : addr poll 0 = poll.startIp := rfl

/-- The addresses of the pool are consecutive. -/
theorem addr_succ (poll : DhcpsLease) (i : Nat) :
    addr poll (i + 1) = nextAddress (addr poll i) := rfl

/-- The hardware addresses of the clients that fill the pool. -/
def fillMac (k : Nat) : Mac := fun _ => .ofNat k

/-- The clients that fill the pool are distinct. -/
theorem fillMac_inj {j k : Nat} (hj : j < 256) (hk : k < 256) (h : fillMac j = fillMac k) :
    j = k := by
  have h0 := congrArg UInt8.toNat (congrFun h 0)
  simp only [fillMac, UInt8.toNat_ofNat'] at h0
  omega

/-- What the checks on a configured pool mean when it ends in `.255`. -/
structure Ends255 (poll : DhcpsLease) : Prop where
  block : host poll.startIp / 256 = host poll.endIp / 256
  size : host poll.endIp - host poll.startIp ≤ 100
  le : host poll.startIp ≤ host poll.endIp
  last : host poll.endIp % 256 = 255

section Fill

variable {poll : DhcpsLease} {k : Nat}

/-- The host number of an address of the pool -/
theorem Ends255.host_addr (h : Ends255 poll) {i : Nat}
    (hi : i ≤ host poll.endIp - host poll.startIp) : host (addr poll i) = host poll.startIp + i := by
  induction i with
  | zero => rw [addr_zero, Nat.add_zero]
  | succ i ih =>
    have hlt := host_lt poll.endIp
    have hle := h.le
    have hih := ih (by omega)
    rw [addr_succ, host_nextAddress (by omega), hih]
    rfl

/-- The last address of the pool is the configured one. -/
theorem Ends255.addr_last (h : Ends255 poll) :
    addr poll (host poll.endIp - host poll.startIp) = poll.endIp := by
  have hle := h.le
  apply host_inj.mp
  rw [h.host_addr (Nat.le_refl _)]
  omega

/-- An address without a lease is not passed. -/
theorem passWords_of_notMem {w : UInt32} {ips : List UInt32} (h : w ∉ ips) :
    passWords w ips = w := by
  induction ips with
  | nil => rfl
  | cons ip ips ih =>
    obtain ⟨hne, h⟩ := not_or.mp (fun hmem => h (List.mem_cons.mpr hmem))
    rw [passWords, if_neg (Ne.symm hne), ih h]

/-- Consecutive leases are passed one after the other. -/
theorem passWords_addr (poll : DhcpsLease) (i n : Nat) :
    passWords (addr poll i) ((List.range' i n).map (addr poll)) = addr poll (i + n) := by
  induction n generalizing i with
  | zero => rfl
  | succ n ih =>
    rw [List.range'_succ, List.map_cons, passWords, if_pos rfl, ← addr_succ, ih,
      Nat.add_right_comm]
    rfl

/-- The first `k` addresses of the pool are leased, to the first `k` clients. -/
structure Filled (poll : DhcpsLease) (k : Nat) (s : Server) : Prop where
  pool : s.dhcps.dhcpsPoll = poll
  ips : s.dhcps.plist.map (fun p => p.pool.ip) = (List.range k).map (addr poll)
  macs : ∀ p ∈ s.dhcps.plist, ∃ j < k, p.pool.mac = fillMac j
  cursor : s.dhcps.clientAddressPlus =
    if k = host poll.endIp - host poll.startIp + 1 then poll.startIp else addr poll k

/-- The next client has no lease yet. -/
theorem Filled.fresh {s : Server} (h : Filled poll k s) {j : Nat} (hj : k ≤ j)
    (hj' : j < 256) : ∀ p ∈ s.dhcps.plist, p.pool.mac ≠ fillMac j := by
  intro p hp heq
  obtain ⟨i, hi, hmac⟩ := h.macs p hp
  have := fillMac_inj (by omega) hj' (hmac.symm.trans heq)
  omega

/-- The leases are the first addresses of the pool. -/
theorem Filled.ip_eq {s : Server} (h : Filled poll k s) {q : ListNode}
    (hq : q ∈ s.dhcps.plist) : ∃ j < k, q.pool.ip = addr poll j := by
  have hmem : q.pool.ip ∈ (List.range k).map (addr poll) := by
    rw [← h.ips]
    exact List.mem_map.mpr ⟨q, hq, rfl⟩
  obtain ⟨j, hj, hqj⟩ := List.mem_map.mp hmem
  exact ⟨j, List.mem_range.mp hj, hqj.symm⟩

/-- A node with the largest raw address goes to the end of the list. -/
theorem nodeInsertToList_last {p : ListNode} {plist : List ListNode}
    (h : ∀ q ∈ plist, ¬ p.pool.ip < q.pool.ip) : nodeInsertToList p plist = plist ++ [p] := by
  induction plist with
  | nil => rfl
  | cons q plist ih =>
    rw [nodeInsertToList, if_neg (h q (List.mem_cons_self ..)),
      ih fun r hr => h r (List.mem_cons_of_mem q hr)]
    rfl

/-- The next client is offered the next address. -/
theorem Filled.step {s : Server} (hpool : Ends255 poll) (h : Filled poll k s)
    (hk : k ≤ host poll.endIp - host poll.startIp) :
    Filled poll (k + 1) (handleDhcp s (discover (fillMac k))).1 := by
  have hsize := hpool.size
  have hhost := hpool.host_addr hk
  have hblock := hpool.block
  have hlast := hpool.last
  have hle := hpool.le
  have hcursor := h.cursor
  rw [if_neg (by omega)] at hcursor
  have hpass : passWords s.dhcps.clientAddressPlus (s.dhcps.plist.map fun p => p.pool.ip) =
      addr poll k := by
    rw [hcursor]
    refine passWords_of_notMem fun hmem => ?_
    obtain ⟨q, hq, hqk⟩ := List.mem_map.mp hmem
    obtain ⟨j, hj, hqj⟩ := h.ip_eq hq
    have heq := congrArg host (hqj.symm.trans hqk)
    rw [hpool.host_addr (by omega), hhost] at heq
    omega
  have hend : ¬ s.dhcps.dhcpsPoll.endIp < addr poll k := by
    rw [h.pool, lt_iff_host_lt (by omega)]
    omega
  have hzero : addr poll k ≠ 0 := by
    intro h0
    have := host_eq_zero.mpr h0
    omega
  obtain ⟨p, hp⟩ := handleDhcp_fresh (h.fresh (Nat.le_refl k) (by omega)) hpass
    (fun hnil => by
      have hips := h.ips
      rw [hnil] at hips
      have hk0 : k = 0 := by simpa using hips.symm
      rw [hk0, h.pool, addr_zero]) hend hzero
  generalize (handleDhcp s (discover (fillMac k))).1 = s' at hp
  have hinsert : s'.dhcps.plist = s.dhcps.plist ++ [p] := by
    rw [hp.plist]
    refine nodeInsertToList_last fun q hq => ?_
    obtain ⟨j, hj, hqj⟩ := h.ip_eq hq
    have hj' := hpool.host_addr (i := j) (by omega)
    rw [hp.ip, hqj, lt_iff_host_lt (by omega)]
    omega
  refine ⟨hp.poll.trans h.pool, ?_, fun q hq => ?_, ?_⟩
  · rw [hinsert, List.map_append, h.ips, List.range_succ, List.map_append, List.map_singleton,
      hp.ip, List.map_singleton]
  · rw [hinsert] at hq
    rcases List.mem_append.mp hq with hq | hq
    · obtain ⟨j, hj, hmac⟩ := h.macs q hq
      exact ⟨j, by omega, hmac⟩
    · rw [List.mem_singleton.mp hq]
      exact ⟨k, by omega, hp.mac⟩
  · rw [hp.plus, h.pool]
    by_cases hkl : k = host poll.endIp - host poll.startIp
    · rw [hkl, hpool.addr_last, if_pos rfl, if_pos rfl]
    · have hne : ¬ addr poll k = poll.endIp := by
        intro heq
        have := congrArg host heq
        omega
      rw [if_neg hne, if_neg (by omega), addr_succ]

/-- In a full pool the cursor, back at the start, passes all addresses. -/
theorem Filled.passWords_full {s : Server}
    (h : Filled poll (host poll.endIp - host poll.startIp + 1) s) :
    passWords s.dhcps.clientAddressPlus (s.dhcps.plist.map fun p => p.pool.ip) =
      addr poll (host poll.endIp - host poll.startIp + 1) := by
  have hp := passWords_addr poll 0 (host poll.endIp - host poll.startIp + 1)
  rw [Nat.zero_add, addr_zero, ← List.range_eq_range'] at hp
  rw [h.cursor, if_pos rfl, h.ips, hp]

/-- After a client there is a lease. -/
theorem Filled.ne_nil {s : Server} (h : Filled poll (k + 1) s) : s.dhcps.plist ≠ [] := by
  intro hnil
  have hips := h.ips
  rw [hnil, List.range_succ, List.map_append] at hips
  exact absurd hips.symm (List.append_ne_nil_of_right_ne_nil _ (by simp))

/-- The lease of a client is in the list. -/
theorem Leased.mem {s s' : Server} {mac : Mac} {w : UInt32} {p : ListNode}
    (h : Leased s s' mac w p) : p ∈ s'.dhcps.plist := by
  rw [h.plist, (nodeInsertToList_perm p _).mem_iff]
  exact List.mem_cons_self ..

/-- The address after a full pool is in the next block and raw smaller than the
last one: one more client is given it. -/
theorem Filled.leaves_next {s : Server} (hpool : Ends255 poll)
    (h : Filled poll (host poll.endIp - host poll.startIp + 1) s)
    (hover : host poll.endIp + 1 < 2 ^ 32) :
    ∃ inputs, ∃ p ∈ (after s inputs).dhcps.plist, ¬ InPool poll p.pool.ip := by
  have hsize := hpool.size
  have hlast := hpool.last
  have hfull := h.passWords_full
  have hhost := host_nextAddress hover
  rw [addr_succ, hpool.addr_last] at hfull
  obtain ⟨p, hp⟩ := handleDhcp_fresh (h.fresh (Nat.le_refl _) (by omega)) hfull
    (fun hnil => absurd hnil h.ne_nil)
    (by
      rw [h.pool]
      exact UInt32.lt_asymm (lt_of_last_lt (by omega)))
    (fun h0 => by
      have := host_eq_zero.mpr h0
      omega)
  refine ⟨[.datagram (discover (fillMac (host poll.endIp - host poll.startIp + 1)))], p, ?_, ?_⟩
  · rw [after_datagram]
    exact hp.mem
  · rw [hp.ip, InPool, hhost]
    omega

/-- After 255.255.255.255 comes 0.0.0.0, which is refused; but the cursor then
stands at 0.0.0.1, which the second client is given. -/
theorem Filled.leaves_wrap {s : Server} (hpool : Ends255 poll)
    (h : Filled poll (host poll.endIp - host poll.startIp + 1) s)
    (hover : host poll.endIp + 1 = 2 ^ 32) :
    ∃ inputs, ∃ p ∈ (after s inputs).dhcps.plist, ¬ InPool poll p.pool.ip := by
  have hsize := hpool.size
  have hlast := hpool.last
  have hle := hpool.le
  have hfull := h.passWords_full
  rw [addr_succ, hpool.addr_last, host_eq_zero.mp (host_nextAddress_wrap hover)] at hfull
  have hone : host (nextAddress 0) = 1 := by decide
  have hpos : ∀ q ∈ s.dhcps.plist, 1 < host q.pool.ip := by
    intro q hq
    obtain ⟨j, hj, hqj⟩ := h.ip_eq hq
    rw [hqj, hpool.host_addr (by omega)]
    omega
  obtain ⟨hl, hplus, hpoll⟩ := handleDhcp_zero (h.fresh (Nat.le_refl _) (by omega)) hfull h.ne_nil
    (fun q hq => by
      have hne : q.pool.ip ≠ 0 := by
        intro h0
        have := hpos q hq
        rw [host_eq_zero.mpr h0] at this
        omega
      exact UInt32.pos_iff_ne_zero.mpr hne)
    (fun h0 => by
      rw [h.pool] at h0
      have := host_eq_zero.mpr h0
      omega)
  generalize hs' : (handleDhcp s (discover (fillMac
    (host poll.endIp - host poll.startIp + 1)))).1 = s' at hl hplus hpoll
  have hmacs : ∀ p ∈ s'.dhcps.plist,
      p.pool.mac ≠ fillMac (host poll.endIp - host poll.startIp + 2) := by
    rw [hl]
    exact h.fresh (Nat.le_succ _) (by omega)
  have hpass : passWords s'.dhcps.clientAddressPlus (s'.dhcps.plist.map fun p => p.pool.ip) =
      nextAddress 0 := by
    rw [hl, hplus]
    refine passWords_of_notMem fun hmem => ?_
    obtain ⟨q, hq, heq⟩ := List.mem_map.mp hmem
    have := hpos q hq
    rw [heq, hone] at this
    exact Nat.lt_irrefl 1 this
  obtain ⟨p, hp⟩ := handleDhcp_fresh hmacs hpass
    (fun hnil => absurd (hl.symm.trans hnil) h.ne_nil)
    (by
      rw [hpoll, h.pool]
      exact UInt32.lt_asymm (lt_of_last_lt (by rw [hone]; omega)))
    (by decide)
  refine ⟨[.datagram (discover (fillMac (host poll.endIp - host poll.startIp + 1)))] ++
    [.datagram (discover (fillMac (host poll.endIp - host poll.startIp + 2)))], p, ?_, ?_⟩
  · rw [after_append, after_datagram, after_datagram, hs']
    exact hp.mem
  · rw [hp.ip, InPool, hone]
    omega

end Fill

/-! ## The exact condition -/

/-- One DHCPDISCOVER from each of the first `k` clients. -/
def discovers (k : Nat) : List Input :=
  (List.range k).map fun j => .datagram (discover (fillMac j))

/-- One client more -/
theorem discovers_succ (k : Nat) :
    discovers (k + 1) = discovers k ++ [.datagram (discover (fillMac k))] := by
  rw [discovers, List.range_succ, List.map_append, List.map_singleton, ← discovers]

/-- As many clients as there are addresses fill the pool, by induction on their number. -/
theorem filled_discovers (x : Start) (hx : x.Configured) (hpool : Ends255 x.before.dhcps.dhcpsPoll)
    {k : Nat} (hk : k ≤ host x.before.dhcps.dhcpsPoll.endIp -
      host x.before.dhcps.dhcpsPoll.startIp + 1) :
    Filled x.before.dhcps.dhcpsPoll k (after x.server (discovers k)) := by
  induction k with
  | zero =>
    have hl : x.server.dhcps.plist = [] := by
      rw [x.server_eq]
      exact x.plist
    have hc : x.server.dhcps.clientAddressPlus = x.server.dhcps.dhcpsPoll.startIp := by
      rw [x.server_eq]
    show Filled _ 0 x.server
    refine ⟨hx.poll, by rw [hl]; rfl, by rw [hl]; nofun, ?_⟩
    rw [hc, hx.poll, if_neg (by omega), addr_zero]
  | succ k ih =>
    have hstep := (ih (by omega)).step hpool (by omega)
    rwa [discovers_succ, after_append, after_datagram]

/-- An accepted configured pool is respected in every run exactly when it does
not end in `.255`. -/
theorem addressesInPool_iff (x : Start) (hx : x.Configured) :
    (∀ inputs, AddressesInPool x inputs) ↔ host x.before.dhcps.dhcpsPoll.endIp % 256 ≠ 255 := by
  constructor
  · intro h hlast
    obtain ⟨-, -, hs, he, hle, hsize⟩ := pollAccepted_iff.mp hx
    have hpool : Ends255 x.before.dhcps.dhcpsPoll := ⟨hs.trans he.symm, hsize, hle, hlast⟩
    obtain ⟨is, hfilled⟩ : ∃ is, Filled x.before.dhcps.dhcpsPoll
        (host x.before.dhcps.dhcpsPoll.endIp - host x.before.dhcps.dhcpsPoll.startIp + 1)
        (after x.server is) := ⟨_, filled_discovers x hx hpool (Nat.le_refl _)⟩
    have hleaves : ∃ inputs, ∃ p ∈ (after (after x.server is) inputs).dhcps.plist,
        ¬ InPool x.before.dhcps.dhcpsPoll p.pool.ip := by
      by_cases hover : host x.before.dhcps.dhcpsPoll.endIp + 1 < 2 ^ 32
      · exact hfilled.leaves_next hpool hover
      · have hlt := host_lt x.before.dhcps.dhcpsPoll.endIp
        exact hfilled.leaves_wrap hpool (by omega)
    obtain ⟨inputs, p, hp, hout⟩ := hleaves
    rw [← after_append] at hp
    exact hout ((h _).leased p hp)
  · exact addressesInPool_of_ne x hx

/-- A server at 192.168.4.1 with a configured pool of its block. -/
def configuredStart (first last : Nat) (h : (dhcpsStart ⟨{ dhcpsNew with
    dhcpsPoll := ⟨true, ip4 192 168 4 first, ip4 192 168 4 last⟩ }, Heap.empty⟩ (some 0)
      (ip4 192 168 4 1) (some 0)).2.1 = true) : Start where
  before := ⟨{ dhcpsNew with
    dhcpsPoll := ⟨true, ip4 192 168 4 first, ip4 192 168 4 last⟩ }, Heap.empty⟩
  netif := 0
  ip := ip4 192 168 4 1
  pcb := 0
  plist := rfl
  heap := owned_empty
  ok := h

def pool100 : Start := configuredStart 2 100 (by decide +kernel)

def pool255 : Start := configuredStart 254 255 (by decide +kernel)

/-- The pool of `pool100` is configured, and never left. -/
theorem addressesInPool_iff_pool100 :
    pool100.Configured ∧ ∀ inputs, AddressesInPool pool100 inputs :=
  have hconfigured : pool100.Configured := by decide +kernel
  ⟨hconfigured, (addressesInPool_iff pool100 hconfigured).mpr (by decide +kernel)⟩

/-- The pool 192.168.4.254 to 192.168.4.255: the third client is offered
192.168.5.0. -/
theorem pool255_offers_next_block :
    pool255.Configured ∧
      (∃ sent, some sent ∈ replies pool255.server (discovers 3) ∧ sent.type = dhcpOffer ∧
        sent.msg.yiaddr = ip4 192 168 5 0) ∧
      ¬ AddressesInPool pool255 (discovers 3) := by
  have hreplies : (replies pool255.server (discovers 3)).map
      (fun o => o.map fun sent => (sent.type, sent.msg.yiaddr)) =
        [some (dhcpOffer, ip4 192 168 4 254), some (dhcpOffer, ip4 192 168 4 255),
          some (dhcpOffer, ip4 192 168 5 0)] := by decide +kernel
  have hmem : some (dhcpOffer, ip4 192 168 5 0) ∈ (replies pool255.server (discovers 3)).map
      (fun o => o.map fun sent => (sent.type, sent.msg.yiaddr)) := by
    rw [hreplies]
    decide
  obtain ⟨o, ho, hsent⟩ := List.mem_map.mp hmem
  obtain ⟨sent, rfl, heq⟩ := Option.map_eq_some_iff.mp hsent
  obtain ⟨htype, hyi⟩ := Prod.mk.inj heq
  refine ⟨by decide +kernel, ⟨sent, ho, htype, hyi⟩, fun h => ?_⟩
  have hin := h.replied sent ho (.inl htype)
  rw [hyi] at hin
  exact absurd hin (by decide +kernel)

end PicoHost.Dhcps
