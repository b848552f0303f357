import PicoHost.Dhcps.Ownership

/-!
# The invariant of the lease list

`Inv` is the joint invariant of the list, the cursor and the heap: addresses
ascend and lie in the pool, no two leases share a hardware address, the cursor
lies in the pool, and the list owns its heap blocks. It is preserved by every
received datagram (`parseMsg_inv`) and every tick (`dhcpsTmr_inv`), whatever the
pool is, as long as the pool is `PoolOk`.

`parseMsg_cases` says in the same terms what one datagram does to the list: the
leases of other clients are untouched, and the sender has exactly the lease of
the reply, or none.
-/

namespace PicoHost.Dhcps

open ByteOrder Ascending

/-- Addresses ascend and lie in the pool; hardware addresses are distinct. -/
structure Leases (poll : DhcpsLease) (plist : List ListNode) : Prop where
  sorted : (hosts plist).Pairwise (· < ·)
  bounds : ∀ p ∈ plist, host poll.startIp ≤ host p.pool.ip ∧ host p.pool.ip ≤ host poll.endIp
  distinct : (macs plist).Nodup

/-- The part of the invariant that does not speak of the cursor. It also holds
inside `parse_msg`, where the cursor may be one past the pool. -/
structure Listed (s : Server) : Prop where
  pool : PoolOk s.dhcps.dhcpsPoll
  leases : Leases s.dhcps.dhcpsPoll s.dhcps.plist
  owned : Owned s.heap s.dhcps.plist

/-- The invariant of a running server. -/
structure Inv (s : Server) : Prop extends Listed s where
  cursor : host s.dhcps.dhcpsPoll.startIp ≤ host s.dhcps.clientAddressPlus ∧
    host s.dhcps.clientAddressPlus ≤ host s.dhcps.dhcpsPoll.endIp

/-! ## Leases of the other clients -/

/-- The leases of other clients, list by list -/
theorem othersOf_append (mac : Mac) (l l' : List ListNode) :
    othersOf mac (l ++ l') = othersOf mac l ++ othersOf mac l' := List.filter_append ..

/-- Without a lease of the client, all leases are others'. -/
theorem othersOf_eq_self {mac : Mac} {l : List ListNode} (h : ∀ p ∈ l, p.pool.mac ≠ mac) :
    othersOf mac l = l :=
  List.filter_eq_self.mpr fun p hp => decide_eq_true (h p hp)

/-- The client's own lease is not among them. -/
theorem othersOf_cons_self {mac : Mac} {p : ListNode} (h : p.pool.mac = mac)
    (l : List ListNode) : othersOf mac (p :: l) = othersOf mac l :=
  List.filter_cons_of_neg (by simp [h])

/-- A lease is another client's if its MAC differs. -/
theorem mem_othersOf {mac : Mac} {l : List ListNode} {p : ListNode} :
    p ∈ othersOf mac l ↔ p ∈ l ∧ p.pool.mac ≠ mac := by
  rw [othersOf, List.mem_filter, decide_eq_true_iff]

/-- Around a client's node there are only nodes of other clients. -/
theorem mac_ne_of_split {mac : Mac} {pre post : List ListNode} {p : ListNode}
    (hp : p.pool.mac = mac) (hnd : (macs (pre ++ p :: post)).Nodup) :
    ∀ q ∈ pre ++ post, q.pool.mac ≠ mac := by
  intro q hq heq
  rw [macs_append, macs_cons] at hnd
  have hperm := (@List.perm_middle _ _ (macs pre) _).nodup_iff.mp hnd
  have hmem : p.pool.mac ∈ macs pre ++ macs post := by
    rw [hp, ← heq, ← macs_append]
    exact mem_macs hq
  exact (List.nodup_cons.mp hperm).1 hmem

section Split

variable {mac : Mac} {pre post : List ListNode} {p : ListNode}

/-- Leaving out the only node of a client leaves the others. -/
theorem othersOf_split (hp : p.pool.mac = mac) (hnd : (macs (pre ++ p :: post)).Nodup) :
    othersOf mac (pre ++ p :: post) = pre ++ post := by
  rw [othersOf_append, othersOf_cons_self hp, ← othersOf_append,
    othersOf_eq_self (mac_ne_of_split hp hnd)]

/-- Where the MACs are distinct, a client has one lease. -/
theorem leasesOf_split (hp : p.pool.mac = mac) (hnd : (macs (pre ++ p :: post)).Nodup) :
    leasesOf mac (pre ++ p :: post) = [p] := by
  have hne := mac_ne_of_split hp hnd
  have hnil : ∀ l : List ListNode, (∀ q ∈ l, q ∈ pre ++ post) → leasesOf mac l = [] :=
    fun l hl => List.filter_eq_nil_iff.mpr fun q hq => by simpa using hne q (hl q hq)
  have happ : leasesOf mac (pre ++ p :: post) =
      leasesOf mac pre ++ leasesOf mac (p :: post) := List.filter_append ..
  have hcons : leasesOf mac (p :: post) = p :: leasesOf mac post :=
    List.filter_cons_of_pos (by simp [hp])
  rw [happ, hcons, hnil pre fun q hq => List.mem_append_left _ hq,
    hnil post fun q hq => List.mem_append_right _ hq]
  rfl

end Split

/-! ## Lists that keep the invariant -/

/-- Fewer leases are still in order. -/
theorem Leases.sublist {poll : DhcpsLease} {l l' : List ListNode} (h : Leases poll l)
    (hs : l'.Sublist l) : Leases poll l' :=
  ⟨h.sorted.sublist (hs.map _), fun p hp => h.bounds p (hs.subset hp),
    h.distinct.sublist (hs.map _)⟩

/-- Timers play no role. -/
theorem Leases.restart_map {poll : DhcpsLease} {l : List ListNode} (h : Leases poll l)
    (f : ListNode → UInt32) : Leases poll (l.map fun p => p.restart (f p)) := by
  refine ⟨?_, fun p hp => ?_, ?_⟩
  · rw [hosts, List.map_map]
    exact h.sorted
  · obtain ⟨q, hq, rfl⟩ := List.mem_map.mp hp
    exact h.bounds q hq
  · rw [macs, List.map_map]
    exact h.distinct

/-- A timer does not matter to the order. -/
theorem Leases.restart {poll : DhcpsLease} {pre post : List ListNode} {p : ListNode}
    (h : Leases poll (pre ++ p :: post)) (t : UInt32) :
    Leases poll (pre ++ p.restart t :: post) := by
  refine ⟨?_, fun q hq => ?_, ?_⟩
  · have := h.sorted
    rwa [hosts_append, hosts_cons] at this ⊢
  · rcases List.mem_append.mp hq with hq | hq
    · exact h.bounds q (List.mem_append_left _ hq)
    · rcases List.mem_cons.mp hq with rfl | hq
      · exact h.bounds p (List.mem_append_right _ (List.mem_cons_self ..))
      · exact h.bounds q (List.mem_append_right _ (List.mem_cons_of_mem _ hq))
  · have := h.distinct
    rwa [macs_append, macs_cons] at this ⊢

/-- A new lease of a free address for a new client. -/
theorem Leases.insert {poll : DhcpsLease} (ok : PoolOk poll) {l : List ListNode}
    (h : Leases poll l) {p : ListNode}
    (hip : host poll.startIp ≤ host p.pool.ip ∧ host p.pool.ip ≤ host poll.endIp)
    (hfree : host p.pool.ip ∉ hosts l) (hmac : ∀ q ∈ l, q.pool.mac ≠ p.pool.mac) :
    Leases poll (nodeInsertToList p l) := by
  have hperm := nodeInsertToList_perm p l
  refine ⟨nodeInsertToList_sorted ok h.sorted hip.1 hip.2 h.bounds hfree, fun q hq => ?_, ?_⟩
  · rcases List.mem_cons.mp (hperm.mem_iff.mp hq) with rfl | hq
    · exact hip
    · exact h.bounds q hq
  · have hm : (macs (nodeInsertToList p l)).Perm (macs (p :: l)) := hperm.map _
    rw [hm.nodup_iff, macs_cons]
    refine List.nodup_cons.mpr ⟨fun hin => ?_, h.distinct⟩
    obtain ⟨q, hq, heq⟩ := List.mem_map.mp hin
    exact hmac q hq heq

/-! ## `parse_msg` -/

/-- A node that the list holds for the client of `m`, with its surroundings. -/
structure HasLease (s s' : Server) (m : Msg) (pnode : ListNode) (pre post : List ListNode) :
    Prop where
  plist : s'.dhcps.plist = pre ++ pnode :: post
  mac : pnode.pool.mac = m.chaddr
  ip : pnode.pool.ip = s'.dhcps.clientAddress
  timer : pnode.pool.leaseTimer = s.dhcps.leaseTimer
  others : othersOf m.chaddr s.dhcps.plist = pre ++ post

/-- No lease for the client of `m`, and none could be made. -/
structure Exhausted (s s' : Server) (m : Msg) : Prop where
  full : s'.dhcps.dhcpsPoll.endIp < s'.dhcps.clientAddress
  plist : s'.dhcps.plist = s.dhcps.plist
  others : othersOf m.chaddr s.dhcps.plist = s.dhcps.plist

/-! ### Whatever the pool is -/

/-- What holds in every run, for any pool: the list owns its blocks, and no client has two
leases. -/
structure Distinct (s : Server) : Prop where
  owned : Owned s.heap s.dhcps.plist
  macs : (macs s.dhcps.plist).Nodup

/-- The invariant keeps the MACs apart. -/
theorem Inv.distinct {s : Server} (inv : Inv s) : Distinct s := ⟨inv.owned, inv.leases.distinct⟩

/-- Up to the label `POOL_CHECK` the client gets a node, unless the pool is exhausted. -/
theorem selectAddress_lease {s : Server} (h : Distinct s) (m : Msg) :
    (macs (selectAddress s m).1.dhcps.plist).Nodup ∧
      ((∃ pnode pre post, (selectAddress s m).2 = some pnode ∧
          HasLease s (selectAddress s m).1 m pnode pre post) ∨
        ((selectAddress s m).2 = none ∧ Exhausted s (selectAddress s m).1 m)) := by
  have hnd := h.macs
  have hspec := searchPool_client m s.dhcps.leaseTimer s.dhcps.startSearch s.dhcps.plist
  unfold selectAddress
  generalize searchPool m s.dhcps.leaseTimer s.dhcps.startSearch s.dhcps.plist = found at *
  obtain ⟨r, plist, pnode⟩ := found
  rcases hspec with ⟨pre, p, post, hl, hmac, hres, hclient⟩ | ⟨hall, hres⟩
  · obtain ⟨rfl, rfl⟩ := Prod.mk.inj hres
    rw [hl] at hnd
    refine ⟨?_, .inl ⟨_, pre, post, rfl, rfl, hmac, hclient.symm, rfl, ?_⟩⟩
    · show (macs (pre ++ p.restart _ :: post)).Nodup
      rw [macs_append, macs_cons] at hnd ⊢
      exact hnd
    · rw [hl]
      exact othersOf_split hmac hnd
  · obtain ⟨rfl, rfl⟩ := Prod.mk.inj hres
    dsimp only
    generalize (s.dhcps.searched r s.dhcps.plist).newClient r.firstAddress = client
    split
    case isTrue hend => exact ⟨hnd, .inr ⟨rfl, hend, rfl, othersOf_eq_self hall⟩⟩
    case isFalse =>
      -- the new node is for a client that the list does not know
      obtain ⟨pre, post, hl, hi⟩ := nodeInsertToList_split
        ⟨(memCalloc (memCalloc s.heap).2).1, (memCalloc s.heap).1,
          ⟨client, m.chaddr, s.dhcps.leaseTimer⟩⟩ s.dhcps.plist
      refine ⟨?_, .inl ⟨_, pre, post, rfl, hi, rfl, rfl, rfl, ?_⟩⟩
      · refine (((nodeInsertToList_perm _ _).map _).nodup_iff).mpr
          (List.nodup_cons.mpr ⟨fun hin => ?_, hnd⟩)
        obtain ⟨q, hq, heq⟩ := List.mem_map.mp hin
        exact hall q hq heq
      · rw [hl]
        exact othersOf_eq_self fun p hp => hall p (hl ▸ hp)

/-- What `parse_msg` does to the list with a message that has the cookie. -/
theorem parseMsg_lease {s : Server} (h : Distinct s) (m : Msg) (len : UInt16)
    (hm : m.word Msg.options = magicCookie) :
    (macs (parseMsg s m len).1.dhcps.plist).Nodup ∧
      ((∃ pnode pre post, HasLease s (parseMsg s m len).1 m pnode pre post ∧
          (parseMsg s m len).1.dhcps.clientAddress ≠ 0 ∧
          (parseMsg s m len).2 ≠ .nak ∧ (parseMsg s m len).2 ≠ .release) ∨
        ((parseMsg s m len).1.dhcps.plist = othersOf m.chaddr s.dhcps.plist ∧
          ((parseMsg s m len).2 = .nak ∨ (parseMsg s m len).2 = .release))) := by
  obtain ⟨howned, -⟩ := selectAddress_owned h.owned m
  obtain ⟨hnd, hcase⟩ := selectAddress_lease h m
  have hothers : (macs (othersOf m.chaddr s.dhcps.plist)).Nodup :=
    h.macs.sublist ((List.filter_sublist).map _)
  unfold parseMsg
  rw [if_pos hm]
  dsimp only
  generalize selectAddress s m = r at *
  generalize parseOptions r.1.dhcps m len.toInt16.toInt = ret
  rcases hcase with ⟨pnode, pre, post, hnode, hhas⟩ | ⟨hnode, hfull⟩
  · have hrl : (releaseLease r.1 (some pnode)).dhcps.plist = othersOf m.chaddr s.dhcps.plist :=
      (releaseLease_owned howned hhas.plist).2.trans hhas.others.symm
    have hnd' : (macs (releaseLease r.1 (some pnode)).dhcps.plist).Nodup := hrl ▸ hothers
    rw [hnode]
    split
    · exact ⟨hnd', .inr ⟨hrl, .inl rfl⟩⟩
    case isFalse hcheck =>
      split
      case isTrue hret => exact ⟨hnd', .inr ⟨hrl, hret.symm⟩⟩
      case isFalse hret =>
        obtain ⟨hrelease, hnak⟩ := not_or.mp hret
        exact ⟨hnd, .inl ⟨pnode, pre, post, hhas, (not_or.mp hcheck).2, hnak, hrelease⟩⟩
  · rw [hnode, if_pos (.inl hfull.full)]
    exact ⟨hnd, .inr ⟨hfull.plist.trans hfull.others.symm, .inl rfl⟩⟩

/-! ### With a pool -/

/-- The lease of a free address of the pool. -/
theorem insertLease_inv {s : Server} {m : Msg} {client : UInt32} (inv : Listed s)
    (hmac : ∀ p ∈ s.dhcps.plist, p.pool.mac ≠ m.chaddr)
    (hlo : host s.dhcps.dhcpsPoll.startIp ≤ host client)
    (hhi : host client ≤ host s.dhcps.dhcpsPoll.endIp)
    (hfree : host client ∉ hosts s.dhcps.plist) : Inv (insertLease s m client).1 := by
  refine ⟨⟨inv.pool, ?_, ?_⟩, ?_⟩
  · exact inv.leases.insert inv.pool ⟨hlo, hhi⟩ hfree hmac
  · exact (inv.owned.calloc _).perm ((nodeInsertToList_perm _ _).flatMap_right _)
  · -- the cursor moves behind the new lease, or back to the start at the end
    show host s.dhcps.dhcpsPoll.startIp ≤ host (if client = s.dhcps.dhcpsPoll.endIp then
        s.dhcps.dhcpsPoll.startIp else nextAddress client) ∧
      host (if client = s.dhcps.dhcpsPoll.endIp then s.dhcps.dhcpsPoll.startIp
        else nextAddress client) ≤ host s.dhcps.dhcpsPoll.endIp
    split
    case isTrue => exact ⟨Nat.le_refl _, inv.pool.le⟩
    case isFalse hne =>
      have hne' : host client ≠ host s.dhcps.dhcpsPoll.endIp := fun h => hne (host_inj.mp h)
      rw [inv.pool.host_next hhi]
      omega

/-- Every lease lies in the pool. -/
theorem Leases.hosts_le {poll : DhcpsLease} {l : List ListNode} (h : Leases poll l) :
    ∀ a ∈ hosts l, host poll.startIp ≤ a ∧ a ≤ host poll.endIp := by
  intro a ha
  obtain ⟨p, hp, rfl⟩ := List.mem_map.mp ha
  exact h.bounds p hp

/-- The address for a new client is free, and at most one past the pool. -/
theorem newClient_spec {d : DhcpsT} {a : Nat} {first : UInt32} (ok : PoolOk d.dhcpsPoll)
    (hl : Leases d.dhcpsPoll d.plist) (ha : host d.dhcpsPoll.startIp ≤ a)
    (ha' : a ≤ host d.dhcpsPoll.endIp) (hceq : d.clientAddress = d.clientAddressPlus)
    (hplus : host d.clientAddressPlus = firstFree a (hosts d.plist))
    (hfirst : host first = firstFree (host d.dhcpsPoll.startIp) (hosts d.plist)) :
    host d.dhcpsPoll.startIp ≤ host (d.newClient first) ∧
      host (d.newClient first) ≤ host d.dhcpsPoll.endIp + 1 ∧
      host (d.newClient first) ∉ hosts d.plist := by
  have hle := ok.le
  have hlt : ∀ x ∈ hosts d.plist, x < host d.dhcpsPoll.endIp + 1 :=
    fun x hx => Nat.lt_succ_of_le (hl.hosts_le x hx).2
  unfold DhcpsT.newClient
  dsimp only
  split
  · -- the cursor has left the pool: first fit
    rw [hfirst]
    exact ⟨le_firstFree _ _, firstFree_le (by omega) hlt, firstFree_notMem hl.sorted⟩
  · split
    case isTrue hnil =>
      rw [List.isEmpty_iff.mp hnil]
      exact ⟨Nat.le_refl _, Nat.le_succ_of_le hle, List.not_mem_nil⟩
    case isFalse =>
      rw [hceq, hplus]
      exact ⟨Nat.le_trans ha (le_firstFree _ _), firstFree_le (by omega) hlt,
        firstFree_notMem hl.sorted⟩

/-- Up to the label `POOL_CHECK` the client gets a node, unless the pool is
exhausted. -/
theorem selectAddress_spec {s : Server} (inv : Inv s) (m : Msg) :
    Inv (selectAddress s m).1 ∧
      ((∃ pnode pre post, (selectAddress s m).2 = some pnode ∧
          HasLease s (selectAddress s m).1 m pnode pre post) ∨
        ((selectAddress s m).2 = none ∧ Exhausted s (selectAddress s m).1 m)) := by
  refine ⟨?_, (selectAddress_lease inv.distinct m).2⟩
  obtain ⟨hclo, hchi⟩ := inv.cursor
  have hbounds := inv.leases.hosts_le
  have hspec := searchPool_cases inv.pool m s.dhcps.leaseTimer inv.leases.sorted
    (fun p hp => (inv.leases.bounds p hp).2) (Nat.le_refl _)
    (s := s.dhcps.startSearch) ⟨rfl, rfl⟩ ⟨rfl, fun a ha => (hbounds a ha).1, nofun⟩
  unfold selectAddress
  generalize searchPool m s.dhcps.leaseTimer s.dhcps.startSearch s.dhcps.plist = found at *
  obtain ⟨r, plist, pnode⟩ := found
  rcases hspec with ⟨pre, p, post, hl, -, -, hres, -, hplus⟩ | ⟨hall, hres, hcur, hfirst⟩
  · -- the client has a lease already: its timer is restarted
    obtain ⟨rfl, rfl⟩ := Prod.mk.inj hres
    have hleases := inv.leases
    have howned := inv.owned
    rw [hl] at hleases howned
    have hsorted := hleases.sorted
    rw [hosts_append, hosts_cons] at hsorted
    dsimp only at hplus ⊢
    refine ⟨⟨inv.pool, hleases.restart _, howned.perm ?_⟩, ?_⟩
    · show (List.flatMap ListNode.blocks (pre ++ p.restart _ :: post)).Perm _
      rw [List.flatMap_append, List.flatMap_append]
      exact List.Perm.refl _
    · -- all addresses passed are below the client's, which is in the pool
      show host _ ≤ host r.clientAddressPlus ∧ host r.clientAddressPlus ≤ host _
      rw [hplus]
      refine ⟨Nat.le_trans hclo (le_firstFree _ _), firstFree_le hchi fun a ha => ?_⟩
      have hp := (inv.leases.bounds p (by simp [hl])).2
      have hlt := (List.pairwise_append.mp hsorted).2.2 a ha _ (List.mem_cons_self ..)
      exact Nat.lt_of_lt_of_le hlt hp
  · -- the client is new
    obtain ⟨rfl, rfl⟩ := Prod.mk.inj hres
    dsimp only at hfirst ⊢
    have hnew := newClient_spec (d := s.dhcps.searched r s.dhcps.plist) inv.pool inv.leases
      hclo hchi hcur.client hcur.plus hfirst
    generalize (s.dhcps.searched r s.dhcps.plist).newClient r.firstAddress = client at *
    obtain ⟨hlo, hhi, hfree⟩ := hnew
    have hlt := inv.pool.end_lt_iff hlo hhi
    split
    case isTrue hend =>
      exact ⟨⟨inv.pool, inv.leases, inv.owned⟩, Nat.le_refl _, inv.pool.le⟩
    case isFalse hend =>
      have hhi' : host client ≤ host s.dhcps.dhcpsPoll.endIp :=
        Nat.le_of_not_lt fun h => hend (hlt.mpr h)
      exact insertLease_inv ⟨inv.pool, inv.leases, inv.owned⟩ hall hlo hhi' hfree

/-! ## Removal -/

/-- Removing the client's node keeps the invariant. -/
theorem releaseLease_spec {s s' : Server} {m : Msg} {pnode : ListNode}
    {pre post : List ListNode} (inv : Inv s') (h : HasLease s s' m pnode pre post) :
    Inv (releaseLease s' (some pnode)) ∧
      (releaseLease s' (some pnode)).dhcps.plist = pre ++ post := by
  obtain ⟨howned, hnew⟩ := releaseLease_owned inv.owned h.plist
  have hleases := inv.leases
  rw [h.plist] at hleases
  refine ⟨⟨⟨inv.pool, ?_, howned⟩, inv.cursor⟩, hnew⟩
  rw [hnew]
  exact hleases.sublist ((List.sublist_cons_self pnode post).append_left pre)

/-! ## One datagram -/

/-- What `parse_msg` does with a message that has the cookie. -/
theorem parseMsg_cases {s : Server} (inv : Inv s) (m : Msg) (len : UInt16)
    (hm : m.word Msg.options = magicCookie) :
    Inv (parseMsg s m len).1 ∧
      ((∃ pnode pre post, HasLease s (parseMsg s m len).1 m pnode pre post ∧
          (parseMsg s m len).1.dhcps.clientAddress ≠ 0 ∧
          (parseMsg s m len).2 ≠ .nak ∧ (parseMsg s m len).2 ≠ .release) ∨
        ((parseMsg s m len).1.dhcps.plist = othersOf m.chaddr s.dhcps.plist ∧
          ((parseMsg s m len).2 = .nak ∨ (parseMsg s m len).2 = .release))) := by
  refine ⟨?_, (parseMsg_lease inv.distinct m len hm).2⟩
  obtain ⟨hinv, hcase⟩ := selectAddress_spec inv m
  unfold parseMsg
  rw [if_pos hm]
  dsimp only
  generalize selectAddress s m = r at *
  generalize parseOptions r.1.dhcps m len.toInt16.toInt = ret
  have hrel : Inv (releaseLease r.1 r.2) := by
    rcases hcase with ⟨pnode, pre, post, hnode, hhas⟩ | ⟨hnode, -⟩
    · rw [hnode]
      exact (releaseLease_spec hinv hhas).1
    · rw [hnode]
      exact hinv
  split
  · exact hrel
  · split
    · exact ⟨⟨hrel.pool, hrel.leases, hrel.owned⟩, hrel.cursor⟩
    · exact hinv

/-- A message without the cookie is ignored. -/
theorem parseMsg_of_ne {m : Msg} (s : Server) (len : UInt16)
    (hm : m.word Msg.options ≠ magicCookie) : parseMsg s m len = (s, .none) := by
  rw [parseMsg, if_neg hm]

/-- A message keeps the invariant. -/
theorem parseMsg_inv {s : Server} (inv : Inv s) (m : Msg) (len : UInt16) :
    Inv (parseMsg s m len).1 := by
  by_cases hm : m.word Msg.options = magicCookie
  · exact (parseMsg_cases inv m len hm).1
  · rw [parseMsg_of_ne s len hm]
    exact inv

/-- A datagram changes the server as its message does. -/
theorem handleDhcp_fst (s : Server) (g : Datagram) :
    (handleDhcp s g).1 = (parseMsg s g.msg g.len).1 := rfl

/-! ## One tick -/

/-- The timer does not move the tentative address. -/
theorem dhcpsTmr_plus (s : Server) :
    (dhcpsTmr s).1.dhcps.clientAddressPlus = s.dhcps.clientAddressPlus := by
  unfold dhcpsTmr
  dsimp only
  split
  · rfl
  · split
    · rfl
    · split <;> rfl

/-- Expiry and eviction only take leases away. -/
theorem dhcpsTmr_leases {s : Server} (inv : Inv s) :
    Leases s.dhcps.dhcpsPoll (dhcpsTmr s).1.dhcps.plist := by
  obtain ⟨kept, hsub, hkept, -⟩ := expireLeases_spec s.dhcps.plist
  have hexpired : Leases s.dhcps.dhcpsPoll (expireLeases s.dhcps.plist).1 := by
    rw [hkept]
    exact (inv.leases.sublist hsub).restart_map _
  have hkill := (killOldestDhcpsPool_spec (expireLeases_owned inv.owned)).1
  unfold dhcpsTmr
  dsimp only
  split
  · exact inv.leases
  · split
    · exact inv.leases
    · split
      · exact hexpired.sublist hkill
      · exact hexpired

/-- The timer keeps the invariant. -/
theorem dhcpsTmr_inv {s : Server} (inv : Inv s) : Inv (dhcpsTmr s).1 := by
  have hpoll := (dhcpsTmr_config s).poll
  refine ⟨⟨?_, ?_, dhcpsTmr_owned inv.owned⟩, ?_⟩
  · rw [hpoll]
    exact inv.pool
  · rw [hpoll]
    exact dhcpsTmr_leases inv
  · rw [hpoll, dhcpsTmr_plus]
    exact inv.cursor

end PicoHost.Dhcps
