import PicoHost.Dhcps.Pool
import PicoHost.Lib.Ascending

/-!
# What the lease-list operations do

One lemma for each list operation of `dhcpserver.c`, over lists in which the
addresses ascend (`hosts`) and no two nodes are one block.

The search loop of `parse_msg` runs two searches at once over the same list: the
cursor `client_address_plus` and `first_address`. Both are one-pass first-free
searches (`Ascending.firstFree`), from the cursor and from the first address of
the pool (`searchPool_cases`).
-/

namespace PicoHost.Dhcps

open ByteOrder Ascending

/-- The leased addresses, in list order. -/
def hosts (plist : List ListNode) : List Nat := plist.map fun p => host p.pool.ip

/-- The hardware addresses, in list order. -/
def macs (plist : List ListNode) : List Mac := plist.map fun p => p.pool.mac

/-- The leases of the client `mac`. -/
def leasesOf (mac : Mac) (plist : List ListNode) : List ListNode :=
  plist.filter fun p => decide (p.pool.mac = mac)

/-- The leases of the clients other than `mac`, in list order. -/
def othersOf (mac : Mac) (plist : List ListNode) : List ListNode :=
  plist.filter fun p => decide (p.pool.mac ≠ mac)

@[simp] theorem hosts_append (l l' : List ListNode) : hosts (l ++ l') = hosts l ++ hosts l' :=
  List.map_append

@[simp] theorem hosts_cons (p : ListNode) (l : List ListNode) :
    hosts (p :: l) = host p.pool.ip :: hosts l := rfl

@[simp] theorem macs_append (l l' : List ListNode) : macs (l ++ l') = macs l ++ macs l' :=
  List.map_append

@[simp] theorem macs_cons (p : ListNode) (l : List ListNode) :
    macs (p :: l) = p.pool.mac :: macs l := rfl

/-- The MAC of a lease is in the list of MACs. -/
theorem mem_macs {l : List ListNode} {p : ListNode} (h : p ∈ l) : p.pool.mac ∈ macs l :=
  List.mem_map_of_mem h

/-! ## Insertion and removal -/

/-- Inserting a node adds it somewhere. -/
theorem nodeInsertToList_perm (p : ListNode) (plist : List ListNode) :
    (nodeInsertToList p plist).Perm (p :: plist) := by
  induction plist with
  | nil => exact List.Perm.refl _
  | cons q plist ih =>
    rw [nodeInsertToList]
    split
    · exact List.Perm.refl _
    · exact (ih.cons q).trans (List.Perm.swap p q plist)

/-- Insertion splits the list and changes nothing else. -/
theorem nodeInsertToList_split (p : ListNode) (plist : List ListNode) :
    ∃ pre post, plist = pre ++ post ∧ nodeInsertToList p plist = pre ++ p :: post := by
  induction plist with
  | nil => exact ⟨[], [], rfl, rfl⟩
  | cons q plist ih =>
    rw [nodeInsertToList]
    split
    · exact ⟨[], q :: plist, rfl, rfl⟩
    · obtain ⟨pre, post, hl, hi⟩ := ih
      exact ⟨q :: pre, post, by rw [hl]; rfl, by rw [hi]; rfl⟩

/-- Inside a pool the raw comparison keeps the addresses ascending. -/
theorem nodeInsertToList_sorted {poll : DhcpsLease} (ok : PoolOk poll) {p : ListNode}
    {plist : List ListNode} (hs : (hosts plist).Pairwise (· < ·))
    (hlo : host poll.startIp ≤ host p.pool.ip) (hhi : host p.pool.ip ≤ host poll.endIp)
    (hb : ∀ q ∈ plist, host poll.startIp ≤ host q.pool.ip ∧ host q.pool.ip ≤ host poll.endIp)
    (hfree : host p.pool.ip ∉ hosts plist) :
    (hosts (nodeInsertToList p plist)).Pairwise (· < ·) := by
  induction plist with
  | nil => exact List.pairwise_singleton _ _
  | cons q plist ih =>
    rw [hosts_cons] at hs hfree
    obtain ⟨hq, hs'⟩ := List.pairwise_cons.mp hs
    obtain ⟨hqlo, hqhi⟩ := hb q (List.mem_cons_self ..)
    have hcmp : p.pool.ip < q.pool.ip ↔ host p.pool.ip < host q.pool.ip :=
      ok.lt_iff hlo (by omega) hqlo (by omega)
    obtain ⟨hne, hfree'⟩ := not_or.mp (fun h => hfree (List.mem_cons.mpr h))
    rw [nodeInsertToList]
    split
    case isTrue hlt =>
      refine List.pairwise_cons.mpr ⟨fun h hh => ?_, hs⟩
      rcases List.mem_cons.mp hh with rfl | hh
      · exact hcmp.mp hlt
      · exact Nat.lt_trans (hcmp.mp hlt) (hq h hh)
    case isFalse hge =>
      have hrest := ih hs' (fun r hr => hb r (List.mem_cons_of_mem q hr)) hfree'
      rw [hosts_cons]
      refine List.pairwise_cons.mpr ⟨fun h hh => ?_, hrest⟩
      have hperm : (hosts (nodeInsertToList p plist)).Perm (hosts (p :: plist)) :=
        (nodeInsertToList_perm p plist).map _
      have hmem : h ∈ host p.pool.ip :: hosts plist := hperm.mem_iff.mp hh
      rcases List.mem_cons.mp hmem with rfl | hh
      · have hge' : ¬ host p.pool.ip < host q.pool.ip := fun hlt => hge (hcmp.mpr hlt)
        omega
      · exact hq h hh

/-- Removing a node that no earlier node is. -/
theorem nodeRemoveFromList_append {d : Block} {pre post : List ListNode} {p : ListNode}
    (hp : p.self = d) (hpre : ∀ q ∈ pre, q.self ≠ d) :
    nodeRemoveFromList d (pre ++ p :: post) = pre ++ post := by
  induction pre with
  | nil => rw [List.nil_append, nodeRemoveFromList, if_pos hp]; rfl
  | cons q pre ih =>
    rw [List.cons_append, nodeRemoveFromList, if_neg (hpre q (List.mem_cons_self ..)),
      ih fun r hr => hpre r (List.mem_cons_of_mem q hr)]
    rfl

/-! ## The search loop -/

/-- The cursor is at `a`, and the client's address with it. -/
structure Search.CursorAt (s : Search) (a : Nat) : Prop where
  client : s.clientAddress = s.clientAddressPlus
  plus : host s.clientAddressPlus = a

/-- The search for the first unused address is at `b`, and the addresses `l` are
still to come. Once it has met a gap, all of them are above it. -/
structure Search.FirstAt (s : Search) (b : Nat) (l : List Nat) : Prop where
  first : host s.firstAddress = b
  ahead : ∀ h ∈ l, b ≤ h
  gap : s.flag = true → ∀ h ∈ l, b < h

@[simp] theorem Search.passFirst_plus (s : Search) (ip : UInt32) :
    (s.passFirst ip).clientAddressPlus = s.clientAddressPlus ∧
      (s.passFirst ip).clientAddress = s.clientAddress ∧
      (s.passFirst ip).renew = s.renew := by
  unfold Search.passFirst
  split
  · split <;> exact ⟨rfl, rfl, rfl⟩
  · exact ⟨rfl, rfl, rfl⟩

@[simp] theorem Search.passCursor_first (s : Search) (ip : UInt32) :
    (s.passCursor ip).firstAddress = s.firstAddress ∧
      (s.passCursor ip).flag = s.flag ∧ (s.passCursor ip).renew = s.renew := by
  unfold Search.passCursor
  split <;> exact ⟨rfl, rfl, rfl⟩

section Turn

variable {poll : DhcpsLease} {s : Search} {a b : Nat} {ip : UInt32} {l : List Nat}

/-- One turn moves the cursor past the address at hand. -/
theorem Search.CursorAt.pass (ok : PoolOk poll) (hs : s.CursorAt a)
    (hhi : host ip ≤ host poll.endIp) :
    (s.pass ip).CursorAt (if host ip = a then a + 1 else a) := by
  obtain ⟨hplus, hclient, -⟩ := (s.passCursor ip).passFirst_plus ip
  have hat : (s.passCursor ip).CursorAt (if host ip = a then a + 1 else a) := by
    have hiff : ip = s.clientAddressPlus ↔ host ip = a := by rw [← host_inj, hs.plus]
    unfold Search.passCursor
    by_cases h : host ip = a
    · rw [if_pos (hiff.mpr h), if_pos h]
      refine ⟨rfl, ?_⟩
      show host (nextAddress s.clientAddressPlus) = a + 1
      have hahi : host s.clientAddressPlus ≤ host poll.endIp := by rw [hs.plus]; omega
      rw [ok.host_next hahi, hs.plus]
    · rw [if_neg (fun heq => h (hiff.mp heq)), if_neg h]
      exact hs
  exact ⟨hclient.trans (hat.client.trans hplus.symm), hplus ▸ hat.plus⟩

/-- One turn moves the search for the first unused address past the address at
hand, or finds a gap below it. -/
theorem Search.FirstAt.pass (ok : PoolOk poll) (hs : s.FirstAt b (host ip :: l))
    (hsorted : ∀ h ∈ l, host ip < h) (hhi : host ip ≤ host poll.endIp)
    (hlo : host poll.startIp ≤ b) :
    (s.pass ip).FirstAt (if host ip = b then b + 1 else b) l := by
  obtain ⟨hfirst, hflag, -⟩ := s.passCursor_first ip
  have hle : b ≤ host ip := hs.ahead _ (List.mem_cons_self ..)
  have hcmp : s.firstAddress < ip ↔ b < host ip := by
    have hf := hs.first
    rw [← hf]
    exact ok.lt_iff (by omega) (by omega) (by omega) (by omega)
  unfold Search.pass Search.passFirst
  rw [hfirst, hflag]
  by_cases hfl : s.flag = false
  · rw [if_pos hfl]
    by_cases hlt : b < host ip
    · -- a gap: the search stays where it is
      have hne : ¬ host ip = b := by omega
      rw [if_pos (hcmp.mpr hlt), if_neg hne]
      refine ⟨hs.first, fun h hh => ?_, fun _ h hh => ?_⟩
      · exact hs.ahead h (List.mem_cons_of_mem _ hh)
      · exact Nat.lt_trans hlt (hsorted h hh)
    · have heq : host ip = b := by omega
      rw [if_neg (fun h => hlt (hcmp.mp h)), if_pos heq]
      refine ⟨?_, fun h hh => ?_, fun hgap h hh => ?_⟩
      · have hbhi : host s.firstAddress ≤ host poll.endIp := by rw [hs.first]; omega
        show host (nextAddress s.firstAddress) = b + 1
        rw [ok.host_next hbhi, hs.first]
      · have := hsorted h hh
        omega
      · change s.flag = true at hgap
        rw [hfl] at hgap
        cases hgap
  · have hgap : s.flag = true := by simpa using hfl
    have hlt := hs.gap hgap _ (List.mem_cons_self ..)
    have hne : ¬ host ip = b := by omega
    rw [if_neg hfl, if_neg hne]
    refine ⟨hfirst ▸ hs.first, fun h hh => ?_, fun _ h hh => ?_⟩
    · exact hs.ahead h (List.mem_cons_of_mem _ hh)
    · exact hs.gap hgap h (List.mem_cons_of_mem _ hh)

end Turn

/-- The node with its timer restarted. -/
def ListNode.restart (p : ListNode) (leaseTimer : UInt32) : ListNode :=
  { p with pool := { p.pool with leaseTimer := leaseTimer } }

/-- Whatever the list, the search restarts the timer of the client's first node, which it
returns with its address, or the client has none. -/
theorem searchPool_client (m : Msg) (t : UInt32) (s : Search) (plist : List ListNode) :
    (∃ pre p post, plist = pre ++ p :: post ∧ p.pool.mac = m.chaddr ∧
        (searchPool m t s plist).2 = (pre ++ p.restart t :: post, some (p.restart t)) ∧
        (searchPool m t s plist).1.clientAddress = p.pool.ip) ∨
      ((∀ p ∈ plist, p.pool.mac ≠ m.chaddr) ∧ (searchPool m t s plist).2 = (plist, none)) := by
  induction plist generalizing s with
  | nil => exact .inr ⟨nofun, rfl⟩
  | cons p plist ih =>
    rw [searchPool]
    by_cases hmac : p.pool.mac = m.chaddr
    · rw [if_pos hmac]
      exact .inl ⟨[], p, plist, rfl, hmac, rfl, rfl⟩
    · rw [if_neg hmac]
      dsimp only
      rcases ih (s.pass p.pool.ip) with ⟨pre, q, post, hl, hq, hres, hclient⟩ | ⟨hall, hres⟩
      · exact .inl ⟨p :: pre, q, post, by rw [hl]; rfl, hq, by rw [hres]; rfl, hclient⟩
      · exact .inr ⟨List.forall_mem_cons.mpr ⟨hmac, hall⟩, by rw [hres]⟩

/-- Whatever the list, the search restarts at most the timer of one node, which it
returns. -/
theorem searchPool_keeps (m : Msg) (t : UInt32) (s : Search) (plist : List ListNode) :
    (∃ pre p post, plist = pre ++ p :: post ∧
        (searchPool m t s plist).2 = (pre ++ p.restart t :: post, some (p.restart t))) ∨
      (searchPool m t s plist).2 = (plist, none) := by
  rcases searchPool_client m t s plist with ⟨pre, p, post, hl, -, hres, -⟩ | ⟨-, hres⟩
  · exact .inl ⟨pre, p, post, hl, hres⟩
  · exact .inr hres

/-- The two ends of the search loop: it stops at the client's node, or it has
passed all nodes. -/
theorem searchPool_cases {poll : DhcpsLease} (ok : PoolOk poll) (m : Msg) (t : UInt32)
    {s : Search} {a b : Nat} {plist : List ListNode}
    (hsorted : (hosts plist).Pairwise (· < ·))
    (hhi : ∀ p ∈ plist, host p.pool.ip ≤ host poll.endIp)
    (hlo : host poll.startIp ≤ b)
    (hcur : s.CursorAt a) (hfirst : s.FirstAt b (hosts plist)) :
    (∃ pre p post, plist = pre ++ p :: post ∧ p.pool.mac = m.chaddr ∧
        (∀ q ∈ pre, q.pool.mac ≠ m.chaddr) ∧
        (searchPool m t s plist).2 = (pre ++ p.restart t :: post, some (p.restart t)) ∧
        (searchPool m t s plist).1.clientAddress = p.pool.ip ∧
        host (searchPool m t s plist).1.clientAddressPlus = firstFree a (hosts pre)) ∨
      ((∀ p ∈ plist, p.pool.mac ≠ m.chaddr) ∧
        (searchPool m t s plist).2 = (plist, none) ∧
        (searchPool m t s plist).1.CursorAt (firstFree a (hosts plist)) ∧
        host (searchPool m t s plist).1.firstAddress = firstFree b (hosts plist)) := by
  induction plist generalizing s a b with
  | nil => exact .inr ⟨fun p hp => (nomatch hp), rfl, hcur, hfirst.first⟩
  | cons p plist ih =>
    rw [searchPool]
    by_cases hmac : p.pool.mac = m.chaddr
    · rw [if_pos hmac]
      exact .inl ⟨[], p, plist, rfl, hmac, fun q hq => (nomatch hq), rfl, rfl, hcur.plus⟩
    · rw [if_neg hmac]
      dsimp only
      rw [hosts_cons] at hsorted hfirst
      obtain ⟨hp, hsorted'⟩ := List.pairwise_cons.mp hsorted
      have hphi := hhi p (List.mem_cons_self ..)
      have hlo' : host poll.startIp ≤ if host p.pool.ip = b then b + 1 else b := by
        split <;> omega
      have hrest := ih hsorted' (fun q hq => hhi q (List.mem_cons_of_mem p hq)) hlo'
        (hcur.pass ok hphi) (hfirst.pass ok hp hphi hlo)
      have hff : ∀ c l, firstFree (if host p.pool.ip = c then c + 1 else c) l =
          firstFree c (host p.pool.ip :: l) := by
        intro c l
        rw [firstFree]
        split <;> rfl
      rcases hrest with ⟨pre, q, post, hl, hq, hpre, hres, hcl, hplus⟩ | ⟨hall, hres, hc, hf⟩
      · refine .inl ⟨p :: pre, q, post, by rw [hl]; rfl, hq, ?_, by rw [hres]; rfl, hcl, ?_⟩
        · intro r hr
          rcases List.mem_cons.mp hr with rfl | hr
          · exact hmac
          · exact hpre r hr
        · rw [hosts_cons, ← hff]
          exact hplus
      · refine .inr ⟨?_, by rw [hres], ?_, ?_⟩
        · intro r hr
          rcases List.mem_cons.mp hr with rfl | hr
          · exact hmac
          · exact hall r hr
        · rw [hosts_cons, ← hff]
          exact hc
        · rw [hosts_cons, ← hff]
          exact hf

/-! ## Expiry and eviction -/

/-- Expiry keeps a sublist, up to the timers, and frees the blocks of the rest. -/
theorem expireLeases_spec (plist : List ListNode) :
    ∃ kept : List ListNode, kept.Sublist plist ∧
      (expireLeases plist).1 = kept.map (fun p => p.restart (p.pool.leaseTimer - 1)) ∧
      (kept.flatMap ListNode.blocks ++ (expireLeases plist).2).Perm
        (plist.flatMap ListNode.blocks) := by
  induction plist with
  | nil => exact ⟨[], List.Sublist.refl _, rfl, List.Perm.refl _⟩
  | cons p plist ih =>
    obtain ⟨kept, hsub, hkept, hperm⟩ := ih
    rw [expireLeases]
    split
    · refine ⟨kept, hsub.cons p, hkept, ?_⟩
      rw [List.flatMap_cons, ← List.append_assoc]
      exact (List.perm_append_comm.append_right _).trans
        (by rw [List.append_assoc]; exact hperm.append_left _)
    · refine ⟨p :: kept, hsub.cons_cons p, by rw [hkept]; rfl, ?_⟩
      rw [List.flatMap_cons, List.flatMap_cons, List.append_assoc]
      exact hperm.append_left _

/-- The oldest node is one of the list. -/
theorem minNode_mem (minp : ListNode) (plist : List ListNode) :
    minNode minp plist ∈ minp :: plist := by
  induction plist generalizing minp with
  | nil => exact List.mem_cons_self ..
  | cons p plist ih =>
    rw [minNode]
    split
    · exact List.mem_cons_of_mem _ (ih p)
    · rcases List.mem_cons.mp (ih minp) with h | h
      · rw [h]
        exact List.mem_cons_self ..
      · exact List.mem_cons_of_mem _ (List.mem_cons_of_mem _ h)

/-- No node of the list is older. -/
theorem minNode_le (minp : ListNode) (plist : List ListNode) :
    ∀ q ∈ minp :: plist, (minNode minp plist).pool.leaseTimer ≤ q.pool.leaseTimer := by
  induction plist generalizing minp with
  | nil =>
    intro q hq
    rw [List.mem_singleton.mp hq]
    exact UInt32.le_refl _
  | cons p plist ih =>
    intro q hq
    rw [minNode]
    by_cases hlt : p.pool.leaseTimer < minp.pool.leaseTimer
    · rw [if_pos hlt]
      rcases List.mem_cons.mp hq with rfl | hq
      · exact UInt32.le_trans (ih p p (List.mem_cons_self ..)) (UInt32.le_of_lt hlt)
      · exact ih p q hq
    · rw [if_neg hlt]
      rcases List.mem_cons.mp hq with rfl | hq
      · exact ih q q (List.mem_cons_self ..)
      · rcases List.mem_cons.mp hq with rfl | hq
        · exact UInt32.le_trans (ih minp minp (List.mem_cons_self ..)) (UInt32.not_lt.mp hlt)
        · exact ih minp q (List.mem_cons_of_mem _ hq)

/-- The node and pool blocks of a list are distinct, so no two nodes are one node. -/
theorem blocks_self_ne {pre post : List ListNode} {p : ListNode}
    (hn : ((pre ++ p :: post).flatMap ListNode.blocks).Nodup) : ∀ q ∈ pre, q.self ≠ p.self := by
  intro q hq heq
  rw [List.flatMap_append, List.flatMap_cons] at hn
  have hqb : q.self ∈ pre.flatMap ListNode.blocks :=
    List.mem_flatMap.mpr ⟨q, hq, List.mem_cons_of_mem _ (List.mem_cons_self ..)⟩
  have hpb : p.self ∈ p.blocks ++ post.flatMap ListNode.blocks :=
    List.mem_append_left _ (List.mem_cons_of_mem _ (List.mem_cons_self ..))
  exact (List.nodup_append.mp hn).2.2 _ hqb _ hpb heq

/-- The eviction unlinks and frees a node after the first one whose timer is the smallest
among those. -/
theorem killOldestDhcpsPool_split {head next : ListNode} {rest : List ListNode}
    (hn : ((head :: next :: rest).flatMap ListNode.blocks).Nodup) :
    ∃ pre p post, next :: rest = pre ++ p :: post ∧
      killOldestDhcpsPool (head :: next :: rest) = (head :: (pre ++ post), p.blocks) ∧
      ∀ q ∈ next :: rest, p.pool.leaseTimer ≤ q.pool.leaseTimer := by
  obtain ⟨pre, post, hl⟩ := List.append_of_mem (minNode_mem next rest)
  have hself : ∀ q ∈ head :: pre, q.self ≠ (minNode next rest).self := by
    refine @blocks_self_ne _ post _ ?_
    rw [List.cons_append, ← hl]
    exact hn
  have hrem : nodeRemoveFromList (minNode next rest).self (next :: rest) = pre ++ post := by
    rw [hl]
    exact nodeRemoveFromList_append rfl fun q hq => hself q (List.mem_cons_of_mem head hq)
  refine ⟨pre, minNode next rest, post, hl, ?_, minNode_le next rest⟩
  rw [killOldestDhcpsPool, hrem]

/-- From `plist` to the list and the freed blocks `r`, one lease goes, of the smallest timer
of all; the others stay in their order. -/
def EvictsOldest (plist : List ListNode) (r : List ListNode × List Block) : Prop :=
  ∃ pre p post, plist = pre ++ p :: post ∧ r = (pre ++ post, p.blocks) ∧
    ∀ q ∈ plist, p.pool.leaseTimer ≤ q.pool.leaseTimer

/-- The search for the minimum never looks at the first node. -/
theorem not_evictsOldest {head next : ListNode} {rest : List ListNode}
    (hn : ((head :: next :: rest).flatMap ListNode.blocks).Nodup)
    (hlt : ∀ q ∈ next :: rest, head.pool.leaseTimer < q.pool.leaseTimer) :
    ¬ EvictsOldest (head :: next :: rest) (killOldestDhcpsPool (head :: next :: rest)) := by
  rintro ⟨pre, p, post, hl, hr, hmin⟩
  cases pre with
  | cons q pre =>
    obtain ⟨-, hrest⟩ := List.cons.inj hl
    have hp : p ∈ next :: rest := by
      rw [hrest]
      exact List.mem_append_right _ (List.mem_cons_self ..)
    exact absurd (hmin head (List.mem_cons_self ..)) (UInt32.not_le.mpr (hlt p hp))
  | nil =>
    -- the first node would be the evicted one, but another one is freed
    obtain ⟨rfl, -⟩ := List.cons.inj hl
    obtain ⟨pre', p', post', hrest, hkill, -⟩ := killOldestDhcpsPool_split hn
    have hblocks : p'.blocks = head.blocks := (Prod.mk.inj (hkill.symm.trans hr)).2
    have hself : p'.self = head.self := (List.cons.inj (List.cons.inj hblocks).2).1
    rw [hrest, ← List.cons_append] at hn
    exact blocks_self_ne hn head (List.mem_cons_self ..) hself.symm

/-- `kill_oldest_dhcps_pool` evicts a lease of the smallest timer exactly when one of the nodes
after the first has such a timer. -/
theorem killOldestDhcpsPool_evictsOldest_iff {head next : ListNode} {rest : List ListNode}
    (hn : ((head :: next :: rest).flatMap ListNode.blocks).Nodup) :
    EvictsOldest (head :: next :: rest) (killOldestDhcpsPool (head :: next :: rest)) ↔
      ∃ q ∈ next :: rest, q.pool.leaseTimer ≤ head.pool.leaseTimer := by
  constructor
  · intro h
    by_contra hnone
    refine not_evictsOldest hn (fun q hq => ?_) h
    exact UInt32.not_le.mp fun hle => hnone ⟨q, hq, hle⟩
  · rintro ⟨q, hq, hle⟩
    obtain ⟨pre, p, post, hrest, hkill, hmin⟩ := killOldestDhcpsPool_split hn
    refine ⟨head :: pre, p, post, ?_, ?_, List.forall_mem_cons.mpr ⟨?_, hmin⟩⟩
    · rw [hrest]
      rfl
    · rw [hkill]
      rfl
    · exact UInt32.le_trans (hmin q hq) hle

/-- Nine leases at 192.168.4.2 to 192.168.4.10, one more than there may be; `first` is the
timer of the first one, and each other one has 100 ticks left. -/
def nineLeases (first : UInt32) : List ListNode :=
  (List.range 9).map fun i =>
    { self := ⟨2 * i, 16⟩, pnode := ⟨2 * i + 1, 16⟩,
      pool := { ip := ip4 192 168 4 (2 + i), mac := fun _ => .ofNat i,
                leaseTimer := if i = 0 then first else 100 } }

/-- Of nine leases whose oldest is not the head, the oldest goes. -/
theorem nineLeases_evictsOldest :
    EvictsOldest (nineLeases 100) (killOldestDhcpsPool (nineLeases 100)) :=
  (killOldestDhcpsPool_evictsOldest_iff (by decide +kernel)).mpr
    ⟨_, List.mem_cons_self .., by decide +kernel⟩

/-- The lease that ends next is the first one, and another one is evicted. -/
theorem killOldestDhcpsPool_keeps_first :
    ¬ EvictsOldest (nineLeases 1) (killOldestDhcpsPool (nineLeases 1)) :=
  not_evictsOldest (by decide +kernel) (by decide +kernel)

end PicoHost.Dhcps
