import PicoHost.Dhcps.LeaseSpec

/-!
# What the lease list owns, and what the server never changes

Two facts that need no assumption on the pool:

- `Owned`: the blocks of the lease nodes are distinct, and they are exactly the
  live blocks of the heap. Datagrams and ticks keep this, so no node is lost,
  freed twice or used after its release.
- `SameConfig`: datagrams and ticks touch nothing of the handle but the addresses
  being handed out, the renew flag and the list.
-/

namespace PicoHost.Dhcps

/-- The list owns the heap: its blocks are distinct, and they are the live ones. -/
structure Owned (h : Heap) (plist : List ListNode) : Prop where
  ok : h.Ok
  nodup : (plist.flatMap ListNode.blocks).Nodup
  live : ∀ b, b ∈ h.live ↔ b ∈ plist.flatMap ListNode.blocks

/-! ## Ownership -/

/-- Restarting timers keeps the blocks. -/
theorem blocks_restart_map (l : List ListNode) (f : ListNode → UInt32) :
    (l.map fun p => p.restart (f p)).flatMap ListNode.blocks = l.flatMap ListNode.blocks := by
  rw [List.flatMap_map]
  rfl

/-- The empty list owns nothing. -/
theorem owned_empty : Owned Heap.empty [] := ⟨Heap.ok_empty, List.nodup_nil, fun _ => Iff.rfl⟩

/-- Ownership does not depend on the order of the nodes. -/
theorem Owned.perm {h : Heap} {l l' : List ListNode}
    (hp : (l'.flatMap ListNode.blocks).Perm (l.flatMap ListNode.blocks)) (o : Owned h l) :
    Owned h l' :=
  ⟨o.ok, hp.nodup_iff.mpr o.nodup, fun b => (o.live b).trans hp.mem_iff.symm⟩

/-- The blocks of a list are those of one node and those of the others. -/
theorem blocks_unlink (pre post : List ListNode) (p : ListNode) :
    ((pre ++ post).flatMap ListNode.blocks ++ p.blocks).Perm
      ((pre ++ p :: post).flatMap ListNode.blocks) := by
  rw [List.flatMap_append, List.flatMap_append, List.flatMap_cons, List.append_assoc]
  exact List.perm_append_comm.append_left _

/-- Freeing the blocks of the nodes that leave the list. -/
theorem Owned.freeAll {h : Heap} {l kept : List ListNode} {bs : List Block}
    (hp : (kept.flatMap ListNode.blocks ++ bs).Perm (l.flatMap ListNode.blocks))
    (o : Owned h l) : Owned (h.freeAll bs) kept := by
  obtain ⟨hkept, hbs, hdisj⟩ := List.nodup_append.mp (hp.nodup_iff.mpr o.nodup)
  have hlive : ∀ b, b ∈ h.live ↔ b ∈ kept.flatMap ListNode.blocks ++ bs := fun b =>
    (o.live b).trans hp.mem_iff.symm
  obtain ⟨hok, hmem⟩ := o.ok.freeAll hbs fun b hb => (hlive b).mpr (List.mem_append_right _ hb)
  refine ⟨hok, hkept, fun b => ?_⟩
  rw [hmem, hlive, List.mem_append]
  constructor
  · rintro ⟨hnot, hb | hb⟩
    · exact hb
    · exact absurd hb hnot
  · exact fun hb => ⟨fun hin => hdisj b hb b hin rfl, .inl hb⟩

/-- The two blocks of a new node. -/
theorem Owned.calloc {h : Heap} {l : List ListNode} (o : Owned h l) (p : DhcpsPool) :
    Owned (memCalloc (memCalloc h).2).2
      (⟨(memCalloc (memCalloc h).2).1, (memCalloc h).1, p⟩ :: l) := by
  have hok := o.ok.malloc h.serial
  have hnew := o.ok.malloc_notMem h.serial
  have hnew' := hok.malloc_notMem (h.malloc h.serial).2.serial
  refine ⟨hok.malloc _, ?_, fun b => ?_⟩
  · rw [List.flatMap_cons]
    refine List.nodup_append.mpr ⟨?_, o.nodup, fun b hb c hc => ?_⟩
    · refine List.nodup_cons.mpr ⟨fun hin => ?_, List.nodup_singleton _⟩
      rw [List.mem_singleton] at hin
      have := congrArg Block.serial hin
      exact Nat.ne_of_lt (Nat.lt_succ_self h.serial) this
    · rintro rfl
      have hlive := (o.live b).mpr hc
      rcases List.mem_cons.mp hb with rfl | hb
      · exact hnew hlive
      · rw [List.mem_singleton.mp hb] at hlive
        exact hnew' (List.mem_cons_of_mem _ hlive)
  · show b ∈ _ :: _ :: h.live ↔ b ∈ _ :: _ :: l.flatMap ListNode.blocks
    rw [List.mem_cons, List.mem_cons, List.mem_cons, List.mem_cons, o.live, or_left_comm]
    rfl

/-- No earlier node is the same block. -/
theorem Owned.self_ne {h : Heap} {pre post : List ListNode} {p : ListNode}
    (o : Owned h (pre ++ p :: post)) : ∀ q ∈ pre, q.self ≠ p.self :=
  blocks_self_ne o.nodup

/-! ## What changes at all -/

/-- `s'` is `s` but for the addresses being handed out, the renew flag, the list
and the heap. -/
def SameConfig (s s' : Server) : Prop :=
  s'.dhcps = { s.dhcps with
    clientAddress := s'.dhcps.clientAddress,
    clientAddressPlus := s'.dhcps.clientAddressPlus,
    renew := s'.dhcps.renew,
    plist := s'.dhcps.plist }

/-- A server has its own configuration. -/
theorem SameConfig.refl (s : Server) : SameConfig s s := rfl

/-- Two steps that keep the configuration -/
theorem SameConfig.trans {s₁ s₂ s₃ : Server} (h : SameConfig s₁ s₂) (h' : SameConfig s₂ s₃) :
    SameConfig s₁ s₃ := by
  rw [SameConfig] at h h' ⊢
  rw [h', h]

/-- The pool is part of the configuration. -/
theorem SameConfig.poll {s s' : Server} (h : SameConfig s s') :
    s'.dhcps.dhcpsPoll = s.dhcps.dhcpsPoll := by
  rw [SameConfig] at h
  rw [h]

/-- The lease time is part of the configuration. -/
theorem SameConfig.leaseTimer {s s' : Server} (h : SameConfig s s') :
    s'.dhcps.leaseTimer = s.dhcps.leaseTimer := by
  rw [SameConfig] at h
  rw [h]
  rfl

/-- The state is part of the configuration. -/
theorem SameConfig.state {s s' : Server} (h : SameConfig s s') :
    s'.dhcps.state = s.dhcps.state := by
  rw [SameConfig] at h
  rw [h]

/-- The PCB is part of the configuration. -/
theorem SameConfig.pcb {s s' : Server} (h : SameConfig s s') :
    s'.dhcps.dhcpsPcb = s.dhcps.dhcpsPcb := by
  rw [SameConfig] at h
  rw [h]

/-- Choosing an address keeps the configuration. -/
theorem selectAddress_config (s : Server) (m : Msg) : SameConfig s (selectAddress s m).1 := by
  rw [selectAddress]
  split
  · rfl
  · dsimp only
    split <;> rfl

/-- Releasing a lease keeps the configuration. -/
theorem releaseLease_config (s : Server) (pnode : Option ListNode) :
    SameConfig s (releaseLease s pnode) := by
  cases pnode <;> rfl

/-- A message keeps the configuration. -/
theorem parseMsg_config (s : Server) (m : Msg) (len : UInt16) :
    SameConfig s (parseMsg s m len).1 := by
  have hsel := selectAddress_config s m
  have hrel := hsel.trans (releaseLease_config (selectAddress s m).1 (selectAddress s m).2)
  rw [parseMsg]
  dsimp only
  split
  · split
    · exact hrel
    · split
      · exact hrel.trans rfl
      · exact hsel
  · exact SameConfig.refl s

/-- The timer keeps the configuration. -/
theorem dhcpsTmr_config (s : Server) : SameConfig s (dhcpsTmr s).1 := by
  rw [dhcpsTmr]
  dsimp only
  split
  · exact SameConfig.refl s
  · split
    · exact SameConfig.refl s
    · split <;> rfl

/-! ## Ownership is kept whatever the pool is -/

/-- The node that `parse_msg` goes on with is in the list. -/
theorem selectAddress_owned {s : Server} (o : Owned s.heap s.dhcps.plist) (m : Msg) :
    Owned (selectAddress s m).1.heap (selectAddress s m).1.dhcps.plist ∧
      ∀ pnode, (selectAddress s m).2 = some pnode →
        ∃ pre post, (selectAddress s m).1.dhcps.plist = pre ++ pnode :: post := by
  have hkeep := searchPool_keeps m s.dhcps.leaseTimer s.dhcps.startSearch s.dhcps.plist
  rw [selectAddress]
  generalize searchPool m s.dhcps.leaseTimer s.dhcps.startSearch s.dhcps.plist = found at *
  obtain ⟨r, plist, pnode⟩ := found
  rcases hkeep with ⟨pre, p, post, hl, hres⟩ | hres
  · obtain ⟨rfl, rfl⟩ := Prod.mk.inj hres
    refine ⟨o.perm ?_, fun pnode hp => ⟨pre, post, ?_⟩⟩
    · show (List.flatMap ListNode.blocks (pre ++ p.restart _ :: post)).Perm _
      rw [hl, List.flatMap_append, List.flatMap_append]
      exact List.Perm.refl _
    · cases hp
      rfl
  · obtain ⟨rfl, rfl⟩ := Prod.mk.inj hres
    dsimp only
    split
    · exact ⟨o, nofun⟩
    · refine ⟨(o.calloc _).perm ((nodeInsertToList_perm _ _).flatMap_right _), fun pnode hp => ?_⟩
      cases hp
      obtain ⟨pre, post, -, hi⟩ := nodeInsertToList_split _ s.dhcps.plist
      exact ⟨pre, post, hi⟩

/-- Unlinking a node frees its two blocks. -/
theorem releaseLease_owned {s : Server} {pnode : ListNode} {pre post : List ListNode}
    (o : Owned s.heap s.dhcps.plist) (h : s.dhcps.plist = pre ++ pnode :: post) :
    Owned (releaseLease s (some pnode)).heap (releaseLease s (some pnode)).dhcps.plist ∧
      (releaseLease s (some pnode)).dhcps.plist = pre ++ post := by
  rw [h] at o
  have hrem : nodeRemoveFromList pnode.self s.dhcps.plist = pre ++ post := by
    rw [h]
    exact nodeRemoveFromList_append rfl o.self_ne
  have hperm : ((pre ++ post).flatMap ListNode.blocks ++ [pnode.self, pnode.pnode]).Perm
      ((pre ++ pnode :: post).flatMap ListNode.blocks) :=
    ((List.Perm.swap pnode.pnode pnode.self []).append_left _).trans (blocks_unlink pre post pnode)
  have hnew : (releaseLease s (some pnode)).dhcps.plist = pre ++ post := hrem
  rw [hnew]
  exact ⟨o.freeAll hperm, rfl⟩

/-- A message leaves the heap with the blocks of the leases. -/
theorem parseMsg_owned {s : Server} (o : Owned s.heap s.dhcps.plist) (m : Msg) (len : UInt16) :
    Owned (parseMsg s m len).1.heap (parseMsg s m len).1.dhcps.plist := by
  obtain ⟨ho, hsplit⟩ := selectAddress_owned o m
  rw [parseMsg]
  dsimp only
  generalize selectAddress s m = r at *
  generalize parseOptions r.1.dhcps m len.toInt16.toInt = ret
  have hrel : Owned (releaseLease r.1 r.2).heap (releaseLease r.1 r.2).dhcps.plist := by
    cases hnode : r.2 with
    | none => exact ho
    | some pnode =>
      obtain ⟨pre, post, hl⟩ := hsplit pnode hnode
      exact (releaseLease_owned ho hl).1
  split
  · split
    · exact hrel
    · split
      · exact hrel
      · exact ho
  · exact o

/-- The eviction unlinks one node and frees its blocks. -/
theorem killOldestDhcpsPool_spec {h : Heap} {plist : List ListNode} (o : Owned h plist) :
    (killOldestDhcpsPool plist).1.Sublist plist ∧
      ((killOldestDhcpsPool plist).1.flatMap ListNode.blocks ++
        (killOldestDhcpsPool plist).2).Perm (plist.flatMap ListNode.blocks) := by
  cases plist with
  | nil => exact ⟨List.Sublist.refl _, List.Perm.refl _⟩
  | cons p rest =>
    cases rest with
    | nil => exact ⟨List.Sublist.refl _, by simp [killOldestDhcpsPool]⟩
    | cons q rest =>
      obtain ⟨pre, minp, post, hl, hkill, -⟩ := killOldestDhcpsPool_split o.nodup
      rw [hkill, hl]
      constructor
      · exact ((List.sublist_cons_self _ post).append_left pre).cons_cons p
      · exact blocks_unlink (p :: pre) post minp

/-- The expired leases are freed. -/
theorem expireLeases_owned {h : Heap} {plist : List ListNode} (o : Owned h plist) :
    Owned (h.freeAll (expireLeases plist).2) (expireLeases plist).1 := by
  obtain ⟨kept, -, hkept, hperm⟩ := expireLeases_spec plist
  refine o.freeAll ?_
  rw [hkept, blocks_restart_map]
  exact hperm

/-- The timer leaves the heap with the blocks of the leases. -/
theorem dhcpsTmr_owned {s : Server} (o : Owned s.heap s.dhcps.plist) :
    Owned (dhcpsTmr s).1.heap (dhcpsTmr s).1.dhcps.plist := by
  have he := expireLeases_owned o
  rw [dhcpsTmr]
  dsimp only
  split
  · exact o
  · split
    · exact o
    · split
      · exact he.freeAll (killOldestDhcpsPool_spec he).2
      · exact he

end PicoHost.Dhcps
