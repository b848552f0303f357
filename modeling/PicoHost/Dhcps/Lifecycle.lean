import PicoHost.Dhcps.Run

/-!
# The life of one handle

One handle from `dhcps_new` on, with everything that lwIP keeps for it: pending
`dhcps_tmr` timeouts, UDP pcbs, and the pcbs whose receive callback is
`handle_dhcp` with this handle as its argument. The calls of the API need a
handle that has not been freed; the two callbacks need no permission, and one
that runs on a freed handle is recorded as a `fault`.

A deletion of a started handle is deferred to the next tick through the state
`DHCPS_HANDLE_DELETE_PENDING`. The tick frees the handle but not its pcb and its
leases, `dhcps_stop` and `dhcps_start` overwrite the state, and a second
`dhcps_start` asks for a second timeout. `Meets` is the condition under which a
step does none of this:

- `safe_of_meets`: in a run whose steps all meet it, every state is `Safe`;
- `unsafe_of_not_meets`: after a step that does not meet it, the run can be
  continued to a state that is not.
-/

namespace PicoHost.Dhcps

/-! ## The handle and what lwIP keeps for it -/

/-- `created` and `removed` have one entry for every pcb that `udp_new` returned
and that `udp_remove` was called with; `released` counts `mem_free(dhcps)`. -/
structure World where
  server : Server
  timeouts : Nat
  created : List PcbPtr
  removed : List PcbPtr
  recv : List PcbPtr
  released : Nat
  deleteCalled : Bool
  fault : Bool

/-- After `dhcps_new`. -/
def World.new : World where
  server := ⟨dhcpsNew, Heap.empty⟩
  timeouts := 0
  created := []
  removed := []
  recv := []
  released := 0
  deleteCalled := false
  fault := false

/-- lwIP's part of a call: `udp_remove` ends the callbacks of the pcb, and
`sys_untimeout` removes the first matching timeout. -/
def World.perform (w : World) : Effect → World
  | .udpNew pcb => { w with created := pcb :: w.created }
  | .udpRemove pcb =>
    { w with removed := pcb :: w.removed, recv := w.recv.filter fun p => decide (p ≠ pcb) }
  | .udpRecv pcb => { w with recv := pcb :: w.recv }
  | .sysTimeout => { w with timeouts := w.timeouts + 1 }
  | .sysUntimeout => { w with timeouts := w.timeouts - 1 }
  | .freeHandle => { w with released := w.released + 1 }

/-- A call that leaves `server` behind and asks for these effects. -/
def World.return (w : World) (server : Server) (effects : List Effect) : World :=
  effects.foldl World.perform { w with server := server }

/-- Calls of the API, and callbacks. `udpNew` is the result of `udp_new`. -/
inductive Action where
  | start (netif : Option NetifPtr) (ip : UInt32) (udpNew : Option PcbPtr)
  | stop (netif : Option NetifPtr)
  | delete
  | expire
  | datagram (pcb : PcbPtr) (g : Datagram)

/-- One action. A call needs a live handle, `udp_new` returns no pcb twice, a
timer expires only if one is pending, and a datagram arrives on a pcb with a
receive callback. -/
def World.step (w : World) : Action → Option World
  | .start netif ip udpNew =>
    if w.released = 0 ∧ udpNew.all (fun pcb => decide (pcb ∉ w.created)) = true then
      let r := dhcpsStart w.server netif ip udpNew
      some (w.return r.1 r.2.2)
    else none
  | .stop netif =>
    if w.released = 0 then
      let r := dhcpsStop w.server netif
      some (w.return r.1 r.2.2)
    else none
  | .delete =>
    if w.released = 0 then
      let r := dhcpsDelete w.server
      some ({ w with deleteCalled := true }.return r.1 r.2)
    else none
  | .expire =>
    if w.timeouts = 0 then none
    else
      let w := { w with timeouts := w.timeouts - 1 }
      if w.released = 0 then
        let r := dhcpsTmr w.server
        some (w.return r.1 r.2)
      else some { w with fault := true }
  | .datagram pcb g =>
    if pcb ∈ w.recv then
      if w.released = 0 then some { w with server := (handleDhcp w.server g).1 }
      else some { w with fault := true }
    else none

/-- What is asked of every state: no callback ran on a freed handle, at most one
timeout is pending, and once `dhcps_delete` was called and no timeout is pending,
the handle was freed once, every pcb removed once and every lease node freed
once. -/
structure Safe (w : World) : Prop where
  noFault : w.fault = false
  one : w.timeouts ≤ 1
  released : w.deleteCalled = true → w.timeouts = 0 →
    w.released = 1 ∧ w.removed.Perm w.created ∧ w.created.Nodup ∧
      w.server.heap.live = [] ∧ w.server.heap.freed.Nodup

/-! ## The condition -/

/-- The arguments with which `dhcps_start` returns `ERR_OK`. -/
def StartSucceeds (d : DhcpsT) (netif : Option NetifPtr) (ip : UInt32)
    (udpNew : Option PcbPtr) : Prop :=
  netif.isSome ∧ udpNew.isSome ∧ ip ≠ 0 ∧ isInvalidSubnetMask (ByteOrder.byteSwap d.dhcpsMask) = false

/-- - A successful start finds no timeout pending;
- a stop that takes effect does not come after a deferred deletion;
- a deletion is deferred, or finds neither a pcb nor leases nor a timeout;
- the tick that carries out a deferred deletion finds neither a pcb nor leases. -/
def Meets (w : World) : Action → Prop
  | .start netif ip udpNew => StartSucceeds w.server.dhcps netif ip udpNew → w.timeouts = 0
  | .stop netif =>
    netif.isSome → w.server.dhcps.dhcpsNetif = netif → w.server.dhcps.state ≠ .deletePending
  | .delete => w.server.dhcps.state = .started ∨
      (w.server.dhcps.dhcpsPcb = none ∧ w.server.dhcps.plist = [] ∧ w.timeouts = 0)
  | .expire => w.released = 0 → w.server.dhcps.state = .deletePending →
      w.server.dhcps.dhcpsPcb = none ∧ w.server.dhcps.plist = []
  | .datagram _ _ => True

instance (d : DhcpsT) (netif : Option NetifPtr) (ip : UInt32) (udpNew : Option PcbPtr) :
    Decidable (StartSucceeds d netif ip udpNew) := inferInstanceAs (Decidable (_ ∧ _ ∧ _ ∧ _))

instance (w : World) : (a : Action) → Decidable (Meets w a)
  | .start netif ip udpNew => inferInstanceAs
      (Decidable (StartSucceeds w.server.dhcps netif ip udpNew → w.timeouts = 0))
  | .stop netif => inferInstanceAs (Decidable (netif.isSome →
      w.server.dhcps.dhcpsNetif = netif → w.server.dhcps.state ≠ .deletePending))
  | .delete => inferInstanceAs (Decidable (w.server.dhcps.state = .started ∨
      (w.server.dhcps.dhcpsPcb = none ∧ w.server.dhcps.plist = [] ∧ w.timeouts = 0)))
  | .expire => inferInstanceAs (Decidable (w.released = 0 →
      w.server.dhcps.state = .deletePending →
        w.server.dhcps.dhcpsPcb = none ∧ w.server.dhcps.plist = []))
  | .datagram .. => isTrue trivial

/-! ## The calls -/

section Calls

variable {s : Server} {netif : Option NetifPtr} {ip : UInt32} {udpNew : Option PcbPtr}

/-- Computing the pool leaves the leases alone. -/
theorem dhcpsPollSet_plist (d : DhcpsT) (ip : UInt32) : (dhcpsPollSet d ip).plist = d.plist := by
  unfold dhcpsPollSet
  split <;> rfl

/-- Computing the pool leaves the PCB alone. -/
theorem dhcpsPollSet_pcb (d : DhcpsT) (ip : UInt32) :
    (dhcpsPollSet d ip).dhcpsPcb = d.dhcpsPcb := by
  unfold dhcpsPollSet
  split <;> rfl

/-- The effects with which a start replaces the pcb. -/
def replaceEffects (old new : Option PcbPtr) : List Effect :=
  (old.map Effect.udpRemove).toList ++ (new.map Effect.udpNew).toList

/-- What a start can do: nothing, replace the pcb, or replace it and go on to
`udp_recv` and `sys_timeout`. -/
theorem dhcpsStart_cases (s : Server) (netif : Option NetifPtr) (ip : UInt32)
    (udpNew : Option PcbPtr) :
    (¬ StartSucceeds s.dhcps netif ip udpNew ∧
      (((dhcpsStart s netif ip udpNew).1 = s ∧ (dhcpsStart s netif ip udpNew).2.2 = []) ∨
      (∃ d, (dhcpsStart s netif ip udpNew).1 = { s with dhcps := d } ∧
        d.state = s.dhcps.state ∧ d.plist = s.dhcps.plist ∧ d.dhcpsPcb = udpNew ∧
        (dhcpsStart s netif ip udpNew).2.2 = replaceEffects s.dhcps.dhcpsPcb udpNew))) ∨
    (StartSucceeds s.dhcps netif ip udpNew ∧
      ∃ d pcb, (dhcpsStart s netif ip udpNew).1 = { s with dhcps := d } ∧
        d.state = .started ∧ d.plist = s.dhcps.plist ∧ udpNew = some pcb ∧ d.dhcpsPcb = some pcb ∧
        (dhcpsStart s netif ip udpNew).2.2 =
          replaceEffects s.dhcps.dhcpsPcb udpNew ++ [.udpRecv pcb, .sysTimeout]) := by
  unfold StartSucceeds
  cases netif with
  | none => exact .inl ⟨nofun, .inl ⟨rfl, rfl⟩⟩
  | some netif =>
    cases udpNew with
    | none =>
      exact .inl ⟨nofun, .inr ⟨_, rfl, rfl, rfl, rfl, (List.append_nil _).symm⟩⟩
    | some pcb =>
      unfold dhcpsStart
      dsimp only
      by_cases hip : ip = 0
      · rw [if_pos hip]
        exact .inl ⟨fun h => h.2.2.1 hip, .inr ⟨_, rfl, rfl, rfl, rfl, rfl⟩⟩
      · rw [if_neg hip]
        by_cases hmask : isInvalidSubnetMask (ByteOrder.byteSwap s.dhcps.dhcpsMask) = true
        · rw [if_pos hmask]
          refine .inl ⟨fun h => ?_, .inr ⟨_, rfl, rfl, rfl, rfl, rfl⟩⟩
          rw [h.2.2.2] at hmask
          cases hmask
        · rw [if_neg hmask]
          refine .inr ⟨⟨rfl, rfl, hip, Bool.eq_false_iff.mpr hmask⟩, _, pcb, rfl, rfl, ?_, rfl, ?_,
            rfl⟩
          · exact dhcpsPollSet_plist _ _
          · exact dhcpsPollSet_pcb _ _

/-- `dhcps_start` returns `ERR_OK` exactly if it has all it needs. -/
theorem dhcpsStart_ok_iff {s : Server} {netif : Option NetifPtr} {ip : UInt32}
    {udpNew : Option PcbPtr} :
    (dhcpsStart s netif ip udpNew).2.1 = true ↔ StartSucceeds s.dhcps netif ip udpNew := by
  unfold StartSucceeds dhcpsStart
  cases netif with
  | none => exact ⟨nofun, nofun⟩
  | some netif =>
    cases udpNew with
    | none => exact ⟨nofun, nofun⟩
    | some pcb =>
      dsimp only
      by_cases hip : ip = 0
      · rw [if_pos hip]
        exact ⟨nofun, fun h => absurd hip h.2.2.1⟩
      · rw [if_neg hip]
        by_cases hmask : isInvalidSubnetMask (ByteOrder.byteSwap s.dhcps.dhcpsMask) = true
        · rw [if_pos hmask]
          exact ⟨nofun, fun h => absurd (hmask.symm.trans h.2.2.2) (by decide)⟩
        · rw [if_neg hmask]
          exact ⟨fun _ => ⟨rfl, rfl, hip, Bool.eq_false_iff.mpr hmask⟩, fun _ => rfl⟩

/-- What a stop can do. -/
theorem dhcpsStop_cases (s : Server) (netif : Option NetifPtr) :
    (¬ (netif.isSome ∧ s.dhcps.dhcpsNetif = netif) ∧
      (dhcpsStop s netif).1 = s ∧ (dhcpsStop s netif).2.2 = []) ∨
    ((netif.isSome ∧ s.dhcps.dhcpsNetif = netif) ∧
      ∃ d, (dhcpsStop s netif).1 =
          ⟨d, s.heap.freeAll (s.dhcps.plist.flatMap ListNode.blocks)⟩ ∧
        d.state = .stopped ∧ d.plist = [] ∧ d.dhcpsPcb = none ∧
        (dhcpsStop s netif).2.2 = replaceEffects s.dhcps.dhcpsPcb none ++ [.sysUntimeout]) := by
  unfold dhcpsStop
  by_cases h : netif = none ∨ s.dhcps.dhcpsNetif ≠ netif
  · rw [if_pos h]
    refine .inl ⟨?_, rfl, rfl⟩
    rintro ⟨hsome, heq⟩
    rcases h with rfl | hne
    · cases hsome
    · exact hne heq
  · rw [if_neg h]
    obtain ⟨hsome, heq⟩ := not_or.mp h
    refine .inr ⟨⟨Option.isSome_iff_ne_none.mpr hsome, not_not.mp heq⟩, _, rfl, rfl, rfl, rfl, ?_⟩
    rw [replaceEffects, Option.map_none, Option.toList_none, List.append_nil]

end Calls

/-! ## The invariant -/

/-- Every pcb is the handle's or has been removed, once, and only the handle's
has a receive callback. -/
structure Pcbs (w : World) : Prop where
  perm : (w.server.dhcps.dhcpsPcb.toList ++ w.removed).Perm w.created
  nodup : w.created.Nodup
  recv : ∀ pcb ∈ w.recv, w.server.dhcps.dhcpsPcb = some pcb

/-- The stages of a handle's life. -/
inductive Phase (w : World) : Prop where
  | idle (live : w.released = 0)
      (state : w.server.dhcps.state = .created ∨ w.server.dhcps.state = .stopped)
      (timeouts : w.timeouts = 0) (recv : w.recv = []) (plist : w.server.dhcps.plist = [])
      (kept : w.deleteCalled = false)
  | started (live : w.released = 0) (state : w.server.dhcps.state = .started)
      (timeouts : w.timeouts = 1) (kept : w.deleteCalled = false)
  | pending (live : w.released = 0) (state : w.server.dhcps.state = .deletePending)
      (timeouts : w.timeouts = 1) (deleted : w.deleteCalled = true)
  | gone (released : w.released = 1) (timeouts : w.timeouts = 0)
      (pcb : w.server.dhcps.dhcpsPcb = none) (plist : w.server.dhcps.plist = [])
      (deleted : w.deleteCalled = true)

/-- The invariant of a run whose steps meet the condition. -/
structure Kept (w : World) : Prop where
  noFault : w.fault = false
  owned : Owned w.server.heap w.server.dhcps.plist
  pcbs : Pcbs w
  phase : Phase w

/-- A new handle satisfies the invariant. -/
theorem kept_new : Kept World.new where
  noFault := rfl
  owned := owned_empty
  pcbs := ⟨List.Perm.refl _, List.nodup_nil, nofun⟩
  phase := .idle rfl (.inl rfl) rfl rfl rfl rfl

/-- A list that owns nothing has no live block. -/
theorem Owned.live_nil {h : Heap} (o : Owned h []) : h.live = [] :=
  List.eq_nil_iff_forall_not_mem.mpr fun b hb => nomatch (o.live b).mp hb

/-- The invariant is what is asked of the handle. -/
theorem Kept.safe {w : World} (k : Kept w) : Safe w := by
  refine ⟨k.noFault, ?_, fun hdel hnone => ?_⟩
  · cases k.phase <;> omega
  · cases k.phase with
    | idle live state timeouts recv plist kept => rw [hdel] at kept; cases kept
    | started live state timeouts kept => rw [hdel] at kept; cases kept
    | pending live state timeouts deleted => rw [hnone] at timeouts; cases timeouts
    | gone released timeouts pcb plist deleted =>
      have hperm := k.pcbs.perm
      have howned := k.owned
      rw [pcb] at hperm
      rw [plist] at howned
      exact ⟨released, hperm, k.pcbs.nodup, howned.live_nil, howned.ok.freed_nodup⟩

/-! ## Every step that meets the condition keeps the invariant -/

/-- Effects are performed in their order. -/
theorem return_append (w : World) (server : Server) (es es' : List Effect) :
    w.return server (es ++ es') = es'.foldl World.perform (w.return server es) :=
  List.foldl_append

/-- `w` after `server` has replaced its pcb. -/
def World.replaced (w : World) (server : Server) : World :=
  { w with
    server := server,
    created := server.dhcps.dhcpsPcb.toList ++ w.created,
    removed := w.server.dhcps.dhcpsPcb.toList ++ w.removed,
    recv := [] }

/-- Replacing a PCB removes the old one, if there is one. -/
theorem return_replace {w : World} (hp : Pcbs w) (server : Server) :
    w.return server (replaceEffects w.server.dhcps.dhcpsPcb server.dhcps.dhcpsPcb) =
      w.replaced server := by
  have hrecv := hp.recv
  unfold World.replaced
  cases hold : w.server.dhcps.dhcpsPcb with
  | none =>
    have hnil : w.recv = [] := List.eq_nil_iff_forall_not_mem.mpr fun pcb hpcb => by
      rw [hold] at hrecv
      cases hrecv pcb hpcb
    rw [← hnil]
    cases server.dhcps.dhcpsPcb <;> rfl
  | some old =>
    have hfilter : w.recv.filter (fun p => decide (p ≠ old)) = [] :=
      List.filter_eq_nil_iff.mpr fun pcb hpcb => by
        have heq := hrecv pcb hpcb
        rw [hold, Option.some.injEq] at heq
        simp [heq]
    rw [← hfilter]
    cases server.dhcps.dhcpsPcb <;> rfl

/-- No pcb is lost or removed twice. -/
theorem Pcbs.replaced {w : World} (hp : Pcbs w) (server : Server)
    (hnew : ∀ pcb ∈ server.dhcps.dhcpsPcb, pcb ∉ w.created) : Pcbs (w.replaced server) where
  perm := hp.perm.append_left _
  nodup := by
    show (server.dhcps.dhcpsPcb.toList ++ w.created).Nodup
    cases h : server.dhcps.dhcpsPcb with
    | none => exact hp.nodup
    | some pcb => exact List.nodup_cons.mpr ⟨hnew pcb h, hp.nodup⟩
  recv := nofun

section Steps

variable {w w' : World}

/-- A start keeps the invariant if it meets the conditions. -/
theorem Kept.start {netif : Option NetifPtr} {ip : UInt32} {udpNew : Option PcbPtr} (k : Kept w)
    (hm : Meets w (.start netif ip udpNew)) (h : w.step (.start netif ip udpNew) = some w') :
    Kept w' := by
  simp only [World.step, Option.ite_none_right_eq_some] at h
  obtain ⟨⟨hlive, hfresh⟩, h⟩ := h
  have hnew : ∀ pcb ∈ udpNew, pcb ∉ w.created := by
    intro pcb hpcb
    cases hpcb
    simpa using hfresh
  rcases dhcpsStart_cases w.server netif ip udpNew with
    ⟨-, ⟨hs, he⟩ | ⟨d, hs, hstate, hl, hpcb, he⟩⟩ | ⟨hsucc, d, pcb, hs, hstate, hl, rfl, hpcb, he⟩
  · -- nothing happens
    rw [hs, he] at h
    cases h
    exact k
  · -- only the pcb is replaced
    rw [hs, he, ← hpcb] at h
    have heq : w' = w.replaced { w.server with dhcps := d } :=
      (Option.some.inj h).symm.trans (return_replace k.pcbs { w.server with dhcps := d })
    rw [heq]
    refine ⟨k.noFault, ?_, k.pcbs.replaced _ (hpcb ▸ hnew), ?_⟩
    · show Owned w.server.heap d.plist
      rw [hl]
      exact k.owned
    · cases k.phase with
      | idle live state timeouts recv plist kept =>
        exact .idle live (hstate ▸ state) timeouts rfl (hl.trans plist) kept
      | started live state timeouts kept => exact .started live (hstate.trans state) timeouts kept
      | pending live state timeouts deleted =>
        exact .pending live (hstate.trans state) timeouts deleted
      | gone released =>
        rw [hlive] at released
        cases released
  · -- the server starts
    have htimeouts := hm hsucc
    rw [hs, he, ← hpcb] at h
    have heq : w' = { w.replaced { w.server with dhcps := d } with
        recv := [pcb], timeouts := w.timeouts + 1 } := by
      rw [← Option.some.inj h, return_append]
      rw [return_replace k.pcbs { w.server with dhcps := d }]
      rfl
    have hpcbs := k.pcbs.replaced { w.server with dhcps := d } (hpcb ▸ hnew)
    rw [heq]
    refine ⟨k.noFault, ?_, ⟨hpcbs.perm, hpcbs.nodup, ?_⟩, ?_⟩
    · show Owned w.server.heap d.plist
      rw [hl]
      exact k.owned
    · intro p hp
      rw [List.mem_singleton.mp hp]
      exact hpcb
    · cases k.phase with
      | idle live state timeouts recv plist kept =>
        exact .started live hstate (by rw [htimeouts]) kept
      | started live state timeouts kept =>
        rw [htimeouts] at timeouts
        cases timeouts
      | pending live state timeouts deleted =>
        rw [htimeouts] at timeouts
        cases timeouts
      | gone released =>
        rw [hlive] at released
        cases released

/-- A stop keeps the invariant if it meets the conditions. -/
theorem Kept.stop {netif : Option NetifPtr} (k : Kept w) (hm : Meets w (.stop netif))
    (h : w.step (.stop netif) = some w') : Kept w' := by
  simp only [World.step, Option.ite_none_right_eq_some] at h
  obtain ⟨hlive, h⟩ := h
  rcases dhcpsStop_cases w.server netif with
    ⟨-, hs, he⟩ | ⟨⟨hsome, hnetif⟩, d, hs, hstate, hl, hpcb, he⟩
  · rw [hs, he] at h
    cases h
    exact k
  · have hnot := hm hsome hnetif
    rw [hs, he, ← hpcb] at h
    generalize hserver : (⟨d, w.server.heap.freeAll
      (w.server.dhcps.plist.flatMap ListNode.blocks)⟩ : Server) = server at h
    have hd : server.dhcps = d := by rw [← hserver]
    have heq : w' = { w.replaced server with timeouts := w.timeouts - 1 } := by
      rw [← Option.some.inj h, return_append, ← hd, return_replace k.pcbs server]
      rfl
    have hpcbs := k.pcbs.replaced server (by rw [hd, hpcb]; nofun)
    rw [heq]
    refine ⟨k.noFault, ?_, ⟨hpcbs.perm, hpcbs.nodup, hpcbs.recv⟩, ?_⟩
    · show Owned server.heap server.dhcps.plist
      rw [hd, hl, ← hserver]
      exact k.owned.freeAll (List.Perm.refl _)
    · have hstate' : server.dhcps.state = .stopped := by rw [hd, hstate]
      have hl' : server.dhcps.plist = [] := by rw [hd, hl]
      cases k.phase with
      | idle live state timeouts recv plist kept =>
        exact .idle live (.inr hstate') (by rw [timeouts]) rfl hl' kept
      | started live state timeouts kept =>
        exact .idle live (.inr hstate') (by rw [timeouts]) rfl hl' kept
      | pending live state => exact absurd state hnot
      | gone released =>
        rw [hlive] at released
        cases released

/-- A deletion keeps the invariant if it meets the conditions. -/
theorem Kept.delete (k : Kept w) (hm : Meets w .delete) (h : w.step .delete = some w') :
    Kept w' := by
  simp only [World.step, Option.ite_none_right_eq_some] at h
  obtain ⟨hlive, h⟩ := h
  unfold dhcpsDelete at h
  by_cases hstate : w.server.dhcps.state = .started
  · -- the deletion is deferred
    rw [if_pos hstate] at h
    cases h
    refine ⟨k.noFault, k.owned, ⟨k.pcbs.perm, k.pcbs.nodup, k.pcbs.recv⟩, ?_⟩
    cases k.phase with
    | idle live state => rw [hstate] at state; rcases state with state | state <;> cases state
    | started live state timeouts kept => exact .pending live rfl timeouts rfl
    | pending live state => rw [hstate] at state; cases state
    | gone released => rw [hlive] at released; cases released
  · rw [if_neg hstate] at h
    obtain hstarted | ⟨hpcb, hl, htimeouts⟩ := hm
    · exact absurd hstarted hstate
    · cases h
      refine ⟨k.noFault, k.owned, ⟨k.pcbs.perm, k.pcbs.nodup, k.pcbs.recv⟩, ?_⟩
      exact .gone (by show w.released + 1 = 1; rw [hlive]) htimeouts hpcb hl rfl

/-- The timer of a started server is armed again. -/
theorem dhcpsTmr_started {s : Server} (h : s.dhcps.state = .started) :
    (dhcpsTmr s).2 = [.sysTimeout] := by
  unfold dhcpsTmr
  dsimp only
  rw [h, if_neg nofun, if_neg (not_not_intro rfl)]
  split <;> rfl

/-- The timer frees a handle whose deletion was deferred. -/
theorem dhcpsTmr_pending {s : Server} (h : s.dhcps.state = .deletePending) :
    dhcpsTmr s = (s, [.freeHandle]) := by
  rw [dhcpsTmr, if_pos h]

/-- A timer that expires keeps the invariant if it meets the conditions. -/
theorem Kept.expire (k : Kept w) (hm : Meets w .expire) (h : w.step .expire = some w') :
    Kept w' := by
  simp only [World.step, Option.ite_none_left_eq_some] at h
  obtain ⟨hsome, h⟩ := h
  cases k.phase with
  | idle live state timeouts => exact absurd timeouts hsome
  | gone released timeouts => exact absurd timeouts hsome
  | started live state timeouts kept =>
    -- the tick asks for the next one
    have hconfig := dhcpsTmr_config w.server
    rw [if_pos live, dhcpsTmr_started state] at h
    cases h
    refine ⟨k.noFault, dhcpsTmr_owned k.owned, ⟨?_, k.pcbs.nodup, ?_⟩, ?_⟩
    · show ((dhcpsTmr w.server).1.dhcps.dhcpsPcb.toList ++ w.removed).Perm w.created
      rw [hconfig.pcb]
      exact k.pcbs.perm
    · intro p hp
      exact hconfig.pcb.trans (k.pcbs.recv p hp)
    · refine .started live (hconfig.state.trans state) ?_ kept
      show w.timeouts - 1 + 1 = 1
      rw [timeouts]
  | pending live state timeouts deleted =>
    -- the tick carries the deletion out
    obtain ⟨hpcb, hl⟩ := hm live state
    rw [if_pos live, dhcpsTmr_pending state] at h
    cases h
    refine ⟨k.noFault, k.owned, ⟨k.pcbs.perm, k.pcbs.nodup, k.pcbs.recv⟩, ?_⟩
    refine .gone ?_ ?_ hpcb hl deleted
    · show w.released + 1 = 1
      rw [live]
    · show w.timeouts - 1 = 0
      rw [timeouts]

/-- A datagram keeps the invariant. -/
theorem Kept.datagram {pcb : PcbPtr} {g : Datagram} (k : Kept w)
    (h : w.step (.datagram pcb g) = some w') : Kept w' := by
  simp only [World.step, Option.ite_none_right_eq_some] at h
  obtain ⟨hrecv, h⟩ := h
  have hpcb := k.pcbs.recv pcb hrecv
  have hconfig := parseMsg_config w.server g.msg g.len
  have hlive : w.released = 0 := by
    cases k.phase with
    | idle live => exact live
    | started live => exact live
    | pending live => exact live
    | gone released timeouts none => rw [none] at hpcb; cases hpcb
  rw [if_pos hlive] at h
  cases h
  refine ⟨k.noFault, parseMsg_owned k.owned _ _, ⟨?_, k.pcbs.nodup, ?_⟩, ?_⟩
  · show ((parseMsg w.server g.msg g.len).1.dhcps.dhcpsPcb.toList ++ w.removed).Perm w.created
    rw [hconfig.pcb]
    exact k.pcbs.perm
  · intro p hp
    exact hconfig.pcb.trans (k.pcbs.recv p hp)
  · cases k.phase with
    | idle live state timeouts recv => rw [recv] at hrecv; cases hrecv
    | started live state timeouts kept =>
      exact .started live (hconfig.state.trans state) timeouts kept
    | pending live state timeouts deleted =>
      exact .pending live (hconfig.state.trans state) timeouts deleted
    | gone released => rw [hlive] at released; cases released

/-- Every step that meets the conditions keeps the invariant. -/
theorem Kept.step {a : Action} (k : Kept w) (hm : Meets w a) (h : w.step a = some w') :
    Kept w' := by
  cases a with
  | start netif ip udpNew => exact k.start hm h
  | stop netif => exact k.stop hm h
  | delete => exact k.delete hm h
  | expire => exact k.expire hm h
  | datagram pcb g => exact k.datagram h

end Steps

/-! ## Runs -/

/-- Every action of the run meets the condition in the state it finds. -/
def AllMeet (w : World) (actions : List Action) : Prop :=
  ∀ before a rest w', actions = before ++ a :: rest →
    Machine.exec World.step w before = some w' → Meets w' a

/-- A run whose steps meet the conditions keeps the invariant. -/
theorem Kept.run {w w' : World} {actions : List Action} (k : Kept w) (hm : AllMeet w actions)
    (h : Machine.exec World.step w actions = some w') : Kept w' := by
  induction actions generalizing w with
  | nil =>
    cases h
    exact k
  | cons a actions ih =>
    obtain ⟨w₁, hstep, h⟩ := Machine.exec_cons_some.mp h
    refine ih (k.step (hm [] a actions w rfl rfl) hstep) (fun before b rest w₂ hl hrun => ?_) h
    exact hm (a :: before) b rest w₂ (by rw [hl]; rfl)
      (Machine.exec_cons_some.mpr ⟨w₁, hstep, hrun⟩)

/-- A run from `dhcps_new` on whose steps all meet the condition reaches only safe
states. -/
theorem safe_of_meets (actions : List Action) (w : World) (hm : AllMeet World.new actions)
    (h : Machine.exec World.step World.new actions = some w) : Safe w :=
  (kept_new.run hm h).safe

/-- `AllMeet`, computed along the run. -/
def allMeet : World → List Action → Bool
  | _, [] => true
  | w, a :: actions =>
    decide (Meets w a) && (w.step a).all fun w' => allMeet w' actions

/-- The test of a whole run is right. -/
theorem allMeet_sound {w : World} {actions : List Action} (h : allMeet w actions = true) :
    AllMeet w actions := by
  induction actions generalizing w with
  | nil =>
    intro before a rest w' hl
    cases before <;> cases hl
  | cons a actions ih =>
    obtain ⟨hmeets, hrest⟩ := (Bool.and_eq_true _ _).mp h
    intro before b rest w' hl hrun
    cases before with
    | nil =>
      cases hl
      cases hrun
      exact of_decide_eq_true hmeets
    | cons c before =>
      cases hl
      obtain ⟨w₁, hstep, hrun⟩ := Machine.exec_cons_some.mp hrun
      rw [hstep] at hrest
      exact ih hrest before b rest w' rfl hrun

/-- The server is stopped and then deleted. -/
theorem safe_of_meets_stop_delete : ∃ w, Machine.exec World.step World.new
      [.start (some 0) (ip4 192 168 4 1) (some 0), .datagram 0 (discover fun _ => 1), .expire,
        .stop (some 0), .delete] = some w ∧ Safe w := by
  obtain ⟨w, hw⟩ := Option.isSome_iff_exists.mp (show (Machine.exec World.step World.new
    [.start (some 0) (ip4 192 168 4 1) (some 0), .datagram 0 (discover fun _ => 1), .expire,
      .stop (some 0), .delete]).isSome by decide +kernel)
  exact ⟨w, hw, safe_of_meets _ w (allMeet_sound (by decide +kernel)) hw⟩

/-! ## Runs that do not meet the condition -/

/-- Start, delete, tick: the handle is freed, its pcb is not, and the next datagram
reaches the freed handle. -/
def deferredDelete : List Action :=
  [.start (some 0) (ip4 192 168 4 1) (some 0), .delete, .expire,
    .datagram 0 (discover fun _ => 1)]

/-- A deferred deletion frees the handle and leaves its PCB to the next datagram. -/
theorem deferredDelete_not_safe : ∃ w,
    Machine.exec World.step World.new deferredDelete = some w ∧ w.fault = true ∧ ¬ Safe w := by
  have hrun : ((Machine.exec World.step World.new deferredDelete).map fun w => w.fault) =
      some true := by decide +kernel
  obtain ⟨w, hw, hfault⟩ := Option.map_eq_some_iff.mp hrun
  refine ⟨w, hw, hfault, fun hsafe => ?_⟩
  rw [hsafe.noFault] at hfault
  cases hfault

section Unsafe

variable {w w' : World}

/-- A start outside the conditions leaves the handle unsafe. -/
theorem start_unsafe {netif : Option NetifPtr} {ip : UInt32} {udpNew : Option PcbPtr}
    (k : Kept w) (hm : ¬ Meets w (.start netif ip udpNew))
    (h : w.step (.start netif ip udpNew) = some w') : ¬ Safe w' := by
  obtain ⟨hsucc, htimeouts⟩ := Classical.not_imp.mp hm
  simp only [World.step, Option.ite_none_right_eq_some] at h
  obtain ⟨-, h⟩ := h
  rcases dhcpsStart_cases w.server netif ip udpNew with
    ⟨hno, -⟩ | ⟨-, d, pcb, hs, hstate, hl, rfl, hpcb, he⟩
  · exact absurd hsucc hno
  · rw [hs, he, ← hpcb, return_append, return_replace k.pcbs { w.server with dhcps := d }] at h
    cases h
    intro hsafe
    have hone : w.timeouts + 1 ≤ 1 := hsafe.one
    omega

/-- A freed handle leaves a pcb or a lease behind, if it has one. -/
theorem leak_unsafe (k : Kept w)
    (h : ¬ (w.server.dhcps.dhcpsPcb = none ∧ w.server.dhcps.plist = []))
    (hremoved : w'.removed = w.removed) (hcreated : w'.created = w.created)
    (hheap : w'.server.heap = w.server.heap) (hdel : w'.deleteCalled = true)
    (hnone : w'.timeouts = 0) : ¬ Safe w' := by
  intro hsafe
  obtain ⟨-, hperm, -, hlive, -⟩ := hsafe.released hdel hnone
  rw [hremoved, hcreated] at hperm
  rw [hheap] at hlive
  refine h ⟨?_, ?_⟩
  · have hlen := (k.pcbs.perm.trans hperm.symm).length_eq
    cases hpcb : w.server.dhcps.dhcpsPcb with
    | none => rfl
    | some pcb =>
      rw [hpcb, Option.toList_some, List.length_append, List.length_singleton] at hlen
      omega
  · cases hl : w.server.dhcps.plist with
    | nil => rfl
    | cons p plist =>
      have hp : p.pnode ∈ w.server.heap.live := by
        rw [k.owned.live, hl]
        exact List.mem_cons_self ..
      rw [hlive] at hp
      cases hp

/-- A stop outside the conditions leaves the handle unsafe. -/
theorem stop_unsafe {netif : Option NetifPtr} (k : Kept w) (hm : ¬ Meets w (.stop netif))
    (h : w.step (.stop netif) = some w') : ¬ Safe w' := by
  obtain ⟨hsome, hm⟩ := Classical.not_imp.mp hm
  obtain ⟨hnetif, hstate⟩ := Classical.not_imp.mp hm
  have hpending := not_not.mp hstate
  simp only [World.step, Option.ite_none_right_eq_some] at h
  obtain ⟨hlive, h⟩ := h
  rcases dhcpsStop_cases w.server netif with ⟨hno, -⟩ | ⟨-, d, hs, -, -, hpcb, he⟩
  · exact absurd ⟨hsome, hnetif⟩ hno
  · -- the deletion is cancelled
    rw [hs, he, ← hpcb, return_append, return_replace k.pcbs ⟨d, _⟩] at h
    cases h
    intro hsafe
    cases k.phase with
    | idle live state => rw [hpending] at state; rcases state with state | state <;> cases state
    | started live state => rw [hpending] at state; cases state
    | pending live state timeouts deleted =>
      have hone := (hsafe.released deleted (show w.timeouts - 1 = 0 by rw [timeouts])).1
      exact absurd (hlive.symm.trans hone) nofun
    | gone released => rw [hlive] at released; cases released

/-- A timeout that is pending on a freed handle. -/
theorem expire_freed (htimeouts : w.timeouts ≠ 0) (hfreed : w.released ≠ 0) :
    Machine.exec World.step w [.expire] =
      some { w with timeouts := w.timeouts - 1, fault := true } := by
  have hstep : w.step .expire = some { w with timeouts := w.timeouts - 1, fault := true } := by
    rw [World.step, if_neg htimeouts]
    exact if_neg hfreed
  rw [Machine.exec, hstep]
  rfl

/-- A deletion outside the conditions can be continued to an unsafe handle. -/
theorem delete_unsafe (k : Kept w) (hm : ¬ Meets w .delete) (h : w.step .delete = some w') :
    ∃ more w'', Machine.exec World.step w' more = some w'' ∧ ¬ Safe w'' := by
  obtain ⟨hstate, hm⟩ := not_or.mp hm
  simp only [World.step, Option.ite_none_right_eq_some] at h
  obtain ⟨hlive, h⟩ := h
  rw [dhcpsDelete, if_neg hstate] at h
  cases h
  cases k.phase with
  | idle live state timeouts recv plist kept =>
    -- a failed start has left a pcb
    refine ⟨[], _, rfl, leak_unsafe k (fun hnone => hm ⟨hnone.1, hnone.2, timeouts⟩) rfl rfl rfl rfl
      timeouts⟩
  | started live state => exact absurd state hstate
  | pending live state timeouts deleted =>
    -- the tick of the deferred deletion is still to come
    refine ⟨[.expire], _, expire_freed ?_ (Nat.succ_ne_zero _), fun hsafe => ?_⟩
    · show w.timeouts ≠ 0
      rw [timeouts]
      exact Nat.one_ne_zero
    · cases hsafe.noFault
  | gone released => rw [hlive] at released; cases released

/-- A timer that expires outside the conditions leaves the handle unsafe. -/
theorem expire_unsafe (k : Kept w) (hm : ¬ Meets w .expire) (h : w.step .expire = some w') :
    ¬ Safe w' := by
  obtain ⟨hlive, hm⟩ := Classical.not_imp.mp hm
  obtain ⟨hstate, hm⟩ := Classical.not_imp.mp hm
  simp only [World.step, Option.ite_none_left_eq_some] at h
  obtain ⟨hsome, h⟩ := h
  rw [if_pos hlive, dhcpsTmr_pending hstate] at h
  cases h
  cases k.phase with
  | idle live state timeouts => exact absurd timeouts hsome
  | started live state => rw [hstate] at state; cases state
  | pending live state timeouts deleted =>
    exact leak_unsafe k hm rfl rfl rfl deleted (show w.timeouts - 1 = 0 by rw [timeouts])
  | gone released timeouts => exact absurd timeouts hsome

/-- After a first step that does not meet the condition, the run can be continued
to an unsafe state. -/
theorem unsafe_of_not_meets {a : Action} (k : Kept w) (hm : ¬ Meets w a)
    (h : w.step a = some w') :
    ∃ more w'', Machine.exec World.step w' more = some w'' ∧ ¬ Safe w'' := by
  cases a with
  | start netif ip udpNew => exact ⟨[], w', rfl, start_unsafe k hm h⟩
  | stop netif => exact ⟨[], w', rfl, stop_unsafe k hm h⟩
  | delete => exact delete_unsafe k hm h
  | expire => exact ⟨[], w', rfl, expire_unsafe k hm h⟩
  | datagram pcb g => exact absurd trivial hm

end Unsafe

end PicoHost.Dhcps
