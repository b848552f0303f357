import PicoHost.Dhcps.Reply

/-!
# The countdown of a lease

`dhcps_tmr` takes one from the timer of every lease and ends those that reach zero,
so a lease with the timer `t` has `ticksLeft t` ticks to live: `t` of them, but 2 ^ 32
if `t` is zero. `holdsLease_after`: that many ticks end a lease, no fewer, in every run in which
the client is silent and the server does not evict it. The pool plays no role here.
-/

namespace PicoHost.Dhcps

/-! ## Runs with any pool -/

/-- A datagram keeps the MACs of the leases apart. -/
theorem handleDhcp_distinct {s : Server} (h : Distinct s) (g : Datagram) :
    Distinct (handleDhcp s g).1 := by
  rw [handleDhcp_fst]
  refine ⟨parseMsg_owned h.owned g.msg g.len, ?_⟩
  by_cases hm : g.msg.word Msg.options = magicCookie
  · exact (parseMsg_lease h g.msg g.len hm).1
  · rw [parseMsg_of_ne s g.len hm]
    exact h.macs

/-- Expired leases leave the MACs of the others apart. -/
theorem expireLeases_macs {plist : List ListNode} (h : (macs plist).Nodup) :
    (macs (expireLeases plist).1).Nodup := by
  obtain ⟨kept, hsub, hkept, -⟩ := expireLeases_spec plist
  rw [hkept, macs, List.map_map]
  exact h.sublist (hsub.map _)

/-- The list after a tick of a started server: what expiry leaves, or that without an evicted
lease. -/
theorem dhcpsTmr_plist {s : Server} (hstate : s.dhcps.state = .started)
    (o : Owned s.heap s.dhcps.plist) :
    (dhcpsTmr s).1.dhcps.plist.Sublist (expireLeases s.dhcps.plist).1 := by
  have hdel : ¬ s.dhcps.state = .deletePending := by
    rw [hstate]
    nofun
  rw [dhcpsTmr, if_neg hdel, if_neg (not_not_intro hstate)]
  dsimp only
  split
  · exact (killOldestDhcpsPool_spec (expireLeases_owned o)).1
  · exact List.Sublist.refl _

/-- The timer keeps the MACs of the leases apart. -/
theorem dhcpsTmr_distinct {s : Server} (hstate : s.dhcps.state = .started) (h : Distinct s) :
    Distinct (dhcpsTmr s).1 :=
  ⟨dhcpsTmr_owned h.owned,
    (expireLeases_macs h.macs).sublist ((dhcpsTmr_plist hstate h.owned).map _)⟩

/-- A started server whose clients have at most one lease each. -/
structure Serving (s : Server) : Prop extends Distinct s where
  state : s.dhcps.state = .started

/-- A server goes on serving after a datagram or a tick. -/
theorem Serving.step {s : Server} (h : Serving s) (i : Input) : Serving (step s i).1 := by
  have hstate := (step_config s i).state.trans h.state
  cases i with
  | datagram g => exact ⟨handleDhcp_distinct h.toDistinct g, hstate⟩
  | tick => exact ⟨dhcpsTmr_distinct h.state h.toDistinct, hstate⟩

/-- A server goes on serving, whatever comes. -/
theorem Serving.after {s : Server} (h : Serving s) (inputs : List Input) :
    Serving (after s inputs) :=
  Machine.run_inv (P := Serving) (fun _ i ht => ht.step i) h inputs

/-- A start is on a handle without leases. -/
theorem Start.serving (x : Start) : Serving x.server := by
  have hl : x.server.dhcps.plist = [] := by
    rw [x.server_eq]
    exact x.plist
  have hh : x.server.heap = x.before.heap := by
    rw [x.server_eq]
  refine ⟨⟨?_, ?_⟩, x.server_state⟩
  · rw [hl, hh]
    exact x.heap
  · rw [hl]
    exact List.nodup_nil

/-! ## Timers -/

/-- The timers of the leases of the client `mac`. -/
def timersOf (mac : Mac) (s : Server) : List UInt32 :=
  (leasesOf mac s.dhcps.plist).map fun p => p.pool.leaseTimer

/-- The client has a lease. -/
def HoldsLease (s : Server) (mac : Mac) : Prop := mac ∈ macs s.dhcps.plist

/-- A client has a lease if its MAC is in the list. -/
theorem leasesOf_ne_nil {mac : Mac} {plist : List ListNode} :
    leasesOf mac plist ≠ [] ↔ mac ∈ macs plist := by
  rw [ne_eq, leasesOf, List.filter_eq_nil_iff, macs, List.mem_map]
  simp only [decide_eq_true_iff, not_forall, not_not, exists_prop]

/-- A client holds a lease if it has a timer. -/
theorem holdsLease_iff_timersOf {s : Server} {mac : Mac} :
    HoldsLease s mac ↔ timersOf mac s ≠ [] := by
  rw [timersOf, ne_eq, List.map_eq_nil_iff]
  exact leasesOf_ne_nil.symm

/-- Another client's leases do not matter to this one. -/
theorem leasesOf_othersOf {mac other : Mac} (h : other ≠ mac) (plist : List ListNode) :
    leasesOf mac (othersOf other plist) = leasesOf mac plist := by
  rw [leasesOf, othersOf, List.filter_filter]
  refine List.filter_congr fun p _ => ?_
  by_cases hp : p.pool.mac = mac
  · have hne : p.pool.mac ≠ other := fun heq => h (heq.symm.trans hp)
    simp [hp, Ne.symm h]
  · simp [hp]

/-- Expiry looks at every lease by itself. -/
theorem leasesOf_expireLeases (mac : Mac) (plist : List ListNode) :
    leasesOf mac (expireLeases plist).1 = (expireLeases (leasesOf mac plist)).1 := by
  induction plist with
  | nil => rfl
  | cons p plist ih =>
    unfold leasesOf at ih ⊢
    by_cases hp : p.pool.mac = mac
    · rw [List.filter_cons_of_pos (by simp [hp]), expireLeases, expireLeases]
      dsimp only
      split
      · exact ih
      · rw [List.filter_cons_of_pos (by simp [hp]), ih]
    · rw [List.filter_cons_of_neg (by simp [hp]), expireLeases]
      dsimp only
      split
      · exact ih
      · rw [List.filter_cons_of_neg (by simp [hp]), ih]

/-- The ticks until a timer runs out: it is decremented first and then compared with zero. -/
def ticksLeft (t : UInt32) : Nat := (t - 1).toNat + 1

/-- A lease lasts as many ticks as its timer says. -/
theorem ticksLeft_of_ne {t : UInt32} (h : t ≠ 0) : ticksLeft t = t.toNat := by
  have hpos : t.toNat ≠ 0 := fun h0 => h (UInt32.toNat_inj.mp h0)
  have h1 : (1 : UInt32).toNat = 1 := rfl
  have hlt := t.toNat_lt
  rw [ticksLeft, UInt32.toNat_sub, h1]
  omega

/-- A lease lasts at least one tick. -/
theorem ticksLeft_pos (t : UInt32) : 0 < ticksLeft t := Nat.zero_lt_succ _

/-- A tick takes one away. -/
theorem ticksLeft_sub {t : UInt32} (h : t - 1 ≠ 0) : ticksLeft t = ticksLeft (t - 1) + 1 := by
  rw [ticksLeft_of_ne h]
  rfl

/-- The last tick -/
theorem ticksLeft_eq_one {t : UInt32} (h : t - 1 = 0) : ticksLeft t = 1 := by
  rw [ticksLeft, h]
  rfl

/-! ## One input -/

section Step

variable {s : Server} {mac : Mac}

/-- Datagrams of other clients leave a client's lease alone. -/
theorem timersOf_datagram (h : Distinct s) {g : Datagram}
    (hg : g.msg.word Msg.options = magicCookie → g.msg.chaddr ≠ mac) :
    timersOf mac (handleDhcp s g).1 = timersOf mac s := by
  rw [handleDhcp_fst]
  by_cases hm : g.msg.word Msg.options = magicCookie
  -- the sender's leases may change, all others stay
  · have hothers : othersOf g.msg.chaddr (parseMsg s g.msg g.len).1.dhcps.plist =
        othersOf g.msg.chaddr s.dhcps.plist := by
      obtain ⟨hnd, hcase⟩ := parseMsg_lease h g.msg g.len hm
      rcases hcase with ⟨pnode, pre, post, hhas, -⟩ | ⟨hl, -⟩
      · rw [hhas.plist] at hnd ⊢
        rw [othersOf_split hhas.mac hnd, hhas.others]
      · rw [hl]
        exact othersOf_eq_self fun p hp => (mem_othersOf.mp hp).2
    rw [timersOf, timersOf, ← leasesOf_othersOf (hg hm), hothers, leasesOf_othersOf (hg hm)]
  · rw [parseMsg_of_ne s g.len hm]

/-- A reply that offers or acknowledges leaves the client one lease, with a full timer. -/
theorem timersOf_reply (h : Distinct s) {g : Datagram} {sent : Sent}
    (hsent : (handleDhcp s g).2 = some sent)
    (htype : sent.type = dhcpOffer ∨ sent.type = dhcpAck) :
    timersOf g.msg.chaddr (handleDhcp s g).1 = [s.dhcps.leaseTimer] := by
  have hm : g.msg.word Msg.options = magicCookie := by
    by_contra hm
    rw [handleDhcp, parseMsg_of_ne s g.len hm] at hsent
    cases hsent
  obtain ⟨hnd, hcase⟩ := parseMsg_lease h g.msg g.len hm
  unfold handleDhcp at hsent ⊢
  dsimp only at hsent ⊢
  generalize parseMsg s g.msg g.len = r at *
  rcases hcase with ⟨pnode, pre, post, hhas, -⟩ | ⟨-, hret⟩
  · rw [hhas.plist] at hnd
    rw [timersOf, hhas.plist, leasesOf_split hhas.mac hnd, ← hhas.timer]
    rfl
  -- without a lease the reply is a NAK, if there is one
  · rcases hret with hret | hret <;> rw [hret] at hsent <;> cases hsent
    rcases htype with htype | htype <;> cases htype

/-- If the lease of `mac` outlives the tick, it is not evicted at its end. -/
def Spares (s : Server) (mac : Mac) : Prop :=
  mac ∈ macs (expireLeases s.dhcps.plist).1 → HoldsLease (dhcpsTmr s).1 mac

instance (s : Server) (mac : Mac) : Decidable (Spares s mac) :=
  inferInstanceAs (Decidable (mac ∈ macs _ → mac ∈ macs _))

/-- A tick that spares a lease does to the client's leases what expiry does to them. -/
theorem leasesOf_tick (h : Serving s) (hspare : Spares s mac) {p : ListNode}
    (hp : leasesOf mac s.dhcps.plist = [p]) :
    leasesOf mac (dhcpsTmr s).1.dhcps.plist = (expireLeases [p]).1 := by
  have hexpire := leasesOf_expireLeases mac s.dhcps.plist
  rw [hp] at hexpire
  have hsub : (leasesOf mac (dhcpsTmr s).1.dhcps.plist).Sublist (expireLeases [p]).1 :=
    hexpire ▸ (dhcpsTmr_plist h.state h.owned).filter _
  have hone : (expireLeases [p]).1.length ≤ 1 := by
    obtain ⟨kept, hkept, hl, -⟩ := expireLeases_spec [p]
    rw [hl, List.length_map]
    exact hkept.length_le
  -- the eviction removes no more than what the client has left, and it spares that
  refine hsub.eq_of_length_le ?_
  by_cases hmac : mac ∈ macs (expireLeases s.dhcps.plist).1
  · have hne := leasesOf_ne_nil.mpr (hspare hmac)
    exact Nat.le_trans hone (List.length_pos_iff.mpr hne)
  · have hnil : (expireLeases [p]).1 = [] := by
      rw [← hexpire]
      exact not_not.mp fun hne => hmac (leasesOf_ne_nil.mp hne)
    rw [hnil]
    exact Nat.zero_le _

/-- A tick takes one from the timer, and ends the lease at zero. -/
theorem timersOf_tick (h : Serving s) (hspare : Spares s mac) {t : UInt32}
    (ht : timersOf mac s = [t]) :
    timersOf mac (dhcpsTmr s).1 = if t - 1 = 0 then [] else [t - 1] := by
  obtain ⟨p, hp, rfl⟩ := List.map_eq_singleton_iff.mp ht
  rw [timersOf, leasesOf_tick h hspare hp, expireLeases]
  dsimp only
  split <;> rfl

/-- Without a lease, a tick makes none. -/
theorem timersOf_tick_nil (h : Serving s) (ht : timersOf mac s = []) :
    timersOf mac (dhcpsTmr s).1 = [] := by
  rw [timersOf, List.map_eq_nil_iff] at ht ⊢
  have hsub : (leasesOf mac (dhcpsTmr s).1.dhcps.plist).Sublist
      (leasesOf mac (expireLeases s.dhcps.plist).1) := (dhcpsTmr_plist h.state h.owned).filter _
  rw [leasesOf_expireLeases, ht] at hsub
  exact List.sublist_nil.mp hsub

end Step

/-! ## Runs without the client -/

/-- Inputs from `s` on in which the lease of `mac` is not renewed: no datagram is the
client's, and no tick evicts the lease. -/
structure Unrenewed (s : Server) (mac : Mac) (inputs : List Input) : Prop where
  others : ∀ g, .datagram g ∈ inputs → g.msg.word Msg.options = magicCookie → g.msg.chaddr ≠ mac
  spared : ∀ us vs, inputs = us ++ .tick :: vs → Spares (after s us) mac

/-- What is not renewed at first is not renewed later. -/
theorem Unrenewed.tail {s : Server} {mac : Mac} {i : Input} {inputs : List Input}
    (h : Unrenewed s mac (i :: inputs)) : Unrenewed (step s i).1 mac inputs where
  others g hg := h.others g (List.mem_cons_of_mem i hg)
  spared us vs hl := h.spared (i :: us) vs (by rw [hl]; rfl)

section Unrenewed

variable {s : Server} {mac : Mac} {inputs : List Input}

/-- A client without a lease stays without. -/
theorem timersOf_after_nil (h : Serving s) (hq : Unrenewed s mac inputs)
    (ht : timersOf mac s = []) : timersOf mac (after s inputs) = [] := by
  induction inputs generalizing s with
  | nil => exact ht
  | cons i inputs ih =>
    refine ih (h.step i) hq.tail ?_
    cases i with
    | datagram g =>
      exact (timersOf_datagram h.toDistinct (hq.others g (List.mem_cons_self ..))).trans ht
    | tick => exact timersOf_tick_nil h ht

/-- A lease that is not renewed ends with the tick that its timer counts down to. -/
theorem holdsLease_after {t : UInt32} (h : Serving s) (hq : Unrenewed s mac inputs)
    (ht : timersOf mac s = [t]) :
    HoldsLease (after s inputs) mac ↔ numTicks inputs < ticksLeft t := by
  induction inputs generalizing s t with
  | nil =>
    have hhas : timersOf mac s ≠ [] := ht ▸ List.cons_ne_nil _ _
    exact ⟨fun _ => ticksLeft_pos t, fun _ => holdsLease_iff_timersOf.mpr hhas⟩
  | cons i inputs ih =>
    cases i with
    | datagram g =>
      have ht' := (timersOf_datagram h.toDistinct (hq.others g (List.mem_cons_self ..))).trans ht
      exact ih (h.step (.datagram g)) hq.tail ht'
    | tick =>
      have ht' := timersOf_tick h (hq.spared [] inputs rfl) ht
      show _ ↔ numTicks inputs + 1 < ticksLeft t
      by_cases hend : t - 1 = 0
      · -- the last tick
        rw [if_pos hend] at ht'
        have hnil := timersOf_after_nil (h.step .tick) hq.tail ht'
        have hnot : ¬ HoldsLease (after s (.tick :: inputs)) mac := fun hhas =>
          holdsLease_iff_timersOf.mp hhas hnil
        rw [ticksLeft_eq_one hend]
        exact ⟨fun hhas => absurd hhas hnot, fun hlt => absurd hlt (by omega)⟩
      · rw [if_neg hend] at ht'
        rw [ticksLeft_sub hend, Nat.add_lt_add_iff_right]
        exact ih (h.step .tick) hq.tail ht'

end Unrenewed

end PicoHost.Dhcps
