import PicoHost.Dhcps.Run

/-!
# Replies and leases

- `reply_matches_leases`: what one datagram does to the lease list agrees with
  the reply.
- `offer_then_ack`: an offered address stays the client's until it requests it,
  whatever other clients do in between, if its lease does not run out and is not
  evicted.
-/

namespace PicoHost.Dhcps

open ByteOrder

/-! ## One datagram -/

/-- In every state of a run with a computed pool, the lease list agrees with the
answer: OFFER and ACK leave exactly one lease for the sender, of the address in
the reply and with a full timer; NAK and RELEASE leave none; and nothing happens
to the leases of other clients. -/
theorem reply_matches_leases (x : Start) (hx : x.Auto) (inputs : List Input) (m : Msg)
    (len : UInt16) (hm : m.word Msg.options = magicCookie) :
    ((parseMsg (after x.server inputs) m len).2 = .offer ∨
        (parseMsg (after x.server inputs) m len).2 = .ack →
      ∃ p, leasesOf m.chaddr (parseMsg (after x.server inputs) m len).1.dhcps.plist = [p] ∧
        p.pool.ip = (createMsg (parseMsg (after x.server inputs) m len).1.dhcps m).yiaddr ∧
        p.pool.leaseTimer = (after x.server inputs).dhcps.leaseTimer) ∧
    ((parseMsg (after x.server inputs) m len).2 = .nak ∨
        (parseMsg (after x.server inputs) m len).2 = .release →
      ∀ p ∈ (parseMsg (after x.server inputs) m len).1.dhcps.plist, p.pool.mac ≠ m.chaddr) ∧
    othersOf m.chaddr (parseMsg (after x.server inputs) m len).1.dhcps.plist =
      othersOf m.chaddr (after x.server inputs).dhcps.plist := by
  have hinv := after_inv (x.server_inv hx.pool) inputs
  generalize after x.server inputs = s at *
  obtain ⟨hinv', hcase⟩ := parseMsg_cases hinv m len hm
  generalize parseMsg s m len = r at *
  rcases hcase with ⟨pnode, pre, post, hhas, -, hnak, hrelease⟩ | ⟨hl, hret⟩
  · have hnd := hinv'.leases.distinct
    have hothers := hhas.others
    rw [hhas.plist] at hnd ⊢
    refine ⟨fun _ => ⟨pnode, leasesOf_split hhas.mac hnd, hhas.ip, hhas.timer⟩, ?_, ?_⟩
    · rintro (h | h)
      · exact absurd h hnak
      · exact absurd h hrelease
    · rw [othersOf_split hhas.mac hnd, hothers]
  · have hne : ∀ p ∈ r.1.dhcps.plist, p.pool.mac ≠ m.chaddr := by
      intro p hp
      rw [hl] at hp
      exact (mem_othersOf.mp hp).2
    refine ⟨?_, fun _ => hne, (othersOf_eq_self hne).trans hl⟩
    rintro (h | h) <;> rcases hret with h' | h' <;> rw [h] at h' <;> cases h'

theorem reply_matches_leases_discover :
    ∃ p, leasesOf (fun _ => 1) (parseMsg (after Start.default.server [])
        (discover fun _ => 1).msg 4).1.dhcps.plist = [p] ∧
      p.pool.ip = ip4 192 168 4 2 := by
  have hm := word_of_holds (discover_carries fun _ => 1).holds.1
  have hoffer : (parseMsg (after Start.default.server []) (discover fun _ => 1).msg 4).2 =
      .offer := by decide +kernel
  have hyi : (createMsg (parseMsg (after Start.default.server [])
      (discover fun _ => 1).msg 4).1.dhcps (discover fun _ => 1).msg).yiaddr =
      ip4 192 168 4 2 := by decide +kernel
  obtain ⟨p, hl, hip, -⟩ := (reply_matches_leases Start.default Start.default_auto []
    (discover fun _ => 1).msg 4 hm).1 (.inl hoffer)
  rw [discover_chaddr] at hl
  exact ⟨p, hl, hip.trans hyi⟩

/-! ## An offered address -/

/-- The client `mac` holds a lease of `a` with `t` ticks left. -/
def LeasedFor (s : Server) (mac : Mac) (a : UInt32) (t : Nat) : Prop :=
  ∃ p ∈ s.dhcps.plist, p.pool.mac = mac ∧ p.pool.ip = a ∧ p.pool.leaseTimer.toNat = t

/-- An OFFER or ACK goes to a client that has the lease of its address. -/
theorem handleDhcp_lease {s : Server} (inv : Inv s) {g : Datagram} {sent : Sent}
    (h : (handleDhcp s g).2 = some sent) (ht : sent.type = dhcpOffer ∨ sent.type = dhcpAck) :
    sent.msg.yiaddr ≠ 0 ∧
      LeasedFor (handleDhcp s g).1 g.msg.chaddr sent.msg.yiaddr s.dhcps.leaseTimer.toNat := by
  have hcookie : g.msg.word Msg.options = magicCookie := by
    by_contra hm
    rw [handleDhcp, parseMsg_of_ne s g.len hm] at h
    cases h
  obtain ⟨-, hcase⟩ := parseMsg_cases inv g.msg g.len hcookie
  unfold handleDhcp at h ⊢
  dsimp only at h ⊢
  generalize parseMsg s g.msg g.len = r at *
  have hyi : (r.2 = .offer ∨ r.2 = .ack) ∧ sent.msg.yiaddr = r.1.dhcps.clientAddress := by
    cases hret : r.2 <;> rw [hret] at h <;> cases h
    case offer => exact ⟨.inl rfl, rfl⟩
    case ack => exact ⟨.inr rfl, rfl⟩
    case nak => rcases ht with ht | ht <;> cases ht
  rcases hcase with ⟨pnode, pre, post, hhas, hzero, -⟩ | ⟨-, hret⟩
  · rw [hyi.2]
    refine ⟨hzero, pnode, ?_, hhas.mac, hhas.ip, by rw [hhas.timer]⟩
    rw [hhas.plist]
    exact List.mem_append_right _ (List.mem_cons_self ..)
  · rcases hyi.1 with h' | h' <;> rcases hret with h'' | h'' <;> rw [h'] at h'' <;> cases h''

/-- The tick of a lease that does not run out. -/
theorem mem_expireLeases {plist : List ListNode} {p : ListNode} (hp : p ∈ plist)
    (ht : p.pool.leaseTimer - 1 ≠ 0) :
    p.restart (p.pool.leaseTimer - 1) ∈ (expireLeases plist).1 := by
  induction plist with
  | nil => cases hp
  | cons q plist ih =>
    rw [expireLeases]
    rcases List.mem_cons.mp hp with rfl | hp
    · rw [if_neg ht]
      exact List.mem_cons_self ..
    · split
      · exact ih hp
      · exact List.mem_cons_of_mem _ (ih hp)

section Leased

variable {s : Server} {mac : Mac} {a : UInt32} {t : Nat}

/-- Datagrams of other clients leave a lease alone. -/
theorem LeasedFor.datagram (inv : Inv s) (h : LeasedFor s mac a t) {g : Datagram}
    (hg : g.msg.chaddr ≠ mac) : LeasedFor (handleDhcp s g).1 mac a t := by
  obtain ⟨p, hp, hmac, hip, ht⟩ := h
  refine ⟨p, ?_, hmac, hip, ht⟩
  rw [handleDhcp_fst]
  have hother : p ∈ othersOf g.msg.chaddr s.dhcps.plist :=
    mem_othersOf.mpr ⟨hp, fun h => hg (h.symm.trans hmac)⟩
  by_cases hm : g.msg.word Msg.options = magicCookie
  · obtain ⟨-, hcase⟩ := parseMsg_cases inv g.msg g.len hm
    rcases hcase with ⟨pnode, pre, post, hhas, -⟩ | ⟨hl, -⟩
    · rw [hhas.others, List.mem_append] at hother
      rw [hhas.plist]
      rcases hother with h | h
      · exact List.mem_append_left _ h
      · exact List.mem_append_right _ (List.mem_cons_of_mem _ h)
    · rw [hl]
      exact hother
  · rw [parseMsg_of_ne s g.len hm]
    exact hp

/-- A tick takes one from the timer, if neither expiry nor eviction ends the
lease. -/
theorem LeasedFor.tick (hstate : s.dhcps.state = .started) (h : LeasedFor s mac a (t + 1))
    (ht : 0 < t) (hfew : (expireLeases s.dhcps.plist).1.length ≤ maxStationNum) :
    LeasedFor (dhcpsTmr s).1 mac a t := by
  obtain ⟨p, hp, hmac, hip, htimer⟩ := h
  have h1 : (1 : UInt32).toNat = 1 := rfl
  have hsub : (p.pool.leaseTimer - 1).toNat = t := by
    have hlt := p.pool.leaseTimer.toNat_lt
    rw [UInt32.toNat_sub, h1, htimer]
    omega
  have hne : p.pool.leaseTimer - 1 ≠ 0 := by
    intro h0
    rw [h0] at hsub
    exact absurd hsub (Nat.ne_of_lt ht)
  refine ⟨p.restart (p.pool.leaseTimer - 1), ?_, hmac, hip, hsub⟩
  have hcount : ¬ maxStationNum < (expireLeases s.dhcps.plist).1.length % 256 :=
    Nat.not_lt.mpr (Nat.le_trans (Nat.mod_le _ _) hfew)
  have hdel : ¬ s.dhcps.state = .deletePending := by
    rw [hstate]
    nofun
  rw [dhcpsTmr, if_neg hdel, if_neg (not_not_intro hstate)]
  dsimp only
  rw [if_neg hcount]
  exact mem_expireLeases hp hne

end Leased

/-! ### Between the offer and the request -/

/-- The number of ticks. -/
def numTicks : List Input → Nat
  | [] => 0
  | .datagram _ :: inputs => numTicks inputs
  | .tick :: inputs => numTicks inputs + 1

/-- Inputs from `s` on that leave a lease of `mac` with `t` ticks left alone:
datagrams of other clients, and fewer than `t` ticks, none of which finds more
than `MAX_STATION_NUM` leases that go on. -/
structure Quiet (s : Server) (mac : Mac) (t : Nat) (inputs : List Input) : Prop where
  others : ∀ g, .datagram g ∈ inputs → g.msg.chaddr ≠ mac
  ticks : numTicks inputs < t
  few : ∀ us vs, inputs = us ++ .tick :: vs →
    (expireLeases (after s us).dhcps.plist).1.length ≤ maxStationNum

theorem Quiet.tail {s : Server} {mac : Mac} {t t' : Nat} {i : Input} {inputs : List Input}
    (h : Quiet s mac t (i :: inputs)) (ht : numTicks inputs < t') :
    Quiet (step s i).1 mac t' inputs where
  others g hg := h.others g (List.mem_cons_of_mem i hg)
  ticks := ht
  few us vs hl := h.few (i :: us) vs (by rw [hl]; rfl)

/-- The lease survives, and nobody else is offered or acknowledged its address. -/
theorem LeasedFor.after {s : Server} {mac : Mac} {a : UInt32} {t : Nat} {inputs : List Input}
    (inv : Inv s) (hstate : s.dhcps.state = .started) (h : LeasedFor s mac a t)
    (hq : Quiet s mac t inputs) :
    (∃ t', LeasedFor (after s inputs) mac a t') ∧
      ∀ sent, some sent ∈ replies s inputs →
        sent.type = dhcpOffer ∨ sent.type = dhcpAck → sent.msg.yiaddr ≠ a := by
  induction inputs generalizing s t with
  | nil => exact ⟨⟨t, h⟩, nofun⟩
  | cons i inputs ih =>
    have inv' := step_inv inv i
    have hsame := step_config s i
    have hstate' := hsame.state.trans hstate
    cases i with
    | datagram g =>
      have hg := hq.others g (List.mem_cons_self ..)
      have h' := h.datagram inv hg
      obtain ⟨hlast, hrest⟩ := ih inv' hstate' h' (hq.tail hq.ticks)
      refine ⟨hlast, fun sent hsent htype => ?_⟩
      rcases List.mem_cons.mp hsent with hnow | hlater
      · -- two leases of one address would belong to one client
        obtain ⟨-, q, hqmem, hqmac, hqip, -⟩ := handleDhcp_lease inv hnow.symm htype
        obtain ⟨p, hp, hpmac, hpip, -⟩ := h'
        intro heq
        have hip : host p.pool.ip = host q.pool.ip := by rw [hpip, hqip, heq]
        have hpq : p = q :=
          List.inj_on_of_nodup_map (inv'.leases.sorted.imp Nat.ne_of_lt) hp hqmem hip
        exact hg (hqmac.symm.trans (hpq ▸ hpmac))
      · exact hrest sent hlater htype
    | tick =>
      have hticks : numTicks inputs + 1 < t := hq.ticks
      obtain ⟨t', rfl⟩ : ∃ t', t = t' + 1 := ⟨t - 1, by omega⟩
      have h' := h.tick hstate (by omega) (hq.few [] inputs rfl)
      obtain ⟨hlast, hrest⟩ := ih inv' hstate' h' (hq.tail (by omega))
      refine ⟨hlast, fun sent hsent htype => ?_⟩
      rcases List.mem_cons.mp hsent with hnow | hlater
      · cases hnow
      · exact hrest sent hlater htype

/-! ### The request -/

/-- A client with a lease keeps its address. -/
theorem selectAddress_known {s : Server} (inv : Inv s) {m : Msg} {p : ListNode}
    (hp : p ∈ s.dhcps.plist) (hmac : p.pool.mac = m.chaddr) :
    (selectAddress s m).1.dhcps.clientAddress = p.pool.ip := by
  have hspec := searchPool_cases inv.pool m s.dhcps.leaseTimer inv.leases.sorted
    (fun p hp => (inv.leases.bounds p hp).2) (Nat.le_refl _)
    (s := s.dhcps.startSearch) ⟨rfl, rfl⟩
    ⟨rfl, fun a ha => (inv.leases.hosts_le a ha).1, nofun⟩
  unfold selectAddress
  generalize searchPool m s.dhcps.leaseTimer s.dhcps.startSearch s.dhcps.plist = found at *
  obtain ⟨r, plist, pnode⟩ := found
  rcases hspec with ⟨pre, q, post, hl, hq, -, hres, hclient, -⟩ | ⟨hall, -⟩
  · obtain ⟨rfl, rfl⟩ := Prod.mk.inj hres
    have heq : q = p := List.inj_on_of_nodup_map inv.leases.distinct (by simp [hl]) hp
      (hq.trans hmac.symm)
    exact heq ▸ hclient
  · exact absurd hmac (hall p hp)

/-- A request for the address of the client's lease is acknowledged. -/
theorem handleDhcp_request {s : Server} (inv : Inv s) {g : Datagram} {a : UInt32} {t : Nat}
    {opts : List Tlv} (h : LeasedFor s g.msg.chaddr a t) (hne : a ≠ 0) (hg : g.IsRequest a opts) :
    ∃ ack, (handleDhcp s g).2 = some ack ∧ ack.type = dhcpAck ∧ ack.msg.yiaddr = a := by
  obtain ⟨p, hp, hmac, rfl, -⟩ := h
  obtain ⟨hlo, hhi⟩ := inv.leases.bounds p hp
  have hclient := selectAddress_known inv hp hmac
  have hsame := selectAddress_config s g.msg
  have hcheck : ¬ ((selectAddress s g.msg).1.dhcps.dhcpsPoll.endIp < p.pool.ip ∨
      p.pool.ip = 0) := by
    rw [hsame.poll, inv.pool.end_lt_iff hlo (by omega)]
    exact not_or.mpr ⟨Nat.not_lt.mpr hhi, hne⟩
  have hparse : parseMsg s g.msg g.len = ((selectAddress s g.msg).1, .ack) := by
    have hopts := parseOptions_request (selectAddress s g.msg).1.dhcps hg
    rw [hclient, if_pos rfl] at hopts
    rw [parseMsg, if_pos (word_of_holds hg.holds.1)]
    dsimp only
    rw [hclient, if_neg hcheck, hopts]
    rfl
  rw [handleDhcp, hparse]
  exact ⟨_, rfl, rfl, hclient⟩

/-- After an OFFER of `a` to a client, in any state of a run with a computed
pool, a request for `a` by that client is answered with an ACK of `a`, and in
between no other client is offered or acknowledged `a`, whatever datagrams of
other clients and ticks come in between. -/
theorem offer_then_ack (x : Start) (hx : x.Auto) (before : List Input) (g₀ : Datagram)
    (offer : Sent) (hoffer : (handleDhcp (after x.server before) g₀).2 = some offer)
    (htype : offer.type = dhcpOffer) (between : List Input)
    (hq : Quiet (handleDhcp (after x.server before) g₀).1 g₀.msg.chaddr
      (after x.server before).dhcps.leaseTimer.toNat between)
    (g : Datagram) (hmac : g.msg.chaddr = g₀.msg.chaddr) (opts : List Tlv)
    (hg : g.IsRequest offer.msg.yiaddr opts) :
    (∃ ack, (handleDhcp (after (handleDhcp (after x.server before) g₀).1 between) g).2 =
        some ack ∧ ack.type = dhcpAck ∧ ack.msg.yiaddr = offer.msg.yiaddr) ∧
      ∀ sent, some sent ∈ replies (handleDhcp (after x.server before) g₀).1 between →
        sent.type = dhcpOffer ∨ sent.type = dhcpAck → sent.msg.yiaddr ≠ offer.msg.yiaddr := by
  have inv := after_inv (x.server_inv hx.pool) before
  have hstate := (after_config x.server before).state.trans x.server_state
  obtain ⟨hne, hleased⟩ := handleDhcp_lease inv hoffer (.inl htype)
  have inv₁ := parseMsg_inv inv g₀.msg g₀.len
  have hsame₁ := parseMsg_config (after x.server before) g₀.msg g₀.len
  obtain ⟨⟨t, hlast⟩, hothers⟩ :=
    hleased.after inv₁ (hsame₁.state.trans hstate) hq
  have inv₂ := after_inv inv₁ between
  rw [← hmac] at hlast
  exact ⟨handleDhcp_request inv₂ hlast hne hg, hothers⟩

theorem offer_then_ack_default :
    ∃ ack, (handleDhcp (after (handleDhcp (after Start.default.server [])
        (discover fun _ => 1)).1 [.datagram (discover fun _ => 2), .tick])
        (request (fun _ => 1) (ip4 192 168 4 2))).2 = some ack ∧ ack.type = dhcpAck ∧
      ack.msg.yiaddr = ip4 192 168 4 2 := by
  have hne : (discover fun _ => 2).msg.chaddr ≠ (discover fun _ => 1).msg.chaddr := by
    rw [discover_chaddr, discover_chaddr]
    decide
  have hmac : (request (fun _ => 1) (ip4 192 168 4 2)).msg.chaddr =
      (discover fun _ => 1).msg.chaddr := by
    rw [discover_chaddr, request_chaddr]
  obtain ⟨offer, hoffer⟩ : ∃ offer, (handleDhcp (after Start.default.server [])
      (discover fun _ => 1)).2 = some offer := Option.isSome_iff_exists.mp (by decide +kernel)
  have hsent : ((handleDhcp (after Start.default.server []) (discover fun _ => 1)).2.map
      fun o => (o.type, o.msg.yiaddr)) = some (dhcpOffer, ip4 192 168 4 2) := by decide +kernel
  rw [hoffer] at hsent
  obtain ⟨htype, hyi⟩ := Prod.mk.inj (Option.some.inj hsent)
  have hq : Quiet (handleDhcp (after Start.default.server []) (discover fun _ => 1)).1
      (discover fun _ => 1).msg.chaddr (after Start.default.server []).dhcps.leaseTimer.toNat
      [.datagram (discover fun _ => 2), .tick] := by
    refine ⟨fun g hg => ?_, by decide +kernel, fun us vs hl => ?_⟩
    · rcases List.mem_cons.mp hg with hg | hg
      · cases hg
        exact hne
      · cases List.mem_singleton.mp hg
    · obtain ⟨rfl, rfl⟩ : us = [.datagram (discover fun _ => 2)] ∧ vs = [] := by
        cases us with
        | nil => cases hl
        | cons i us =>
          obtain ⟨rfl, hl⟩ := List.cons.inj hl
          cases us with
          | nil =>
            cases hl
            exact ⟨rfl, rfl⟩
          | cons j us => cases us <;> cases hl
      decide +kernel
  have hreq := request_isRequest (fun _ => 1) (ip4 192 168 4 2)
  rw [← hyi] at hreq ⊢
  rw [← hyi] at hmac
  exact (offer_then_ack Start.default Start.default_auto [] (discover fun _ => 1) offer
    hoffer htype [.datagram (discover fun _ => 2), .tick] hq
    (request (fun _ => 1) offer.msg.yiaddr) hmac _ hreq).1

end PicoHost.Dhcps
