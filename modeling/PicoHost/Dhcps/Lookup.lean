import PicoHost.Dhcps.Reply

/-!
# Addresses by hardware address

`dhcp_search_ip_on_mac` looks a client up in the list of the leases. While a lease lasts, the address
that the client was offered or acknowledged is found for that client and for no other one
(`lookup_after_reply`). `esp_netif_dhcps_get_clients_by_mac` looks many clients up at once
(`getClients_leases`).
-/

namespace PicoHost.Dhcps

open ByteOrder

/-! ## The functions -/

/-- The loop of `dhcp_search_ip_on_mac` (dhcpserver.c:1407–1416) -/
def searchIp (mac : Mac) (ip : UInt32) : List ListNode → Bool × UInt32
  | [] => (false, ip)
  | p :: plist => if p.pool.mac = mac then (true, p.pool.ip) else searchIp mac ip plist

/-- `dhcp_search_ip_on_mac` (dhcpserver.c:1397–1419): what it returns, and `*ip` after it -/
def dhcpSearchIpOnMac (dhcps : Option DhcpsT) (mac : Mac) (ip : UInt32) : Bool × UInt32 :=
  match dhcps with
  | none => (false, ip)
  | some d => searchIp mac ip d.plist

/-- `esp_netif_dhcps_get_clients_by_mac` (esp_netif_lwip.c:1841–1863): the pairs after it, or
`ESP_ERR_ESP_NETIF_INVALID_PARAMS` -/
def espNetifDhcpsGetClientsByMac (dhcps : Option DhcpsT) (num : Int)
    (macIpPair : Option (List (Mac × UInt32))) : Option (List (Mac × UInt32)) :=
  match dhcps, macIpPair with
  | some d, some pairs =>
    if num < 0 then none
    else some ((pairs.take num.toNat).map (fun pair =>
      (pair.1, (dhcpSearchIpOnMac (some d) pair.1 pair.2).2)) ++ pairs.drop num.toNat)
  | _, _ => none

/-! ## What is found -/

section Search

variable {mac : Mac} {ip a : UInt32} {plist : List ListNode}

/-- With one lease a client, its address is found. -/
theorem searchIp_of_mem (h : (macs plist).Nodup) {p : ListNode} (hp : p ∈ plist) (ip : UInt32) :
    searchIp p.pool.mac ip plist = (true, p.pool.ip) := by
  induction plist with
  | nil => cases hp
  | cons q plist ih =>
    obtain ⟨hq, hrest⟩ : q.pool.mac ∉ macs plist ∧ (macs plist).Nodup := List.nodup_cons.mp h
    rw [searchIp]
    rcases List.mem_cons.mp hp with rfl | hp
    · rw [if_pos rfl]
    · have hmem : p.pool.mac ∈ macs plist := List.mem_map_of_mem hp
      have hne : q.pool.mac ≠ p.pool.mac := fun heq => hq (heq ▸ hmem)
      rw [if_neg hne]
      exact ih hrest hp

/-- What is found is a lease of the client. -/
theorem mem_of_searchIp (h : searchIp mac ip plist = (true, a)) :
    ∃ p ∈ plist, p.pool.mac = mac ∧ p.pool.ip = a := by
  induction plist with
  | nil => cases h
  | cons q plist ih =>
    rw [searchIp] at h
    split at h
    · rename_i hmac
      exact ⟨q, List.mem_cons_self .., hmac, (Prod.mk.inj h).2⟩
    · obtain ⟨p, hp, hmac, hip⟩ := ih h
      exact ⟨p, List.mem_cons_of_mem q hp, hmac, hip⟩

/-- Without a lease the address stays as it was. -/
theorem searchIp_of_not_mem (h : mac ∉ macs plist) : searchIp mac ip plist = (false, ip) := by
  induction plist with
  | nil => rfl
  | cons q plist ih =>
    obtain ⟨hne, hrest⟩ : mac ≠ q.pool.mac ∧ mac ∉ macs plist := not_or.mp (mt List.mem_cons.mpr h)
    rw [searchIp, if_neg (Ne.symm hne)]
    exact ih hrest

end Search

/-- All clients are looked up: of the first `num` pairs, those of clients with a lease get its
address; the others stay as they are. -/
theorem getClients_leases {s : Server} (inv : Inv s) {num : Int} (hnum : 0 ≤ num)
    (pairs : List (Mac × UInt32)) :
    ∃ out, espNetifDhcpsGetClientsByMac (some s.dhcps) num (some pairs) = some out ∧
      ∀ (i : Nat) (pair : Mac × UInt32), pairs[i]? = some pair → ∃ ip, out[i]? = some (pair.1, ip) ∧
        (i < num.toNat → ∀ p ∈ s.dhcps.plist, p.pool.mac = pair.1 → ip = p.pool.ip) ∧
        (num.toNat ≤ i ∨ pair.1 ∉ macs s.dhcps.plist → ip = pair.2) := by
  rw [espNetifDhcpsGetClientsByMac, if_neg (Int.not_lt.mpr hnum)]
  refine ⟨_, rfl, fun i pair hi => ?_⟩
  have hlt : i < pairs.length := (List.getElem?_eq_some_iff.mp hi).1
  by_cases hfirst : i < num.toNat
  · refine ⟨(searchIp pair.1 pair.2 s.dhcps.plist).2, ?_, fun _ p hp hmac => ?_, ?_⟩
    · rw [List.getElem?_append_left (by simp; omega), List.getElem?_map,
        List.getElem?_take_of_lt hfirst, hi]
      rfl
    · rw [← hmac, searchIp_of_mem inv.leases.distinct hp]
    · rintro (hle | hnone)
      · omega
      · rw [searchIp_of_not_mem hnone]
  · refine ⟨pair.2, ?_, fun hless => absurd hless hfirst, fun _ => rfl⟩
    have hlength : (pairs.take num.toNat).length = num.toNat := by
      rw [List.length_take]
      omega
    rw [List.getElem?_append_right (by simp; omega), List.length_map, hlength,
      List.getElem?_drop, Nat.add_sub_cancel' (Nat.le_of_not_lt hfirst)]
    exact hi

/-- The address of a lease is found for its client and for nobody else. -/
theorem LeasedFor.search_iff {s : Server} (inv : Inv s) {mac : Mac} {a : UInt32} {t : Nat}
    (h : LeasedFor s mac a t) (mac' : Mac) (ip : UInt32) :
    dhcpSearchIpOnMac (some s.dhcps) mac' ip = (true, a) ↔ mac' = mac := by
  obtain ⟨p, hp, rfl, rfl, -⟩ := h
  constructor
  · intro hfound
    obtain ⟨q, hq, rfl, hip⟩ := mem_of_searchIp hfound
    -- the addresses of the leases are distinct
    have hsame : q = p := List.inj_on_of_nodup_map (inv.leases.sorted.imp Nat.ne_of_lt) hq hp
      (congrArg host hip)
    rw [hsame]
  · rintro rfl
    exact searchIp_of_mem inv.leases.distinct hp ip

/-- After an OFFER or ACK, in any state of a run with a computed pool, and as long as only other
clients are heard and the lease lasts: its address is found for the client that it went to, and for
no other one. -/
theorem lookup_after_reply (x : Start) (hx : x.Auto) (before : List Input) (g : Datagram)
    (sent : Sent) (hsent : (handleDhcp (after x.server before) g).2 = some sent)
    (htype : sent.type = dhcpOffer ∨ sent.type = dhcpAck) (between : List Input)
    (hq : Quiet (handleDhcp (after x.server before) g).1 g.msg.chaddr
      (after x.server before).dhcps.leaseTimer.toNat between) (mac : Mac) (ip : UInt32) :
    dhcpSearchIpOnMac (some (after (handleDhcp (after x.server before) g).1 between).dhcps) mac ip =
        (true, sent.msg.yiaddr) ↔ mac = g.msg.chaddr := by
  have inv := after_inv (x.server_inv hx.pool) before
  have hstate := (after_config x.server before).state.trans x.server_state
  have inv' : Inv (handleDhcp (after x.server before) g).1 := step_inv inv (.datagram g)
  have hstate' := (step_config (after x.server before) (.datagram g)).state.trans hstate
  obtain ⟨-, hleased⟩ := handleDhcp_lease inv hsent htype
  obtain ⟨⟨t, hlast⟩, -⟩ := hleased.after inv' hstate' hq
  exact hlast.search_iff (after_inv inv' between) mac ip

/-- A DISCOVER to the default server, and a tick -/
theorem lookup_after_reply_default : ∃ sent,
    (handleDhcp (after Start.default.server []) (discover fun _ => 1)).2 = some sent ∧
      ∀ mac, dhcpSearchIpOnMac (some (after (handleDhcp (after Start.default.server [])
          (discover fun _ => 1)).1 [.tick]).dhcps) mac 0 = (true, sent.msg.yiaddr) ↔
        mac = (discover fun _ => 1).msg.chaddr := by
  obtain ⟨sent, hsent⟩ := Option.isSome_iff_exists.mp (show
    (handleDhcp (after Start.default.server []) (discover fun _ => 1)).2.isSome by decide +kernel)
  have htype : (handleDhcp (after Start.default.server []) (discover fun _ => 1)).2.map
      (fun o => o.type) = some dhcpOffer := by decide +kernel
  rw [hsent] at htype
  have hq : Quiet (handleDhcp (after Start.default.server []) (discover fun _ => 1)).1
      (discover fun _ => 1).msg.chaddr (after Start.default.server []).dhcps.leaseTimer.toNat
      [.tick] := by
    refine ⟨fun g hg => ?_, by decide +kernel, fun us vs hl => ?_⟩
    · cases List.mem_singleton.mp hg
    · cases us with
      | nil => decide +kernel
      | cons i us =>
        obtain ⟨-, hl⟩ := List.cons.inj hl
        cases us <;> cases hl
  exact ⟨sent, hsent, fun mac => lookup_after_reply Start.default Start.default_auto []
    (discover fun _ => 1) sent hsent (.inl (Option.some.inj htype)) [.tick] hq mac 0⟩

end PicoHost.Dhcps
