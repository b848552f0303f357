import PicoHost.Dhcps.Wire
import PicoHost.Interface.DhcpServer
import PicoHost.Interface.DhcpsOption
import PicoHost.Lib.Run

/-!
# What the DHCP server advertises

An interface with its DHCP server: the calls of the API on it, the options that are set
(`esp_netif_dhcps_option`, `esp_netif_set_dns_info`), the datagrams of clients and the ticks, in any
order. `Advertised` is what the accepted calls have configured, read from the log of a run.

`reply_advertises`: what a client hears in a reply are these values, its own `xid` and address, and
an address that is leased to it; an ACK is reported to the application as it was sent.
-/

namespace PicoHost.Interface

open Dhcps (NetifPtr PcbPtr DhcpsT Datagram ReplyEnv Tlv Distinct wordBytes hear)

variable {κ : Type}

/-! ## The DNS server -/

/-- `esp_netif_dns_type_t` -/
inductive DnsType where
  | main | backup | fallback
deriving DecidableEq, Repr

/-- `esp_ip_addr_t`, with the words of an IPv6 address -/
inductive EspIpAddr where
  | v4 (addr : UInt32)
  | v6 (a b c d : UInt32)
deriving DecidableEq, Repr

/-- `ESP_IP_IS_ANY` -/
def EspIpAddr.isAny : EspIpAddr → Bool
  | v4 addr => decide (addr = 0)
  | v6 a b c d => decide (a = 0 ∧ b = 0 ∧ c = 0 ∧ d = 0)

/-- `ip_2_ip4`: of an IPv6 address, the first word -/
def EspIpAddr.ip4 : EspIpAddr → UInt32
  | v4 addr => addr
  | v6 a _ _ _ => a

/-- `dhcps_dns_setserver` (dhcpserver.c:1426–1438) -/
def dhcpsDnsSetserver (s : Dhcps.Server) (addr : EspIpAddr) : Dhcps.Server :=
  { s with dhcps := { s.dhcps with dnsServer := addr.ip4 } }

/-- `esp_netif_set_dns_info` (esp_netif_lwip.c:1865–1916). Without the flag for a DHCP server the
address goes to a table of lwIP. -/
def espNetifSetDnsInfo (n : EspNetif κ) (type : DnsType) (dns : Option EspIpAddr) :
    EspErr × EspNetif κ :=
  match dns with
  | none => (.invalidParams, n)
  | some addr =>
    if addr.isAny then (.invalidParams, n)
    else if n.flags.dhcpServer then
      if type ≠ .main then (.invalidParams, n)
      else (.ok, { n with dhcps := n.dhcps.map (dhcpsDnsSetserver · addr) })
    else (.ok, n)

/-! ## The machine -/

/-- What is seen of an interface: options and DNS servers that were accepted, starts of the DHCP
server with the addresses of the interface, messages to the clients, and the events
`IP_EVENT_AP_STAIPASSIGNED`. `calledNull`: the callback for a new lease was called and not set. -/
inductive Entry where
  | optionSet (id : OptionId) (val : id.Val)
  | dnsSet (addr : EspIpAddr)
  | dhcpsStarted (info : IpInfo)
  | sent (bytes : List UInt8)
  | staIpAssigned (ip mac : List UInt8)
  | calledNull

/-- An interface, whether `dhcps_cb` of its DHCP server is set, and the log -/
structure ServerNetif (κ : Type) where
  netif : EspNetif κ
  leaseCb : Bool
  log : List Entry

/-- `netifChange`: lwIP changes its `struct netif`, with or without the extended callback. -/
inductive ServerEvent (κ : Type) where
  | call (call : ApiCall)
  | dhcpsOption (op : OptionMode) (id : OptionId) (val : Option id.Val) (len : UInt32)
  | setDnsInfo (type : DnsType) (dns : Option EspIpAddr)
  | netifChange (netif : LwipNetif κ) (callback : Bool)
  | ipLostTimer
  | datagram (g : Datagram) (env : ReplyEnv)
  | tick

/-- The gateway that `get_ip_info` reads (dhcpserver.c:170–177) -/
def gateway (n : EspNetif κ) : UInt32 := if n.lwip.isUp then n.lwip.addr.gw else 0

/-- `esp_netif_dhcps_cb` (esp_netif_lwip.c:999–1013) for what comes out of the server -/
def dhcpsCb (leaseCb : Bool) : Dhcps.Out → Entry
  | .sent bytes => .sent bytes
  | .newLease ip mac => if leaseCb then .staIpAssigned ip mac else .calledNull

/-- A start of the DHCP server, in which `esp_netif` logs the address -/
def startedEntry (n n' : EspNetif κ) : List Entry :=
  if n.dhcpsStatus ≠ .started ∧ n'.dhcpsStatus = .started then [.dhcpsStarted n'.ipInfo] else []

section Machine

-- lwIP, whether `netif_callback` is registered with it, and the interface
variable (lwip : Lwip κ) (registered : Bool) (p : NetifPtr)

/-- Whether the call gets to `dhcps_set_new_lease_cb` (esp_netif_lwip.c:1073, 1507) -/
def ApiCall.setsLeaseCb (n : EspNetif κ) : ApiCall → Bool
  | .start .. =>
    match espNetifLwipAdd lwip n with
    | none => false
    | some n₀ =>
      let n₁ := startAutoup lwip n₀
      n₁.flags.dhcpServer && decide (n₁.dhcpsStatus = .init) && n₁.lwip.isUp && n₁.dhcps.isSome
  | .dhcpsStart _ => decide (n.dhcpsStatus ≠ .started) && n.lwip.isUp && n.dhcps.isSome
  | _ => false

def ServerNetif.step (s : ServerNetif κ) : ServerEvent κ → Option (ServerNetif κ)
  | .call call => (call.run lwip registered p s.netif).map fun r =>
    { netif := r.netif
      leaseCb := s.leaseCb || call.setsLeaseCb lwip s.netif
      log := s.log ++ startedEntry s.netif r.netif }
  | .dhcpsOption op id val len =>
    let r := espNetifDhcpsOption s.netif op id val len
    some { s with
      netif := r.2.1
      log := s.log ++ if op = .set ∧ r.1 = .ok then val.toList.map (.optionSet id) else [] }
  | .setDnsInfo type dns =>
    let r := espNetifSetDnsInfo s.netif type dns
    some { s with
      netif := r.2
      log := s.log ++
        if s.netif.flags.dhcpServer ∧ r.1 = .ok then dns.toList.map .dnsSet else [] }
  | .netifChange netif callback =>
    some { s with netif := (netifCallbackFn registered s.netif (netif, callback)).1 }
  | .ipLostTimer => some { s with netif := (espNetifIpLostTimer s.netif).1 }
  | .datagram g env =>
    -- `udp_recv` is called by a start that succeeds, and a stop removes the pcb
    match s.netif.dhcps with
    | none => none
    | some d =>
      if d.dhcps.state = .started then
        let r := Dhcps.handleDhcpOut d { g with gw := gateway s.netif } env
        some { s with
          netif := { s.netif with dhcps := some r.1 }
          log := s.log ++ r.2.map (dhcpsCb s.leaseCb) }
      else none
  | .tick =>
    match s.netif.dhcps with
    | none => none
    | some d =>
      if d.dhcps.state = .started then
        some { s with netif := { s.netif with dhcps := some (Dhcps.dhcpsTmr d).1 } }
      else none

end Machine

/-! ## What has been configured -/

/-- The minutes of a lease, whether a router is offered, whether a DNS server of its own, which one,
and the addresses of the interface when the server was started -/
structure Advertised where
  leaseTime : UInt32
  router : Bool
  dns : Bool
  dnsServer : UInt32
  info : IpInfo

namespace Advertised

/-- An option that is on -/
def isOn (val : UInt8) : Bool := decide (val ≠ 0)

/-- Before any call -/
def init : Advertised := ⟨Dhcps.dhcpsLeaseTimeDef, true, false, 0, .any⟩

def note (c : Advertised) : Entry → Advertised
  | .optionSet .ipAddressLeaseTime minutes => { c with leaseTime := leaseTimeSet minutes }
  | .optionSet .routerSolicitationAddress val => { c with router := isOn val }
  | .optionSet .domainNameServer val => { c with dns := isOn val }
  | .optionSet .subnetMask _ | .optionSet .requestedIpAddress _ | .optionSet .other _ => c
  | .dnsSet addr => { c with dnsServer := addr.ip4 }
  | .dhcpsStarted info => { c with info }
  | .sent _ | .staIpAssigned .. | .calledNull => c

def ofLog (log : List Entry) : Advertised := log.foldl note init

/-- The options of an OFFER or ACK. The mask of the interface is advertised, whatever the option
for the mask was set to. -/
def options (c : Advertised) (gw : UInt32) : List Tlv :=
  [⟨Dhcps.dhcpOptionSubnetMask, wordBytes c.info.netmask⟩,
    ⟨Dhcps.dhcpOptionLeaseTime, Dhcps.bigEndianBytes (60 * c.leaseTime)⟩,
    ⟨Dhcps.dhcpOptionServerId, wordBytes c.info.ip⟩] ++
  (if c.router ∧ gw ≠ 0 then [⟨Dhcps.dhcpOptionRouter, wordBytes gw⟩] else []) ++
  [⟨Dhcps.dhcpOptionDnsServer, wordBytes (if c.dns then c.dnsServer else c.info.ip)⟩,
    ⟨Dhcps.dhcpOptionBroadcastAddress,
      wordBytes ((c.info.ip &&& c.info.netmask) ||| ~~~c.info.netmask)⟩,
    ⟨Dhcps.dhcpOptionInterfaceMtu, [0x05, 0xdc]⟩,
    ⟨Dhcps.dhcpOptionPerformRouterDiscovery, [0x00]⟩,
    ⟨43, [0x01, 4, 0x00, 0x00, 0x00, 0x02]⟩]

/-- The options of a reply -/
def replyOptions (c : Advertised) (gw : UInt32) (type : UInt8) : List Tlv :=
  ⟨Dhcps.dhcpOptionMsgType, [type]⟩ :: if type = Dhcps.dhcpNak then [] else c.options gw

end Advertised

/-! ## The handle and what has been configured -/

/-- The handle is set as configured. -/
structure Configures (d : DhcpsT) (c : Advertised) : Prop where
  leaseTime : d.dhcpsLeaseTime = c.leaseTime
  router : d.dhcpsOffer &&& offerRouter ≠ 0 ↔ c.router = true
  dns : d.dhcpsDns &&& offerDns ≠ 0 ↔ c.dns = true
  dnsServer : d.dnsServer = c.dnsServer

/-- A running server has the addresses of its start. -/
structure Runs (d : DhcpsT) (c : Advertised) : Prop where
  netmask : d.dhcpsMask = c.info.netmask
  ip : d.serverAddress = c.info.ip

section Configures

variable {d d' : DhcpsT} {c c' : Advertised}

/-- What `Configures` looks at -/
def offers (d : DhcpsT) : UInt32 × UInt8 × UInt8 × UInt32 :=
  (d.dhcpsLeaseTime, d.dhcpsOffer, d.dhcpsDns, d.dnsServer)

/-- A server that offers the same configures the same. -/
theorem Configures.congr (h : Configures d c) (heq : offers d' = offers d) : Configures d' c := by
  simp only [offers, Prod.mk.injEq] at heq
  obtain ⟨htime, hoffer, hdns, hserver⟩ := heq
  exact ⟨htime ▸ h.leaseTime, hoffer ▸ h.router, hdns ▸ h.dns, hserver ▸ h.dnsServer⟩

/-- The options of a reply are those configured. -/
theorem replyOptions_eq (h : Configures d c) (hruns : Runs d c) (gw : UInt32) (type : UInt8) :
    Dhcps.replyOptions d gw type (decide (type ≠ Dhcps.dhcpNak)) = c.replyOptions gw type := by
  have hrouter : (d.dhcpsOffer &&& 1 ≠ 0 ∧ gw ≠ 0) ↔ (c.router = true ∧ gw ≠ 0) :=
    and_congr_left' h.router
  have hlease : d.dhcpsLeaseTime * Dhcps.dhcpsLeaseUnit = 60 * c.leaseTime := by
    rw [h.leaseTime, Dhcps.dhcpsLeaseUnit, UInt32.mul_comm]
  have hdns : (if d.dhcpsDns &&& 2 ≠ 0 then d.dnsServer else d.serverAddress) =
      if c.dns = true then c.dnsServer else c.info.ip := by
    rw [hruns.ip, h.dnsServer]
    exact if_congr h.dns rfl rfl
  have hoffer : Dhcps.offerOptions d gw = c.options gw := by
    simp only [Dhcps.offerOptions, Advertised.options, hruns.netmask, hruns.ip, hlease, hrouter]
    rw [← hdns, hruns.ip]
  rw [Dhcps.replyOptions, Advertised.replyOptions, hoffer]
  by_cases htype : type = Dhcps.dhcpNak
  · rw [if_pos htype, if_neg]
    simpa using htype
  · rw [if_neg htype, if_pos]
    simpa using htype

/-- An option bit is set exactly if the option was switched on. -/
theorem offerSet_and (bit val offer : UInt8) (hbit : bit ≠ 0) :
    offerSet bit val offer &&& bit ≠ 0 ↔ Advertised.isOn val = true := by
  rw [offerSet, Advertised.isOn, decide_eq_true_eq]
  split
  · rename_i hval
    have hon : (offer ||| bit) &&& bit = bit := by
      rw [← UInt8.toBitVec_inj]
      ext i
      simp
      exact .inr
    simp [hon, hbit, hval]
  · rename_i hval
    have hoff : (offer &&& ~~~bit) &&& bit = 0 := by
      rw [UInt8.and_assoc, UInt8.and_comm (~~~bit), UInt8.and_not_self, UInt8.and_zero]
    simp [hoff, hval]

/-- An option that is accepted -/
theorem Configures.set (h : Configures d c) {ip : UInt32} {id : OptionId} {val : id.Val}
    (hset : setDhcpsOption ip id val d = some d') : Configures d' (c.note (.optionSet id val)) := by
  cases id with
  | ipAddressLeaseTime =>
    cases hset
    exact { h with leaseTime := rfl }
  | subnetMask =>
    cases hset
    exact h.congr rfl
  | requestedIpAddress =>
    simp only [setDhcpsOption, Option.ite_none_left_eq_some] at hset
    cases hset.2
    exact h.congr rfl
  | routerSolicitationAddress =>
    cases hset
    exact { h with router := offerSet_and offerRouter val _ (by decide) }
  | domainNameServer =>
    cases hset
    exact { h with dns := offerSet_and offerDns val _ (by decide) }
  | other =>
    cases hset
    exact h.congr rfl

end Configures

/-! ## The calls and the server -/

section Calls

variable {lwip : Lwip κ} {registered : Bool} {p : NetifPtr} {n n' : EspNetif κ}

/-- What a call can do to the handle: nothing, start it, or stop it. -/
inductive ServerMove (lwip : Lwip κ) (p : NetifPtr) (call : ApiCall) (n n' : EspNetif κ) : Prop
  | kept (h : n'.dhcps = n.dhcps)
  | started (udpNew : Option PcbPtr) (n₁ : EspNetif κ) (hdhcps : n₁.dhcps = n.dhcps)
      (hstatus : n.dhcpsStatus ≠ .started) (hinfo : n'.ipInfo = n₁.ipInfo)
      (hcb : n.dhcps.isSome → call.setsLeaseCb lwip n = true)
      (h : n'.dhcps = (startDhcps p udpNew n₁).2.dhcps)
  | stopped (h : n'.dhcps = (stopDhcps p n).2.dhcps)

/-- Starting the server keeps the address of the interface. -/
theorem startDhcps_ipInfo (p : NetifPtr) (udpNew : Option PcbPtr) (n : EspNetif κ) :
    (startDhcps p udpNew n).2.ipInfo = n.ipInfo := by
  unfold startDhcps
  cases n.dhcps with
  | none => rfl
  | some s =>
    dsimp only
    split <;> rfl

/-- The server is part of what the code about addresses leaves alone. -/
theorem dhcps_of_rest (h : n'.rest = n.rest) : n'.dhcps = n.dhcps :=
  congrArg Prod.fst (EspNetif.server_of_rest h)

/-- What `esp_netif_start_api` does to the server -/
theorem startApi_serverMove {udpNew : Option PcbPtr} {malloc : Bool} {r : Call κ}
    (h : espNetifStartApi lwip p udpNew malloc n = some r) :
    ServerMove lwip p (.start udpNew malloc) n r.netif := by
  obtain ⟨n₀, n₁, hadd, rfl, -, h⟩ := startApi_cases h
  have hserver : (startAutoup lwip n₀).server = n.server :=
    congrArg (fun r => r.2.1) ((startAutoup_rest lwip n₀).trans (lwipAdd_rest hadd))
  have hdhcps : (startAutoup lwip n₀).dhcps = n.dhcps := congrArg Prod.fst hserver
  rcases h with ⟨hflag, hstatus, hup, h, -⟩ | ⟨h, -⟩ | ⟨-, -, h | h⟩
  · refine .started udpNew _ hdhcps ?_ ?_ ?_ (congrArg EspNetif.dhcps h)
    · have hinit : n.dhcpsStatus = .init := (congrArg Prod.snd hserver).symm.trans hstatus
      rw [hinit]
      nofun
    · rw [h]
      exact startDhcps_ipInfo ..
    · intro hsome
      have hflags : (startAutoup lwip n₀).flags.dhcpServer = true :=
        (congrArg (fun r => r.1.1.dhcpServer) (startAutoup_rest lwip n₀)).trans hflag
      simp [ApiCall.setsLeaseCb, hadd, hflags, hstatus, hup, hdhcps, hsome]
  · exact .kept (h ▸ hdhcps)
  · exact .kept (h ▸ hdhcps)
  · exact .kept (h ▸ hdhcps)

/-- What `esp_netif_stop_api` does to the server -/
theorem stopApi_serverMove (lwip : Lwip κ) (registered : Bool) (p : NetifPtr) (n : EspNetif κ) :
    ServerMove lwip p .stop n (espNetifStopApi lwip registered p n).netif := by
  dsimp only [espNetifStopApi]
  split
  · show ServerMove lwip p .stop n (_ : EspNetif κ)
    rw [Done.andThen]
    dsimp only
    rw [stopDhcp]
    split
    · dsimp only
      split <;> exact .stopped rfl
    · refine .kept ?_
      split
      · exact (dhcps_of_rest (netifCallbackFn_rest ..)).trans
          (dhcps_of_rest (netifCallbackFn_rest ..))
      · rfl
  · exact .kept rfl

/-- What each call does to the server -/
theorem run_serverMove {call : ApiCall} {r : Call κ} (h : call.run lwip registered p n = some r) :
    ServerMove lwip p call n r.netif := by
  cases call with
  | start udpNew malloc => exact startApi_serverMove h
  | stop => cases h; exact stopApi_serverMove lwip registered p n
  | up => cases h; exact .kept (dhcps_of_rest upApi_rest)
  | down => cases h; exact .kept (dhcps_of_rest downApi_rest)
  | dhcpcStart => cases h; exact .kept (dhcps_of_rest dhcpcStartApi_rest)
  | dhcpcStop => cases h; exact .kept (dhcps_of_rest dhcpcStopApi_rest)
  | dhcpsStart udpNew =>
    cases h
    dsimp only [espNetifDhcpsStartApi]
    split
    · exact .kept rfl
    · rename_i hstatus
      split
      · rename_i hup
        refine .started udpNew n rfl hstatus (startDhcps_ipInfo ..) ?_ rfl
        intro hsome
        simp [ApiCall.setsLeaseCb, hstatus, hup, hsome]
      · exact .kept rfl
  | dhcpsStop =>
    cases h
    dsimp only [espNetifDhcpsStopApi]
    split
    · split <;> exact .stopped rfl
    · exact .kept rfl
    · exact .kept rfl
  | setIpInfo info => cases h; exact .kept (dhcps_of_rest (setIpInfoApi_rest info))
  | setDefaultNetif => cases h; exact .kept rfl

/-- A start leaves the leases and the options alone; one that succeeds serves at the address. -/
theorem dhcpsStart_offers (s : Dhcps.Server) (netif : Option NetifPtr) (ip : UInt32)
    (udpNew : Option PcbPtr) :
    let r := Dhcps.dhcpsStart s netif ip udpNew
    r.1.heap = s.heap ∧ r.1.dhcps.plist = s.dhcps.plist ∧ offers r.1.dhcps = offers s.dhcps ∧
      r.1.dhcps.dhcpsMask = s.dhcps.dhcpsMask ∧ (r.2.1 = true → r.1.dhcps.serverAddress = ip) := by
  have hpoll : ∀ d : DhcpsT, (Dhcps.dhcpsPollSet d ip).plist = d.plist ∧
      offers (Dhcps.dhcpsPollSet d ip) = offers d ∧
      (Dhcps.dhcpsPollSet d ip).dhcpsMask = d.dhcpsMask ∧
      (Dhcps.dhcpsPollSet d ip).serverAddress = d.serverAddress := by
    intro d
    rw [Dhcps.dhcpsPollSet]
    split <;> exact ⟨rfl, rfl, rfl, rfl⟩
  have hfailed : ∀ {P : Prop}, false = true → P := fun h => absurd h Bool.false_ne_true
  unfold Dhcps.dhcpsStart
  cases netif with
  | none => exact ⟨rfl, rfl, rfl, rfl, hfailed⟩
  | some netif =>
    cases udpNew with
    | none => exact ⟨rfl, rfl, rfl, rfl, hfailed⟩
    | some pcb =>
      dsimp only
      split
      · exact ⟨rfl, rfl, rfl, rfl, hfailed⟩
      · split
        · exact ⟨rfl, rfl, rfl, rfl, hfailed⟩
        · obtain ⟨hplist, hoffers, hmask, haddr⟩ := hpoll { s.dhcps with
            dhcpsNetif := some netif, dhcpsPcb := some pcb,
            broadcastDhcps := Dhcps.ip4 255 255 255 255, serverAddress := ip }
          exact ⟨rfl, hplist, hoffers, hmask, fun _ => haddr⟩

/-- A server that stops keeps what it offers. -/
theorem dhcpsStop_offers (s : Dhcps.Server) (netif : Option NetifPtr) (h : Distinct s) :
    Distinct (Dhcps.dhcpsStop s netif).1 ∧
      offers (Dhcps.dhcpsStop s netif).1.dhcps = offers s.dhcps := by
  rw [Dhcps.dhcpsStop]
  split
  · exact ⟨h, rfl⟩
  · exact ⟨⟨h.owned.freeAll (List.Perm.refl _), List.nodup_nil⟩, rfl⟩

/-- A `SET` that is accepted: the server is not started. -/
theorem dhcpsOption_accepted {id : OptionId} {val : Option id.Val} {len : UInt32}
    (h : (espNetifDhcpsOption n .set id val len).1 = .ok) :
    ∃ s v d, n.dhcps = some s ∧ val = some v ∧ n.dhcpsStatus ≠ .started ∧
      setDhcpsOption (espNetifGetIpInfo n).ip id v s.dhcps = some d ∧
      (espNetifDhcpsOption n .set id val len).2.1 =
        { n with dhcps := some { s with dhcps := d } } := by
  unfold espNetifDhcpsOption at h ⊢
  cases hs : n.dhcps with
  | none => simp [hs] at h
  | some s =>
    cases val with
    | none => simp [hs] at h
    | some v =>
      simp only [hs] at h ⊢
      split at h
      · cases h
      · rename_i hsize
        split at h
        · cases h
        · rename_i hstatus
          split at h
          · cases h
          · rename_i d hset
            exact ⟨s, v, d, rfl, rfl, hstatus, hset, by rw [if_neg hsize, if_neg hstatus]⟩

/-- Nothing is set, or the DNS server of the DHCP server. -/
theorem setDnsInfo_cases (n : EspNetif κ) (type : DnsType) (dns : Option EspIpAddr) :
    (espNetifSetDnsInfo n type dns).2 = n ∧
        ¬ (n.flags.dhcpServer = true ∧ (espNetifSetDnsInfo n type dns).1 = .ok) ∨
      ∃ addr, dns = some addr ∧ n.flags.dhcpServer = true ∧
        (espNetifSetDnsInfo n type dns).1 = .ok ∧ (espNetifSetDnsInfo n type dns).2 =
          { n with dhcps := n.dhcps.map (dhcpsDnsSetserver · addr) } := by
  unfold espNetifSetDnsInfo
  cases dns with
  | none => exact .inl ⟨rfl, nofun⟩
  | some addr =>
    dsimp only
    split
    · exact .inl ⟨rfl, nofun⟩
    · split
      · rename_i hflag
        split
        · exact .inl ⟨rfl, nofun⟩
        · exact .inr ⟨addr, rfl, hflag, rfl, rfl⟩
      · rename_i hflag
        exact .inl ⟨rfl, fun h => hflag h.1⟩

/-- Setting an option keeps the leases and the state of the server. -/
theorem setDhcpsOption_keeps {ip : UInt32} {id : OptionId} {val : id.Val} {d d' : DhcpsT}
    (h : setDhcpsOption ip id val d = some d') : d'.plist = d.plist ∧ d'.state = d.state := by
  cases id with
  | requestedIpAddress =>
    simp only [setDhcpsOption, Option.ite_none_left_eq_some] at h
    cases h.2
    exact ⟨rfl, rfl⟩
  | ipAddressLeaseTime | subnetMask | routerSolicitationAddress | domainNameServer | other =>
    cases h
    exact ⟨rfl, rfl⟩

end Calls

/-! ## Every step -/

/-- The handle of the interface is as the log says. -/
structure Tracks (p : NetifPtr) (s : ServerNetif κ) : Prop where
  agrees : Agrees p s.netif
  handle : ∀ d, s.netif.dhcps = some d → Distinct d ∧ Configures d.dhcps (.ofLog s.log)
  running : ∀ d, s.netif.dhcps = some d → d.dhcps.state = .started →
    Runs d.dhcps (.ofLog s.log) ∧ s.leaseCb = true

/-- What is advertised follows from the log, entry by entry. -/
theorem ofLog_append (log entries : List Entry) :
    Advertised.ofLog (log ++ entries) = entries.foldl Advertised.note (.ofLog log) :=
  List.foldl_append ..

/-- What comes out of the server configures nothing. -/
theorem ofLog_told (log : List Entry) (leaseCb : Bool) (out : List Dhcps.Out) :
    Advertised.ofLog (log ++ out.map (dhcpsCb leaseCb)) = .ofLog log := by
  rw [ofLog_append]
  generalize Advertised.ofLog log = c
  induction out with
  | nil => rfl
  | cons o out ih =>
    cases o with
    | sent bytes => exact ih
    | newLease ip mac =>
      cases leaseCb with
      | true => exact ih
      | false => exact ih

section Step

variable {lwip : Lwip κ} {registered : Bool} {p : NetifPtr} {s s' : ServerNetif κ}

/-- A server runs while its state says so. -/
theorem dhcpsRunning_some {n : EspNetif κ} {d : Dhcps.Server} (h : n.dhcps = some d) :
    n.dhcpsRunning = true ↔ d.dhcps.state = .started := by
  simp [EspNetif.dhcpsRunning, h]

/-- A step that leaves the handle alone -/
theorem Tracks.kept (h : Tracks p s) (hagrees : Agrees p s'.netif)
    (hdhcps : s'.netif.dhcps = s.netif.dhcps) (hlog : Advertised.ofLog s'.log = .ofLog s.log)
    (hcb : s.leaseCb = true → s'.leaseCb = true) : Tracks p s' where
  agrees := hagrees
  handle d hd := by
    rw [hlog]
    exact h.handle d (hdhcps.symm.trans hd)
  running d hd hstate := by
    rw [hlog]
    obtain ⟨hruns, hset⟩ := h.running d (hdhcps.symm.trans hd) hstate
    exact ⟨hruns, hcb hset⟩

/-- A step of the server that is running -/
theorem Tracks.served (h : Tracks p s) {d d' : Dhcps.Server} (hd : s.netif.dhcps = some d)
    (hstate : d.dhcps.state = .started) (hdistinct : Distinct d') (hsame : Dhcps.SameConfig d d')
    (hlog : Advertised.ofLog s'.log = .ofLog s.log) (hcb : s'.leaseCb = s.leaseCb)
    (hnetif : s'.netif = { s.netif with dhcps := some d' }) : Tracks p s' := by
  rw [Dhcps.SameConfig] at hsame
  obtain ⟨-, hconfigures⟩ := h.handle d hd
  obtain ⟨hruns, hset⟩ := h.running d hd hstate
  have hstate' : d'.dhcps.state = .started := by
    rw [hsame]
    exact hstate
  refine ⟨⟨?_, ?_⟩, ?_, ?_⟩
  · have hrunning := (dhcpsRunning_some hd).mpr hstate
    rw [hnetif]
    show s.netif.dhcpsStatus = .started ↔ _
    rw [h.agrees.status, hrunning]
    exact iff_of_true rfl (decide_eq_true hstate')
  · rintro t ht -
    rw [hnetif] at ht
    cases ht
    rw [hsame]
    exact h.agrees.netif d hd hstate
  · intro t ht
    rw [hnetif] at ht
    cases ht
    rw [hlog]
    exact ⟨hdistinct, hconfigures.congr (by rw [hsame]; rfl)⟩
  · rintro t ht -
    rw [hnetif] at ht
    cases ht
    rw [hlog, hcb, hsame]
    exact ⟨⟨hruns.netmask, hruns.ip⟩, hset⟩

/-- The status says whether the server of a handle is running. -/
theorem Agrees.started_iff {n : EspNetif κ} (a : Agrees p n) {d : Dhcps.Server}
    (h : n.dhcps = some d) : n.dhcpsStatus = .started ↔ d.dhcps.state = .started :=
  a.status.trans (dhcpsRunning_some h)

/-- A call that does not start the server adds no entry. -/
theorem startedEntry_nil {n n' : EspNetif κ} (h : n'.dhcpsStatus = .started →
    n.dhcpsStatus = .started) : startedEntry n n' = [] :=
  if_neg fun hboth => hboth.1 (h hboth.2)

/-- A call that starts the server adds an entry with the address it starts with. -/
theorem startedEntry_of {n n' : EspNetif κ} (h : n.dhcpsStatus ≠ .started)
    (h' : n'.dhcpsStatus = .started) : startedEntry n n' = [.dhcpsStarted n'.ipInfo] :=
  if_pos ⟨h, h'⟩

/-- A start, which may fail -/
theorem Tracks.started (h : Tracks p s) (hagrees : Agrees p s'.netif) {d : Dhcps.Server}
    (hd : s.netif.dhcps = some d) (udpNew : Option PcbPtr)
    (hd' : s'.netif.dhcps = some (Dhcps.dhcpsStart (dhcpsSetSubnetMask d s'.netif.ipInfo.netmask)
      (some p) s'.netif.ipInfo.ip udpNew).1)
    (hstatus : s.netif.dhcpsStatus ≠ .started) (hcb : s'.leaseCb = true)
    (hlog : s'.log = s.log ++ startedEntry s.netif s'.netif) : Tracks p s' := by
  obtain ⟨hheap, hplist, hoffers, hmask, haddr⟩ := dhcpsStart_offers
    (dhcpsSetSubnetMask d s'.netif.ipInfo.netmask) (some p) s'.netif.ipInfo.ip udpNew
  obtain ⟨hdistinct, hconfigures⟩ := h.handle d hd
  have hstate := dhcpsStart_state (p := p) (dhcpsSetSubnetMask d s'.netif.ipInfo.netmask)
    s'.netif.ipInfo.ip udpNew
  generalize Dhcps.dhcpsStart (dhcpsSetSubnetMask d s'.netif.ipInfo.netmask) (some p)
    s'.netif.ipInfo.ip udpNew = r at *
  have hdistinct' : Distinct r.1 := by
    constructor
    · rw [hheap, hplist]
      exact hdistinct.owned
    · rw [hplist]
      exact hdistinct.macs
  have hconfigures' : Configures r.1.dhcps (.ofLog s.log) := hconfigures.congr hoffers
  rcases hstate with ⟨hok, hstate, -⟩ | ⟨-, hstate⟩
  · -- the log has the addresses of this start
    have hentry := startedEntry_of hstatus ((hagrees.started_iff hd').mpr hstate)
    have hof : Advertised.ofLog s'.log = { Advertised.ofLog s.log with info := s'.netif.ipInfo } := by
      rw [hlog, hentry, ofLog_append]
      rfl
    refine ⟨hagrees, ?_, ?_⟩
    · intro t ht
      cases hd'.symm.trans ht
      rw [hof]
      exact ⟨hdistinct', hconfigures'.leaseTime, hconfigures'.router, hconfigures'.dns,
        hconfigures'.dnsServer⟩
    · rintro t ht -
      cases hd'.symm.trans ht
      rw [hof]
      exact ⟨⟨hmask, haddr hok⟩, hcb⟩
  · have hstopped : r.1.dhcps.state ≠ .started := by
      rw [hstate]
      exact fun hst => hstatus ((h.agrees.started_iff hd).mpr hst)
    have hnone : startedEntry s.netif s'.netif = [] :=
      startedEntry_nil fun hst => absurd ((hagrees.started_iff hd').mp hst) hstopped
    rw [hnone, List.append_nil] at hlog
    refine ⟨hagrees, ?_, ?_⟩
    · intro t ht
      cases hd'.symm.trans ht
      rw [hlog]
      exact ⟨hdistinct', hconfigures'⟩
    · intro t ht hst
      cases hd'.symm.trans ht
      exact absurd hst hstopped

/-- A stop, after which the server is not running -/
theorem Tracks.stopped (h : Tracks p s) (hagrees : Agrees p s'.netif)
    (hstop : s'.netif.dhcps = (stopDhcps p s.netif).2.dhcps)
    (hlog : s'.log = s.log ++ startedEntry s.netif s'.netif) : Tracks p s' := by
  have hstopped : s'.netif.dhcpsRunning = false := by
    rw [EspNetif.dhcpsRunning, hstop]
    exact (stopDhcps_stopped h.agrees).1
  have hnone : startedEntry s.netif s'.netif = [] := by
    refine startedEntry_nil ?_
    intro hst
    exact absurd (hstopped.symm.trans (hagrees.status.mp hst)) (by decide)
  rw [hnone, List.append_nil] at hlog
  refine ⟨hagrees, ?_, ?_⟩
  · intro t ht
    rw [hstop, stopDhcps] at ht
    cases hd : s.netif.dhcps with
    | none => simp [hd] at ht
    | some d =>
      simp only [hd, Option.some.injEq] at ht
      obtain ⟨hdistinct, hconfigures⟩ := h.handle d hd
      obtain ⟨hdistinct', hoffers⟩ := dhcpsStop_offers d (some p) hdistinct
      rw [← ht, hlog]
      exact ⟨hdistinct', hconfigures.congr hoffers⟩
  · intro t ht hst
    exact absurd (hstopped.symm.trans ((dhcpsRunning_some ht).mpr hst)) (by decide)

/-- The log follows a call. -/
theorem Tracks.call (h : Tracks p s) {call : ApiCall} {r : Call κ}
    (hrun : call.run lwip registered p s.netif = some r) (hnetif : s'.netif = r.netif)
    (hcb : s'.leaseCb = (s.leaseCb || call.setsLeaseCb lwip s.netif))
    (hlog : s'.log = s.log ++ startedEntry s.netif r.netif) : Tracks p s' := by
  have hagrees : Agrees p s'.netif := hnetif ▸ run_agrees h.agrees hrun
  have hmove := run_serverMove hrun
  rw [← hnetif] at hmove hlog
  cases hmove with
  | kept hdhcps =>
    have hnone : startedEntry s.netif s'.netif = [] := by
      refine startedEntry_nil ?_
      intro hstatus
      have hrunning := hagrees.status.mp hstatus
      rw [EspNetif.dhcpsRunning, hdhcps] at hrunning
      exact h.agrees.status.mpr hrunning
    refine h.kept hagrees hdhcps ?_ ?_
    · rw [hlog, hnone, List.append_nil]
    · intro hset
      rw [hcb, hset, Bool.true_or]
  | started udpNew n₁ hdhcps hstatus hinfo hsets hstart =>
    rw [startDhcps, hdhcps, ← hinfo] at hstart
    cases hd : s.netif.dhcps with
    | none =>
      simp only [hd] at hstart
      refine ⟨hagrees, ?_, ?_⟩
      · intro d hd'
        cases hstart.symm.trans hd'
      · intro d hd'
        cases hstart.symm.trans hd'
    | some d =>
      have hset : s'.leaseCb = true := by
        rw [hcb, hsets (by rw [hd]; rfl), Bool.or_true]
      refine h.started hagrees hd udpNew ?_ hstatus hset hlog
      simp only [hd] at hstart
      rw [hstart]
      split <;> rfl
  | stopped hstop => exact h.stopped hagrees hstop hlog

/-- The log follows an option. -/
theorem Tracks.dhcpsOption (h : Tracks p s) {id : OptionId} {val : Option id.Val} {len : UInt32}
    {op : OptionMode} (hnetif : s'.netif = (espNetifDhcpsOption s.netif op id val len).2.1)
    (hcb : s'.leaseCb = s.leaseCb)
    (hlog : s'.log = s.log ++ if op = .set ∧ (espNetifDhcpsOption s.netif op id val len).1 = .ok
      then val.toList.map (.optionSet id) else []) : Tracks p s' := by
  by_cases hok : op = .set ∧ (espNetifDhcpsOption s.netif op id val len).1 = .ok
  · obtain ⟨rfl, hok⟩ := hok
    obtain ⟨d, v, d', hd, rfl, hstatus, hset, hsame⟩ := dhcpsOption_accepted hok
    obtain ⟨hdistinct, hconfigures⟩ := h.handle d hd
    obtain ⟨hplist, hstate⟩ := setDhcpsOption_keeps hset
    have hstopped : d'.state ≠ .started := by
      rw [hstate]
      exact fun hst => hstatus ((h.agrees.started_iff hd).mpr hst)
    have hof : Advertised.ofLog s'.log = (Advertised.ofLog s.log).note (.optionSet id v) := by
      rw [hlog, if_pos ⟨rfl, hok⟩, ofLog_append]
      rfl
    rw [hsame] at hnetif
    refine ⟨?_, ?_, ?_⟩
    · rw [hnetif]
      exact agrees_of_stopped hstatus (decide_eq_false hstopped)
    · intro t ht
      rw [hnetif] at ht
      cases ht
      rw [hof]
      exact ⟨⟨hplist ▸ hdistinct.owned, hplist ▸ hdistinct.macs⟩, hconfigures.set hset⟩
    · intro t ht hst
      rw [hnetif] at ht
      cases ht
      exact absurd hst hstopped
  · -- refused, or read
    rw [if_neg hok, List.append_nil] at hlog
    have hsame : (espNetifDhcpsOption s.netif op id val len).2.1 = s.netif := by
      cases op with
      | start => exact espNetifDhcpsOption_same rfl (.inl fun h => by
          unfold espNetifDhcpsOption at h
          split at h
          · cases h
          · cases h
          · split at h <;> cases h)
      | get => exact espNetifDhcpsOption_same rfl (.inr rfl)
      | set => exact espNetifDhcpsOption_same rfl (.inl fun h => hok ⟨rfl, h⟩)
    rw [hsame] at hnetif
    exact h.kept (hnetif ▸ h.agrees) (congrArg _ hnetif) (by rw [hlog]) fun hset => hcb.trans hset

/-- The log follows a DNS server. -/
theorem Tracks.setDnsInfo (h : Tracks p s) {type : DnsType} {dns : Option EspIpAddr}
    (hnetif : s'.netif = (espNetifSetDnsInfo s.netif type dns).2) (hcb : s'.leaseCb = s.leaseCb)
    (hlog : s'.log = s.log ++ if s.netif.flags.dhcpServer ∧
      (espNetifSetDnsInfo s.netif type dns).1 = .ok then dns.toList.map .dnsSet else []) :
    Tracks p s' := by
  rcases setDnsInfo_cases s.netif type dns with ⟨hsame, hnot⟩ | ⟨addr, rfl, hflag, hok, hset⟩
  · rw [if_neg hnot, List.append_nil] at hlog
    rw [hsame] at hnetif
    exact h.kept (hnetif ▸ h.agrees) (congrArg _ hnetif) (by rw [hlog]) fun hset => hcb.trans hset
  · rw [hset] at hnetif
    have hof : Advertised.ofLog s'.log =
        { Advertised.ofLog s.log with dnsServer := addr.ip4 } := by
      rw [hlog, if_pos ⟨hflag, hok⟩, ofLog_append]
      rfl
    have hdhcps : s'.netif.dhcps = s.netif.dhcps.map (dhcpsDnsSetserver · addr) := by
      rw [hnetif]
    refine ⟨⟨?_, ?_⟩, ?_, ?_⟩
    · have hstatus : s'.netif.dhcpsStatus = s.netif.dhcpsStatus := by rw [hnetif]
      rw [hstatus, h.agrees.status, EspNetif.dhcpsRunning, EspNetif.dhcpsRunning, hdhcps]
      cases s.netif.dhcps <;> rfl
    · intro t ht hst
      obtain ⟨d, hd, rfl⟩ := Option.map_eq_some_iff.mp (hdhcps.symm.trans ht)
      exact h.agrees.netif d hd hst
    · intro t ht
      obtain ⟨d, hd, rfl⟩ := Option.map_eq_some_iff.mp (hdhcps.symm.trans ht)
      obtain ⟨hdistinct, hconfigures⟩ := h.handle d hd
      rw [hof]
      exact ⟨⟨hdistinct.owned, hdistinct.macs⟩, { hconfigures with dnsServer := rfl }⟩
    · intro t ht hst
      obtain ⟨d, hd, rfl⟩ := Option.map_eq_some_iff.mp (hdhcps.symm.trans ht)
      obtain ⟨hruns, hset⟩ := h.running d hd hst
      rw [hof, hcb]
      exact ⟨⟨hruns.netmask, hruns.ip⟩, hset⟩

/-- The log follows every event. -/
theorem Tracks.step (h : Tracks p s) {e : ServerEvent κ}
    (hstep : s.step lwip registered p e = some s') : Tracks p s' := by
  cases e with
  | call call =>
    obtain ⟨r, hrun, rfl⟩ := Option.map_eq_some_iff.mp hstep
    exact h.call hrun rfl rfl rfl
  | dhcpsOption op id val len =>
    cases hstep
    exact h.dhcpsOption rfl rfl rfl
  | setDnsInfo type dns =>
    cases hstep
    exact h.setDnsInfo rfl rfl rfl
  | netifChange netif callback =>
    cases hstep
    have hrest := netifCallbackFn_rest registered s.netif (netif, callback)
    exact h.kept (h.agrees.of_rest hrest) (dhcps_of_rest hrest) rfl id
  | ipLostTimer =>
    cases hstep
    have hrest := ipLostTimer_rest (n := s.netif)
    exact h.kept (h.agrees.of_rest hrest) (dhcps_of_rest hrest) rfl id
  | datagram g env =>
    rw [ServerNetif.step] at hstep
    cases hd : s.netif.dhcps with
    | none => simp [hd] at hstep
    | some d =>
      simp only [hd, Option.ite_none_right_eq_some] at hstep
      obtain ⟨hstate, hstep⟩ := hstep
      cases hstep
      have hanswers := Dhcps.handleDhcpOut_answers (h.handle d hd).1
        { g with gw := gateway s.netif } env
      exact h.served hd hstate hanswers.distinct hanswers.config (ofLog_told ..) rfl rfl
  | tick =>
    rw [ServerNetif.step] at hstep
    cases hd : s.netif.dhcps with
    | none => simp [hd] at hstep
    | some d =>
      simp only [hd, Option.ite_none_right_eq_some] at hstep
      obtain ⟨hstate, hstep⟩ := hstep
      cases hstep
      exact h.served hd hstate (Dhcps.dhcpsTmr_distinct hstate (h.handle d hd).1)
        (Dhcps.dhcpsTmr_config d) rfl rfl rfl

end Step

/-! ## Every run -/

/-- An interface that has just been created -/
def ServerNetif.init (n : EspNetif κ) : ServerNetif κ := ⟨n, false, []⟩

/-- A new interface has an empty log. -/
theorem tracks_init {lwip : Lwip κ} {base : InherentConfig} {key : Option String} {p : NetifPtr}
    {n : EspNetif κ} (h : Created lwip base key n) : Tracks p (.init n) where
  agrees := agrees_created h
  handle d hd := by
    rcases h.dhcps with hnone | hnew
    · cases hnone.symm.trans hd
    · cases hnew.symm.trans hd
      have hrouter : Dhcps.dhcpsNew.dhcpsOffer &&& offerRouter ≠ 0 ↔
          Advertised.init.router = true := by decide
      have hdns : Dhcps.dhcpsNew.dhcpsDns &&& offerDns ≠ 0 ↔ Advertised.init.dns = true := by decide
      exact ⟨⟨Dhcps.owned_empty, List.nodup_nil⟩, ⟨rfl, hrouter, hdns, rfl⟩⟩
  running d hd hstate := by
    rcases h.dhcps with hnone | hnew
    · cases hnone.symm.trans hd
    · cases hnew.symm.trans hd
      cases hstate

/-- Whatever calls, options, datagrams and ticks an interface has had since it was created: to a
datagram its server says nothing, or sends one message. In it a client hears its `xid` and address,
an address that is leased to it if one is granted, and the options that have been configured; an ACK
is reported with the same address. -/
theorem reply_advertises (lwip : Lwip κ) (registered : Bool) (p : NetifPtr) {base : InherentConfig}
    {key : Option String} {n : EspNetif κ} (hn : Created lwip base key n)
    (events : List (ServerEvent κ)) (s s' : ServerNetif κ) (g : Datagram) (env : ReplyEnv)
    (h : Machine.exec (ServerNetif.step lwip registered p) (.init n) events = some s)
    (hstep : s.step lwip registered p (.datagram g env) = some s') :
    s'.log = s.log ∨ ∃ type bytes yiaddr,
      s'.log = s.log ++ .sent bytes :: (if type = Dhcps.dhcpAck then
        [.staIpAssigned (wordBytes yiaddr) (Region.load g.msg 28 6)] else []) ∧
      hear bytes = some {
        xid := Region.load g.msg 4 4
        yiaddr := wordBytes yiaddr
        chaddr := Region.load g.msg 28 16
        options := (Advertised.ofLog s.log).replyOptions (gateway s.netif) type } ∧
      (type = Dhcps.dhcpNak ∨ (type = Dhcps.dhcpOffer ∨ type = Dhcps.dhcpAck) ∧
        ∃ d ∈ s'.netif.dhcps, ∃ lease ∈ d.dhcps.plist,
          lease.pool.mac = g.msg.chaddr ∧ lease.pool.ip = yiaddr) := by
  have htracks : Tracks p s := Machine.exec_inv (P := Tracks p) (fun _ _ _ hstep ht => ht.step hstep)
    h (tracks_init hn)
  have htracks' := htracks.step hstep
  rw [ServerNetif.step] at hstep
  cases hd : s.netif.dhcps with
  | none => simp [hd] at hstep
  | some d =>
    simp only [hd, Option.ite_none_right_eq_some] at hstep
    obtain ⟨hstate, hstep⟩ := hstep
    have hcb := (htracks.running d hd hstate).2
    have hanswers := Dhcps.handleDhcpOut_answers (htracks.handle d hd).1
      { g with gw := gateway s.netif } env
    generalize Dhcps.handleDhcpOut d { g with gw := gateway s.netif } env = r at *
    cases hstep
    have hstate' : r.1.dhcps.state = .started := hanswers.config.state.trans hstate
    obtain ⟨hruns, -⟩ := htracks'.running r.1 rfl hstate'
    have hconfigures := (htracks'.handle r.1 rfl).2
    rw [ofLog_told] at hruns hconfigures
    rcases hanswers.out with hout | ⟨type, bytes, htype, hout, hhear, hgranted⟩
    · rw [hout]
      exact .inl (List.append_nil _)
    · refine .inr ⟨type, bytes, r.1.dhcps.clientAddress, ?_, ?_, ?_⟩
      · rw [hout, Dhcps.leaseOut, hcb]
        split <;> rfl
      · rw [hhear, Dhcps.saying, replyOptions_eq hconfigures hruns]
        rfl
      · have hgrants : type = Dhcps.dhcpOffer ∨ type = Dhcps.dhcpAck →
            ∃ d ∈ some r.1, ∃ lease ∈ d.dhcps.plist,
              lease.pool.mac = g.msg.chaddr ∧ lease.pool.ip = r.1.dhcps.clientAddress :=
          fun htype => ⟨r.1, rfl, hgranted htype⟩
        simp only [List.mem_cons, List.not_mem_nil, or_false] at htype
        rcases htype with hoffer | hack | hnak
        · exact .inr ⟨.inl hoffer, hgrants (.inl hoffer)⟩
        · exact .inr ⟨.inr hack, hgrants (.inr hack)⟩
        · exact .inl hnak

/-- The access point as it is created -/
def newAccessPoint : EspNetif Bool :=
  (espNetifInitConfiguration (.unconfigured Lwip.simple wifiAp) wifiAp.full wifiAp wifiAp.ifKey).2

/-- Five minutes, no router and a DNS server of its own; then the access point is started, and a
lease time is set too late. -/
def configureAndStart : List (ServerEvent Bool) :=
  [.dhcpsOption .set .ipAddressLeaseTime (some (5 : UInt32)) 4,
    .dhcpsOption .set .routerSolicitationAddress (some (0 : UInt8)) 1,
    .dhcpsOption .set .domainNameServer (some (1 : UInt8)) 1,
    .setDnsInfo .main (some (.v4 (Dhcps.ip4 192 168 4 7))), .call (.start (some 7) true),
    .dhcpsOption .set .ipAddressLeaseTime (some (9 : UInt32)) 4]

/-- An access point is configured and started, and answers a client. -/
theorem reply_advertises_accessPoint : ∃ s s' type bytes yiaddr,
    Machine.exec (ServerNetif.step Lwip.simple true 0) (.init newAccessPoint) configureAndStart =
        some s ∧
      s.step Lwip.simple true 0 (.datagram (Dhcps.discover fun _ => 1) ⟨true, true, true⟩) =
        some s' ∧
      hear bytes = some {
        xid := Region.load (Dhcps.discover fun _ => 1).msg 4 4
        yiaddr := wordBytes yiaddr
        chaddr := Region.load (Dhcps.discover fun _ => 1).msg 28 16
        options := (Advertised.ofLog s.log).replyOptions (gateway s.netif) type } := by
  obtain ⟨s, hs⟩ := Option.isSome_iff_exists.mp (show (Machine.exec
    (ServerNetif.step Lwip.simple true 0) (.init newAccessPoint) configureAndStart).isSome by
      decide +kernel)
  have hrun : ((Machine.exec (ServerNetif.step Lwip.simple true 0) (.init newAccessPoint)
      configureAndStart).bind fun s => (s.step Lwip.simple true 0 (.datagram
        (Dhcps.discover fun _ => 1) ⟨true, true, true⟩)).map fun s' =>
          decide (s'.log.length = s.log.length + 1)) = some true := by decide +kernel
  rw [hs] at hrun
  obtain ⟨s', hs', hlength⟩ := Option.map_eq_some_iff.mp hrun
  have hcreated : Created Lwip.simple wifiAp wifiAp.ifKey newAccessPoint :=
    created_of_ok (by decide)
  rcases reply_advertises Lwip.simple true 0 hcreated configureAndStart s s'
    (Dhcps.discover fun _ => 1) ⟨true, true, true⟩ hs hs' with
    hsame | ⟨type, bytes, yiaddr, -, hhear, -⟩
  · rw [hsame] at hlength
    simp at hlength
  · exact ⟨s, s', type, bytes, yiaddr, hs, hs', hhear⟩

end PicoHost.Interface
