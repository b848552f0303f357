import PicoHost.Dhcps.Countdown
import PicoHost.Dhcps.Fields
import PicoHost.Interface.Api

/-!
# Options of the DHCP server (`esp_netif_dhcps_option`)

The call takes any lease time before the server is started (`setLeaseTime_ok_iff`). The server
computes the seconds of it in 32 bits, once for option 51 and once for the timer of a lease.
`leaseTime_exact_iff`: both are the configured minutes exactly when that product does not
overflow.
-/

namespace PicoHost.Interface

open Dhcps (DhcpsT DhcpsLease Sent Datagram Input Start)

variable {κ : Type}

/-! ## `esp_netif_dhcps_option` -/

/-- `esp_netif_dhcp_option_mode_t` -/
inductive OptionMode where
  | start | set | get
deriving DecidableEq, Repr

/-- `esp_netif_dhcp_option_id_t`; `other` are those the server has no field for. -/
inductive OptionId where
  | subnetMask | domainNameServer | routerSolicitationAddress | requestedIpAddress
  | ipAddressLeaseTime | other
deriving DecidableEq, Repr

/-- What `opt_val` points to. -/
def OptionId.Val : OptionId → Type
  | .subnetMask | .ipAddressLeaseTime => UInt32
  | .requestedIpAddress => DhcpsLease
  | .domainNameServer | .routerSolicitationAddress => UInt8
  | .other => Unit

/-- The size `dhcps_option_info` asks for (dhcpserver.c:186–232). -/
def OptionId.size : OptionId → Option UInt32
  | .subnetMask | .ipAddressLeaseTime => some 4
  | .requestedIpAddress => some 12
  | .domainNameServer | .routerSolicitationAddress => some 1
  | .other => none

/-- `OFFER_ROUTER` -/
def offerRouter : UInt8 := 0x01

/-- `OFFER_DNS` -/
def offerDns : UInt8 := 0x02

/-- The checks on an enabled pool (esp_netif_lwip.c:2248–2269). -/
def poolRefused (ip : UInt32) (poll : DhcpsLease) : Bool :=
  let softapIp := ByteOrder.byteSwap ip
  let startIp := ByteOrder.byteSwap poll.startIp
  let endIp := ByteOrder.byteSwap poll.endIp
  (decide (startIp ≤ softapIp) && decide (softapIp ≤ endIp)) ||
    (decide (startIp >>> 8 ≠ softapIp >>> 8) || decide (endIp >>> 8 ≠ softapIp >>> 8)) ||
    decide (Dhcps.dhcpsMaxLease < endIp - startIp)

/-- The lease time that is stored: 0 stands for the default. -/
def leaseTimeSet (val : UInt32) : UInt32 := if val ≠ 0 then val else Dhcps.dhcpsLeaseTimeDef

/-- An option that is switched on or off. -/
def offerSet (bit val offer : UInt8) : UInt8 := if val ≠ 0 then offer ||| bit else offer &&& ~~~bit

/-- `ESP_NETIF_OP_SET` (esp_netif_lwip.c:2218–2289). `opt_info` points into the handle, so that
`dhcps_set_option_info` stores once more what is there already. `none`: refused. -/
def setDhcpsOption (ip : UInt32) : (id : OptionId) → id.Val → DhcpsT → Option DhcpsT
  | .ipAddressLeaseTime, val, d => some { d with dhcpsLeaseTime := leaseTimeSet val }
  | .subnetMask, val, d => some { d with dhcpsMask := val }
  | .requestedIpAddress, val, d =>
    if DhcpsLease.enable val && poolRefused ip val then none else some { d with dhcpsPoll := val }
  | .routerSolicitationAddress, val, d =>
    some { d with dhcpsOffer := offerSet offerRouter val d.dhcpsOffer }
  | .domainNameServer, val, d => some { d with dhcpsDns := offerSet offerDns val d.dhcpsDns }
  | .other, _, d => some d

/-- `ESP_NETIF_OP_GET` (esp_netif_lwip.c:2187–2217): what is written to `opt_val`. -/
def getDhcpsOption (d : DhcpsT) : (id : OptionId) → id.Val
  | .ipAddressLeaseTime => d.dhcpsLeaseTime
  | .subnetMask => d.dhcpsMask
  | .requestedIpAddress => d.dhcpsPoll
  | .routerSolicitationAddress => if d.dhcpsOffer &&& offerRouter ≠ 0 then (1 : UInt8) else (0 : UInt8)
  | .domainNameServer => if d.dhcpsDns &&& offerDns ≠ 0 then (1 : UInt8) else (0 : UInt8)
  | .other => ()

/-- `esp_netif_dhcps_option` (esp_netif_lwip.c:2171–2306) with `opt_val`, which may be `NULL`,
and `opt_len`: the return value, the interface and what is written to `opt_val`. -/
def espNetifDhcpsOption (n : EspNetif κ) (op : OptionMode) (id : OptionId) (val : Option id.Val)
    (len : UInt32) : EspErr × EspNetif κ × Option id.Val :=
  match n.dhcps, val with
  | none, _ => (.ifNotReady, n, none)
  | some _, none => (.invalidParams, n, none)
  | some s, some val =>
    if id.size ≠ some len then (.invalidParams, n, none)
    else match op with
      | .get =>
        if n.dhcpsStatus = .stopped then (.dhcpAlreadyStopped, n, none)
        else (.ok, n, some (getDhcpsOption s.dhcps id))
      | .set =>
        if n.dhcpsStatus = .started then (.dhcpAlreadyStarted, n, none)
        else match setDhcpsOption (espNetifGetIpInfo n).ip id val s.dhcps with
          | none => (.invalidParams, n, none)
          | some d => (.ok, { n with dhcps := some { s with dhcps := d } }, none)
      | .start => (.invalidParams, n, none)

/-- A call that fails, and a `GET`, leave the interface alone. -/
theorem espNetifDhcpsOption_same {n : EspNetif κ} {op : OptionMode} {id : OptionId}
    {val : Option id.Val} {len : UInt32} {r : EspErr × EspNetif κ × Option id.Val}
    (h : espNetifDhcpsOption n op id val len = r) (hr : r.1 ≠ .ok ∨ op = .get) : r.2.1 = n := by
  unfold espNetifDhcpsOption at h
  split at h
  · rw [← h]
  · rw [← h]
  · split at h
    · rw [← h]
    · cases op with
      | start => rw [← h]
      | get =>
        dsimp only at h
        split at h <;> rw [← h]
      | set =>
        dsimp only at h
        split at h
        · rw [← h]
        · split at h
          · rw [← h]
          · rcases hr with hr | hr
            · rw [← h] at hr
              exact absurd rfl hr
            · cases hr

/-- A lease time is accepted before the server is started, whatever it is, and stored. -/
theorem setLeaseTime_ok_iff {n n' : EspNetif κ} {T : UInt32} {len : UInt32} :
    espNetifDhcpsOption n .set .ipAddressLeaseTime (some T) len = (.ok, n', none) ↔
      ∃ s, n.dhcps = some s ∧ len = 4 ∧ n.dhcpsStatus ≠ .started ∧
        n' = { n with dhcps := some { s with
          dhcps := { s.dhcps with dhcpsLeaseTime := leaseTimeSet T } } } := by
  unfold espNetifDhcpsOption
  cases hs : n.dhcps with
  | none =>
    constructor
    · nofun
    · rintro ⟨s, hs', -⟩
      cases hs'
  | some s =>
    dsimp only
    by_cases hlen : len = 4
    · by_cases hstatus : n.dhcpsStatus = .started
      · rw [if_neg (by rw [hlen]; decide), if_pos hstatus]
        constructor
        · nofun
        · rintro ⟨s', -, -, hne, -⟩
          exact absurd hstatus hne
      · rw [if_neg (by rw [hlen]; decide), if_neg hstatus]
        constructor
        · intro h
          exact ⟨s, rfl, hlen, hstatus, (Prod.mk.inj (Prod.mk.inj h).2).1.symm⟩
        · rintro ⟨s', hs', -, -, hn⟩
          cases hs'
          rw [hn]
          rfl
    · have hsize : OptionId.size .ipAddressLeaseTime ≠ some len := by
        intro h
        exact hlen (Option.some.inj h).symm
      rw [if_pos hsize]
      constructor
      · nofun
      · rintro ⟨s', -, hlen', -⟩
        exact absurd hlen' hlen

/-! ## The lease time in seconds -/

/-- The number that its bytes spell, the highest first. -/
def bigEndian (bytes : List UInt8) : Nat := bytes.foldl (fun n b => 2 ^ 8 * n + b.toNat) 0

/-- The seconds in option 51 of a message. -/
def advertisedLease (sent : Sent) : Option Nat :=
  ((Dhcps.readOptions (sent.msg.options.drop 4)).bind fun opts =>
    opts.find? fun o => decide (o.code = Dhcps.dhcpOptionLeaseTime)).map fun o => bigEndian o.value

theorem bigEndian_bigEndianBytes (w : UInt32) :
    bigEndian (Dhcps.bigEndianBytes w) = w.toNat := by
  have hlt := w.toNat_lt
  simp only [bigEndian, Dhcps.bigEndianBytes, List.foldl_cons, List.foldl_nil, UInt8.toNat_ofNat']
  omega

/-- A reply that offers or acknowledges advertises this lease time. -/
theorem advertisedLease_reply {s : Dhcps.Server} {g : Datagram} {sent : Sent}
    (h : (Dhcps.handleDhcp s g).2 = some sent)
    (htype : sent.type = Dhcps.dhcpOffer ∨ sent.type = Dhcps.dhcpAck) :
    advertisedLease sent = some (s.dhcps.dhcpsLeaseTime * Dhcps.dhcpsLeaseUnit).toNat := by
  have hsame := Dhcps.parseMsg_config s g.msg g.len
  have hlease : (Dhcps.parseMsg s g.msg g.len).1.dhcps.dhcpsLeaseTime = s.dhcps.dhcpsLeaseTime := by
    unfold Dhcps.SameConfig at hsame
    rw [hsame]
  have hoffered : ∃ type, sent = Dhcps.sendReply (Dhcps.parseMsg s g.msg g.len).1.dhcps g.msg
      g.gw type true := by
    unfold Dhcps.handleDhcp at h
    dsimp only at h
    generalize Dhcps.parseMsg s g.msg g.len = r at h ⊢
    cases hret : r.2 <;> rw [hret] at h <;> cases h
    case offer => exact ⟨_, rfl⟩
    case ack => exact ⟨_, rfl⟩
    case nak => rcases htype with ht | ht <;> cases ht
  obtain ⟨type, rfl⟩ := hoffered
  rw [advertisedLease, Dhcps.readOptions_sendReply, ← hlease, ← bigEndian_bigEndianBytes]
  rfl

/-- Option 51 says this many seconds, and the lease of the client ends with this many ticks when
it is not renewed. -/
structure ExactLease (s : Dhcps.Server) (mac : Dhcps.Mac) (sent : Sent) (seconds : Nat) :
    Prop where
  advertised : advertisedLease sent = some seconds
  removed : ∀ later, Dhcps.Unrenewed s mac later →
    (Dhcps.HoldsLease (Dhcps.after s later) mac ↔ Dhcps.numTicks later < seconds)

theorem leaseSeconds_toNat (T : UInt32) :
    (T * Dhcps.dhcpsLeaseUnit).toNat = T.toNat * 60 % 2 ^ 32 := UInt32.toNat_mul ..

/-- A lease is exact for the 32-bit product, unless that is zero: then it lasts 2 ^ 32 ticks. -/
theorem exactLease_of_ne {s : Dhcps.Server} (h : Dhcps.Serving s) {g : Datagram} {sent : Sent}
    (hsent : (Dhcps.handleDhcp s g).2 = some sent)
    (htype : sent.type = Dhcps.dhcpOffer ∨ sent.type = Dhcps.dhcpAck)
    (hne : s.dhcps.dhcpsLeaseTime * Dhcps.dhcpsLeaseUnit ≠ 0) :
    ExactLease (Dhcps.handleDhcp s g).1 g.msg.chaddr sent
      (s.dhcps.dhcpsLeaseTime * Dhcps.dhcpsLeaseUnit).toNat where
  advertised := advertisedLease_reply hsent htype
  removed later hlater := by
    have htimer := Dhcps.timersOf_reply h.toDistinct hsent htype
    have hone : s.dhcps.leaseTimer = s.dhcps.dhcpsLeaseTime * Dhcps.dhcpsLeaseUnit := by
      rw [Dhcps.DhcpsT.leaseTimer]
      exact UInt32.div_one
    rw [hone] at htimer
    rw [← Dhcps.ticksLeft_of_ne hne]
    exact Dhcps.holdsLease_after (h.step (.datagram g)) hlater htimer

/-- In every run of a server that is started with the lease time of an accepted call, the client
of an OFFER or ACK is told the configured minutes and gets them, exactly when their seconds fit
32 bits. -/
theorem leaseTime_exact_iff {n n' : EspNetif κ} {T : UInt32} {len : UInt32} {s : Dhcps.Server}
    (hT : T ≠ 0)
    (hset : espNetifDhcpsOption n .set .ipAddressLeaseTime (some T) len = (.ok, n', none))
    (hs : n'.dhcps = some s) (x : Start)
    (hx : x.before.dhcps.dhcpsLeaseTime = s.dhcps.dhcpsLeaseTime) (before : List Input)
    (g : Datagram) (sent : Sent)
    (hsent : (Dhcps.handleDhcp (Dhcps.after x.server before) g).2 = some sent)
    (htype : sent.type = Dhcps.dhcpOffer ∨ sent.type = Dhcps.dhcpAck) :
    ExactLease (Dhcps.handleDhcp (Dhcps.after x.server before) g).1 g.msg.chaddr sent
        (T.toNat * 60) ↔ T.toNat * 60 < 2 ^ 32 := by
  have hlease : (Dhcps.after x.server before).dhcps.dhcpsLeaseTime = T := by
    obtain ⟨s₀, -, -, -, hn⟩ := setLeaseTime_ok_iff.mp hset
    rw [hn] at hs
    cases hs
    have hstart : x.server.dhcps.dhcpsLeaseTime = T := by
      rw [x.server_eq]
      exact hx.trans (if_pos hT)
    have hsame := Dhcps.after_config x.server before
    unfold Dhcps.SameConfig at hsame
    rw [hsame]
    exact hstart
  have hserving := x.serving.after before
  generalize Dhcps.after x.server before = t at *
  constructor
  · -- 32 bits cannot say more
    intro h
    have hadv := h.advertised
    rw [advertisedLease_reply hsent htype, hlease, leaseSeconds_toNat] at hadv
    have heq := Option.some.inj hadv
    omega
  · intro h
    have hpos : T.toNat ≠ 0 := fun h0 => hT (UInt32.toNat_inj.mp h0)
    have hnat := leaseSeconds_toNat T
    rw [Nat.mod_eq_of_lt h] at hnat
    have hne : T * Dhcps.dhcpsLeaseUnit ≠ 0 := by
      intro h0
      rw [h0] at hnat
      have hzero : (0 : UInt32).toNat = 0 := rfl
      omega
    have hexact := exactLease_of_ne hserving hsent htype (hlease ▸ hne)
    rwa [hlease, hnat] at hexact

/-- A handle as `dhcps_new` leaves it but for its lease time, started at 192.168.4.1. -/
def leaseStart (T : UInt32) : Start where
  before := ⟨{ Dhcps.dhcpsNew with dhcpsLeaseTime := T }, Heap.empty⟩
  netif := 0
  ip := Dhcps.ip4 192 168 4 1
  pcb := 0
  plist := rfl
  heap := Dhcps.owned_empty
  ok := by
    have hmask : ¬ Dhcps.isInvalidSubnetMask (ByteOrder.byteSwap Dhcps.dhcpsNew.dhcpsMask) = true :=
      by decide +kernel
    unfold Dhcps.dhcpsStart
    dsimp only
    rw [if_neg (by decide +kernel), if_neg hmask]

/-- An interface with a new server. -/
def newServer : EspNetif Bool :=
  { EspNetif.zeroed Lwip.simple with dhcps := some ⟨Dhcps.dhcpsNew, Heap.empty⟩ }

/-- A lease time of one minute. -/
theorem leaseTime_exact_iff_one : ∃ sent,
    (Dhcps.handleDhcp (leaseStart 1).server (Dhcps.discover fun _ => 1)).2 = some sent ∧
      ExactLease (Dhcps.handleDhcp (leaseStart 1).server (Dhcps.discover fun _ => 1)).1
        (Dhcps.discover fun _ => 1).msg.chaddr sent 60 := by
  obtain ⟨sent, hsent⟩ : ∃ sent, (Dhcps.handleDhcp (leaseStart 1).server
      (Dhcps.discover fun _ => 1)).2 = some sent := Option.isSome_iff_exists.mp (by decide +kernel)
  have htype : (Dhcps.handleDhcp (leaseStart 1).server (Dhcps.discover fun _ => 1)).2.map
      Sent.type = some Dhcps.dhcpOffer := by decide +kernel
  rw [hsent] at htype
  have hset : espNetifDhcpsOption newServer .set .ipAddressLeaseTime (some (1 : UInt32)) 4 =
      (.ok, { newServer with dhcps := some (leaseStart 1).before }, none) :=
    setLeaseTime_ok_iff.mpr ⟨_, rfl, rfl, by decide, rfl⟩
  exact ⟨sent, hsent, (leaseTime_exact_iff (by decide) hset rfl (leaseStart 1) rfl []
    (Dhcps.discover fun _ => 1) sent hsent (.inl (Option.some.inj htype))).mpr (by decide)⟩

/-- With 71582789 minutes, which are accepted, a client is told that its lease lasts 44 seconds,
and 44 ticks end it. -/
theorem leaseTime_overflows : ∃ n' sent,
    espNetifDhcpsOption newServer .set .ipAddressLeaseTime (some (71582789 : UInt32)) 4 =
        (.ok, n', none) ∧
      n'.dhcps = some (leaseStart 71582789).before ∧
      (Dhcps.handleDhcp (leaseStart 71582789).server (Dhcps.discover fun _ => 1)).2 = some sent ∧
      sent.type = Dhcps.dhcpOffer ∧ advertisedLease sent = some 44 ∧
      ¬ Dhcps.HoldsLease (Dhcps.after (Dhcps.handleDhcp (leaseStart 71582789).server
        (Dhcps.discover fun _ => 1)).1 (List.replicate 44 .tick)) fun _ => 1 := by
  obtain ⟨sent, hsent⟩ : ∃ sent, (Dhcps.handleDhcp (leaseStart 71582789).server
      (Dhcps.discover fun _ => 1)).2 = some sent := Option.isSome_iff_exists.mp (by decide +kernel)
  have htype : (Dhcps.handleDhcp (leaseStart 71582789).server (Dhcps.discover fun _ => 1)).2.map
      Sent.type = some Dhcps.dhcpOffer := by decide +kernel
  rw [hsent] at htype
  have htype := Option.some.inj htype
  refine ⟨_, sent, setLeaseTime_ok_iff.mpr ⟨_, rfl, rfl, by decide, rfl⟩, rfl, hsent, htype, ?_, ?_⟩
  · rw [advertisedLease_reply hsent (.inl htype)]
    decide +kernel
  · show ¬ (fun _ => 1 : Dhcps.Mac) ∈ Dhcps.macs _
    decide +kernel

end PicoHost.Interface
