import PicoHost.Interface.Frame

/-!
# Losing an address

What the calls about the IPv4 address of an interface do to `timer_running` and to `ip_info_old`
(`run_moves`), and which of them arm the timer of the lost address when the address becomes zero
(`run_watches`). `esp_netif_start_ip_lost_timer` looks at `ip_info`, and the calls that reset
`ip_info` before they ask for the timer do not get it.
-/

namespace PicoHost.Interface

open Dhcps (NetifPtr PcbPtr)

variable {κ : Type} {lwip : Lwip κ} {registered : Bool} {p : NetifPtr} {n n' n'' : EspNetif κ}

/-- What the functions of lwIP do to the IPv4 address, and when they invoke the extended
callback: `dhcp_stop` releases an address that came from DHCP. -/
structure Lwip.AddrSpec (lwip : Lwip κ) : Prop where
  netifSetAddr : ∀ n addr, (lwip.netifSetAddr n addr).1.addr = addr ∧
    (lwip.netifSetAddr n addr).2 = decide (addr ≠ n.addr)
  netifSetUp : ∀ n, (lwip.netifSetUp n).addr = n.addr
  netifSetLinkUp : ∀ n, (lwip.netifSetLinkUp n).addr = n.addr
  netifSetDown : ∀ n, (lwip.netifSetDown n).addr = n.addr
  netifSetLinkDown : ∀ n, (lwip.netifSetLinkDown n).addr = n.addr
  dhcpStop : ∀ n, (lwip.dhcpStop n).1.addr = n.addr ∧ (lwip.dhcpStop n).2 = false ∨
    (lwip.dhcpStop n).1.addr = .any ∧ (lwip.dhcpStop n).2 = decide (n.addr ≠ .any)
  dhcpStart : ∀ n, (lwip.dhcpStart n).1.addr = n.addr

/-- `Lwip.simple` does to addresses what `AddrSpec` asks of lwIP. -/
theorem simple_addrSpec : Lwip.simple.AddrSpec where
  netifSetAddr _ _ := ⟨rfl, rfl⟩
  netifSetUp _ := rfl
  netifSetLinkUp _ := rfl
  netifSetDown _ := rfl
  netifSetLinkDown _ := rfl
  dhcpStop n := by
    dsimp only [Lwip.simple]
    split
    · exact .inr ⟨rfl, rfl⟩
    · exact .inl ⟨rfl, rfl⟩
  dhcpStart _ := rfl

/-- The calls about the address of an interface, without those that add it to lwIP and remove
it -/
def ApiCall.aboutAddress : ApiCall → Bool
  | .dhcpcStart | .dhcpcStop | .up | .down | .setIpInfo _ => true
  | _ => false

/-! ## The timer and the old address -/

/-- The event says that the interface has got an address. -/
def IpEvent.announces : IpEvent → Bool
  | .gotIp .. => true
  | _ => false

/-- What the code about addresses may do: the timer is armed at most once, and only if it is not
running; events announce addresses, and `ip_info_old` is the last address that was announced. -/
structure Moves (n n' : EspNetif κ) (es : List Effect) : Prop where
  timer : es.count (.sysTimeout .ipLost) + n.timerRunning.toNat = n'.timerRunning.toNat
  armed : .sysUntimeout .ipLost ∉ es
  events : ∀ e, .post e ∈ es → e.announces = true
  old : (∃ e, .post e ∈ es) ∧ n'.ipInfoOld.ip ≠ 0 ∨
    (∀ e, .post e ∉ es) ∧ n'.ipInfoOld = n.ipInfoOld

/-- A change of neither the timer nor the old address does nothing about addresses. -/
theorem Moves.of_eq (htimer : n'.timerRunning = n.timerRunning)
    (hold : n'.ipInfoOld = n.ipInfoOld) : Moves n n' [] where
  timer := by rw [htimer, List.count_nil, Nat.zero_add]
  armed := List.not_mem_nil
  events _ h := absurd h List.not_mem_nil
  old := .inr ⟨fun _ => List.not_mem_nil, hold⟩

theorem Moves.refl (n : EspNetif κ) : Moves n n [] := .of_eq rfl rfl

/-- Two changes in a row: the timer is armed by one of them, and the last event counts. -/
theorem Moves.trans {es es' : List Effect} (h : Moves n n' es) (h' : Moves n' n'' es') :
    Moves n n'' (es ++ es') where
  timer := by
    rw [List.count_append, Nat.add_right_comm, h.timer, Nat.add_comm, h'.timer]
  armed hm := (List.mem_append.mp hm).elim h.armed h'.armed
  events e he := (List.mem_append.mp he).elim (h.events e) (h'.events e)
  old := by
    rcases h'.old with ⟨⟨e, he⟩, hold'⟩ | ⟨hnone', hold'⟩
    · exact .inl ⟨⟨e, List.mem_append_right es he⟩, hold'⟩
    · rw [hold']
      rcases h.old with ⟨⟨e, he⟩, hold⟩ | ⟨hnone, hold⟩
      · exact .inl ⟨⟨e, List.mem_append_left es' he⟩, hold⟩
      · exact .inr ⟨fun e he => (List.mem_append.mp he).elim (hnone e) (hnone' e), hold⟩

/-- Fields other than the timer and the old address do not matter. -/
theorem Moves.congr {es : List Effect} (h : Moves n n' es)
    (htimer : n''.timerRunning = n'.timerRunning) (hold : n''.ipInfoOld = n'.ipInfoOld) :
    Moves n n'' es := by
  have htrans := h.trans (.of_eq htimer hold)
  rwa [List.append_nil] at htrans

/-- One event that announces an address -/
theorem Moves.announce {e : IpEvent} (he : e.announces = true)
    (htimer : n'.timerRunning = n.timerRunning) (hold : n'.ipInfoOld.ip ≠ 0) :
    Moves n n' [.post e] where
  timer := by
    rw [htimer, List.count_eq_zero_of_not_mem, Nat.zero_add]
    exact fun h => nomatch List.mem_singleton.mp h
  armed h := nomatch List.mem_singleton.mp h
  events e' he' := by
    cases List.mem_singleton.mp he'
    exact he
  old := .inl ⟨⟨e, List.mem_singleton.mpr rfl⟩, hold⟩

section Moves

/-- `esp_netif_start_ip_lost_timer` arms the timer only where it is not running. -/
theorem startIpLostTimer_moves (n : EspNetif κ) :
    Moves n (espNetifStartIpLostTimer n).1 (espNetifStartIpLostTimer n).2 := by
  rw [espNetifStartIpLostTimer]
  split
  · exact .refl n
  · rename_i htimer
    split
    · exact {
        timer := by
          rw [Bool.eq_false_iff.mpr htimer, List.count_singleton_self]
          rfl
        armed := fun h => by cases List.mem_singleton.mp h
        events := fun e h => by cases List.mem_singleton.mp h
        old := .inr ⟨fun e h => (by cases List.mem_singleton.mp h), rfl⟩ }
    · exact .refl n

/-- The callback of a changed address announces a new address and remembers it, or arms the timer.
-/
theorem internalDhcpcCb_moves (n : EspNetif κ) :
    Moves n (espNetifInternalDhcpcCb n).1 (espNetifInternalDhcpcCb n).2 := by
  rw [espNetifInternalDhcpcCb]
  split
  · rename_i hip
    split
    · exact .announce rfl rfl hip
    · exact .refl n
  · split
    · exact startIpLostTimer_moves n
    · exact .refl n

/-- The extended callback of lwIP runs `esp_netif_internal_dhcpc_cb` or nothing. -/
theorem netifCallbackFn_moves (registered : Bool) (n : EspNetif κ) (r : LwipNetif κ × Bool) :
    Moves n (netifCallbackFn registered n r).1 (netifCallbackFn registered n r).2 := by
  have hset : Moves n { n with lwip := r.1 } [] := .of_eq rfl rfl
  unfold netifCallbackFn
  dsimp only
  split
  · exact hset.trans (internalDhcpcCb_moves _)
  · exact hset

/-- `esp_netif_set_ip_info_api` posts its own event and remembers the address in it. -/
theorem setIpInfoEvent_moves (info : IpInfo) (n : EspNetif κ) :
    Moves n (setIpInfoEvent info n).1 (setIpInfoEvent info n).2 := by
  rw [setIpInfoEvent]
  split
  · rename_i h
    simp only [Bool.and_eq_true, Bool.not_eq_true', Bool.or_eq_false_iff, decide_eq_false_iff_not]
      at h
    exact .announce rfl rfl h.2.1.1
  · exact .refl n

/-! ### The pieces of a call -/

/-- An effect that is neither an event nor about the timer of the lost address -/
def Effect.aside : Effect → Bool
  | .post _ | .sysTimeout .ipLost | .sysUntimeout .ipLost => false
  | .sysTimeout _ | .sysUntimeout _ => true

/-- What only the code about addresses changes -/
def EspNetif.account (n : EspNetif κ) : Bool × IpInfo := (n.timerRunning, n.ipInfoOld)

/-- What the calls are made of, as far as addresses go: lwIP functions with their callback, the
timer of the lost address, and the event of `esp_netif_set_ip_info_api` where `Announce` allows
it -/
inductive Pieces (lwip : Lwip κ) (registered : Bool) (Announce : IpInfo → EspNetif κ → Prop) :
    EspNetif κ → EspNetif κ → List Effect → Prop
  | aside {n n' : EspNetif κ} {es : List Effect} (h : n'.account = n.account)
    (hes : ∀ e ∈ es, e.aside = true) : Pieces lwip registered Announce n n' es
  | lostTimer (n : EspNetif κ) : Pieces lwip registered Announce n
      (espNetifStartIpLostTimer n).1 (espNetifStartIpLostTimer n).2
  | setAddr (n : EspNetif κ) : Pieces lwip registered Announce n
      (netifCallbackFn registered n (lwip.netifSetAddr n.lwip n.ipInfo)).1
      (netifCallbackFn registered n (lwip.netifSetAddr n.lwip n.ipInfo)).2
  | clearAddr (n : EspNetif κ) : Pieces lwip registered Announce n
      (netifCallbackFn registered n (lwip.netifSetAddr n.lwip .any)).1
      (netifCallbackFn registered n (lwip.netifSetAddr n.lwip .any)).2
  | dhcpStop (n : EspNetif κ) : Pieces lwip registered Announce n
      (netifCallbackFn registered n (lwip.dhcpStop n.lwip)).1
      (netifCallbackFn registered n (lwip.dhcpStop n.lwip)).2
  | dhcpRelease (n : EspNetif κ) : Pieces lwip registered Announce n
      (netifCallbackFn registered n (lwip.dhcpRelease n.lwip)).1
      (netifCallbackFn registered n (lwip.dhcpRelease n.lwip)).2
  | event {info : IpInfo} {n : EspNetif κ} (h : Announce info n) :
    Pieces lwip registered Announce n (setIpInfoEvent info n).1 (setIpInfoEvent info n).2
  | trans {n n' n'' : EspNetif κ} {es es' : List Effect}
    (h : Pieces lwip registered Announce n n' es) (h' : Pieces lwip registered Announce n' n'' es') :
    Pieces lwip registered Announce n n'' (es ++ es')

/-- Effects that have nothing to do with addresses move nothing. -/
theorem aside_moves {es : List Effect} (h : n'.account = n.account)
    (hes : ∀ e ∈ es, e.aside = true) : Moves n n' es where
  timer := by
    have hnot : .sysTimeout .ipLost ∉ es := fun hm => Bool.false_ne_true (hes _ hm)
    have htimer : n'.timerRunning = n.timerRunning := congrArg Prod.fst h
    rw [htimer, List.count_eq_zero_of_not_mem hnot, Nat.zero_add]
  armed hm := Bool.false_ne_true (hes _ hm)
  events e hm := absurd (hes _ hm) Bool.false_ne_true
  old := .inr ⟨fun e hm => Bool.false_ne_true (hes _ hm), congrArg Prod.snd h⟩

variable {Announce : IpInfo → EspNetif κ → Prop}

/-- Whatever is made of these pieces keeps the rules, by induction on the pieces. -/
theorem Pieces.moves {es : List Effect} (h : Pieces lwip registered Announce n n' es) :
    Moves n n' es := by
  induction h with
  | aside h hes => exact aside_moves h hes
  | lostTimer n => exact startIpLostTimer_moves n
  | setAddr | clearAddr | dhcpStop | dhcpRelease => exact netifCallbackFn_moves ..
  | event => exact setIpInfoEvent_moves ..
  | trans _ _ ih ih' => exact ih.trans ih'

/-- A step without effects that leaves the timer and the old address alone is a piece. -/
theorem Pieces.quiet (h : n'.account = n.account) : Pieces lwip registered Announce n n' [] :=
  .aside h fun _ he => (List.not_mem_nil he).elim

/-- A last step that touches neither timer nor old address can be added. -/
theorem Pieces.congr {es : List Effect} (h : Pieces lwip registered Announce n n' es)
    (h' : n''.account = n'.account) : Pieces lwip registered Announce n n'' es := by
  have htrans := h.trans (.quiet h')
  rwa [List.append_nil] at htrans

/-- Starting the DHCP server is not about the client's address. -/
theorem startDhcps_account (udpNew : Option PcbPtr) :
    (startDhcps p udpNew n).2.account = n.account := by
  rw [startDhcps]
  split
  · rfl
  · dsimp only
    split <;> rfl

/-- Stopping the DHCP server is not about the client's address either. -/
theorem stopDhcps_account : (stopDhcps p n).2.account = n.account := by
  rw [stopDhcps]
  split <;> rfl

/-- `esp_netif_start_api` moves neither the timer of the lost address nor the old address. -/
theorem startApi_pieces {udpNew : Option PcbPtr} {malloc : Bool} {r : Call κ}
    (h : espNetifStartApi lwip p udpNew malloc n = some r) :
    Pieces lwip registered Announce n r.netif r.effects := by
  obtain ⟨n₀, n₁, hadd, rfl, heffects, h⟩ := startApi_cases h
  rw [heffects]
  have hadded : (startAutoup lwip n₀).account = n.account := by
    simp only [espNetifLwipAdd, Option.ite_none_left_eq_some, Option.map_eq_some_iff] at hadd
    obtain ⟨-, _, -, rfl⟩ := hadd
    rw [startAutoup]
    split <;> rfl
  refine .aside ?_ fun e he => ?_
  · rw [← hadded]
    rcases h with ⟨-, -, -, h, -⟩ | ⟨h, -⟩ | ⟨-, -, h | h⟩
    · rw [h, startDhcps_account]
    · rw [h]
    · rw [h]
    · rw [h]
      rfl
  · split at he
    · rw [List.mem_singleton.mp he]
      rfl
    · cases he

/-- `esp_netif_lwip_remove` clears other timers only. -/
theorem lwipRemove_pieces (n : EspNetif κ) : Pieces lwip registered Announce n
    (espNetifLwipRemove lwip n).1 (espNetifLwipRemove lwip n).2 := by
  refine .aside rfl fun e he => ?_
  rcases List.mem_append.mp he with he | he
  · split at he
    · rw [List.mem_singleton.mp he]
      rfl
    · cases he
  · split at he
    · rw [List.mem_singleton.mp he]
      rfl
    · cases he

/-- The DHCP part of `esp_netif_stop_api` releases the address of a client and stops it. -/
theorem stopDhcp_pieces : Pieces lwip registered Announce n (stopDhcp lwip registered p n).1
    (stopDhcp lwip registered p n).2 := by
  rw [stopDhcp]
  split
  · dsimp only
    split
    · exact .quiet (stopDhcps_account (p := p))
    · exact .quiet stopDhcps_account
  · split
    · have hreset : ∀ n : EspNetif κ, Pieces lwip registered Announce n (espNetifResetIpInfo
          { n with lwip := lwip.dhcpCleanup n.lwip, dhcpcStatus := .init }) [] := fun _ =>
        .quiet rfl
      exact ((Pieces.dhcpRelease n).trans (.dhcpStop _)).trans (hreset _)
    · exact .quiet rfl

/-- `esp_netif_stop_api` stops DHCP and removes the interface from lwIP. -/
theorem stopApi_pieces : Pieces lwip registered Announce n
    (espNetifStopApi lwip registered p n).netif (espNetifStopApi lwip registered p n).effects := by
  rw [espNetifStopApi]
  split
  · have hdown : ∀ n : EspNetif κ, Pieces lwip registered Announce n
        { n with lwip := lwip.netifSetDown n.lwip } [] := fun _ => .quiet rfl
    exact stopDhcp_pieces.trans ((hdown _).trans (lwipRemove_pieces _))
  · exact lwipRemove_pieces n

/-- `esp_netif_up_api` sets the stored address, which lwIP reports if it is new. -/
theorem upApi_pieces : Pieces lwip registered Announce n
    (espNetifUpApi lwip registered n).netif (espNetifUpApi lwip registered n).effects := by
  have hup : ∀ n : EspNetif κ, Pieces lwip registered Announce n
      { n with lwip := lwip.netifSetLinkUp (lwip.netifSetUp n.lwip) } [] := fun _ => .quiet rfl
  exact (Pieces.setAddr n).trans (hup _)

/-- `esp_netif_down_api` first stops the DHCP client, which may release the address. -/
theorem downDhcpc_pieces : Pieces lwip registered Announce n
    (downDhcpc lwip registered n).1 (downDhcpc lwip registered n).2 := by
  rw [downDhcpc]
  split
  · have hreset : ∀ n : EspNetif κ, Pieces lwip registered Announce n
        (espNetifResetIpInfo { n with dhcpcStatus := .init }) [] := fun _ => .quiet rfl
    exact (Pieces.dhcpStop n).trans (hreset _)
  · exact .quiet rfl

/-- For a DHCP client, `esp_netif_down_api` starts the timer of the lost address. -/
theorem downIpLost_pieces (n : EspNetif κ) :
    Pieces lwip registered Announce n (downIpLost n).1 (downIpLost n).2 := by
  rw [downIpLost]
  split
  · exact .lostTimer n
  · exact .quiet rfl

/-- `esp_netif_down_api` is made of the client, the address and the timer. -/
theorem downApi_pieces : Pieces lwip registered Announce n
    (espNetifDownApi lwip registered n).netif (espNetifDownApi lwip registered n).effects := by
  have hmld : ∀ n : EspNetif κ, Pieces lwip registered Announce n n
      (if n.flags.mldv6Report then [Effect.sysUntimeout .mldv6] else []) := by
    intro n
    refine .aside rfl fun e he => ?_
    split at he
    · rw [List.mem_singleton.mp he]
      rfl
    · cases he
  have hdown : ∀ n : EspNetif κ, Pieces lwip registered Announce n
      { n with lwip := lwip.netifSetLinkDown (lwip.netifSetDown n.lwip) } [] := fun _ =>
    .quiet rfl
  exact (((downDhcpc_pieces.trans (hmld _)).trans (.clearAddr _)).trans
    (hdown _)).trans (downIpLost_pieces _)

/-- `esp_netif_dhcpc_stop_api` stops a started client and reports what lwIP released. -/
theorem dhcpcStopApi_pieces : Pieces lwip registered Announce n
    (espNetifDhcpcStopApi lwip registered n).netif
    (espNetifDhcpcStopApi lwip registered n).effects := by
  rw [espNetifDhcpcStopApi]
  split
  · have hreset : ∀ n : EspNetif κ,
        Pieces lwip registered Announce n (espNetifResetIpInfo n) [] := fun _ => .quiet rfl
    have hstop := (Pieces.dhcpStop n).trans ((hreset _).trans (.lostTimer _))
    exact hstop.congr rfl
  · exact .quiet rfl
  · exact .quiet rfl

/-- `esp_netif_dhcpc_start_api` may clear the address of the interface, and starts the client. -/
theorem dhcpcStartApi_pieces : Pieces lwip registered Announce n
    (espNetifDhcpcStartApi lwip n).netif (espNetifDhcpcStartApi lwip n).effects := by
  rcases dhcpcStartApi_cases lwip n with ⟨-, h⟩ | ⟨-, -, err, status, h⟩ | ⟨-, -, h⟩
  · rw [h]
    exact .quiet rfl
  · rw [h]
    have hclear : Pieces lwip registered Announce n { espNetifResetIpInfo n with
        lwip := { n.lwip with addr := .any } } [] := .quiet rfl
    exact (hclear.trans (.lostTimer _)).congr rfl
  · rw [h]
    exact .quiet rfl

/-- `esp_netif_dhcps_start_api` has no effect on the client's address. -/
theorem dhcpsStartApi_pieces {udpNew : Option PcbPtr} : Pieces lwip registered Announce n
    (espNetifDhcpsStartApi p udpNew n).netif (espNetifDhcpsStartApi p udpNew n).effects := by
  rw [espNetifDhcpsStartApi]
  split
  · exact .quiet rfl
  · split
    · exact .quiet (startDhcps_account udpNew)
    · exact .quiet rfl

/-- `esp_netif_dhcps_stop_api` has no effect on the client's address. -/
theorem dhcpsStopApi_pieces : Pieces lwip registered Announce n
    (espNetifDhcpsStopApi p n).netif (espNetifDhcpsStopApi p n).effects := by
  rw [espNetifDhcpsStopApi]
  split
  · dsimp only
    split
    · exact .quiet (stopDhcps_account (p := p))
    · exact .quiet stopDhcps_account
  · exact .quiet rfl
  · exact .quiet rfl

/-- What `esp_netif_set_ip_info` may announce: the address that it is given, if it does not refuse
it and the interface is up -/
def ApiCall.Announces (n : EspNetif κ) (call : ApiCall) (info : IpInfo) (m : EspNetif κ) : Prop :=
  call = .setIpInfo (some info) ∧ ¬ n.RefusesIpInfo ∧ n.lwip.isUp = true ∧ m.flags = n.flags

/-- `esp_netif_set_ip_info_api` is the only call that announces an address by itself. -/
theorem setIpInfoApi_pieces (info : Option IpInfo) :
    Pieces lwip registered (ApiCall.Announces n (.setIpInfo info)) n
      (espNetifSetIpInfoApi lwip registered info n).netif
      (espNetifSetIpInfoApi lwip registered info n).effects := by
  rcases setIpInfoApi_cases lwip registered n info with
    ⟨err, h, -⟩ | ⟨i, rfl, haccepts, hup, h⟩ | ⟨i, -, -, -, h⟩
  · rw [h]
    exact .quiet rfl
  · rw [h]
    have hset : Pieces lwip registered (ApiCall.Announces n (.setIpInfo (some i))) n
      { n with ipInfo := i } [] := .quiet rfl
    have hflags := congrArg (fun r => r.1.1) (netifCallbackFn_rest registered
      { n with ipInfo := i } (lwip.netifSetAddr n.lwip i))
    exact hset.trans ((Pieces.setAddr { n with ipInfo := i }).trans
      (.event ⟨rfl, haccepts, hup, hflags⟩))
  · rw [h]
    exact .quiet rfl

/-- Every call is made of these pieces, by cases on the call. -/
theorem run_pieces {call : ApiCall} {r : Call κ} (h : call.run lwip registered p n = some r) :
    Pieces lwip registered (call.Announces n) n r.netif r.effects := by
  cases call with
  | start udpNew malloc => exact startApi_pieces h
  | stop => cases h; exact stopApi_pieces
  | up => cases h; exact upApi_pieces
  | down => cases h; exact downApi_pieces
  | dhcpcStart => cases h; exact dhcpcStartApi_pieces
  | dhcpcStop => cases h; exact dhcpcStopApi_pieces
  | setIpInfo info => cases h; exact setIpInfoApi_pieces info
  | dhcpsStart udpNew => cases h; exact dhcpsStartApi_pieces
  | dhcpsStop => cases h; exact dhcpsStopApi_pieces
  | setDefaultNetif => cases h; exact .quiet rfl

/-- Every call keeps the rules of the timer and of the old address. -/
theorem run_moves {call : ApiCall} {r : Call κ} (h : call.run lwip registered p n = some r) :
    Moves n r.netif r.effects := (run_pieces h).moves

end Moves

/-! ## Which calls arm the timer -/

/-- The call does not make the address zero, or it arms the timer of the lost address. -/
def ApiCall.Watches (lwip : Lwip κ) (registered : Bool) (n : EspNetif κ) : ApiCall → Prop
  | .dhcpcStart => n.dhcpcStatus = .started ∨ n.lwip.isUp = false
  | .dhcpcStop => n.dhcpcStatus = .started → (lwip.dhcpStop n.lwip).1.addr.ip = 0 →
      registered = true ∧ n.ipInfo.ip ≠ 0
  | .up => n.ipInfo.ip ≠ 0
  | .down => n.ipInfo.ip ≠ 0 ∧ if n.flags.dhcpClient = true ∧ n.dhcpcStatus = .started then
      registered = true ∧ (lwip.dhcpStop n.lwip).1.addr.ip = 0
    else registered = true ∨ n.flags.dhcpClient = true
  | .setIpInfo info => ∀ i ∈ info, i.ip ≠ 0 ∨ n.lwip.isUp = false ∨ n.RefusesIpInfo
  | _ => True

/-- What `esp_netif_down` does between the end of the DHCP client and its last part -/
def clearAddr (lwip : Lwip κ) (registered : Bool) (m : EspNetif κ) : EspNetif κ :=
  let m := (netifCallbackFn registered m (lwip.netifSetAddr m.lwip .any)).1
  { m with lwip := lwip.netifSetLinkDown (lwip.netifSetDown m.lwip) }

section Watches

/-- After `esp_netif_start_ip_lost_timer` the timer runs, unless there was no address to lose. -/
theorem startIpLostTimer_running : (espNetifStartIpLostTimer n).1.timerRunning =
    (n.timerRunning || decide (n.ipInfo.ip ≠ 0)) := by
  rw [espNetifStartIpLostTimer]
  split
  · rename_i htimer
    rw [htimer]
    rfl
  · rename_i htimer
    rw [Bool.eq_false_iff.mpr htimer]
    split
    · rename_i hip
      exact (decide_eq_true hip).symm
    · rename_i hip
      exact (Bool.eq_false_iff.mpr htimer).trans (decide_eq_false hip).symm

/-- `esp_netif_start_ip_lost_timer` leaves the stored address. -/
theorem startIpLostTimer_ipInfo : (espNetifStartIpLostTimer n).1.ipInfo = n.ipInfo := by
  rw [espNetifStartIpLostTimer]
  split
  · rfl
  · split <;> rfl

/-- Going down arms the timer for a DHCP client that has an address. -/
theorem downIpLost_running : (downIpLost n).1.timerRunning =
    (n.timerRunning || (n.flags.dhcpClient && decide (n.ipInfo.ip ≠ 0))) := by
  rw [downIpLost]
  split
  · rename_i hclient
    rw [startIpLostTimer_running, hclient, Bool.true_and]
  · rename_i hclient
    rw [Bool.eq_false_iff.mpr hclient, Bool.false_and, Bool.or_false]

/-- Where the address is zero, the callback arms the timer if `ip_info` is not. -/
theorem netifCallbackFn_lost (registered : Bool) (n : EspNetif κ) {r : LwipNetif κ × Bool}
    (h : r.1.addr.ip = 0) :
    (netifCallbackFn registered n r).1.ipInfo = n.ipInfo ∧
      (netifCallbackFn registered n r).1.timerRunning =
        (n.timerRunning || (registered && r.2 && decide (n.ipInfo.ip ≠ 0))) := by
  unfold netifCallbackFn
  dsimp only
  split
  · rename_i hcallback
    rw [hcallback, Bool.true_and]
    rw [espNetifInternalDhcpcCb]
    dsimp only
    rw [if_neg (fun hne => hne h)]
    split
    · exact ⟨startIpLostTimer_ipInfo, startIpLostTimer_running⟩
    · rename_i hip
      refine ⟨rfl, ?_⟩
      rw [decide_eq_false hip, Bool.or_false]
  · rename_i hcallback
    rw [Bool.eq_false_iff.mpr hcallback]
    exact ⟨rfl, (Bool.or_false _).symm⟩

/-- What `esp_netif_down_api` leaves: client stopped, address cleared, timer armed, in this order -/
theorem downApi_netif : (espNetifDownApi lwip registered n).netif =
    (downIpLost (clearAddr lwip registered (downDhcpc lwip registered n).1)).1 := rfl

/-- The event of a static address does not touch the timer. -/
theorem setIpInfoEvent_running (info : IpInfo) :
    (setIpInfoEvent info n).1.timerRunning = n.timerRunning := by
  rw [setIpInfoEvent]
  split <;> rfl

/-- A refused address changes nothing. -/
theorem setIpInfoApi_refused {info : IpInfo} (h : n.RefusesIpInfo) :
    (espNetifSetIpInfoApi lwip registered (some info) n).netif = n := by
  rcases setIpInfoApi_cases lwip registered n (some info) with
    ⟨err, heq, -⟩ | ⟨i, -, haccepts, -, -⟩ | ⟨i, -, haccepts, -, -⟩
  · rw [heq]
  · exact absurd h haccepts
  · exact absurd h haccepts

/-- An accepted address is stored; in an interface that is up it is also set and announced. -/
theorem setIpInfoApi_accepted {info : IpInfo} (h : ¬ n.RefusesIpInfo) :
    (espNetifSetIpInfoApi lwip registered (some info) n).netif =
      if n.lwip.isUp = true then
        (setIpInfoEvent info (netifCallbackFn registered { n with ipInfo := info }
          (lwip.netifSetAddr n.lwip info)).1).1
      else { n with ipInfo := info } := by
  rcases setIpInfoApi_cases lwip registered n (some info) with
    ⟨err, -, hrefuses⟩ | ⟨i, hi, -, hup, heq⟩ | ⟨i, hi, -, hdown, heq⟩
  · exact absurd (hrefuses info rfl) h
  · cases hi
    rw [heq, if_pos hup]
    rfl
  · cases hi
    rw [heq, if_neg (Bool.eq_false_iff.mp hdown)]

variable (a : lwip.AddrSpec)
include a

/-- `dhcp_stop` arms the timer if it releases an address that is in `ip_info`. -/
theorem dhcpStop_running (hip : n.lwip.addr.ip ≠ 0) :
    (netifCallbackFn registered n (lwip.dhcpStop n.lwip)).1.timerRunning = true ↔
      n.timerRunning = true ∨ (lwip.dhcpStop n.lwip).1.addr.ip = 0 ∧ registered = true ∧
        n.ipInfo.ip ≠ 0 := by
  rcases a.dhcpStop n.lwip with ⟨haddr, hquiet⟩ | ⟨haddr, hcallback⟩
  · have hsame : (netifCallbackFn registered n (lwip.dhcpStop n.lwip)).1.timerRunning =
        n.timerRunning := by
      rw [netifCallbackFn]
      rw [hquiet, Bool.and_false]
      rfl
    rw [hsame, haddr]
    exact ⟨.inl, fun h => h.resolve_right fun h => hip h.1⟩
  · have hzero : (lwip.dhcpStop n.lwip).1.addr.ip = 0 := by
      rw [haddr]
      rfl
    have hchanged : n.lwip.addr ≠ .any := fun h => hip (by rw [h]; rfl)
    rw [(netifCallbackFn_lost registered n hzero).2, hcallback, decide_eq_true hchanged]
    simp [hzero]

/-- `esp_netif_up_api` leaves no unwatched interface without an address if one was stored. -/
theorem upApi_watches :
    ((espNetifUpApi lwip registered n).netif.lwip.addr.ip = 0 →
        (espNetifUpApi lwip registered n).netif.timerRunning = true) ↔
      n.timerRunning = true ∨ ApiCall.Watches lwip registered n .up := by
  have haddr : (espNetifUpApi lwip registered n).netif.lwip.addr = n.ipInfo := by
    refine (a.netifSetLinkUp _).trans ((a.netifSetUp _).trans ?_)
    rw [netifCallbackFn_lwip]
    exact (a.netifSetAddr _ _).1
  rw [haddr]
  rw [ApiCall.Watches]
  by_cases hzero : n.ipInfo.ip = 0
  · have hrunning : (espNetifUpApi lwip registered n).netif.timerRunning = n.timerRunning := by
      have hset : (lwip.netifSetAddr n.lwip n.ipInfo).1.addr.ip = 0 := by
        rw [(a.netifSetAddr _ _).1, hzero]
      have hlost := (netifCallbackFn_lost registered n hset).2
      refine hlost.trans ?_
      simp [hzero]
    rw [hrunning]
    exact ⟨fun h => .inl (h hzero), fun h _ => h.resolve_right fun h => h hzero⟩
  · exact ⟨fun _ => .inr hzero, fun _ h => absurd h hzero⟩

/-- After `clearAddr` the interface has no address. -/
theorem clearAddr_addr (m : EspNetif κ) : (clearAddr lwip registered m).lwip.addr = .any := by
  refine (a.netifSetLinkDown _).trans ((a.netifSetDown _).trans ?_)
  rw [netifCallbackFn_lwip]
  exact (a.netifSetAddr _ _).1

/-- The last part of `esp_netif_down` finds `ip_info` as it was when the address was cleared. -/
theorem down_running (m : EspNetif κ) :
    (downIpLost (clearAddr lwip registered m)).1.timerRunning =
      (m.timerRunning || (registered && decide (.any ≠ m.lwip.addr) && decide (m.ipInfo.ip ≠ 0)) ||
        (m.flags.dhcpClient && decide (m.ipInfo.ip ≠ 0))) := by
  have hset : (lwip.netifSetAddr m.lwip .any).1.addr.ip = 0 := by
    rw [(a.netifSetAddr _ _).1]
    rfl
  obtain ⟨hinfo, hrunning⟩ := netifCallbackFn_lost registered m hset
  have hflags : (netifCallbackFn registered m (lwip.netifSetAddr m.lwip .any)).1.flags =
      m.flags := congrArg (fun r => r.1.1) (netifCallbackFn_rest ..)
  rw [downIpLost_running]
  rw [clearAddr]
  dsimp only
  rw [hinfo, hrunning, hflags, (a.netifSetAddr _ _).2]

/-- `esp_netif_down_api` clears the address; `Watches` says when the timer runs afterwards. -/
theorem downApi_watches (hip : n.lwip.addr.ip ≠ 0) :
    ((espNetifDownApi lwip registered n).netif.lwip.addr.ip = 0 →
        (espNetifDownApi lwip registered n).netif.timerRunning = true) ↔
      n.timerRunning = true ∨ ApiCall.Watches lwip registered n .down := by
  have haddr : (espNetifDownApi lwip registered n).netif.lwip.addr.ip = 0 := by
    rw [downApi_netif, downIpLost_lwip, clearAddr_addr a]
    rfl
  rw [forall_prop_of_true haddr]
  rw [ApiCall.Watches]
  by_cases hstarted : n.flags.dhcpClient = true ∧ n.dhcpcStatus = .started
  · have hdown : downDhcpc lwip registered n =
        (netifCallbackFn registered n (lwip.dhcpStop n.lwip)).andThen fun n =>
          (espNetifResetIpInfo { n with dhcpcStatus := .init }, []) := by
      rw [downDhcpc]
      rw [if_pos (by simpa using hstarted)]
    have hrunning : (espNetifDownApi lwip registered n).netif.timerRunning =
        (netifCallbackFn registered n (lwip.dhcpStop n.lwip)).1.timerRunning := by
      -- `ip_info` has been reset, so that nothing after `dhcp_stop` arms the timer
      have hzero : (downDhcpc lwip registered n).1.ipInfo.ip = 0 := by
        rw [hdown]
        rfl
      have hkept : (downDhcpc lwip registered n).1.timerRunning =
          (netifCallbackFn registered n (lwip.dhcpStop n.lwip)).1.timerRunning := by
        rw [hdown]
        rfl
      rw [downApi_netif, down_running a, hzero, hkept]
      simp
    rw [hrunning, dhcpStop_running a hip, if_pos hstarted]
    constructor
    · rintro (h | ⟨hzero, hregistered, hinfo⟩)
      · exact .inl h
      · exact .inr ⟨hinfo, hregistered, hzero⟩
    · rintro (h | ⟨hinfo, hregistered, hzero⟩)
      · exact .inl h
      · exact .inr ⟨hzero, hregistered, hinfo⟩
  · have hdown : downDhcpc lwip registered n = (n, []) := by
      rw [downDhcpc]
      rw [if_neg (by simpa using hstarted)]
    have hchanged : IpInfo.any ≠ n.lwip.addr := fun h => hip (by rw [← h]; rfl)
    have hrunning : (espNetifDownApi lwip registered n).netif.timerRunning =
        (n.timerRunning || (registered && decide (n.ipInfo.ip ≠ 0)) ||
          (n.flags.dhcpClient && decide (n.ipInfo.ip ≠ 0))) := by
      rw [downApi_netif, hdown, down_running a, decide_eq_true hchanged, Bool.and_true]
    rw [hrunning, if_neg hstarted]
    by_cases hzero : n.ipInfo.ip = 0
    · simp [hzero]
    · simp [hzero, or_assoc]

/-- When `esp_netif_dhcpc_stop_api` releases an address, the extended callback arms the timer. -/
theorem dhcpcStopApi_watches (hip : n.lwip.addr.ip ≠ 0) :
    ((espNetifDhcpcStopApi lwip registered n).netif.lwip.addr.ip = 0 →
        (espNetifDhcpcStopApi lwip registered n).netif.timerRunning = true) ↔
      n.timerRunning = true ∨ ApiCall.Watches lwip registered n .dhcpcStop := by
  rw [ApiCall.Watches]
  by_cases hstarted : n.dhcpcStatus = .started
  · have hstop : (espNetifDhcpcStopApi lwip registered n).netif.lwip.addr =
          (lwip.dhcpStop n.lwip).1.addr ∧
        (espNetifDhcpcStopApi lwip registered n).netif.timerRunning =
          (netifCallbackFn registered n (lwip.dhcpStop n.lwip)).1.timerRunning := by
      rw [espNetifDhcpcStopApi]
      rw [hstarted]
      constructor
      · refine (congrArg LwipNetif.addr startIpLostTimer_lwip).trans ?_
        exact congrArg LwipNetif.addr (netifCallbackFn_lwip ..)
      · exact startIpLostTimer_running.trans (Bool.or_false _)
    -- only the callback inside `dhcp_stop` can have armed the timer
    rw [hstop.1, hstop.2, dhcpStop_running a hip]
    by_cases hzero : (lwip.dhcpStop n.lwip).1.addr.ip = 0
    · simp [hzero, hstarted]
    · simp [hzero]
  · have hstop : (espNetifDhcpcStopApi lwip registered n).netif.lwip = n.lwip := by
      rw [espNetifDhcpcStopApi]
      cases hstatus : n.dhcpcStatus with
      | started => exact absurd hstatus hstarted
      | init => rfl
      | stopped => rfl
    rw [hstop]
    exact ⟨fun _ => .inr fun h => absurd h hstarted, fun _ h => absurd h hip⟩

/-- `esp_netif_dhcpc_start_api` clears the address of an interface that is up, and arms no timer. -/
theorem dhcpcStartApi_watches (hip : n.lwip.addr.ip ≠ 0) :
    ((espNetifDhcpcStartApi lwip n).netif.lwip.addr.ip = 0 →
        (espNetifDhcpcStartApi lwip n).netif.timerRunning = true) ↔
      n.timerRunning = true ∨ ApiCall.Watches lwip registered n .dhcpcStart := by
  rw [ApiCall.Watches]
  rcases dhcpcStartApi_cases lwip n with
    ⟨hstarted, h⟩ | ⟨hstarted, hup, err, status, h⟩ | ⟨-, hdown, h⟩
  · rw [h]
    exact ⟨fun _ => .inr (.inl hstarted), fun _ h => absurd h hip⟩
  · -- `ip_info` is reset before `esp_netif_start_ip_lost_timer` looks at it
    have hrunning : ∀ m : EspNetif κ, m.ipInfo.ip = 0 →
        (espNetifStartIpLostTimer m).1.timerRunning = m.timerRunning := by
      intro m hm
      rw [startIpLostTimer_running]
      simp [hm]
    have hstart : (espNetifDhcpcStartApi lwip n).netif.lwip.addr.ip = 0 ∧
        (espNetifDhcpcStartApi lwip n).netif.timerRunning = n.timerRunning := by
      rw [h]
      exact ⟨congrArg IpInfo.ip ((a.dhcpStart _).trans
        (congrArg LwipNetif.addr startIpLostTimer_lwip)), hrunning _ rfl⟩
    rw [hstart.2, forall_prop_of_true hstart.1]
    simp [hstarted, hup]
  · rw [h]
    exact ⟨fun _ => .inr (.inr hdown), fun _ h => absurd h hip⟩

/-- `esp_netif_set_ip_info_api` with a zero address clears that of an interface that is up. -/
theorem setIpInfoApi_watches (info : Option IpInfo) (hip : n.lwip.addr.ip ≠ 0) :
    ((espNetifSetIpInfoApi lwip registered info n).netif.lwip.addr.ip = 0 →
        (espNetifSetIpInfoApi lwip registered info n).netif.timerRunning = true) ↔
      n.timerRunning = true ∨ ApiCall.Watches lwip registered n (.setIpInfo info) := by
  cases info with
  | none => exact ⟨fun _ => .inr nofun, fun _ h => absurd h hip⟩
  | some info =>
    have hsome : ApiCall.Watches lwip registered n (.setIpInfo (some info)) ↔
        info.ip ≠ 0 ∨ n.lwip.isUp = false ∨ n.RefusesIpInfo :=
      ⟨fun h => h info rfl, fun h i hi => Option.some.inj hi ▸ h⟩
    rw [hsome]
    by_cases hrefuses : n.RefusesIpInfo
    · rw [setIpInfoApi_refused hrefuses]
      exact ⟨fun _ => .inr (.inr (.inr hrefuses)), fun _ h => absurd h hip⟩
    rw [setIpInfoApi_accepted hrefuses]
    by_cases hup : n.lwip.isUp = true
    · rw [if_pos hup, setIpInfoEvent_lwip, netifCallbackFn_lwip, (a.netifSetAddr _ _).1]
      by_cases hzero : info.ip = 0
      · have hset : (lwip.netifSetAddr n.lwip info).1.addr.ip = 0 := by
          rw [(a.netifSetAddr _ _).1, hzero]
        have hlost := (netifCallbackFn_lost registered { n with ipInfo := info } hset).2
        rw [forall_prop_of_true hzero, setIpInfoEvent_running, hlost]
        simp [hzero, hup, hrefuses]
      · exact ⟨fun _ => .inr (.inl hzero), fun _ h => absurd h hzero⟩
    · rw [if_neg hup]
      exact ⟨fun _ => .inr (.inr (.inl (Bool.eq_false_iff.mpr hup))), fun _ h => absurd h hip⟩

/-- Which calls take an address away without arming the timer of its loss -/
theorem run_watches {call : ApiCall} {r : Call κ} (hcall : call.aboutAddress = true)
    (h : call.run lwip registered p n = some r) (hip : n.lwip.addr.ip ≠ 0) :
    (r.netif.lwip.addr.ip = 0 → r.netif.timerRunning = true) ↔
      n.timerRunning = true ∨ call.Watches lwip registered n := by
  cases call with
  | up => cases h; exact upApi_watches a
  | down => cases h; exact downApi_watches a hip
  | dhcpcStart => cases h; exact dhcpcStartApi_watches a hip
  | dhcpcStop => cases h; exact dhcpcStopApi_watches a hip
  | setIpInfo info => cases h; exact setIpInfoApi_watches a info hip
  | start | stop | dhcpsStart | dhcpsStop | setDefaultNetif => cases hcall

end Watches

end PicoHost.Interface
