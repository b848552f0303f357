import PicoHost.Dhcps.Lifecycle
import PicoHost.Interface.Frame

/-!
# Interfaces that are up

After which calls an interface is up, and which update of the default interface they ask for. All
of them do but `esp_netif_start`, which has ways out before its update.
-/

namespace PicoHost.Interface

open Dhcps (NetifPtr PcbPtr)

variable {κ : Type} {lwip : Lwip κ} {registered : Bool} {p : NetifPtr} {n : EspNetif κ}

/-! ## Up or down -/

/-- Which functions of lwIP set `NETIF_FLAG_UP`, and which clear it -/
structure Lwip.UpSpec (lwip : Lwip κ) : Prop where
  netifAdd : ∀ n addr n', lwip.netifAdd n addr = some n' → n'.isUp = false
  netifRemove : ∀ n, (lwip.netifRemove n).isUp = false
  netifSetUp : ∀ n, (lwip.netifSetUp n).isUp = true
  netifSetLinkUp : ∀ n, (lwip.netifSetLinkUp n).isUp = n.isUp
  netifSetDown : ∀ n, (lwip.netifSetDown n).isUp = false
  netifSetLinkDown : ∀ n, (lwip.netifSetLinkDown n).isUp = n.isUp
  netifSetAddr : ∀ n addr, (lwip.netifSetAddr n addr).1.isUp = n.isUp
  dhcpSetStruct : ∀ n, (lwip.dhcpSetStruct n).isUp = n.isUp
  dhcpCleanup : ∀ n, (lwip.dhcpCleanup n).isUp = n.isUp
  dhcpRelease : ∀ n, (lwip.dhcpRelease n).1.isUp = n.isUp
  dhcpStop : ∀ n, (lwip.dhcpStop n).1.isUp = n.isUp
  dhcpStart : ∀ n, (lwip.dhcpStart n).1.isUp = n.isUp

/-- `Lwip.simple` brings interfaces up and down as `UpSpec` asks of lwIP. -/
theorem simple_upSpec : Lwip.simple.UpSpec where
  netifAdd n addr n' h := by
    cases h
    rfl
  netifRemove _ := rfl
  netifSetUp _ := rfl
  netifSetLinkUp _ := rfl
  netifSetDown _ := rfl
  netifSetLinkDown _ := rfl
  netifSetAddr _ _ := rfl
  dhcpSetStruct _ := rfl
  dhcpCleanup _ := rfl
  dhcpRelease n := by
    show (Lwip.simple.dhcpStop n).1.isUp = n.isUp
    dsimp only [Lwip.simple]
    split <;> rfl
  dhcpStop n := by
    dsimp only [Lwip.simple]
    split <;> rfl
  dhcpStart _ := rfl

/-- Whether the interface is up after the call -/
def ApiCall.leavesUp (n : EspNetif κ) : ApiCall → Bool
  | .start .. => n.flags.autoup
  | .up => true
  | .stop | .down => false
  | _ => n.lwip.isUp

/-- The update of the default that belongs to the call -/
def ApiCall.update (n : EspNetif κ) : ApiCall → Option DefaultAction
  | .start .. | .up => some .started
  | .stop => if n.lwip.isUp = true then some .stopped else none
  | .down => some .stopped
  | .setDefaultNetif => some .setDefault
  | _ => none

/-- `esp_netif_start` gets as far as its `esp_netif_update_default_netif`. -/
def EspNetif.StartUpdates (n : EspNetif κ) (p : NetifPtr) (udpNew : Option PcbPtr)
    (malloc : Bool) : Prop :=
  if n.flags.dhcpServer then
    n.dhcpsStatus = .init ∧ n.flags.autoup = true ∧ ∃ s ∈ n.dhcps,
      Dhcps.StartSucceeds (dhcpsSetSubnetMask s n.ipInfo.netmask).dhcps (some p) n.ipInfo.ip udpNew
  else n.flags.dhcpClient = true → n.dhcpcStatus ≠ .started → malloc = true

section Run

/-- An interface that lwIP no longer knows is down. -/
theorem lwipRemove_isUp (u : lwip.UpSpec) : (espNetifLwipRemove lwip n).1.lwip.isUp = false := by
  rw [espNetifLwipRemove]
  dsimp only
  split
  · rw [u.dhcpCleanup, u.netifRemove]
  · rw [u.netifRemove]

/-- The interface that lwIP knows, up if and only if the flag says so -/
theorem startAutoup_eq (u : lwip.UpSpec) {n₀ : EspNetif κ} (h : espNetifLwipAdd lwip n = some n₀) :
    n₀.flags = n.flags ∧ ∃ netif, startAutoup lwip n₀ = { n with lwip := netif, added := true } ∧
      netif.isUp = n.flags.autoup := by
  simp only [espNetifLwipAdd, Option.ite_none_left_eq_some, Option.map_eq_some_iff] at h
  obtain ⟨-, netif, hadd, rfl⟩ := h
  refine ⟨rfl, ?_⟩
  rw [startAutoup]
  split
  · rename_i hflag
    have hflag : n.flags.autoup = true := hflag
    refine ⟨_, rfl, ?_⟩
    rw [u.netifSetLinkUp, u.netifSetUp, hflag]
  · rename_i hflag
    have hflag : n.flags.autoup = false := Bool.eq_false_iff.mpr hflag
    exact ⟨netif, rfl, (u.netifAdd _ _ _ hadd).trans hflag.symm⟩

/-- `esp_netif_start_api` brings the interface up exactly if it has the flag for that. -/
theorem startApi_isUp (u : lwip.UpSpec) {udpNew : Option PcbPtr} {malloc : Bool} {r : Call κ}
    (h : espNetifStartApi lwip p udpNew malloc n = some r) :
    r.netif.lwip.isUp = n.flags.autoup := by
  obtain ⟨n₀, n₁, hadd, rfl, -, h⟩ := startApi_cases h
  obtain ⟨-, netif, hn₁, hup⟩ := startAutoup_eq u hadd
  rw [hn₁] at h
  rcases h with ⟨-, -, -, h, -⟩ | ⟨h, -⟩ | ⟨-, -, h | h⟩
  · rw [h, startDhcps_lwip, hup]
  · rw [h, hup]
  · rw [h, hup]
  · rw [h]
    exact (u.dhcpSetStruct _).trans hup

/-- The DHCP server of the interface starts if it has all it needs. -/
theorem startDhcps_ok {s : Dhcps.Server} {udpNew : Option PcbPtr} (hs : n.dhcps = some s)
    (h : Dhcps.StartSucceeds (dhcpsSetSubnetMask s n.ipInfo.netmask).dhcps (some p) n.ipInfo.ip
      udpNew) : (startDhcps p udpNew n).1 = .ok := by
  rw [startDhcps]
  rw [hs]
  dsimp only
  rw [if_pos (Dhcps.dhcpsStart_ok_iff.mpr h)]

/-- Either `esp_netif_start` updates the default, or it has found a way out before. -/
theorem startApi_update (u : lwip.UpSpec) {udpNew : Option PcbPtr} {malloc : Bool} {r : Call κ}
    (h : espNetifStartApi lwip p udpNew malloc n = some r) :
    r.update = some .started ∨ r.update = none ∧ ¬ n.StartUpdates p udpNew malloc := by
  obtain ⟨n₀, n₁, hadd, rfl, -, h⟩ := startApi_cases h
  obtain ⟨hflags, netif, hn₁, hup⟩ := startAutoup_eq u hadd
  rw [hflags, hn₁] at h
  rw [EspNetif.StartUpdates]
  rcases h with ⟨hserver, hinit, -, -, h⟩ | ⟨-, h, hway⟩ | ⟨-, h, -⟩
  · by_cases hok : (startDhcps p udpNew { n with lwip := netif, added := true }).1 = .ok
    · exact .inl (h.trans (if_pos hok))
    · refine .inr ⟨h.trans (if_neg hok), ?_⟩
      rw [if_pos hserver]
      rintro ⟨-, -, s, hs, hstart⟩
      exact hok (startDhcps_ok hs hstart)
  · refine .inr ⟨h, ?_⟩
    rcases hway with ⟨hserver, hnot⟩ | ⟨hserver, hclient, hstatus, -, hmalloc⟩
    · rw [if_pos hserver]
      exact fun hs => hnot ⟨hs.1, hup.trans hs.2.1⟩
    · rw [if_neg (by rw [hserver]; exact Bool.false_ne_true), hmalloc]
      exact fun hs => Bool.false_ne_true (hs hclient hstatus)
  · exact .inl h

/-- After `esp_netif_down_api` the interface is down. -/
theorem downApi_isUp (u : lwip.UpSpec) :
    (espNetifDownApi lwip registered n).netif.lwip.isUp = false := by
  refine (congrArg LwipNetif.isUp downIpLost_lwip).trans ?_
  exact (u.netifSetLinkDown _).trans (u.netifSetDown _)

/-- After `esp_netif_up_api` the interface is up. -/
theorem upApi_isUp (u : lwip.UpSpec) : (espNetifUpApi lwip registered n).netif.lwip.isUp = true :=
  (u.netifSetLinkUp _).trans (u.netifSetUp _)

/-- After `esp_netif_stop_api` the interface is down. -/
theorem stopApi_isUp (u : lwip.UpSpec) :
    (espNetifStopApi lwip registered p n).netif.lwip.isUp = false := by
  rw [espNetifStopApi]
  split
  · exact lwipRemove_isUp u
  · exact lwipRemove_isUp u

/-- Starting the client takes the interface neither up nor down. -/
theorem dhcpcStartApi_isUp (u : lwip.UpSpec) :
    (espNetifDhcpcStartApi lwip n).netif.lwip.isUp = n.lwip.isUp := by
  rcases dhcpcStartApi_cases lwip n with ⟨-, h⟩ | ⟨-, -, err, status, h⟩ | ⟨-, -, h⟩
  · rw [h]
  · rw [h]
    refine (u.dhcpStart _).trans ?_
    rw [startIpLostTimer_lwip]
  · rw [h]
    rfl

/-- Stopping the client takes the interface neither up nor down. -/
theorem dhcpcStopApi_isUp (u : lwip.UpSpec) :
    (espNetifDhcpcStopApi lwip registered n).netif.lwip.isUp = n.lwip.isUp := by
  rw [espNetifDhcpcStopApi]
  split
  · refine (congrArg LwipNetif.isUp startIpLostTimer_lwip).trans ?_
    exact (congrArg LwipNetif.isUp (netifCallbackFn_lwip ..)).trans (u.dhcpStop _)
  · rfl
  · rfl

/-- A static address takes the interface neither up nor down. -/
theorem setIpInfoApi_isUp (u : lwip.UpSpec) (info : Option IpInfo) :
    (espNetifSetIpInfoApi lwip registered info n).netif.lwip.isUp = n.lwip.isUp := by
  rcases setIpInfoApi_cases lwip registered n info with
    ⟨err, h, -⟩ | ⟨i, -, -, -, h⟩ | ⟨i, -, -, -, h⟩
  · rw [h]
  · rw [h]
    refine (congrArg LwipNetif.isUp (setIpInfoEvent_lwip _)).trans ?_
    exact (congrArg LwipNetif.isUp (netifCallbackFn_lwip ..)).trans (u.netifSetAddr _ _)
  · rw [h]

/-- Starting the DHCP server does not touch lwIP's record of the interface. -/
theorem dhcpsStartApi_lwip (udpNew : Option PcbPtr) :
    (espNetifDhcpsStartApi p udpNew n).netif.lwip = n.lwip := by
  rw [espNetifDhcpsStartApi]
  split
  · rfl
  · split
    · exact startDhcps_lwip udpNew
    · rfl

/-- Stopping the DHCP server does not touch lwIP's record of the interface. -/
theorem dhcpsStopApi_lwip : (espNetifDhcpsStopApi p n).netif.lwip = n.lwip := by
  rw [espNetifDhcpsStopApi]
  split
  · dsimp only
    split
    · exact stopDhcps_lwip (p := p)
    · exact stopDhcps_lwip
  · rfl
  · rfl

/-- Whether the interface is up after a call, by cases on the call -/
theorem run_isUp (u : lwip.UpSpec) {call : ApiCall} {r : Call κ}
    (h : call.run lwip registered p n = some r) : r.netif.lwip.isUp = call.leavesUp n := by
  cases call with
  | start udpNew malloc => exact startApi_isUp u h
  | stop => cases h; exact stopApi_isUp u
  | up => cases h; exact upApi_isUp u
  | down => cases h; exact downApi_isUp u
  | dhcpcStart => cases h; exact dhcpcStartApi_isUp u
  | dhcpcStop => cases h; exact dhcpcStopApi_isUp u
  | dhcpsStart udpNew => cases h; exact congrArg LwipNetif.isUp (dhcpsStartApi_lwip udpNew)
  | dhcpsStop => cases h; exact congrArg LwipNetif.isUp dhcpsStopApi_lwip
  | setIpInfo info => cases h; exact setIpInfoApi_isUp u info
  | setDefaultNetif => cases h; rfl

/-- `esp_netif_dhcpc_start_api` does not update the default interface. -/
theorem dhcpcStartApi_update : (espNetifDhcpcStartApi lwip n).update = none := by
  rcases dhcpcStartApi_cases lwip n with
    ⟨-, h⟩ | ⟨-, -, err, status, h⟩ | ⟨-, -, h⟩ <;> rw [h]

/-- `esp_netif_dhcpc_stop_api` does not update the default interface. -/
theorem dhcpcStopApi_update : (espNetifDhcpcStopApi lwip registered n).update = none := by
  rw [espNetifDhcpcStopApi]
  split <;> rfl

/-- `esp_netif_dhcps_start_api` does not update the default interface. -/
theorem dhcpsStartApi_update (udpNew : Option PcbPtr) :
    (espNetifDhcpsStartApi p udpNew n).update = none := by
  rw [espNetifDhcpsStartApi]
  split
  · rfl
  · split <;> rfl

/-- `esp_netif_dhcps_stop_api` does not update the default interface. -/
theorem dhcpsStopApi_update : (espNetifDhcpsStopApi p n).update = none := by
  rw [espNetifDhcpsStopApi]
  split
  · dsimp only
    split <;> rfl
  · rfl
  · rfl

/-- `esp_netif_set_ip_info_api` does not update the default interface. -/
theorem setIpInfoApi_update (info : Option IpInfo) :
    (espNetifSetIpInfoApi lwip registered info n).update = none := by
  rcases setIpInfoApi_cases lwip registered n info with
    ⟨err, h, -⟩ | ⟨i, -, -, -, h⟩ | ⟨i, -, -, -, h⟩ <;> rw [h]

/-- `esp_netif_stop_api` updates it for an interface that was up. -/
theorem stopApi_update : (espNetifStopApi lwip registered p n).update =
    if n.lwip.isUp = true then some .stopped else none := by
  rw [espNetifStopApi]
  split <;> rfl

/-- Only `esp_netif_start` may leave out the update that belongs to the call. -/
theorem run_update (u : lwip.UpSpec) {call : ApiCall} {r : Call κ}
    (h : call.run lwip registered p n = some r) :
    r.update = call.update n ∨ ∃ udpNew malloc, call = .start udpNew malloc ∧
      r.update = none ∧ ¬ n.StartUpdates p udpNew malloc := by
  cases call with
  | start udpNew malloc =>
    rcases startApi_update u h with h | ⟨h, hnot⟩
    · exact .inl h
    · exact .inr ⟨udpNew, malloc, rfl, h, hnot⟩
  | stop => cases h; exact .inl stopApi_update
  | up => cases h; exact .inl rfl
  | down => cases h; exact .inl rfl
  | dhcpcStart => cases h; exact .inl dhcpcStartApi_update
  | dhcpcStop => cases h; exact .inl dhcpcStopApi_update
  | dhcpsStart udpNew => cases h; exact .inl (dhcpsStartApi_update udpNew)
  | dhcpsStop => cases h; exact .inl dhcpsStopApi_update
  | setIpInfo info => cases h; exact .inl (setIpInfoApi_update info)
  | setDefaultNetif => cases h; exact .inl rfl

/-- Which calls update the default interface, `start` excepted -/
theorem run_update_eq (u : lwip.UpSpec) {call : ApiCall} {r : Call κ}
    (h : call.run lwip registered p n = some r)
    (hcall : ∀ udpNew malloc, call ≠ .start udpNew malloc) : r.update = call.update n := by
  rcases run_update u h with h | ⟨udpNew, malloc, h, -⟩
  · exact h
  · exact absurd h (hcall udpNew malloc)

end Run

end PicoHost.Interface
