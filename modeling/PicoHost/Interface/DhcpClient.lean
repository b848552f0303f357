import PicoHost.Interface.Create
import PicoHost.Interface.UpDown
import PicoHost.Lib.Run

/-!
# The DHCP client of an interface

`dhcpc_status` and the state of lwIP's client for the `struct netif` are two copies of one fact.
They agree after every call on an interface with a DHCP client, and a client that has been started
has its interface up. But `netif_add` clears the client of lwIP, so that a second `esp_netif_start`
spoils it (`client_agrees_iff`).
-/

namespace PicoHost.Interface

open Dhcps (NetifPtr PcbPtr)

variable {κ : Type} {lwip : Lwip κ} {running : LwipNetif κ → Bool} {registered : Bool}
  {p : NetifPtr} {n : EspNetif κ}

/-- What the functions of lwIP do to its DHCP client: `running` says that the state of the client of
a `struct netif` is not `DHCP_STATE_OFF`. -/
structure Lwip.ClientSpec (lwip : Lwip κ) (running : LwipNetif κ → Bool) : Prop where
  zeroed : running ⟨false, .any, false, lwip.zeroed⟩ = false
  netifAdd : ∀ n addr n', lwip.netifAdd n addr = some n' → running n' = false
  netifRemove : ∀ n, running (lwip.netifRemove n) = running n
  netifSetUp : ∀ n, running (lwip.netifSetUp n) = running n
  netifSetLinkUp : ∀ n, running (lwip.netifSetLinkUp n) = running n
  netifSetDown : ∀ n, running (lwip.netifSetDown n) = running n
  netifSetLinkDown : ∀ n, running (lwip.netifSetLinkDown n) = running n
  netifSetAddr : ∀ n addr, running (lwip.netifSetAddr n addr).1 = running n
  addrSetZero : ∀ n : LwipNetif κ, running { n with addr := .any } = running n
  dhcpSetStruct : ∀ n, running (lwip.dhcpSetStruct n) = false
  dhcpCleanup : ∀ n, running (lwip.dhcpCleanup n) = false
  dhcpStop : ∀ n, running (lwip.dhcpStop n).1 = false
  dhcpStart : ∀ n, running n = false → running (lwip.dhcpStart n).1 = (lwip.dhcpStart n).2

/-- An interface whose DHCP is that of a client -/
def EspNetif.IsClient (n : EspNetif κ) : Prop :=
  n.flags.dhcpClient = true ∧ n.flags.dhcpServer = false

/-- The status says whether the client of lwIP is running, and if it is the interface is up. -/
structure ClientAgrees (running : LwipNetif κ → Bool) (n : EspNetif κ) : Prop where
  status : n.dhcpcStatus = .started ↔ running n.lwip = true
  up : n.dhcpcStatus = .started → n.lwip.isUp = true

/-- A client that was never started is not started. -/
theorem init_ne_started : DhcpStatus.init ≠ .started := by decide

/-- A stopped client is not started. -/
theorem stopped_ne_started : DhcpStatus.stopped ≠ .started := by decide

/-- A client that neither says so nor runs agrees. -/
theorem clientAgrees_idle (hstatus : n.dhcpcStatus ≠ .started) (hrunning : running n.lwip = false) :
    ClientAgrees running n where
  status := iff_of_false hstatus (Bool.eq_false_iff.mp hrunning)
  up h := absurd h hstatus

/-- A client that agrees and is not started does not run. -/
theorem ClientAgrees.idle (a : ClientAgrees running n) (h : n.dhcpcStatus ≠ .started) :
    running n.lwip = false :=
  Bool.eq_false_iff.mpr fun hr => h (a.status.mpr hr)

/-- A step that leaves status and client alone, and takes no interface down, keeps the agreement. -/
theorem ClientAgrees.keep (a : ClientAgrees running n) {n' : EspNetif κ}
    (hstatus : n'.dhcpcStatus = n.dhcpcStatus) (hrunning : running n'.lwip = running n.lwip)
    (hup : n.lwip.isUp = true → n'.lwip.isUp = true) : ClientAgrees running n' where
  status := by rw [hstatus, hrunning, a.status]
  up h := hup (a.up (hstatus.symm.trans h))

/-! ## The status -/

section Status

@[simp] theorem startIpLostTimer_dhcpcStatus :
    (espNetifStartIpLostTimer n).1.dhcpcStatus = n.dhcpcStatus := by
  rw [espNetifStartIpLostTimer]
  split
  · rfl
  · split <;> rfl

@[simp] theorem netifCallbackFn_dhcpcStatus (r : LwipNetif κ × Bool) :
    (netifCallbackFn registered n r).1.dhcpcStatus = n.dhcpcStatus := by
  rw [netifCallbackFn]
  split
  · rw [espNetifInternalDhcpcCb]
    split
    · split <;> rfl
    · split
      · exact startIpLostTimer_dhcpcStatus
      · rfl
  · rfl

@[simp] theorem startDhcps_dhcpcStatus (udpNew : Option PcbPtr) :
    (startDhcps p udpNew n).2.dhcpcStatus = n.dhcpcStatus := by
  rw [startDhcps]
  split
  · rfl
  · dsimp only
    split <;> rfl

@[simp] theorem stopDhcps_dhcpcStatus : (stopDhcps p n).2.dhcpcStatus = n.dhcpcStatus := by
  rw [stopDhcps]
  split <;> rfl

@[simp] theorem setIpInfoEvent_dhcpcStatus (info : IpInfo) :
    (setIpInfoEvent info n).1.dhcpcStatus = n.dhcpcStatus := by
  rw [setIpInfoEvent]
  split <;> rfl

@[simp] theorem ipLostTimer_dhcpcStatus :
    (espNetifIpLostTimer n).1.dhcpcStatus = n.dhcpcStatus := by
  rw [espNetifIpLostTimer]
  dsimp only
  split <;> rfl

@[simp] theorem downIpLost_dhcpcStatus : (downIpLost n).1.dhcpcStatus = n.dhcpcStatus := by
  rw [downIpLost]
  split
  · exact startIpLostTimer_dhcpcStatus
  · rfl

end Status

/-! ## The calls -/

section Calls

variable (c : lwip.ClientSpec running) (u : lwip.UpSpec)
include c

/-- `netif_add` has cleared the client. -/
theorem startApi_client {udpNew : Option PcbPtr} {malloc : Bool} {r : Call κ}
    (h : espNetifStartApi lwip p udpNew malloc n = some r) :
    r.netif.dhcpcStatus = n.dhcpcStatus ∧ running r.netif.lwip = false := by
  obtain ⟨n₀, n₁, hadd, rfl, -, h⟩ := startApi_cases h
  simp only [espNetifLwipAdd, Option.ite_none_left_eq_some, Option.map_eq_some_iff] at hadd
  obtain ⟨-, netif, hadd, rfl⟩ := hadd
  have hadded := c.netifAdd _ _ _ hadd
  have hauto : ∀ m : EspNetif κ, running m.lwip = false →
      (startAutoup lwip m).dhcpcStatus = m.dhcpcStatus ∧
        running (startAutoup lwip m).lwip = false := by
    intro m hm
    rw [startAutoup]
    split
    · exact ⟨rfl, (c.netifSetLinkUp _).trans ((c.netifSetUp _).trans hm)⟩
    · exact ⟨rfl, hm⟩
  obtain ⟨hstatus, hrunning⟩ := hauto { n with lwip := netif, added := true } hadded
  rcases h with ⟨-, -, -, h, -⟩ | ⟨h, -⟩ | ⟨-, -, h | h⟩
  · rw [h, startDhcps_lwip, startDhcps_dhcpcStatus]
    exact ⟨hstatus, hrunning⟩
  · rw [h]
    exact ⟨hstatus, hrunning⟩
  · rw [h]
    exact ⟨hstatus, hrunning⟩
  · rw [h]
    exact ⟨hstatus, c.dhcpSetStruct _⟩

/-- `esp_netif_lwip_remove` ends the client of the interface. -/
theorem lwipRemove_client (hclient : n.flags.dhcpClient = true) :
    running (espNetifLwipRemove lwip n).1.lwip = false := by
  rw [espNetifLwipRemove]
  dsimp only
  rw [if_pos hclient]
  exact c.dhcpCleanup _

/-- `esp_netif_stop_api` stops the client and says so. -/
theorem stopApi_client (hclient : n.IsClient) (a : ClientAgrees running n) :
    ClientAgrees running (espNetifStopApi lwip registered p n).netif := by
  rw [espNetifStopApi]
  split
  · have hstop : (stopDhcp lwip registered p n).1.dhcpcStatus = .init ∧
        (stopDhcp lwip registered p n).1.flags = n.flags := by
      refine ⟨?_, congrArg Prod.fst stopDhcp_config⟩
      rw [stopDhcp, if_neg (by simp [hclient.2]), if_pos hclient.1]
      rfl
    refine clientAgrees_idle ?_ (lwipRemove_client c ?_)
    · show (stopDhcp lwip registered p n).1.dhcpcStatus ≠ .started
      rw [hstop.1]
      exact init_ne_started
    · show (stopDhcp lwip registered p n).1.flags.dhcpClient = true
      rw [hstop.2]
      exact hclient.1
  · rename_i hdown
    refine clientAgrees_idle ?_ (lwipRemove_client c hclient.1)
    intro hstarted
    exact hdown (a.up hstarted)

include u in
/-- `esp_netif_up_api` leaves the client to `dhcpc_start`. -/
theorem upApi_client (a : ClientAgrees running n) :
    ClientAgrees running (espNetifUpApi lwip registered n).netif := by
  refine a.keep ?_ ?_ fun _ => upApi_isUp u
  · exact netifCallbackFn_dhcpcStatus _
  · refine (c.netifSetLinkUp _).trans ((c.netifSetUp _).trans ?_)
    rw [netifCallbackFn_lwip]
    exact c.netifSetAddr _ _

/-- `esp_netif_down_api` stops a started client before the interface goes down. -/
theorem downDhcpc_client (hclient : n.IsClient) (a : ClientAgrees running n) :
    (downDhcpc lwip registered n).1.dhcpcStatus ≠ .started ∧
      running (downDhcpc lwip registered n).1.lwip = false := by
  rw [downDhcpc]
  split
  · refine ⟨init_ne_started, ?_⟩
    show running (netifCallbackFn registered n (lwip.dhcpStop n.lwip)).1.lwip = false
    rw [netifCallbackFn_lwip]
    exact c.dhcpStop _
  · rename_i hnot
    have hstatus : n.dhcpcStatus ≠ .started := by
      intro hstarted
      simp [hclient.1, hstarted] at hnot
    exact ⟨hstatus, a.idle hstatus⟩

/-- `esp_netif_down_api` keeps the agreement. -/
theorem downApi_client (hclient : n.IsClient) (a : ClientAgrees running n) :
    ClientAgrees running (espNetifDownApi lwip registered n).netif := by
  obtain ⟨hstatus, hrunning⟩ : (downDhcpc lwip registered n).1.dhcpcStatus ≠ .started ∧
      running (downDhcpc lwip registered n).1.lwip = false := downDhcpc_client c hclient a
  refine clientAgrees_idle ?_ ?_
  · show (downIpLost _).1.dhcpcStatus ≠ .started
    rw [downIpLost_dhcpcStatus]
    show (netifCallbackFn registered _ _).1.dhcpcStatus ≠ .started
    rw [netifCallbackFn_dhcpcStatus]
    exact hstatus
  · show running (downIpLost _).1.lwip = false
    rw [downIpLost_lwip]
    refine (c.netifSetLinkDown _).trans ((c.netifSetDown _).trans ?_)
    show running (netifCallbackFn registered _ _).1.lwip = false
    rw [netifCallbackFn_lwip]
    exact (c.netifSetAddr _ _).trans hrunning

include u in
/-- `esp_netif_dhcpc_start_api` says that the client is started exactly if lwIP has started it. -/
theorem dhcpcStartApi_client (a : ClientAgrees running n) :
    ClientAgrees running (espNetifDhcpcStartApi lwip n).netif := by
  have hup := dhcpcStartApi_isUp u (n := n)
  rw [espNetifDhcpcStartApi] at hup ⊢
  by_cases hstarted : n.dhcpcStatus = .started
  · rw [if_pos hstarted]
    exact a
  rw [if_neg hstarted] at hup ⊢
  have hidle := a.idle hstarted
  dsimp only at hup ⊢
  split
  · rename_i hisUp
    rw [if_pos hisUp] at hup
    have hclear : running (espNetifStartIpLostTimer { espNetifResetIpInfo n with
        lwip := { (espNetifResetIpInfo n).lwip with addr := .any } }).1.lwip = false := by
      rw [startIpLostTimer_lwip]
      exact (c.addrSetZero _).trans hidle
    have hstart := c.dhcpStart _ hclear
    split
    · rename_i hok
      rw [if_pos hok] at hup
      exact ⟨iff_of_true rfl (hstart.trans hok), fun _ => hup.trans hisUp⟩
    · rename_i hfail
      refine clientAgrees_idle ?_ (hstart.trans (Bool.eq_false_iff.mpr hfail))
      show (espNetifStartIpLostTimer _).1.dhcpcStatus ≠ .started
      rw [startIpLostTimer_dhcpcStatus]
      exact hstarted
  · exact clientAgrees_idle init_ne_started hidle

/-- `esp_netif_dhcpc_stop_api` stops the client and says so. -/
theorem dhcpcStopApi_client (a : ClientAgrees running n) :
    ClientAgrees running (espNetifDhcpcStopApi lwip registered n).netif := by
  rw [espNetifDhcpcStopApi]
  split
  · refine clientAgrees_idle stopped_ne_started ?_
    show running (espNetifStartIpLostTimer _).1.lwip = false
    rw [startIpLostTimer_lwip]
    show running (netifCallbackFn registered n (lwip.dhcpStop n.lwip)).1.lwip = false
    rw [netifCallbackFn_lwip]
    exact c.dhcpStop _
  · rename_i hinit
    refine clientAgrees_idle stopped_ne_started (a.idle ?_)
    rw [hinit]
    exact init_ne_started
  · exact a

include u in
/-- `esp_netif_set_ip_info_api` is not about the client. -/
theorem setIpInfoApi_client (info : Option IpInfo) (a : ClientAgrees running n) :
    ClientAgrees running (espNetifSetIpInfoApi lwip registered info n).netif := by
  have hup : (espNetifSetIpInfoApi lwip registered info n).netif.lwip.isUp = n.lwip.isUp :=
    setIpInfoApi_isUp u info
  rcases setIpInfoApi_cases lwip registered n info with
    ⟨err, h, -⟩ | ⟨i, -, -, -, h⟩ | ⟨i, -, -, -, h⟩
  · rw [h]
    exact a
  · rw [h] at hup ⊢
    refine a.keep ?_ ?_ fun hisUp => hup.trans hisUp
    · exact (setIpInfoEvent_dhcpcStatus i).trans (netifCallbackFn_dhcpcStatus _)
    · refine (congrArg running (setIpInfoEvent_lwip i)).trans ?_
      rw [netifCallbackFn_lwip]
      exact c.netifSetAddr _ _
  · rw [h]
    exact a.keep rfl rfl id

end Calls

/-- Starting the server is not about the client. -/
theorem dhcpsStartApi_dhcpcStatus (udpNew : Option PcbPtr) :
    (espNetifDhcpsStartApi p udpNew n).netif.dhcpcStatus = n.dhcpcStatus := by
  rw [espNetifDhcpsStartApi]
  split
  · rfl
  · split
    · exact startDhcps_dhcpcStatus udpNew
    · rfl

/-- Stopping the server is not about the client. -/
theorem dhcpsStopApi_dhcpcStatus :
    (espNetifDhcpsStopApi p n).netif.dhcpcStatus = n.dhcpcStatus := by
  rw [espNetifDhcpsStopApi]
  split
  · dsimp only
    split
    · exact stopDhcps_dhcpcStatus (p := p)
    · exact stopDhcps_dhcpcStatus
  · rfl
  · rfl

/-- Every call but a start of a client that has been started keeps the two copies in agreement. -/
theorem run_client (c : lwip.ClientSpec running) (u : lwip.UpSpec) {call : ApiCall} {r : Call κ}
    (hclient : n.IsClient) (a : ClientAgrees running n)
    (hstart : ∀ udpNew malloc, call = .start udpNew malloc → n.dhcpcStatus ≠ .started)
    (h : call.run lwip registered p n = some r) : ClientAgrees running r.netif := by
  cases call with
  | start udpNew malloc =>
    obtain ⟨hstatus, hrunning⟩ := startApi_client c h
    exact clientAgrees_idle (hstatus ▸ hstart udpNew malloc rfl) hrunning
  | stop => cases h; exact stopApi_client c hclient a
  | up => cases h; exact upApi_client c u a
  | down => cases h; exact downApi_client c hclient a
  | dhcpcStart => cases h; exact dhcpcStartApi_client c u a
  | dhcpcStop => cases h; exact dhcpcStopApi_client c a
  | dhcpsStart udpNew =>
    cases h
    have hlwip := dhcpsStartApi_lwip udpNew (p := p) (n := n)
    exact a.keep (dhcpsStartApi_dhcpcStatus udpNew) (congrArg running hlwip)
      fun hup => (congrArg LwipNetif.isUp hlwip).trans hup
  | dhcpsStop =>
    cases h
    have hlwip := dhcpsStopApi_lwip (p := p) (n := n)
    exact a.keep dhcpsStopApi_dhcpcStatus (congrArg running hlwip)
      fun hup => (congrArg LwipNetif.isUp hlwip).trans hup
  | setIpInfo info => cases h; exact setIpInfoApi_client c u info a
  | setDefaultNetif => cases h; exact a

/-! ## Every run -/

namespace World

/-- The two copies agree on every interface with a DHCP client. -/
def ClientsAgree (running : LwipNetif κ → Bool) (w : World κ) : Prop :=
  ∀ p n, w.heap p = some n → n.IsClient → ClientAgrees running n

/-- `esp_netif_start` does not find the client of its interface started. -/
def StartsIdle (w : World κ) : Action κ → Prop
  | .call (some p) (.start ..) _ => ∀ n ∈ w.heap p, n.IsClient → n.dhcpcStatus ≠ .started
  | _ => True

/-- lwIP by itself changes the address of an interface, but neither starts nor stops its client. -/
def KeepsClient (running : LwipNetif κ → Bool) (w : World κ) : Action κ → Prop
  | .addressChange p addr dhcpData core => ∀ n ∈ w.heap p,
      running ⟨n.lwip.isUp, addr, dhcpData, core⟩ = running n.lwip
  | _ => True

section Run

variable {w w' : World κ} {a : Action κ}

/-- One step keeps the agreement of every interface, if lwIP leaves clients alone and calls start
idle. -/
theorem step_clientsAgree (c : lwip.ClientSpec running) (u : lwip.UpSpec)
    (hkeeps : KeepsClient running w a) (hidle : StartsIdle w a) (hw : ClientsAgree running w)
    (h : w.step lwip a = some w') : ClientsAgree running w' := by
  intro q n' hq hclient
  rcases step_heap_cases h hq with hq | ⟨_, _, _, _, -, hn⟩ | ⟨n, call, _, r, rfl, hn, hr, rfl⟩ |
    ⟨n, addr, dhcpData, core, rfl, hn, rfl⟩ | ⟨n, -, -, hn, rfl⟩
  · exact hw q n' hq hclient
  · refine clientAgrees_idle ?_ ?_
    · rw [hn.dhcpcStatus]
      exact init_ne_started
    · rw [hn.lwip]
      exact c.zeroed
  · have hflags : r.netif.flags = n.flags := congrArg Prod.fst (run_config hr)
    have hclient : n.IsClient := by rwa [EspNetif.IsClient, hflags] at hclient
    refine run_client c u hclient (hw q n hn hclient) ?_ hr
    rintro udpNew malloc rfl
    exact hidle n hn hclient
  · have hflags : (w.addressChanged n addr dhcpData core).1.flags = n.flags :=
      congrArg (fun r => r.1.1) (netifCallbackFn_rest ..)
    have hclient : n.IsClient := by rwa [EspNetif.IsClient, hflags] at hclient
    refine (hw q n hn hclient).keep (netifCallbackFn_dhcpcStatus _) ?_ ?_
    · rw [addressChanged, netifCallbackFn_lwip]
      exact hkeeps n hn
    · intro hup
      rw [addressChanged, netifCallbackFn_lwip]
      exact hup
  · have hflags : (espNetifIpLostTimer n).1.flags = n.flags :=
      congrArg (fun r => r.1.1) ipLostTimer_rest
    have hclient : n.IsClient := by rwa [EspNetif.IsClient, hflags] at hclient
    refine (hw q n hn hclient).keep ipLostTimer_dhcpcStatus ?_ ?_
    · rw [ipLostTimer_lwip]
    · rw [ipLostTimer_lwip]
      exact id

/-- A start of a client that has been started clears the client of lwIP and leaves the status. -/
theorem not_clientsAgree (c : lwip.ClientSpec running) (hidle : ¬ StartsIdle w a)
    (h : w.step lwip a = some w') : ¬ ClientsAgree running w' := by
  intro hw'
  cases a with
  | call p call mutex =>
    cases p with
    | none => exact hidle trivial
    | some p =>
      cases call with
      | start udpNew malloc =>
        simp only [StartsIdle, not_forall, not_not] at hidle
        obtain ⟨n, hn, hclient, hstarted⟩ := hidle
        have hn : w.heap p = some n := hn
        have h : w.espNetifCall lwip p (.start udpNew malloc) mutex = some w' := h
        obtain ⟨n₁, r, last, overridden, lock, hn₁, hr, rfl, -⟩ := espNetifCall_frame h
        cases hn.symm.trans hn₁
        have hflags : r.netif.flags = n.flags := congrArg Prod.fst (run_config hr)
        have hclient : r.netif.IsClient := by rwa [EspNetif.IsClient, hflags]
        obtain ⟨hstatus, hrunning⟩ := startApi_client c hr
        have hagrees := hw' p r.netif (set_heap _) hclient
        have hstarted := hagrees.status.mp (hstatus.trans hstarted)
        exact absurd (hrunning.symm.trans hstarted) (by decide)
      | stop | up | down | dhcpcStart | dhcpcStop | dhcpsStart | dhcpsStop | setIpInfo
      | setDefaultNetif => exact hidle trivial
  | new | destroy | addressChange | ip6Valid | timeout => exact hidle trivial

/-- As long as lwIP by itself neither starts nor stops a client, the status of every interface with
a DHCP client says after each step whether the client of lwIP is running, and it runs only while the
interface is up, exactly if no interface is started whose client has been started. -/
theorem client_agrees_iff (lwip : Lwip κ) (running : LwipNetif κ → Bool)
    (c : lwip.ClientSpec running) (u : lwip.UpSpec) (actions : List (Action κ)) (w : World κ)
    (h : Machine.exec (World.step lwip) World.init actions = some w)
    (hkeeps : Machine.Along (World.step lwip) (KeepsClient running) World.init actions) :
    Machine.Each (World.step lwip) (fun _ _ w => ClientsAgree running w) World.init actions ↔
      Machine.Along (World.step lwip) StartsIdle World.init actions := by
  refine Machine.each_iff_along_of (I := ClientsAgree running) ?_ ?_ h hkeeps ?_
  · intro s a s' hk hidle hstep hs
    have hs' := step_clientsAgree c u hk hidle hs hstep
    exact ⟨hs', hs'⟩
  · intro s a s' _ hidle hstep _
    exact not_clientsAgree c hidle hstep
  · intro p n hn
    cases hn

end Run

instance decidableStartsIdle (w : World κ) : ∀ a, Decidable (StartsIdle w a)
  | .call (some p) (.start ..) _ => inferInstanceAs (Decidable (∀ n ∈ w.heap p,
      (n.flags.dhcpClient = true ∧ n.flags.dhcpServer = false) → n.dhcpcStatus ≠ .started))
  | .call none _ _ | .call (some _) .stop _ | .call (some _) .up _ | .call (some _) .down _
  | .call (some _) .dhcpcStart _ | .call (some _) .dhcpcStop _ | .call (some _) (.dhcpsStart _) _
  | .call (some _) .dhcpsStop _ | .call (some _) (.setIpInfo _) _
  | .call (some _) .setDefaultNetif _ => .isTrue trivial
  | .new .. | .destroy .. | .addressChange .. | .ip6Valid _ | .timeout .. => .isTrue trivial

instance decidableKeepsClient (running : LwipNetif κ → Bool) (w : World κ) :
    ∀ a, Decidable (KeepsClient running w a)
  | .addressChange p addr dhcpData core => inferInstanceAs (Decidable (∀ n ∈ w.heap p,
      running ⟨n.lwip.isUp, addr, dhcpData, core⟩ = running n.lwip))
  | .new .. | .destroy .. | .call .. | .ip6Valid _ | .timeout .. => .isTrue trivial

end World

/-- An lwIP in which `core` says whether the client of the `struct netif` is running -/
def Lwip.client : Lwip Bool where
  zeroed := false
  netifAdd n addr := some { n with isUp := false, addr, dhcpData := false, core := false }
  netifRemove n := { n with isUp := false }
  netifSetUp n := { n with isUp := true }
  netifSetLinkUp n := n
  netifSetDown n := { n with isUp := false }
  netifSetLinkDown n := n
  netifSetAddr n addr := ({ n with addr }, decide (addr ≠ n.addr))
  dhcpSetStruct n := { n with dhcpData := true, core := false }
  dhcpCleanup n := { n with dhcpData := false, core := false }
  dhcpRelease n := ({ n with addr := .any, core := false }, decide (n.core ∧ n.addr ≠ .any))
  dhcpStop n := ({ n with addr := .any, core := false }, decide (n.core ∧ n.addr ≠ .any))
  dhcpStart n := ({ n with core := n.dhcpData }, n.dhcpData)

/-- `Lwip.client` does to DHCP clients what `ClientSpec` asks of lwIP. -/
theorem client_clientSpec : Lwip.client.ClientSpec LwipNetif.core where
  zeroed := rfl
  netifAdd n addr n' h := by
    cases h
    rfl
  netifRemove _ := rfl
  netifSetUp _ := rfl
  netifSetLinkUp _ := rfl
  netifSetDown _ := rfl
  netifSetLinkDown _ := rfl
  netifSetAddr _ _ := rfl
  addrSetZero _ := rfl
  dhcpSetStruct _ := rfl
  dhcpCleanup _ := rfl
  dhcpStop _ := rfl
  dhcpStart _ _ := rfl

/-- `Lwip.client` does what `UpSpec` asks of lwIP. -/
theorem client_upSpec : Lwip.client.UpSpec where
  netifAdd n addr n' h := by
    cases h
    rfl
  netifRemove _ := rfl
  netifSetUp _ := rfl
  netifSetLinkUp _ := rfl
  netifSetDown _ := rfl
  netifSetLinkDown _ := rfl
  netifSetAddr _ _ := rfl
  dhcpSetStruct _ := rfl
  dhcpCleanup _ := rfl
  dhcpRelease _ := rfl
  dhcpStop _ := rfl
  dhcpStart _ := rfl

namespace World

/-- The station is started, goes up and gets an address; it loses its link and comes back, changes
to a static address and again to DHCP, and is stopped and started. -/
def clientCalls : List (Action Bool) :=
  [.new 0 (some wifiSta.full) .plenty, .call (some 0) (.start none true) true,
    .call (some 0) .dhcpcStart true, .call (some 0) .up true, .call (some 0) .dhcpcStart true,
    .addressChange 0 ⟨0x0204A8C0, 0x00FFFFFF, 0x0104A8C0⟩ true true, .call (some 0) .down true,
    .call (some 0) .up true, .call (some 0) .dhcpcStart true, .call (some 0) .dhcpcStop true,
    .call (some 0) (.setIpInfo (some ⟨0x0304A8C0, 0x00FFFFFF, 0x0104A8C0⟩)) true,
    .call (some 0) .dhcpcStart true, .call (some 0) .stop true,
    .call (some 0) (.start none true) true]

/-- The run of `clientCalls`, with starts and stops of the client -/
theorem client_agrees_iff_clientCalls : ∃ w,
    Machine.exec (World.step Lwip.client) World.init clientCalls = some w ∧
      Machine.Each (World.step Lwip.client) (fun _ _ w => ClientsAgree LwipNetif.core w) World.init
        clientCalls := by
  obtain ⟨w, hw⟩ := Option.isSome_iff_exists.mp
    (show (Machine.exec (World.step Lwip.client) World.init clientCalls).isSome by decide +kernel)
  exact ⟨w, hw, (client_agrees_iff Lwip.client LwipNetif.core client_clientSpec client_upSpec
    clientCalls w hw (by decide +kernel)).mpr (by decide +kernel)⟩

end World

end PicoHost.Interface
