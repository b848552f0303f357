import PicoHost.Interface.World

/-!
# What the calls leave alone

No call changes the configuration of an interface (`run_config`), and
`esp_netif_update_default_netif` changes the default and the list lock only
(`updateDefaultNetif_frame`).
-/

namespace PicoHost.Interface

open Dhcps (NetifPtr PcbPtr)

variable {κ : Type} {lwip : Lwip κ} {registered : Bool} {p : NetifPtr} {n : EspNetif κ}

/-! ## One interface -/

/-- What `esp_netif_new` has configured once and for all. -/
def EspNetif.config (n : EspNetif κ) : Flags × Option String × Int × Nat × Nat :=
  (n.flags, n.ifKey, n.routePrio, n.getIpEvent, n.lostIpEvent)

/-- What only the calls about the DHCP server change. -/
def EspNetif.server (n : EspNetif κ) : Option Dhcps.Server × DhcpStatus := (n.dhcps, n.dhcpsStatus)

/-- What the code about addresses leaves alone. -/
def EspNetif.rest (n : EspNetif κ) :
    (Flags × Option String × Int × Nat × Nat) × (Option Dhcps.Server × DhcpStatus) × Bool :=
  (n.config, n.server, n.added)

section Rest

variable {n n' : EspNetif κ} (h : n'.rest = n.rest)
include h

/-- The configuration is part of what the code about addresses leaves alone. -/
theorem EspNetif.config_of_rest : n'.config = n.config := congrArg Prod.fst h

/-- The DHCP server with its status is part of what the code about addresses leaves alone. -/
theorem EspNetif.server_of_rest : n'.server = n.server := congrArg (fun r => r.2.1) h

/-- The code about addresses does not add the interface to lwIP. -/
theorem EspNetif.added_of_rest : n'.added = n.added := congrArg (fun r => r.2.2) h

end Rest

/-- The effects of two pieces stand in the order in which they run. -/
theorem Done.andThen_snd (r : Done κ) (f : EspNetif κ → Done κ) :
    (r.andThen f).2 = r.2 ++ (f r.1).2 := rfl

section Address

@[simp] theorem startIpLostTimer_rest : (espNetifStartIpLostTimer n).1.rest = n.rest := by
  rw [espNetifStartIpLostTimer]
  split
  · rfl
  · split <;> rfl

@[simp] theorem internalDhcpcCb_rest : (espNetifInternalDhcpcCb n).1.rest = n.rest := by
  rw [espNetifInternalDhcpcCb]
  split
  · split <;> rfl
  · split
    · exact startIpLostTimer_rest
    · rfl

@[simp] theorem ipLostTimer_rest : (espNetifIpLostTimer n).1.rest = n.rest := by
  rw [espNetifIpLostTimer]
  dsimp only
  split <;> rfl

@[simp] theorem netifCallbackFn_rest (registered : Bool) (n : EspNetif κ)
    (r : LwipNetif κ × Bool) : (netifCallbackFn registered n r).1.rest = n.rest := by
  unfold netifCallbackFn
  dsimp only
  split
  · exact internalDhcpcCb_rest
  · rfl

/-- `esp_netif_lwip_add` adds the interface to lwIP and changes nothing else of `rest`. -/
theorem lwipAdd_rest {n' : EspNetif κ} (h : espNetifLwipAdd lwip n = some n') :
    n'.rest = (n.config, n.server, true) := by
  simp only [espNetifLwipAdd, Option.ite_none_left_eq_some, Option.map_eq_some_iff] at h
  obtain ⟨-, _, -, rfl⟩ := h
  rfl

@[simp] theorem startAutoup_rest (lwip : Lwip κ) (n : EspNetif κ) :
    (startAutoup lwip n).rest = n.rest := by
  rw [startAutoup]
  split <;> rfl

/-- `esp_netif_lwip_remove` takes the interface out of lwIP and changes nothing else of `rest`. -/
@[simp] theorem lwipRemove_rest :
    (espNetifLwipRemove lwip n).1.rest = (n.config, n.server, false) := rfl

/-- `esp_netif_up_api` leaves configuration and server alone. -/
theorem upApi_rest : (espNetifUpApi lwip registered n).netif.rest = n.rest :=
  netifCallbackFn_rest ..

@[simp] theorem downDhcpc_rest : (downDhcpc lwip registered n).1.rest = n.rest := by
  rw [downDhcpc]
  split
  · exact netifCallbackFn_rest ..
  · rfl

@[simp] theorem downIpLost_rest : (downIpLost n).1.rest = n.rest := by
  rw [downIpLost]
  split
  · exact startIpLostTimer_rest
  · rfl

/-- `esp_netif_down_api` leaves configuration and server alone. -/
theorem downApi_rest : (espNetifDownApi lwip registered n).netif.rest = n.rest :=
  downIpLost_rest.trans ((netifCallbackFn_rest ..).trans downDhcpc_rest)

/-- `esp_netif_dhcpc_stop_api` leaves configuration and server alone. -/
theorem dhcpcStopApi_rest : (espNetifDhcpcStopApi lwip registered n).netif.rest = n.rest := by
  rw [espNetifDhcpcStopApi]
  split
  · exact startIpLostTimer_rest.trans (netifCallbackFn_rest ..)
  · rfl
  · rfl

/-- What `esp_netif_dhcpc_start` does: the client runs already, or it is started, or it waits for
the interface. -/
theorem dhcpcStartApi_cases (lwip : Lwip κ) (n : EspNetif κ) :
    (n.dhcpcStatus = .started ∧
      espNetifDhcpcStartApi lwip n = ⟨.dhcpAlreadyStarted, n, [], none⟩) ∨
    (n.dhcpcStatus ≠ .started ∧ n.lwip.isUp = true ∧ ∃ err status,
      espNetifDhcpcStartApi lwip n =
        let r := espNetifStartIpLostTimer
          { espNetifResetIpInfo n with lwip := { n.lwip with addr := .any } }
        ⟨err, { r.1 with lwip := (lwip.dhcpStart r.1.lwip).1, dhcpcStatus := status }, r.2, none⟩) ∨
    n.dhcpcStatus ≠ .started ∧ n.lwip.isUp = false ∧ espNetifDhcpcStartApi lwip n =
      ⟨.ok, { espNetifResetIpInfo n with dhcpcStatus := .init }, [], none⟩ := by
  rw [espNetifDhcpcStartApi]
  by_cases hstarted : n.dhcpcStatus = .started
  · rw [if_pos hstarted]
    exact .inl ⟨hstarted, rfl⟩
  rw [if_neg hstarted]
  dsimp only
  have hreset : (espNetifResetIpInfo n).lwip = n.lwip := rfl
  rw [hreset]
  by_cases hup : n.lwip.isUp = true
  · rw [if_pos hup]
    refine .inr (.inl ⟨hstarted, hup, ?_⟩)
    split
    · exact ⟨_, _, rfl⟩
    · exact ⟨_, _, rfl⟩
  · rw [if_neg hup]
    exact .inr (.inr ⟨hstarted, Bool.eq_false_iff.mpr hup, rfl⟩)

/-- `esp_netif_dhcpc_start_api` leaves configuration and server alone. -/
theorem dhcpcStartApi_rest : (espNetifDhcpcStartApi lwip n).netif.rest = n.rest := by
  rcases dhcpcStartApi_cases lwip n with ⟨-, h⟩ | ⟨-, -, err, status, h⟩ | ⟨-, -, h⟩
  · rw [h]
  · rw [h]
    exact startIpLostTimer_rest
  · rw [h]
    rfl

@[simp] theorem setIpInfoEvent_rest (info : IpInfo) :
    (setIpInfoEvent info n).1.rest = n.rest := by
  rw [setIpInfoEvent]
  split <;> rfl

/-- `esp_netif_set_ip_info` refuses an address. -/
def EspNetif.RefusesIpInfo (n : EspNetif κ) : Prop :=
  if n.flags.dhcpServer = true then n.dhcpsStatus ≠ .stopped
  else n.flags.dhcpClient = true ∧ n.dhcpcStatus ≠ .stopped

/-- `esp_netif_set_ip_info` refuses the call, or sets `ip_info`; in an interface that is up it also
sets the address and announces it. -/
theorem setIpInfoApi_cases (lwip : Lwip κ) (registered : Bool) (n : EspNetif κ)
    (info : Option IpInfo) :
    (∃ err, espNetifSetIpInfoApi lwip registered info n = ⟨err, n, [], none⟩ ∧
      ∀ i ∈ info, n.RefusesIpInfo) ∨
    (∃ i, info = some i ∧ ¬ n.RefusesIpInfo ∧ n.lwip.isUp = true ∧
      espNetifSetIpInfoApi lwip registered info n =
        let r := (netifCallbackFn registered { n with ipInfo := i }
          (lwip.netifSetAddr n.lwip i)).andThen (setIpInfoEvent i)
        ⟨.ok, r.1, r.2, none⟩) ∨
    ∃ i, info = some i ∧ ¬ n.RefusesIpInfo ∧ n.lwip.isUp = false ∧
      espNetifSetIpInfoApi lwip registered info n = ⟨.ok, { n with ipInfo := i }, [], none⟩ := by
  cases info with
  | none => exact .inl ⟨.invalidState, rfl, nofun⟩
  | some info =>
    rw [espNetifSetIpInfoApi]
    dsimp only
    by_cases hserver : (n.flags.dhcpServer && decide (n.dhcpsStatus ≠ .stopped)) = true
    · rw [if_pos hserver]
      rw [Bool.and_eq_true, decide_eq_true_eq] at hserver
      refine .inl ⟨_, rfl, fun _ _ => ?_⟩
      rw [EspNetif.RefusesIpInfo, if_pos hserver.1]
      exact hserver.2
    rw [if_neg hserver]
    by_cases hclient : (!n.flags.dhcpServer && n.flags.dhcpClient &&
        decide (n.dhcpcStatus ≠ .stopped)) = true
    · rw [if_pos hclient]
      rw [Bool.and_eq_true, Bool.and_eq_true, Bool.not_eq_true', decide_eq_true_eq] at hclient
      refine .inl ⟨_, rfl, fun _ _ => ?_⟩
      rw [EspNetif.RefusesIpInfo, if_neg (Bool.eq_false_iff.mp hclient.1.1)]
      exact ⟨hclient.1.2, hclient.2⟩
    rw [if_neg hclient]
    have haccepts : ¬ n.RefusesIpInfo := by
      rw [EspNetif.RefusesIpInfo]
      split
      · rename_i h
        simpa [h] using hserver
      · rename_i h
        simpa [h] using hclient
    by_cases hup : n.lwip.isUp = true
    · rw [if_pos hup]
      exact .inr (.inl ⟨info, rfl, haccepts, hup, rfl⟩)
    · rw [if_neg hup]
      exact .inr (.inr ⟨info, rfl, haccepts, Bool.eq_false_iff.mpr hup, rfl⟩)

/-- `esp_netif_set_ip_info_api` leaves configuration and server alone. -/
theorem setIpInfoApi_rest (info : Option IpInfo) :
    (espNetifSetIpInfoApi lwip registered info n).netif.rest = n.rest := by
  rcases setIpInfoApi_cases lwip registered n info with
    ⟨err, h, -⟩ | ⟨i, -, -, -, h⟩ | ⟨i, -, -, -, h⟩
  · rw [h]
  · rw [h]
    exact (setIpInfoEvent_rest _).trans (netifCallbackFn_rest ..)
  · rw [h]
    rfl

end Address

section Config

/-- Starting the DHCP server keeps the configuration of the interface. -/
@[simp] theorem startDhcps_config (udpNew : Option PcbPtr) :
    (startDhcps p udpNew n).2.config = n.config := by
  rw [startDhcps]
  split
  · rfl
  · dsimp only
    split <;> rfl

/-- Stopping the DHCP server keeps the configuration of the interface. -/
@[simp] theorem stopDhcps_config : (stopDhcps p n).2.config = n.config := by
  rw [stopDhcps]
  split <;> rfl

/-- What `esp_netif_start_api` does after `netif_add`: it starts the DHCP server, or finds a
reason not to update the default, or updates it. -/
theorem startApi_cases {udpNew : Option PcbPtr} {malloc : Bool} {r : Call κ}
    (h : espNetifStartApi lwip p udpNew malloc n = some r) :
    ∃ n₀ n₁, espNetifLwipAdd lwip n = some n₀ ∧ n₁ = startAutoup lwip n₀ ∧
      r.effects = (if n₀.flags.garp then [.sysTimeout .garp] else []) ∧
      ((n₀.flags.dhcpServer ∧ n₁.dhcpsStatus = .init ∧ n₁.lwip.isUp ∧
          r.netif = (startDhcps p udpNew n₁).2 ∧
          r.update = (if (startDhcps p udpNew n₁).1 = .ok then some .started else none)) ∨
        (r.netif = n₁ ∧ r.update = none ∧
          (n₀.flags.dhcpServer ∧ ¬ (n₁.dhcpsStatus = .init ∧ n₁.lwip.isUp) ∨
            n₀.flags.dhcpServer = false ∧ n₀.flags.dhcpClient ∧ n₁.dhcpcStatus ≠ .started ∧
              n₁.lwip.dhcpData = false ∧ malloc = false)) ∨
        (n₀.flags.dhcpServer = false ∧ r.update = some .started ∧
          (r.netif = n₁ ∨ r.netif = { n₁ with lwip := lwip.dhcpSetStruct n₁.lwip }))) := by
  simp only [espNetifStartApi, Option.ite_none_left_eq_some, Option.map_eq_some_iff] at h
  obtain ⟨-, n₀, hadd, rfl⟩ := h
  refine ⟨n₀, startAutoup lwip n₀, hadd, rfl, ?_⟩
  have hflags : (startAutoup lwip n₀).flags = n₀.flags :=
    congrArg (fun r => r.1.1) (startAutoup_rest lwip n₀)
  generalize startAutoup lwip n₀ = n₁ at hflags ⊢
  cases hserver : n₀.flags.dhcpServer with
  | true =>
    rw [if_pos (by rw [hflags, hserver])]
    cases hstatus : n₁.dhcpsStatus with
    | init =>
      dsimp only
      split
      · rename_i hup
        exact ⟨rfl, .inl ⟨rfl, rfl, hup, rfl, rfl⟩⟩
      · rename_i hup
        refine ⟨rfl, .inr (.inl ⟨?_, rfl, .inl ⟨rfl, fun h => hup h.2⟩⟩)⟩
        rw [← hstatus]
    | started => exact ⟨rfl, .inr (.inl ⟨rfl, rfl, .inl ⟨rfl, fun h => nomatch h.1⟩⟩)⟩
    | stopped => exact ⟨rfl, .inr (.inl ⟨rfl, rfl, .inl ⟨rfl, fun h => nomatch h.1⟩⟩)⟩
  | false =>
    rw [if_neg (by rw [hflags, hserver]; exact Bool.false_ne_true)]
    split
    · -- a DHCP client needs its `struct dhcp`
      rename_i hdata
      simp only [Bool.and_eq_true, decide_eq_true_eq, Bool.not_eq_true', hflags] at hdata
      cases malloc with
      | true => exact ⟨rfl, .inr (.inr ⟨rfl, rfl, .inr rfl⟩)⟩
      | false => exact ⟨rfl, .inr (.inl ⟨rfl, rfl, .inr ⟨rfl, hdata.1.1, hdata.1.2, hdata.2, rfl⟩⟩)⟩
    · exact ⟨rfl, .inr (.inr ⟨rfl, rfl, .inl rfl⟩)⟩

/-- `esp_netif_start_api` keeps the configuration of the interface. -/
theorem startApi_config {udpNew : Option PcbPtr} {malloc : Bool} {r : Call κ}
    (h : espNetifStartApi lwip p udpNew malloc n = some r) : r.netif.config = n.config := by
  obtain ⟨n₀, n₁, hadd, rfl, -, h⟩ := startApi_cases h
  have hrest : (startAutoup lwip n₀).config = n.config :=
    congrArg Prod.fst ((startAutoup_rest lwip n₀).trans (lwipAdd_rest hadd))
  rw [← hrest]
  rcases h with ⟨-, -, -, h, -⟩ | ⟨h, -⟩ | ⟨-, -, h | h⟩
  · rw [h, startDhcps_config]
  · rw [h]
  · rw [h]
  · rw [h]
    rfl

/-- The DHCP part of `esp_netif_stop_api` keeps the configuration. -/
@[simp] theorem stopDhcp_config : (stopDhcp lwip registered p n).1.config = n.config := by
  rw [stopDhcp]
  split
  · dsimp only
    split
    · exact stopDhcps_config (p := p)
    · exact stopDhcps_config
  · split
    · exact EspNetif.config_of_rest ((netifCallbackFn_rest ..).trans (netifCallbackFn_rest ..))
    · rfl

/-- `esp_netif_stop_api` keeps the configuration. -/
theorem stopApi_config : (espNetifStopApi lwip registered p n).netif.config = n.config := by
  rw [espNetifStopApi]
  split
  · exact (congrArg Prod.fst lwipRemove_rest).trans stopDhcp_config
  · exact congrArg Prod.fst lwipRemove_rest

/-- `esp_netif_dhcps_start_api` keeps the configuration. -/
theorem dhcpsStartApi_config (udpNew : Option PcbPtr) :
    (espNetifDhcpsStartApi p udpNew n).netif.config = n.config := by
  rw [espNetifDhcpsStartApi]
  split
  · rfl
  · split
    · exact startDhcps_config udpNew
    · rfl

/-- `esp_netif_dhcps_stop_api` keeps the configuration. -/
theorem dhcpsStopApi_config : (espNetifDhcpsStopApi p n).netif.config = n.config := by
  rw [espNetifDhcpsStopApi]
  split
  · dsimp only
    split
    · exact stopDhcps_config (p := p)
    · exact stopDhcps_config
  · rfl
  · rfl

/-- No call changes the configuration of its interface. -/
theorem run_config {call : ApiCall} {r : Call κ} (h : call.run lwip registered p n = some r) :
    r.netif.config = n.config := by
  cases call with
  | start udpNew malloc => exact startApi_config h
  | stop => cases h; exact stopApi_config
  | up => cases h; exact EspNetif.config_of_rest upApi_rest
  | down => cases h; exact EspNetif.config_of_rest downApi_rest
  | dhcpcStart => cases h; exact EspNetif.config_of_rest dhcpcStartApi_rest
  | dhcpcStop => cases h; exact EspNetif.config_of_rest dhcpcStopApi_rest
  | dhcpsStart udpNew => cases h; exact dhcpsStartApi_config udpNew
  | dhcpsStop => cases h; exact dhcpsStopApi_config
  | setIpInfo info => cases h; exact EspNetif.config_of_rest (setIpInfoApi_rest info)
  | setDefaultNetif => cases h; rfl

end Config

/-! ## The `struct netif` -/

section Netif

@[simp] theorem startIpLostTimer_lwip : (espNetifStartIpLostTimer n).1.lwip = n.lwip := by
  rw [espNetifStartIpLostTimer]
  split
  · rfl
  · split <;> rfl

@[simp] theorem internalDhcpcCb_lwip : (espNetifInternalDhcpcCb n).1.lwip = n.lwip := by
  rw [espNetifInternalDhcpcCb]
  split
  · split <;> rfl
  · split
    · exact startIpLostTimer_lwip
    · rfl

@[simp] theorem ipLostTimer_lwip : (espNetifIpLostTimer n).1.lwip = n.lwip := by
  rw [espNetifIpLostTimer]
  dsimp only
  split <;> rfl

/-- The callback leaves lwIP's own record as the function that invoked it has left it. -/
@[simp] theorem netifCallbackFn_lwip (registered : Bool) (n : EspNetif κ)
    (r : LwipNetif κ × Bool) : (netifCallbackFn registered n r).1.lwip = r.1 := by
  unfold netifCallbackFn
  dsimp only
  split
  · exact internalDhcpcCb_lwip
  · rfl

@[simp] theorem startDhcps_lwip (udpNew : Option PcbPtr) :
    (startDhcps p udpNew n).2.lwip = n.lwip := by
  rw [startDhcps]
  split
  · rfl
  · dsimp only
    split <;> rfl

@[simp] theorem stopDhcps_lwip : (stopDhcps p n).2.lwip = n.lwip := by
  rw [stopDhcps]
  split <;> rfl

@[simp] theorem setIpInfoEvent_lwip (info : IpInfo) : (setIpInfoEvent info n).1.lwip = n.lwip := by
  rw [setIpInfoEvent]
  split <;> rfl

@[simp] theorem downIpLost_lwip : (downIpLost n).1.lwip = n.lwip := by
  rw [downIpLost]
  split
  · exact startIpLostTimer_lwip
  · rfl

end Netif

/-! ## The world -/

namespace World

section

variable {w w' : World κ}

/-- Timers are set and cleared in the order of the effects. -/
theorem timeoutsAfter_append (ts : List (Timer × NetifPtr)) (es es' : List Effect) :
    timeoutsAfter p ts (es ++ es') = timeoutsAfter p (timeoutsAfter p ts es) es' := by
  induction es generalizing ts with
  | nil => rfl
  | cons e es ih =>
    cases e with
    | sysTimeout t => exact ih _
    | sysUntimeout t => exact ih _
    | post e => exact ih _

/-- The effects of a call on one interface do not touch the timeouts of another. -/
theorem count_timeoutsAfter_of_ne {q : NetifPtr} (hq : q ≠ p) (t : Timer)
    (ts : List (Timer × NetifPtr)) (es : List Effect) :
    (timeoutsAfter p ts es).count (t, q) = ts.count (t, q) := by
  have hne : ∀ t' : Timer, ((t', p) == (t, q)) = false := fun t' =>
    beq_false_of_ne fun h => hq (congrArg Prod.snd h).symm
  induction es generalizing ts with
  | nil => rfl
  | cons e es ih =>
    cases e with
    | sysTimeout t' =>
      refine (ih _).trans ?_
      rw [List.count_append, List.count_singleton, hne]
      rfl
    | sysUntimeout t' =>
      refine (ih _).trans ?_
      rw [List.count_erase, hne]
      rfl
    | post e => exact ih ts

/-- Where a timer is not cleared, every `sys_timeout` adds one. -/
theorem count_timeoutsAfter_self {t : Timer} {es : List Effect} (h : .sysUntimeout t ∉ es)
    (ts : List (Timer × NetifPtr)) : (timeoutsAfter p ts es).count (t, p) =
      ts.count (t, p) + es.count (.sysTimeout t) := by
  induction es generalizing ts with
  | nil => rfl
  | cons e es ih =>
    obtain ⟨hne, hes⟩ := not_or.mp (List.mem_cons.not.mp h)
    cases e with
    | sysTimeout t' =>
      refine (ih hes _).trans ?_
      rw [List.count_append, List.count_cons]
      by_cases ht : t' = t
      · -- one more at the end of the list
        subst ht
        simp
        omega
      · simp [ht]
    | sysUntimeout t' =>
      have ht : t' ≠ t := fun ht => hne (congrArg Effect.sysUntimeout ht.symm)
      refine (ih hes _).trans ?_
      rw [List.count_erase_of_ne fun h => ht (congrArg Prod.fst h).symm]
      rfl
    | post e => exact ih hes ts

@[simp] theorem set_heap (n : EspNetif κ) : (w.set p n).heap p = some n :=
  Function.update_self ..

/-- Writing an interface leaves the others as they are. -/
theorem set_heap_of_ne (n : EspNetif κ) {q : NetifPtr} (h : q ≠ p) :
    (w.set p n).heap q = w.heap q := Function.update_of_ne h ..

/-- Unlocking the list touches the lock only, -/
theorem listUnlock_frame (w : World κ) :
    ∃ lock, w.listUnlock = { w with listLock := lock } ∧
      (w.counter ≠ 0 → w.listLock = true → lock = true) := by
  rw [listUnlock]
  split
  · rename_i h
    exact ⟨false, rfl, fun hne => absurd h hne⟩
  · exact ⟨w.listLock, rfl, fun _ h => h⟩

/-- Locking the list touches the lock only. -/
theorem listLock?_eq {mutex : Bool} (h : w.listLock? mutex = some w') :
    w' = { w with listLock := true } := by
  unfold listLock? at h
  split at h
  · exact (Option.some.inj h).symm
  · cases h

/-- Updating the default changes nothing but the default, and keeps the lock of a list that is not
empty. -/
theorem updateDefaultNetif_frame {action : DefaultAction} {mutex : Bool}
    (h : w.updateDefaultNetif p action mutex = some w') :
    ∃ last overridden lock, w' =
        { w with lastDefault := last, overridden := overridden, listLock := lock } ∧
      (w.counter ≠ 0 → w.listLock = true → lock = true) := by
  rw [updateDefaultNetif] at h
  dsimp only at h
  split at h
  · -- held off by a default that was set by hand
    cases h
    exact ⟨_, w.overridden, w.listLock, rfl, fun _ h => h⟩
  have hreset : ∃ last overridden, (if w.overridden ∧ action ≠ .setDefault then
      { w with lastDefault := w.isActive w.lastDefault, overridden := false } else w) =
      { w with lastDefault := last, overridden := overridden } := by
    split
    · exact ⟨_, _, rfl⟩
    · exact ⟨w.lastDefault, w.overridden, rfl⟩
  obtain ⟨last, overridden, hreset⟩ := hreset
  rw [hreset] at h
  cases action with
  | setDefault =>
    cases h
    exact ⟨_, _, w.listLock, rfl, fun _ h => h⟩
  | started =>
    dsimp only at h
    split at h
    · cases h
      exact ⟨_, _, w.listLock, rfl, fun _ h => h⟩
    · split at h
      · cases h
        exact ⟨_, _, w.listLock, rfl, fun _ h => h⟩
      · cases h
        exact ⟨_, _, w.listLock, rfl, fun _ h => h⟩
  | stopped =>
    obtain ⟨u, hu, rfl⟩ := Option.map_eq_some_iff.mp h
    rw [listLock?_eq hu]
    obtain ⟨lock, hunlock, hlock⟩ := listUnlock_frame
      { w with lastDefault := bestDefault { w with
                  lastDefault := last, overridden := overridden, listLock := true },
               overridden := overridden, listLock := true }
    exact ⟨_, _, lock, hunlock, fun hne _ => hlock hne rfl⟩

/-- A call replaces its interface, performs its effects and may update the default. -/
theorem espNetifCall_cases {call : ApiCall} {mutex : Bool}
    (h : w.espNetifCall lwip p call mutex = some w') :
    ∃ n r, w.heap p = some n ∧ call.run lwip w.callback p n = some r ∧
      (r.update = none ∧ w' = (w.set p r.netif).perform p r.effects ∨
        ∃ action, r.update = some action ∧
          ((w.set p r.netif).perform p r.effects).updateDefaultNetif p action mutex =
            some w') := by
  rw [espNetifCall] at h
  cases hn : w.heap p with
  | none =>
    rw [hn] at h
    cases h
  | some n =>
    rw [hn] at h
    dsimp only at h
    cases hr : call.run lwip w.callback p n with
    | none =>
      rw [hr] at h
      cases h
    | some r =>
      rw [hr] at h
      dsimp only at h
      cases hu : r.update with
      | none =>
        rw [hu] at h
        exact ⟨n, r, rfl, hr, .inl ⟨hu, (Option.some.inj h).symm⟩⟩
      | some action =>
        rw [hu] at h
        exact ⟨n, r, rfl, hr, .inr ⟨action, hu, h⟩⟩

/-- A call replaces one interface, performs its effects, and may touch the default interface and the
lock of the list. -/
theorem espNetifCall_frame {call : ApiCall} {mutex : Bool}
    (h : w.espNetifCall lwip p call mutex = some w') :
    ∃ n r last overridden lock, w.heap p = some n ∧ call.run lwip w.callback p n = some r ∧
      w' = { (w.set p r.netif).perform p r.effects with
        lastDefault := last, overridden := overridden, listLock := lock } ∧
      (w.counter ≠ 0 → w.listLock = true → lock = true) := by
  obtain ⟨n, r, hn, hr, ⟨-, rfl⟩ | ⟨action, -, hupdate⟩⟩ := espNetifCall_cases h
  · exact ⟨n, r, w.lastDefault, w.overridden, w.listLock, hn, hr, rfl, fun _ h => h⟩
  · obtain ⟨last, overridden, lock, rfl, hlock⟩ := updateDefaultNetif_frame hupdate
    exact ⟨n, r, last, overridden, lock, hn, hr, rfl, hlock⟩

/-- An interface that is found is taken out; otherwise only the lock may change. -/
theorem removeFromList_cases (w : World κ) (p : NetifPtr) (mutex : Bool) :
    (p ∈ w.list ∧ (w.listLock = true ∨ mutex = true) ∧
        ∃ lock, (w.removeFromList p mutex).2 =
            { w with list := w.list.erase p, counter := w.counter - 1, listLock := lock } ∧
          (w.counter - 1 ≠ 0 → lock = true)) ∨
      (¬ (p ∈ w.list ∧ (w.listLock = true ∨ mutex = true)) ∧
        ∃ lock, (w.removeFromList p mutex).2 = { w with listLock := lock } ∧
          (w.counter ≠ 0 → w.listLock = true → lock = true)) := by
  unfold removeFromList listLock?
  by_cases hlock : w.listLock = true ∨ mutex = true
  · rw [if_pos (by simpa using hlock)]
    dsimp only
    by_cases hp : p ∈ w.list
    · rw [if_pos hp]
      obtain ⟨lock, hunlock, hkeep⟩ := listUnlock_frame
        { w with list := w.list.erase p, counter := w.counter - 1, listLock := true }
      exact .inl ⟨hp, hlock, lock, hunlock, fun hne => hkeep hne rfl⟩
    · rw [if_neg hp]
      obtain ⟨lock, hunlock, hkeep⟩ := listUnlock_frame { w with listLock := true }
      exact .inr ⟨fun h => hp h.1, lock, hunlock, fun hne _ => hkeep hne rfl⟩
  · rw [if_neg (by simpa using hlock)]
    exact .inr ⟨fun h => hlock h.2, w.listLock, rfl, fun _ h => h⟩

/-- Removing an interface from the list keeps the interfaces, the timers, the events and the fault.
-/
theorem removeFromList_same (w : World κ) (p : NetifPtr) (mutex : Bool) :
    (w.removeFromList p mutex).2.heap = w.heap ∧
      (w.removeFromList p mutex).2.timeouts = w.timeouts ∧
      (w.removeFromList p mutex).2.posted = w.posted ∧
      (w.removeFromList p mutex).2.fault = w.fault := by
  rcases removeFromList_cases w p mutex with ⟨-, -, _, hr, -⟩ | ⟨-, _, hr, -⟩
  · rw [hr]
    exact ⟨rfl, rfl, rfl, rfl⟩
  · rw [hr]
    exact ⟨rfl, rfl, rfl, rfl⟩

/-- A destroyed interface is taken out of the list, its timeouts are removed, and it is freed. -/
theorem espNetifDestroy_frame {env : DestroyEnv} (h : w.espNetifDestroy lwip p env = some w') :
    ∃ n last overridden callback lock, w.heap p = some n ∧
      w' = { (w.removeFromList p env.removeMutex).2.perform p (espNetifLwipRemove lwip n).2 with
        heap := Function.update w.heap p none, lastDefault := last, overridden := overridden,
        callback := callback, listLock := lock } ∧
      ((w.removeFromList p env.removeMutex).2.counter ≠ 0 →
        (w.removeFromList p env.removeMutex).2.listLock = true → lock = true) := by
  rw [espNetifDestroy] at h
  cases hn : w.heap p with
  | none =>
    rw [hn] at h
    cases h
  | some n =>
    rw [hn] at h
    dsimp only at h
    have hheap := (removeFromList_same w p env.removeMutex).1
    obtain ⟨last, overridden, lock, rfl, hlock⟩ := updateDefaultNetif_frame h
    generalize (w.removeFromList p env.removeMutex).2 = u at hheap hlock ⊢
    refine ⟨n, last, overridden, if u.counter = 0 then false else u.callback, lock, rfl, ?_, ?_⟩
    · rw [← hheap]
      by_cases hc : u.counter = 0
      · simp only [if_pos hc, perform]
      · simp only [if_neg hc, perform]
    · intro hne hu
      by_cases hc : u.counter = 0
      · exact absurd hc hne
      · rw [if_neg hc] at hlock
        exact hlock hne hu

end

end World

end PicoHost.Interface
