import PicoHost.Interface.Types

/-!
# The calls on one interface (`esp_netif_lwip.c`)

Each call runs in the lwIP task and is one step. What it asks of the timer list, of the event
loop and of `esp_netif_update_default_netif` is returned, not carried out.
-/

namespace PicoHost.Interface

open Dhcps (NetifPtr PcbPtr)

variable {κ : Type}

/-- An interface after a piece of code, and what the code did besides. -/
abbrev Done (κ : Type) := EspNetif κ × List Effect

def Done.andThen (r : Done κ) (f : EspNetif κ → Done κ) : Done κ :=
  ((f r.1).1, r.2 ++ (f r.1).2)

/-! ## Addresses -/

/-- `esp_netif_reset_ip_info` -/
def espNetifResetIpInfo (n : EspNetif κ) : EspNetif κ := { n with ipInfo := .any }

/-- `esp_netif_get_ip_info` -/
def espNetifGetIpInfo (n : EspNetif κ) : IpInfo := if n.lwip.isUp then n.lwip.addr else n.ipInfo

/-- `esp_netif_start_ip_lost_timer` (esp_netif_lwip.c:1332–1355). Its `ip_info_old` is `ip_info`. -/
def espNetifStartIpLostTimer (n : EspNetif κ) : Done κ :=
  if n.timerRunning then (n, [])
  else if n.ipInfo.ip ≠ 0 then ({ n with timerRunning := true }, [.sysTimeout .ipLost])
  else (n, [])

/-- `esp_netif_internal_dhcpc_cb` (esp_netif_lwip.c:1241–1295) -/
def espNetifInternalDhcpcCb (n : EspNetif κ) : Done κ :=
  if n.lwip.addr.ip ≠ 0 then
    if n.lwip.addr ≠ n.ipInfo then
      ({ n with ipInfo := n.lwip.addr, ipInfoOld := n.lwip.addr },
        [.post (.gotIp n.getIpEvent n.lwip.addr (decide (n.lwip.addr ≠ n.ipInfoOld)))])
    else (n, [])
  else if n.ipInfo.ip ≠ 0 then espNetifStartIpLostTimer n
  else (n, [])

/-- `esp_netif_ip_lost_timer` (esp_netif_lwip.c:1297–1330) for an interface that is listed -/
def espNetifIpLostTimer (n : EspNetif κ) : Done κ :=
  let n := { n with timerRunning := false }
  if n.lwip.addr.ip = 0 then
    ({ n with ipInfoOld := .any },
      if n.lostIpEvent ≠ 0 then [.post (.lostIp n.lostIpEvent)] else [])
  else (n, [])

/-! ## Report timers -/

/-- `netif_send_garp` arms itself again. -/
def netifSendGarp : List Effect := [.sysTimeout .garp]

/-- `netif_send_mldv6`, `netif_set_mldv6_flag` -/
def netifSetMldv6Flag (n : EspNetif κ) : List Effect :=
  if n.lwip.isUp then [.sysTimeout .mldv6] else []

/-- `esp_netif_internal_nd6_cb` (esp_netif_lwip.c:2013–2047) -/
def espNetifInternalNd6Cb (n : EspNetif κ) : List Effect :=
  (if n.flags.mldv6Report then netifSetMldv6Flag n else []) ++ [.post .gotIp6]

section Calls

-- lwIP, and whether `netif_callback` is registered with it
variable (lwip : Lwip κ) (registered : Bool)

/-- An lwIP function that may change the address, with `netif_callback_fn` if it is invoked -/
def netifCallbackFn (n : EspNetif κ) (r : LwipNetif κ × Bool) : Done κ :=
  let n := { n with lwip := r.1 }
  if registered && r.2 then espNetifInternalDhcpcCb n else (n, [])

/-! ## Start and stop -/

/-- `esp_netif_lwip_remove` (esp_netif_lwip.c:807–831) -/
def espNetifLwipRemove (n : EspNetif κ) : Done κ :=
  let netif := lwip.netifRemove (if n.lwip.isUp then lwip.netifSetDown n.lwip else n.lwip)
  let netif := if n.flags.dhcpClient then lwip.dhcpCleanup netif else netif
  ({ n with lwip := netif, added := false },
    (if n.flags.garp then [.sysUntimeout .garp] else []) ++
      (if n.flags.mldv6Report then [.sysUntimeout .mldv6] else []))

/-- `esp_netif_config_sanity_check` -/
def espNetifConfigSanityCheck (n : EspNetif κ) : EspErr :=
  if !n.flags.isBridge && (!n.driverTransmit || !n.driverHandle || !n.lwipInputFn) ||
    !n.lwipInitFn then .invalidState
  else .ok

/-- `esp_netif_lwip_add` (esp_netif_lwip.c:833–880), `none` if it does not return `ESP_OK` -/
def espNetifLwipAdd (n : EspNetif κ) : Option (EspNetif κ) :=
  if n.flags.isPpp then none
  else (lwip.netifAdd n.lwip n.ipInfo).map fun netif => { n with lwip := netif, added := true }

/-- `dhcps_set_option_info` with `SUBNET_MASK` -/
def dhcpsSetSubnetMask (s : Dhcps.Server) (mask : UInt32) : Dhcps.Server :=
  { s with dhcps := { s.dhcps with dhcpsMask := mask } }

/-- `dhcps_start` with the address and mask of the interface, as `esp_netif_start_api` and
`esp_netif_dhcps_start_api` call it; `p` stands for its `struct netif`. -/
def startDhcps (p : NetifPtr) (udpNew : Option PcbPtr) (n : EspNetif κ) : EspErr × EspNetif κ :=
  match n.dhcps with
  | none => (.dhcpsStartFailed, { n with dhcpsStatus := .init })
  | some s =>
    let r := Dhcps.dhcpsStart (dhcpsSetSubnetMask s n.ipInfo.netmask) (some p) n.ipInfo.ip udpNew
    if r.2.1 then (.ok, { n with dhcps := some r.1, dhcpsStatus := .started })
    else (.dhcpsStartFailed, { n with dhcps := some r.1, dhcpsStatus := .init })

/-- `dhcps_stop` for the interface: whether it returns `ERR_OK`, and the interface after it -/
def stopDhcps (p : NetifPtr) (n : EspNetif κ) : Bool × EspNetif κ :=
  match n.dhcps with
  | none => (false, n)
  | some s =>
    let r := Dhcps.dhcpsStop s (some p)
    (r.2.1, { n with dhcps := some r.1 })

/-- `ESP_NETIF_FLAG_AUTOUP` in `esp_netif_start_api` -/
def startAutoup (n : EspNetif κ) : EspNetif κ :=
  if n.flags.autoup then { n with lwip := lwip.netifSetLinkUp (lwip.netifSetUp n.lwip) } else n

/-- `esp_netif_start_api` (esp_netif_lwip.c:1037–1120). `none`: one of its `ESP_ERROR_CHECK`s
aborts. `malloc` says whether the allocation of the `struct dhcp` succeeds. -/
def espNetifStartApi (p : NetifPtr) (udpNew : Option PcbPtr) (malloc : Bool) (n : EspNetif κ) :
    Option (Call κ) :=
  if espNetifConfigSanityCheck n ≠ .ok then none
  else (espNetifLwipAdd lwip n).map fun n =>
    let garp : List Effect := if n.flags.garp then [.sysTimeout .garp] else []
    let n := startAutoup lwip n
    if n.flags.dhcpServer then
      match n.dhcpsStatus with
      | .init =>
        if n.lwip.isUp then
          let r := startDhcps p udpNew n
          ⟨r.1, r.2, garp, if r.1 = .ok then some .started else none⟩
        else ⟨.ok, { n with dhcpsStatus := .init }, garp, none⟩
      | .started => ⟨.dhcpAlreadyStarted, n, garp, none⟩
      | .stopped => ⟨.ok, n, garp, none⟩
    else if n.flags.dhcpClient && n.dhcpcStatus ≠ .started && !n.lwip.dhcpData then
      if malloc then ⟨.ok, { n with lwip := lwip.dhcpSetStruct n.lwip }, garp, some .started⟩
      else ⟨.noMem, n, garp, none⟩
    else ⟨.ok, n, garp, some .started⟩

/-- What `esp_netif_stop_api` does about DHCP (esp_netif_lwip.c:1151–1171) -/
def stopDhcp (p : NetifPtr) (n : EspNetif κ) : Done κ :=
  if n.flags.dhcpServer then
    let r := stopDhcps p n
    if !r.1 || r.2.dhcpsStatus ≠ .stopped then ({ r.2 with dhcpsStatus := .init }, [])
    else (r.2, [])
  else if n.flags.dhcpClient then
    let r := (netifCallbackFn registered n (lwip.dhcpRelease n.lwip)).andThen fun n =>
      netifCallbackFn registered n (lwip.dhcpStop n.lwip)
    r.andThen fun n => (espNetifResetIpInfo
      { n with lwip := lwip.dhcpCleanup n.lwip, dhcpcStatus := .init }, [])
  else (n, [])

/-- `esp_netif_stop_api` (esp_netif_lwip.c:1137–1179) -/
def espNetifStopApi (p : NetifPtr) (n : EspNetif κ) : Call κ :=
  if n.lwip.isUp then
    let r := (stopDhcp lwip registered p n).andThen fun n =>
      espNetifLwipRemove lwip { n with lwip := lwip.netifSetDown n.lwip }
    ⟨.ok, r.1, r.2, some .stopped⟩
  else
    let r := espNetifLwipRemove lwip n
    ⟨.ifNotReady, r.1, r.2, none⟩

/-! ## Up and down -/

/-- `esp_netif_up_api` (esp_netif_lwip.c:1617–1641) -/
def espNetifUpApi (n : EspNetif κ) : Call κ :=
  let r := (netifCallbackFn registered n (lwip.netifSetAddr n.lwip n.ipInfo)).andThen fun n =>
    ({ n with lwip := lwip.netifSetLinkUp (lwip.netifSetUp n.lwip) }, [])
  ⟨.ok, r.1, r.2, some .started⟩

/-- How `esp_netif_down_api` ends a DHCP client that has been started -/
def downDhcpc (n : EspNetif κ) : Done κ :=
  if n.flags.dhcpClient && n.dhcpcStatus = .started then
    (netifCallbackFn registered n (lwip.dhcpStop n.lwip)).andThen fun n =>
      (espNetifResetIpInfo { n with dhcpcStatus := .init }, [])
  else (n, [])

/-- The last part of `esp_netif_down_api` before the update -/
def downIpLost (n : EspNetif κ) : Done κ :=
  if n.flags.dhcpClient then espNetifStartIpLostTimer n else (n, [])

/-- `esp_netif_down_api` (esp_netif_lwip.c:1645–1690) -/
def espNetifDownApi (n : EspNetif κ) : Call κ :=
  let r := (downDhcpc lwip registered n).andThen fun n =>
    (n, if n.flags.mldv6Report then [.sysUntimeout .mldv6] else [])
  let r := r.andThen fun n => netifCallbackFn registered n (lwip.netifSetAddr n.lwip .any)
  let r := r.andThen fun n =>
    ({ n with lwip := lwip.netifSetLinkDown (lwip.netifSetDown n.lwip) }, [])
  let r := r.andThen downIpLost
  ⟨.ok, r.1, r.2, some .stopped⟩

/-! ## DHCP client and server -/

/-- `esp_netif_dhcpc_stop_api` (esp_netif_lwip.c:1357–1392) -/
def espNetifDhcpcStopApi (n : EspNetif κ) : Call κ :=
  match n.dhcpcStatus with
  | .started =>
    let r := (netifCallbackFn registered n (lwip.dhcpStop n.lwip)).andThen fun n =>
      espNetifStartIpLostTimer (espNetifResetIpInfo n)
    ⟨.ok, { r.1 with dhcpcStatus := .stopped }, r.2, none⟩
  | .init => ⟨.ok, { n with dhcpcStatus := .stopped }, [], none⟩
  | .stopped => ⟨.dhcpAlreadyStopped, n, [], none⟩

/-- `esp_netif_dhcpc_start_api` (esp_netif_lwip.c:1409–1456). The address of the `struct netif` is
cleared without a callback. -/
def espNetifDhcpcStartApi (n : EspNetif κ) : Call κ :=
  if n.dhcpcStatus = .started then ⟨.dhcpAlreadyStarted, n, [], none⟩
  else
    let n := espNetifResetIpInfo n
    if n.lwip.isUp then
      let r := espNetifStartIpLostTimer { n with lwip := { n.lwip with addr := .any } }
      let d := lwip.dhcpStart r.1.lwip
      if d.2 then ⟨.ok, { r.1 with lwip := d.1, dhcpcStatus := .started }, r.2, none⟩
      else ⟨.dhcpcStartFailed, { r.1 with lwip := d.1 }, r.2, none⟩
    else ⟨.ok, { n with dhcpcStatus := .init }, [], none⟩

/-- `esp_netif_dhcps_start_api` (esp_netif_lwip.c:1485–1522) -/
def espNetifDhcpsStartApi (p : NetifPtr) (udpNew : Option PcbPtr) (n : EspNetif κ) : Call κ :=
  if n.dhcpsStatus = .started then ⟨.dhcpAlreadyStarted, n, [], none⟩
  else if n.lwip.isUp then
    let r := startDhcps p udpNew n
    ⟨r.1, r.2, [], none⟩
  else ⟨.ok, { n with dhcpsStatus := .init }, [], none⟩

/-- `esp_netif_dhcps_stop_api` (esp_netif_lwip.c:1526–1549) -/
def espNetifDhcpsStopApi (p : NetifPtr) (n : EspNetif κ) : Call κ :=
  match n.dhcpsStatus with
  | .started =>
    let r := stopDhcps p n
    if r.1 then ⟨.ok, { r.2 with dhcpsStatus := .stopped }, [], none⟩
    else ⟨.ifNotReady, r.2, [], none⟩
  | .init => ⟨.ok, { n with dhcpsStatus := .stopped }, [], none⟩
  | .stopped => ⟨.dhcpAlreadyStopped, n, [], none⟩

/-! ## Static addresses -/

/-- The event of `esp_netif_set_ip_info_api` (esp_netif_lwip.c:1808–1829) -/
def setIpInfoEvent (info : IpInfo) (n : EspNetif κ) : Done κ :=
  if n.flags.eventIpModified && !(info.ip = 0 || info.netmask = 0 || info.gw = 0) then
    ({ n with ipInfoOld := info },
      [.post (.gotIp n.getIpEvent info (decide (info ≠ n.ipInfoOld)))])
  else (n, [])

/-- `esp_netif_set_ip_info_api` (esp_netif_lwip.c:1776–1834) -/
def espNetifSetIpInfoApi (info : Option IpInfo) (n : EspNetif κ) : Call κ :=
  match info with
  | none => ⟨.invalidState, n, [], none⟩
  | some info =>
    if n.flags.dhcpServer && n.dhcpsStatus ≠ .stopped then ⟨.dhcpNotStopped, n, [], none⟩
    else if !n.flags.dhcpServer && n.flags.dhcpClient && n.dhcpcStatus ≠ .stopped then
      ⟨.dhcpNotStopped, n, [], none⟩
    else
      let n := { n with ipInfo := info }
      if n.lwip.isUp then
        let r := (netifCallbackFn registered n (lwip.netifSetAddr n.lwip info)).andThen
          (setIpInfoEvent info)
        ⟨.ok, r.1, r.2, none⟩
      else ⟨.ok, n, [], none⟩

/-! ## All calls -/

/-- A call of the API on an interface, with what the allocators answer. -/
inductive ApiCall where
  | start (udpNew : Option PcbPtr) (malloc : Bool)
  | stop
  | up
  | down
  | dhcpcStart
  | dhcpcStop
  | dhcpsStart (udpNew : Option PcbPtr)
  | dhcpsStop
  | setIpInfo (info : Option IpInfo)
  | setDefaultNetif
deriving DecidableEq, Repr

def ApiCall.run (p : NetifPtr) (n : EspNetif κ) : ApiCall → Option (Call κ)
  | .start udpNew malloc => espNetifStartApi lwip p udpNew malloc n
  | .stop => some (espNetifStopApi lwip registered p n)
  | .up => some (espNetifUpApi lwip registered n)
  | .down => some (espNetifDownApi lwip registered n)
  | .dhcpcStart => some (espNetifDhcpcStartApi lwip n)
  | .dhcpcStop => some (espNetifDhcpcStopApi lwip registered n)
  | .dhcpsStart udpNew => some (espNetifDhcpsStartApi p udpNew n)
  | .dhcpsStop => some (espNetifDhcpsStopApi p n)
  | .setIpInfo info => some (espNetifSetIpInfoApi lwip registered info n)
  | .setDefaultNetif => some ⟨.ok, n, [], some .setDefault⟩

/-- The calls that answer a `NULL` interface with an error; the others read through it or abort. -/
def ApiCall.checksNull : ApiCall → Bool
  | .start .. | .stop | .setDefaultNetif => false
  | _ => true

end Calls

end PicoHost.Interface
