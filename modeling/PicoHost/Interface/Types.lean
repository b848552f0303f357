import PicoHost.Dhcps.Server

/-!
# Network interfaces (`esp_netif_types.h`, `esp_netif_lwip_internal.h`)

The data of an interface: its configuration, the `esp_netif` object and the lwIP `struct netif`
that belongs to it. Of the latter only what `esp_netif` reads is spelled out; `core` stands for
the rest, and lwIP's own functions are a parameter (`Lwip`).
-/

namespace PicoHost.Interface

open Dhcps (NetifPtr PcbPtr)

/-- The bits of `esp_netif_flags_t` -/
structure Flags where
  dhcpClient : Bool
  dhcpServer : Bool
  autoup : Bool
  garp : Bool
  eventIpModified : Bool
  isPpp : Bool
  isBridge : Bool
  mldv6Report : Bool
deriving DecidableEq, Repr

/-- `esp_netif_dhcp_status_t` -/
inductive DhcpStatus where
  | init | started | stopped
deriving DecidableEq, Repr

/-- The `esp_err_t` values of the calls below, without their common prefixes -/
inductive EspErr where
  | ok | noMem | notSupported | invalidState | notFound | invalidParams | ifNotReady
  | dhcpAlreadyStarted | dhcpAlreadyStopped | dhcpNotStopped | dhcpcStartFailed | dhcpsStartFailed
deriving DecidableEq, Repr

/-- `esp_netif_ip_info_t` -/
structure IpInfo where
  ip : UInt32
  netmask : UInt32
  gw : UInt32
deriving DecidableEq, Repr

/-- Three times `IP4_ADDR_ANY4` -/
def IpInfo.any : IpInfo := ⟨0, 0, 0⟩

/-! ## Configuration -/

/-- `esp_netif_inherent_config_t`. An event id of 0 stands for no event. -/
structure InherentConfig where
  flags : Flags
  ipInfo : Option IpInfo
  getIpEvent : Nat
  lostIpEvent : Nat
  ifKey : Option String
  routePrio : Int
deriving DecidableEq, Repr

/-- Which functions of `esp_netif_netstack_config_t` are there -/
structure NetstackConfig where
  initFn : Bool
  inputFn : Bool
deriving DecidableEq, Repr

/-- Which fields of `esp_netif_driver_ifconfig_t` are not `NULL` -/
structure DriverIfconfig where
  handle : Bool
  transmit : Bool
deriving DecidableEq, Repr

/-- `esp_netif_config_t` -/
structure Config where
  base : Option InherentConfig
  driver : Option DriverIfconfig
  stack : Option NetstackConfig
deriving DecidableEq, Repr

/-- `ESP_NETIF_INHERENT_DEFAULT_WIFI_STA` -/
def wifiSta : InherentConfig where
  flags := ⟨true, false, false, true, true, false, false, true⟩
  ipInfo := none
  getIpEvent := 0
  lostIpEvent := 1
  ifKey := some "WIFI_STA_DEF"
  routePrio := 100

/-- `ESP_NETIF_INHERENT_DEFAULT_WIFI_AP` with the address 192.168.4.1 -/
def wifiAp : InherentConfig where
  flags := ⟨false, true, true, false, false, false, false, false⟩
  ipInfo := some ⟨Dhcps.ip4 192 168 4 1, Dhcps.ip4 255 255 255 0, Dhcps.ip4 192 168 4 1⟩
  getIpEvent := 0
  lostIpEvent := 0
  ifKey := some "WIFI_AP_DEF"
  routePrio := 10

/-- A configuration with everything in place to start the interface -/
def InherentConfig.full (base : InherentConfig) : Config :=
  ⟨some base, some ⟨true, true⟩, some ⟨true, true⟩⟩

/-! ## lwIP -/

/-- A `struct netif`: its `NETIF_FLAG_UP`, its IPv4 address with mask and gateway, whether
`netif_dhcp_data` is set, and what only lwIP looks at. -/
structure LwipNetif (κ : Type) where
  isUp : Bool
  addr : IpInfo
  dhcpData : Bool
  core : κ
deriving DecidableEq, Repr

/-- The functions of lwIP that `esp_netif` calls on a `struct netif`. The result of `netif_set_addr`,
`dhcp_release` and `dhcp_stop` also says whether they invoke the extended callback for
`DHCP_CB_CHANGE`, that of `dhcp_start` whether it is `ERR_OK`. `zeroed` is what `calloc` leaves of
the rest. -/
structure Lwip (κ : Type) where
  zeroed : κ
  netifAdd : LwipNetif κ → IpInfo → Option (LwipNetif κ)
  netifRemove : LwipNetif κ → LwipNetif κ
  netifSetUp : LwipNetif κ → LwipNetif κ
  netifSetLinkUp : LwipNetif κ → LwipNetif κ
  netifSetDown : LwipNetif κ → LwipNetif κ
  netifSetLinkDown : LwipNetif κ → LwipNetif κ
  netifSetAddr : LwipNetif κ → IpInfo → LwipNetif κ × Bool
  dhcpSetStruct : LwipNetif κ → LwipNetif κ
  dhcpCleanup : LwipNetif κ → LwipNetif κ
  dhcpRelease : LwipNetif κ → LwipNetif κ × Bool
  dhcpStop : LwipNetif κ → LwipNetif κ × Bool
  dhcpStart : LwipNetif κ → LwipNetif κ × Bool

/-- An lwIP that knows of an address whether it came from DHCP (`core`), and releases only such
a one. -/
def Lwip.simple : Lwip Bool where
  zeroed := false
  netifAdd n addr := some { n with isUp := false, addr, core := false }
  netifRemove n := { n with isUp := false }
  netifSetUp n := { n with isUp := true }
  netifSetLinkUp n := n
  netifSetDown n := { n with isUp := false }
  netifSetLinkDown n := n
  netifSetAddr n addr := ({ n with addr, core := false }, decide (addr ≠ n.addr))
  dhcpSetStruct n := { n with dhcpData := true }
  dhcpCleanup n := { n with dhcpData := false }
  dhcpRelease n :=
    if n.core then ({ n with addr := .any, core := false }, decide (n.addr ≠ .any)) else (n, false)
  dhcpStop n :=
    if n.core then ({ n with addr := .any, core := false }, decide (n.addr ≠ .any)) else (n, false)
  dhcpStart n := ({ n with dhcpData := true }, true)

/-! ## The object -/

/-- `struct esp_netif_obj`; the pointers to the driver and to the functions of the stack are only
compared with `NULL`. `added` says whether lwIP knows the `struct netif`: `netif_add` was called
for it, and not `netif_remove` since. -/
structure EspNetif (κ : Type) where
  ipInfo : IpInfo
  ipInfoOld : IpInfo
  lwip : LwipNetif κ
  added : Bool
  lwipInitFn : Bool
  lwipInputFn : Bool
  dhcps : Option Dhcps.Server
  driverHandle : Bool
  driverTransmit : Bool
  dhcpcStatus : DhcpStatus
  dhcpsStatus : DhcpStatus
  timerRunning : Bool
  getIpEvent : Nat
  lostIpEvent : Nat
  flags : Flags
  ifKey : Option String
  routePrio : Int

/-- The object and its `struct netif` as `calloc` leaves them -/
def EspNetif.zeroed {κ : Type} (lwip : Lwip κ) : EspNetif κ where
  ipInfo := .any
  ipInfoOld := .any
  lwip := ⟨false, .any, false, lwip.zeroed⟩
  added := false
  lwipInitFn := false
  lwipInputFn := false
  dhcps := none
  driverHandle := false
  driverTransmit := false
  dhcpcStatus := .init
  dhcpsStatus := .init
  timerRunning := false
  getIpEvent := 0
  lostIpEvent := 0
  flags := ⟨false, false, false, false, false, false, false, false⟩
  ifKey := none
  routePrio := 0

/-! ## What a call leaves behind -/

/-- The handlers given to `sys_timeout`: `netif_send_garp` and `netif_send_mldv6` for a
`struct netif`, `esp_netif_ip_lost_timer` for an `esp_netif_t` -/
inductive Timer where
  | garp | mldv6 | ipLost
deriving DecidableEq, Repr

/-- An `IP_EVENT` with its id -/
inductive IpEvent where
  | gotIp (id : Nat) (ipInfo : IpInfo) (ipChanged : Bool)
  | lostIp (id : Nat)
  | gotIp6
deriving DecidableEq, Repr

/-- What a call on an interface does besides changing it, with the interface as argument -/
inductive Effect where
  | sysTimeout (timer : Timer)
  | sysUntimeout (timer : Timer)
  | post (event : IpEvent)
deriving DecidableEq, Repr

/-- `esp_netif_action_t` -/
inductive DefaultAction where
  | started | stopped | setDefault
deriving DecidableEq, Repr

/-- The result of a call: its return value, the interface, what it did besides in order, and the
`esp_netif_update_default_netif` it ended with. -/
structure Call (κ : Type) where
  ret : EspErr
  netif : EspNetif κ
  effects : List Effect
  update : Option DefaultAction

end PicoHost.Interface
