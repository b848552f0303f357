import PicoHost.Interface.Api
import PicoHost.Lib.Successor
import Mathlib.Logic.Function.Basic

/-!
# All interfaces (`esp_netif_objects.c`, `esp_netif_lwip.c`)

The list of interfaces with its counter and lock, the default interface, lwIP's pending timeouts
and the posted events. A step is one call of the API, one callback of lwIP or one timeout; it is
refused where the code would abort or read through a pointer that is not valid.
-/

namespace PicoHost.Interface

open Dhcps (NetifPtr PcbPtr)

variable {κ : Type}

/-- `heap` holds the interfaces that are allocated. `list`, `counter` and `listLock` are `s_head`,
`s_esp_netif_counter` and whether there is an `s_list_lock`; `lastDefault` and `overridden` are
`s_last_default_esp_netif` and `s_is_last_default_esp_netif_overridden`; `callback` says whether
`netif_callback` is registered. `fault`: a timeout ran on a freed `struct netif`. -/
structure World (κ : Type) where
  heap : NetifPtr → Option (EspNetif κ)
  list : List NetifPtr
  counter : Nat
  listLock : Bool
  lastDefault : Option NetifPtr
  overridden : Bool
  callback : Bool
  timeouts : List (Timer × NetifPtr)
  posted : List (IpEvent × NetifPtr)
  fault : Bool

namespace World

def init : World κ := ⟨fun _ => none, [], 0, false, none, false, false, [], [], false⟩

section

variable (w : World κ)

def set (p : NetifPtr) (n : EspNetif κ) : World κ :=
  { w with heap := Function.update w.heap p (some n) }

/-- What `sys_timeout` and `sys_untimeout` make of the pending timeouts; the latter removes one
that matches, if there is one. -/
def timeoutsAfter (p : NetifPtr) : List (Timer × NetifPtr) → List Effect → List (Timer × NetifPtr)
  | ts, [] => ts
  | ts, .sysTimeout t :: es => timeoutsAfter p (ts ++ [(t, p)]) es
  | ts, .sysUntimeout t :: es => timeoutsAfter p (ts.erase (t, p)) es
  | ts, .post _ :: es => timeoutsAfter p ts es

/-- The events among the effects -/
def events (p : NetifPtr) : List Effect → List (IpEvent × NetifPtr)
  | [] => []
  | .post e :: es => (e, p) :: events p es
  | _ :: es => events p es

/-- Carry out the effects of a call on `p`. -/
def perform (p : NetifPtr) (es : List Effect) : World κ :=
  { w with timeouts := timeoutsAfter p w.timeouts es, posted := w.posted ++ events p es }

/-! ## The list (`esp_netif_objects.c`) -/

/-- `esp_netif_list_lock`, `none` for `ESP_ERR_NO_MEM`; `mutex` says whether one can be created. -/
def listLock? (mutex : Bool) : Option (World κ) :=
  if w.listLock || mutex then some { w with listLock := true } else none

/-- `esp_netif_list_unlock` -/
def listUnlock : World κ := if w.counter = 0 then { w with listLock := false } else w

/-- `esp_netif_add_to_list`; `item` says whether the list item can be allocated. -/
def addToList (p : NetifPtr) (item mutex : Bool) : EspErr × World κ :=
  if item then
    match w.listLock? mutex with
    | none => (.noMem, w)
    | some w => (.ok, { w with list := p :: w.list, counter := w.counter + 1 }.listUnlock)
  else (.noMem, w)

/-- `esp_netif_remove_from_list` -/
def removeFromList (p : NetifPtr) (mutex : Bool) : EspErr × World κ :=
  match w.listLock? mutex with
  | none => (.noMem, w)
  | some w =>
    if p ∈ w.list then
      (.ok, { w with list := w.list.erase p, counter := w.counter - 1 }.listUnlock)
    else (.notFound, w.listUnlock)

/-- `esp_netif_next_unsafe` -/
def espNetifNext (p : Option NetifPtr) : Option NetifPtr := Successor.next w.list p

/-- `esp_netif_get_ifkey` -/
def ifKey (p : NetifPtr) : Option String := (w.heap p).bind EspNetif.ifKey

/-- `esp_netif_get_handle_from_ifkey` from an item of the list on; `none`: `strcmp` reads through
the `NULL` key of an interface. If the lock cannot be had, the list is empty. -/
def getHandleFromIfkey (key : String) : List NetifPtr → Option (Option NetifPtr)
  | [] => some none
  | p :: ps =>
    match w.ifKey p with
    | none => none
    | some k => if key = k then some (some p) else getHandleFromIfkey key ps

/-- `esp_netif_is_active` -/
def isActive (p : Option NetifPtr) : Option NetifPtr := p.filter (· ∈ w.list)

/-! ## The default interface -/

/-- `esp_netif_is_netif_up` -/
def isNetifUp (p : NetifPtr) : Bool := (w.heap p).any (·.lwip.isUp)

/-- `netif->route_prio` -/
def routePrio (p : NetifPtr) : Int := ((w.heap p).map EspNetif.routePrio).getD 0

/-- One turn of the loop over the interfaces (esp_netif_lwip.c:368–381) -/
def better (last : Option NetifPtr) (netif : NetifPtr) : Option NetifPtr :=
  if w.isNetifUp netif then
    match last with
    | none => some netif
    | some l =>
      if w.isNetifUp l then
        if w.routePrio l < w.routePrio netif then some netif else some l
      else some netif
  else last

/-- The default that the loop finds -/
def bestDefault : Option NetifPtr :=
  (Successor.visits w.list w.list.length (w.espNetifNext none)).foldl w.better none

/-- `esp_netif_update_default_netif_lwip` (esp_netif_lwip.c:330–393). `none`: the list is unlocked
although the lock could not be created. -/
def updateDefaultNetif (p : NetifPtr) (action : DefaultAction) (mutex : Bool) :
    Option (World κ) :=
  let last := w.isActive w.lastDefault
  if w.overridden ∧ action ≠ .setDefault ∧ last.isSome then some { w with lastDefault := last }
  else
    let w := if w.overridden ∧ action ≠ .setDefault then
        { w with lastDefault := last, overridden := false }
      else w
    match action with
    | .setDefault => some { w with lastDefault := some p, overridden := true }
    | .started =>
      let last := w.isActive w.lastDefault
      if last.any fun l => w.isNetifUp l && decide (w.routePrio p < w.routePrio l) then
        some { w with lastDefault := last }
      else if w.isNetifUp p then some { w with lastDefault := some p }
      else some { w with lastDefault := last }
    | .stopped => (w.listLock? mutex).map fun w =>
      { w with lastDefault := w.bestDefault }.listUnlock

end

end World

/-! ## Creating and destroying -/

/-- Whether the list lock can be created, should it be missing, when the interface is removed from
the list and when the default is updated. -/
structure DestroyEnv where
  removeMutex : Bool
  updateMutex : Bool
deriving DecidableEq, Repr

/-- Which allocations of `esp_netif_new` succeed. -/
structure NewEnv where
  espNetif : Bool
  ipInfo : Bool
  ipInfoOld : Bool
  lwipNetif : Bool
  listItem : Bool
  listMutex : Bool
  dhcps : Bool
  ifKey : Bool
  destroy : DestroyEnv
deriving DecidableEq, Repr

/-- No allocation fails. -/
def NewEnv.plenty : NewEnv := ⟨true, true, true, true, true, true, true, true, ⟨true, true⟩⟩

/-- `esp_netif_init_configuration` (esp_netif_lwip.c:603–704), after `strdup` of the key -/
def espNetifInitConfiguration (n : EspNetif κ) (config : Config) (base : InherentConfig)
    (ifKey : Option String) : EspErr × EspNetif κ :=
  match config.stack with
  | none => (.invalidParams, n)
  | some stack =>
    let ipInfo := base.ipInfo.getD .any
    let n := { n with
      ipInfo := ipInfo, ipInfoOld := ipInfo, lostIpEvent := base.lostIpEvent,
      getIpEvent := base.getIpEvent, flags := base.flags, ifKey := ifKey,
      routePrio := base.routePrio }
    if base.flags.isPpp then (.notSupported, n)
    else
      let n := { n with lwipInitFn := stack.initFn, lwipInputFn := stack.inputFn }
      match config.driver with
      | none => (.ok, n)
      | some driver =>
        (.ok, { n with driverHandle := driver.handle, driverTransmit := driver.transmit })

/-- The interface before its configuration, with `dhcps_new` if it is to be a DHCP server -/
def EspNetif.unconfigured (lwip : Lwip κ) (base : InherentConfig) : EspNetif κ :=
  if base.flags.dhcpServer then
    { EspNetif.zeroed lwip with dhcps := some ⟨Dhcps.dhcpsNew, Heap.empty⟩ }
  else EspNetif.zeroed lwip

namespace World

section

variable (lwip : Lwip κ) (w : World κ)

/-- `esp_netif_destroy` (esp_netif_lwip.c:900–922) -/
def espNetifDestroy (p : NetifPtr) (env : DestroyEnv) : Option (World κ) :=
  match w.heap p with
  | none => none
  | some n =>
    let w := (w.removeFromList p env.removeMutex).2
    let w := if w.counter = 0 then { w with callback := false } else w
    let w := w.perform p (espNetifLwipRemove lwip n).2
    { w with heap := Function.update w.heap p none }.updateDefaultNetif p .stopped env.updateMutex

/-- The part of `esp_netif_new` after the checks (esp_netif_lwip.c:729–804), at the fresh address
`p`: the world after it, and the handle that it returns -/
def espNetifCreate (p : NetifPtr) (config : Config) (base : InherentConfig) (key : String)
    (env : NewEnv) : Option (World κ × Option NetifPtr) :=
  if env.espNetif ∧ env.ipInfo ∧ env.ipInfoOld ∧ env.lwipNetif then
    -- the result of `esp_netif_add_to_list` is not looked at
    let w := ((w.set p (.zeroed lwip)).addToList p env.listItem env.listMutex).2
    if base.flags.dhcpServer ∧ ¬ env.dhcps then
      (w.espNetifDestroy lwip p env.destroy).map fun w => (w, none)
    else
      let r := espNetifInitConfiguration (.unconfigured lwip base) config base
        (if env.ifKey then some key else none)
      if r.1 = .ok then some ({ w.set p r.2 with callback := true }, some p)
      else ((w.set p r.2).espNetifDestroy lwip p env.destroy).map fun w => (w, none)
  else some (w, none)

/-- `esp_netif_new` (esp_netif_lwip.c:706–805) -/
def espNetifNew (p : NetifPtr) (config : Option Config) (env : NewEnv) :
    Option (World κ × Option NetifPtr) :=
  match config with
  | none => some (w, none)
  | some config =>
    match config.base with
    | none => none -- `esp_netif_config->base->if_key`
    | some base =>
      match base.ifKey with
      | none => some (w, none)
      | some key =>
        match w.getHandleFromIfkey key w.list with
        | none => none
        | some (some _) => some (w, none)
        | some none =>
          if base.flags.dhcpServer ∧ base.flags.dhcpClient then some (w, none)
          else w.espNetifCreate lwip p config base key env

/-! ## Steps -/

/-- A call of the API on an interface -/
def espNetifCall (p : NetifPtr) (call : ApiCall) (mutex : Bool) : Option (World κ) :=
  match w.heap p with
  | none => none
  | some n =>
    match call.run lwip w.callback p n with
    | none => none
    | some r =>
      let w := (w.set p r.netif).perform p r.effects
      match r.update with
      | none => some w
      | some action => w.updateDefaultNetif p action mutex

/-- A timeout of `p` runs. -/
def runTimeout (t : Timer) (p : NetifPtr) : World κ :=
  match t, w.heap p with
  | .ipLost, some n =>
    if p ∈ w.list then
      let r := espNetifIpLostTimer n
      (w.set p r.1).perform p r.2
    else w
  | .ipLost, none => w
  | .garp, some _ => w.perform p netifSendGarp
  | .mldv6, some n => w.perform p (netifSetMldv6Flag n)
  | _, none => { w with fault := true }

end

/-- A call of the API, a callback of lwIP after it has changed the interface, or a timeout. The
handle of a new interface is chosen by the allocator. -/
inductive Action (κ : Type) where
  | new (p : NetifPtr) (config : Option Config) (env : NewEnv)
  | destroy (p : Option NetifPtr) (env : DestroyEnv)
  | call (p : Option NetifPtr) (call : ApiCall) (mutex : Bool)
  | addressChange (p : NetifPtr) (addr : IpInfo) (dhcpData : Bool) (core : κ)
  | ip6Valid (p : NetifPtr)
  | timeout (t : Timer) (p : NetifPtr)
deriving DecidableEq, Repr

def step (lwip : Lwip κ) (w : World κ) : Action κ → Option (World κ)
  | .new p config env =>
    if (w.heap p).isSome then none else (w.espNetifNew lwip p config env).map Prod.fst
  | .destroy none _ => some w
  | .destroy (some p) env => w.espNetifDestroy lwip p env
  | .call none call _ => if call.checksNull then some w else none
  | .call (some p) call mutex => w.espNetifCall lwip p call mutex
  | .addressChange p addr dhcpData core =>
    match w.heap p with
    | none => none
    | some n =>
      let r := netifCallbackFn w.callback n
        (⟨n.lwip.isUp, addr, dhcpData, core⟩, decide (addr ≠ n.lwip.addr))
      some ((w.set p r.1).perform p r.2)
  | .ip6Valid p =>
    match w.heap p with
    | none => none
    | some n => some (if w.callback then w.perform p (espNetifInternalNd6Cb n) else w)
  | .timeout t p =>
    if (t, p) ∈ w.timeouts then some ({ w with timeouts := w.timeouts.erase (t, p) }.runTimeout t p)
    else none

end World

end PicoHost.Interface
