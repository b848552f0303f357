import Mathlib.Logic.Function.Basic
import PicoHost.Lib.Run

/-!
# The two tables of Wi-Fi interfaces

`wifi_default.c` and `wifi_netif.c` have each a table `s_wifi_netifs` with an entry for the station
and one for the access point. The first one is what the default event handlers act on, the second
one what a received frame goes to. `esp_netif_attach_wifi` writes the first one before it asks for
the driver, `esp_wifi_register_if_rxcb` the second one; `esp_netif_destroy_default_wifi` clears in
the second one only the entry of the driver that the interface has at that time.

`Orderly` is the exact condition under which the entries refer to attached interfaces.
-/

namespace PicoHost.Wifi

open Function (update)

/-- `WIFI_IF_STA` and `WIFI_IF_AP`, the indices of the tables -/
inductive WifiIf where
  | sta | ap
deriving DecidableEq, Repr

abbrev NetifPtr := Nat

abbrev DriverPtr := Nat

/-- `esp_err_t` -/
inductive EspErr where
  | ok | fail | invalidArg | invalidState
deriving DecidableEq, Repr

/-- An `esp_netif_t`, as far as it is used here -/
structure EspNetif where
  driverHandle : Option DriverPtr
deriving DecidableEq, Repr

/-- `struct wifi_netif_driver`; `netif` is `base.netif`. -/
structure WifiNetifDriver where
  netif : Option NetifPtr
  wifiIf : WifiIf
deriving DecidableEq, Repr

/-- The interfaces and the drivers that exist, the static variables of the two files, and the last
result of an attach or a registration -/
structure State where
  netifs : NetifPtr → Option EspNetif
  drivers : DriverPtr → Option WifiNetifDriver
  defaultNetifs : WifiIf → Option NetifPtr
  defaultHandlersSet : Bool
  rxcbs : WifiIf → Option Nat
  rxNetifs : WifiIf → Option NetifPtr
  ret : EspErr

def State.init : State :=
  ⟨fun _ => none, fun _ => none, fun _ => none, false, fun _ => none, fun _ => none, .ok⟩

/-! ## The code -/

/-- `esp_netif_new`; the result is any pointer to new memory, or `NULL`. -/
def espNetifNew (netif : Option NetifPtr) (s : State) : State :=
  match netif with
  | none => s
  | some p => { s with netifs := update s.netifs p (some ⟨none⟩) }

/-- `esp_netif_set_driver_config` (esp_netif_lwip.c:939–950) -/
def espNetifSetDriverConfig (p : NetifPtr) (handle : Option DriverPtr) (s : State) : State :=
  { s with netifs := update s.netifs p (some ⟨handle⟩) }

/-- `wifi_driver_start` (wifi_netif.c:78–91) -/
def wifiDriverStart (p : NetifPtr) (d : DriverPtr) (s : State) : State :=
  espNetifSetDriverConfig p (some d) { s with
    drivers := update s.drivers d ((s.drivers d).map fun driver =>
      { driver with netif := some p }) }

/-- `esp_netif_attach` (esp_netif_lwip.c:924–937) with a driver of `wifi_netif.c` -/
def espNetifAttach (p : NetifPtr) (d : DriverPtr) (s : State) : State :=
  { wifiDriverStart p d { s with netifs := update s.netifs p (some ⟨some d⟩) } with ret := .ok }

/-- `esp_wifi_create_if_driver` (wifi_netif.c:103–113); `memory` is what the allocation returns. -/
def espWifiCreateIfDriver (wifiIf : WifiIf) (memory : Option DriverPtr) (s : State) : State :=
  match memory with
  | none => s
  | some d => { s with drivers := update s.drivers d (some ⟨none, wifiIf⟩) }

/-- `create_and_attach` (wifi_default.c:325–333) -/
def createAndAttach (wifiIf : WifiIf) (p : NetifPtr) (memory : Option DriverPtr) (s : State) :
    State :=
  match memory with
  | none => { espWifiCreateIfDriver wifiIf memory s with ret := .fail }
  | some d => espNetifAttach p d (espWifiCreateIfDriver wifiIf memory s)

/-- `esp_netif_attach_wifi` (wifi_default.c:335–349), and so `esp_netif_attach_wifi_station` and
`esp_netif_attach_wifi_ap` -/
def espNetifAttachWifi (netif : Option NetifPtr) (wifiIf : WifiIf) (memory : Option DriverPtr)
    (s : State) : State :=
  match netif with
  | none => { s with ret := .invalidArg }
  | some p => createAndAttach wifiIf p memory { s with
      defaultNetifs := update s.defaultNetifs wifiIf (some p) }

/-- `set_default_wifi_handlers` (wifi_default.c:187–255); `registered`: the event loop takes all of
them. -/
def setDefaultWifiHandlers (registered : Bool) (s : State) : State :=
  if s.defaultHandlersSet then { s with ret := .ok }
  else if registered then { s with defaultHandlersSet := true, ret := .ok }
  else { s with ret := .fail }

/-- `esp_netif_create_default_wifi_sta` and `esp_netif_create_default_wifi_ap`
(wifi_default.c:379–403); `none` where they abort. -/
def espNetifCreateDefaultWifi (wifiIf : WifiIf) (netif : Option NetifPtr)
    (memory : Option DriverPtr) (registered : Bool) (s : State) : Option State :=
  let s := espNetifAttachWifi netif wifiIf memory (espNetifNew netif s)
  if s.ret = .ok then
    let s := setDefaultWifiHandlers registered s
    if s.ret = .ok then some s else none
  else none

/-- `esp_netif_create_wifi` (wifi_default.c:434–457); `wifiIf` is `none` for a number that is no
interface, and `ndebug` says whether assertions are compiled out. -/
def espNetifCreateWifi (ndebug : Bool) (wifiIf : Option WifiIf) (netif : Option NetifPtr)
    (memory : Option DriverPtr) (s : State) : Option State :=
  match wifiIf with
  | none => some s
  | some wifiIf =>
    if netif.isSome ∨ ndebug then
      some (espNetifAttachWifi netif wifiIf memory (espNetifNew netif s))
    else none

/-- `esp_wifi_register_if_rxcb` (wifi_netif.c:132–178); `registered` is what
`esp_wifi_internal_reg_rxcb` says. -/
def espWifiRegisterIfRxcb (driver : WifiNetifDriver) (fn : Nat) (arg : Option NetifPtr)
    (registered : Bool) (s : State) : State :=
  if driver.netif ≠ arg then { s with ret := .invalidArg }
  else { s with
    rxcbs := update s.rxcbs driver.wifiIf (some fn)
    rxNetifs := update s.rxNetifs driver.wifiIf driver.netif
    ret := if registered then .ok else .invalidState }

/-- `esp_wifi_destroy_if_driver` (wifi_netif.c:93–101) -/
def espWifiDestroyIfDriver (h : Option DriverPtr) (s : State) : State :=
  match h with
  | none => s
  | some d => { s with
      rxNetifs := match s.drivers d with
        | none => s.rxNetifs
        | some driver => update s.rxNetifs driver.wifiIf none
      drivers := update s.drivers d none }

/-- The loops of `esp_wifi_clear_default_wifi_driver_and_handlers` -/
def clearDefaultNetifs (p : NetifPtr) (s : State) : State :=
  let netifs := fun k => if s.defaultNetifs k = some p then none else s.defaultNetifs k
  { s with
    defaultNetifs := netifs
    defaultHandlersSet :=
      if netifs .sta = none ∧ netifs .ap = none then false else s.defaultHandlersSet }

/-- `esp_netif_destroy_default_wifi` (wifi_default.c:423–429) of an interface that exists -/
def espNetifDestroyDefaultWifi (p : NetifPtr) (netif : EspNetif) (s : State) : State :=
  let s := espNetifSetDriverConfig p none (clearDefaultNetifs p s)
  let s := espWifiDestroyIfDriver netif.driverHandle s
  { s with netifs := update s.netifs p none }

/-! ## Calls -/

/-- A call, with what its requests get -/
inductive Action where
  | new (netif : Option NetifPtr)
  | createDefault (wifiIf : WifiIf) (netif : Option NetifPtr) (memory : Option DriverPtr)
      (registered : Bool)
  | create (wifiIf : Option WifiIf) (netif : Option NetifPtr) (memory : Option DriverPtr)
  | attach (wifiIf : WifiIf) (netif : Option NetifPtr) (memory : Option DriverPtr)
  | register (d : DriverPtr) (fn : Nat) (arg : Option NetifPtr) (registered : Bool)
  | destroy (netif : Option NetifPtr)
deriving DecidableEq, Repr

/-- New memory is none that is in use. -/
def State.Fresh (s : State) (netif : Option NetifPtr) (memory : Option DriverPtr) : Prop :=
  (∀ p ∈ netif, s.netifs p = none) ∧ ∀ d ∈ memory, s.drivers d = none

instance (s : State) (netif : Option NetifPtr) (memory : Option DriverPtr) :
    Decidable (s.Fresh netif memory) :=
  inferInstanceAs (Decidable ((∀ p ∈ netif, s.netifs p = none) ∧ ∀ d ∈ memory, s.drivers d = none))

/-- The objects that a call is given exist. After an abort there is no state. -/
def step (ndebug : Bool) (s : State) : Action → Option State
  | .new netif => if s.Fresh netif none then some (espNetifNew netif s) else none
  | .createDefault wifiIf netif memory registered =>
    if s.Fresh netif memory then espNetifCreateDefaultWifi wifiIf netif memory registered s
    else none
  | .create wifiIf netif memory =>
    if s.Fresh netif memory then espNetifCreateWifi ndebug wifiIf netif memory s else none
  | .attach wifiIf netif memory =>
    if (∀ p ∈ netif, (s.netifs p).isSome) ∧ s.Fresh none memory then
      some (espNetifAttachWifi netif wifiIf memory s)
    else none
  | .register d fn arg registered =>
    (s.drivers d).map fun driver => espWifiRegisterIfRxcb driver fn arg registered s
  | .destroy none => some s
  | .destroy (some p) => (s.netifs p).map fun netif => espNetifDestroyDefaultWifi p netif s

/-! ## Sound tables -/

namespace State

/-- The interface exists and has a driver, which exists too. -/
def Attached (s : State) (p : NetifPtr) : Prop :=
  ∃ d driver, s.netifs p = some ⟨some d⟩ ∧ s.drivers d = some driver

/-- The entries of both tables refer to attached interfaces. -/
def TablesAttached (s : State) : Prop :=
  ∀ k p, s.defaultNetifs k = some p ∨ s.rxNetifs k = some p → s.Attached p

/-- So it is after the call; and an attach call that returns an error has left the tables alone. -/
def Sound (s : State) (a : Action) (s' : State) : Prop :=
  s'.TablesAttached ∧
    match a with
    | .attach .. | .create .. => s'.ret ≠ .ok →
        s'.defaultNetifs = s.defaultNetifs ∧ s'.rxNetifs = s.rxNetifs
    | _ => True

/-- An attach call gets its driver, unless the interface is in the table already; a registration is
for an attached interface; and where an interface is destroyed that gets frames, these are frames of
its driver. -/
def Orderly (s : State) : Action → Prop
  | .attach wifiIf netif memory =>
    netif = none ∨ memory.isSome ∨ s.defaultNetifs wifiIf = netif
  | .create wifiIf netif memory => wifiIf = none ∨ netif = none ∨ memory.isSome
  | .register d _ arg _ => ∀ p ∈ arg, ∀ driver ∈ s.drivers d, driver.netif = some p → s.Attached p
  | .destroy netif => ∀ p ∈ netif, ∀ k, s.rxNetifs k = some p →
      ∃ d driver, s.netifs p = some ⟨some d⟩ ∧ s.drivers d = some driver ∧ driver.wifiIf = k
  | .new _ | .createDefault .. => True

end State

/-! ## The invariant -/

/-- The driver of an interface refers back to it. -/
structure Inv (s : State) : Prop where
  tables : s.TablesAttached
  driver : ∀ p d, s.netifs p = some ⟨some d⟩ →
    ∃ driver, s.drivers d = some driver ∧ driver.netif = some p

section Steps

variable {s s' : State} {p q : NetifPtr} {d : DriverPtr} {wifiIf : WifiIf}

/-- At boot the tables are empty. -/
theorem inv_init : Inv State.init where
  tables k p h := by
    rcases h with h | h
    · cases h
    · cases h
  driver p d h := by cases h

/-- An attach that gets its driver -/
theorem attach_granted (wifiIf : WifiIf) (p : NetifPtr) (d : DriverPtr) (s : State) :
    espNetifAttachWifi (some p) wifiIf (some d) s = { s with
      netifs := update s.netifs p (some ⟨some d⟩)
      drivers := update s.drivers d (some ⟨some p, wifiIf⟩)
      defaultNetifs := update s.defaultNetifs wifiIf (some p)
      ret := .ok } := by
  simp [espNetifAttachWifi, createAndAttach, espNetifAttach, wifiDriverStart,
    espNetifSetDriverConfig, espWifiCreateIfDriver]

/-- An attach that does not -/
theorem attach_refused (wifiIf : WifiIf) (p : NetifPtr) (s : State) :
    espNetifAttachWifi (some p) wifiIf none s = { s with
      defaultNetifs := update s.defaultNetifs wifiIf (some p)
      ret := .fail } := rfl

/-- An interface keeps its driver while others get one or are new. -/
theorem State.Attached.congr (h : s.Attached q) (hnetif : s'.netifs q = s.netifs q)
    (hdriver : ∀ d, (s.drivers d).isSome → s'.drivers d = s.drivers d) : s'.Attached q := by
  obtain ⟨d, driver, hn, hd⟩ := h
  refine ⟨d, driver, hnetif.trans hn, ?_⟩
  rw [hdriver d (by rw [hd]; rfl), hd]

/-- A new interface keeps the invariant. -/
theorem Inv.new {netif : Option NetifPtr} (inv : Inv s) (hfresh : ∀ p ∈ netif, s.netifs p = none) :
    Inv (espNetifNew netif s) := by
  cases netif with
  | none => exact inv
  | some p =>
    have hne : ∀ q, (s.netifs q).isSome → q ≠ p := by
      rintro q hq rfl
      rw [hfresh q rfl] at hq
      cases hq
    constructor
    · intro k q h
      obtain ⟨d, driver, hn, hd⟩ := inv.tables k q h
      refine ⟨d, driver, ?_, hd⟩
      show update s.netifs p (some ⟨none⟩) q = _
      rw [Function.update_of_ne (hne q (by rw [hn]; rfl)), hn]
    · intro q d h
      have h : update s.netifs p (some ⟨none⟩) q = some ⟨some d⟩ := h
      by_cases hq : q = p
      · rw [hq, Function.update_self] at h
        cases h
      · rw [Function.update_of_ne hq] at h
        exact inv.driver q d h

/-- A new driver is none of those that interfaces have. -/
theorem Inv.attach (inv : Inv s) (wifiIf : WifiIf) (p : NetifPtr) (hd : s.drivers d = none) :
    Inv (espNetifAttachWifi (some p) wifiIf (some d) s) := by
  have hne : ∀ d', (s.drivers d').isSome → d' ≠ d := by
    rintro d' hd' rfl
    rw [hd] at hd'
    cases hd'
  rw [attach_granted]
  constructor
  · intro k q h
    by_cases hq : q = p
    · refine ⟨d, ⟨some p, wifiIf⟩, ?_, Function.update_self ..⟩
      rw [hq]
      exact Function.update_self ..
    · have hold : s.defaultNetifs k = some q ∨ s.rxNetifs k = some q := by
        refine h.imp_left fun h => ?_
        have h : update s.defaultNetifs wifiIf (some p) k = some q := h
        by_cases hk : k = wifiIf
        · rw [hk, Function.update_self] at h
          cases h
          exact absurd rfl hq
        · rwa [Function.update_of_ne hk] at h
      refine (inv.tables k q hold).congr (Function.update_of_ne hq _ _) fun d' hd' => ?_
      exact Function.update_of_ne (hne d' hd') _ _
  · intro q d' h
    have h : update s.netifs p (some ⟨some d⟩) q = some ⟨some d'⟩ := h
    by_cases hq : q = p
    · rw [hq, Function.update_self] at h
      cases h
      exact ⟨⟨some p, wifiIf⟩, Function.update_self .., by rw [hq]⟩
    · rw [Function.update_of_ne hq] at h
      obtain ⟨driver, hdriver, hback⟩ := inv.driver q d' h
      refine ⟨driver, ?_, hback⟩
      show update s.drivers d _ d' = some driver
      rw [Function.update_of_ne (hne d' (by rw [hdriver]; rfl)), hdriver]

/-- An attach in order, whatever comes of it -/
theorem Inv.attachWifi {netif : Option NetifPtr} {memory : Option DriverPtr} (inv : Inv s)
    (wifiIf : WifiIf) (hfresh : ∀ d ∈ memory, s.drivers d = none)
    (hord : netif = none ∨ memory.isSome ∨ s.defaultNetifs wifiIf = netif) :
    Inv (espNetifAttachWifi netif wifiIf memory s) ∧
      ((espNetifAttachWifi netif wifiIf memory s).ret ≠ .ok →
        (espNetifAttachWifi netif wifiIf memory s).defaultNetifs = s.defaultNetifs ∧
        (espNetifAttachWifi netif wifiIf memory s).rxNetifs = s.rxNetifs) := by
  cases netif with
  | none => exact ⟨⟨inv.tables, inv.driver⟩, fun _ => ⟨rfl, rfl⟩⟩
  | some p =>
    cases memory with
    | some d =>
      refine ⟨inv.attach wifiIf p (hfresh d rfl), fun hret => absurd ?_ hret⟩
      rw [attach_granted]
    | none =>
      -- the interface is in the table already
      have hsame : s.defaultNetifs wifiIf = some p := by
        rcases hord with hord | hord | hord
        · cases hord
        · cases hord
        · exact hord
      rw [attach_refused, ← hsame, Function.update_eq_self]
      exact ⟨⟨inv.tables, inv.driver⟩, fun _ => ⟨rfl, rfl⟩⟩

/-- A registered receive function keeps the invariant, if its interface is attached. -/
theorem Inv.register {driver : WifiNetifDriver} {fn : Nat} {arg : Option NetifPtr}
    {registered : Bool} (inv : Inv s)
    (harg : ∀ p ∈ arg, driver.netif = some p → s.Attached p) :
    Inv (espWifiRegisterIfRxcb driver fn arg registered s) := by
  rw [espWifiRegisterIfRxcb]
  split
  · exact ⟨inv.tables, inv.driver⟩
  · rename_i heq
    have heq : driver.netif = arg := not_not.mp heq
    refine ⟨fun k p h => ?_, inv.driver⟩
    rcases h with h | h
    · exact inv.tables k p (.inl h)
    · have h : update s.rxNetifs driver.wifiIf driver.netif k = some p := h
      by_cases hk : k = driver.wifiIf
      · rw [hk, Function.update_self] at h
        exact harg p (heq.symm.trans h) h
      · rw [Function.update_of_ne hk] at h
        exact inv.tables k p (.inr h)

/-! ### Destroying an interface -/

/-- A destroyed interface is gone. -/
theorem destroy_netifs (p : NetifPtr) (netif : EspNetif) (s : State) :
    (espNetifDestroyDefaultWifi p netif s).netifs = update s.netifs p none := by
  obtain ⟨handle⟩ := netif
  cases handle with
  | none => exact Function.update_idem ..
  | some d => exact Function.update_idem ..

/-- A destroyed interface is no default interface. -/
theorem destroy_defaultNetifs (p : NetifPtr) (netif : EspNetif) (s : State) (k : WifiIf) :
    (espNetifDestroyDefaultWifi p netif s).defaultNetifs k =
      if s.defaultNetifs k = some p then none else s.defaultNetifs k := by
  obtain ⟨handle⟩ := netif
  cases handle with
  | none => rfl
  | some d => rfl

/-- The driver of a destroyed interface is freed, and its entry of the receive table cleared. -/
theorem destroy_with_driver {driver : WifiNetifDriver} (p : NetifPtr)
    (hd : s.drivers d = some driver) :
    (espNetifDestroyDefaultWifi p ⟨some d⟩ s).drivers = update s.drivers d none ∧
      (espNetifDestroyDefaultWifi p ⟨some d⟩ s).rxNetifs =
        update s.rxNetifs driver.wifiIf none := by
  refine ⟨rfl, ?_⟩
  show (match s.drivers d with | none => _ | some driver => _) = _
  rw [hd]
  rfl

/-- The entries of the second table after an interface has been destroyed -/
theorem destroy_rxNetifs (inv : Inv s) {netif : EspNetif} (hp : s.netifs p = some netif)
    (k : WifiIf) : (espNetifDestroyDefaultWifi p netif s).rxNetifs k = s.rxNetifs k ∨
      (espNetifDestroyDefaultWifi p netif s).rxNetifs k = none ∧
        ∃ d driver, netif = ⟨some d⟩ ∧ s.drivers d = some driver ∧ driver.wifiIf = k := by
  obtain ⟨handle⟩ := netif
  cases handle with
  | none => exact .inl rfl
  | some d =>
    obtain ⟨driver, hdriver, -⟩ := inv.driver p d hp
    rw [(destroy_with_driver p hdriver).2]
    by_cases hk : k = driver.wifiIf
    · rw [hk, Function.update_self]
      exact .inr ⟨rfl, d, driver, rfl, hdriver, rfl⟩
    · exact .inl (Function.update_of_ne hk _ _)

/-- The others keep their drivers. -/
theorem Inv.destroy_driver (inv : Inv s) {netif : EspNetif} (hp : s.netifs p = some netif)
    (hq : q ≠ p) {driver : WifiNetifDriver} (hn : s.netifs q = some ⟨some d⟩)
    (hd : s.drivers d = some driver) :
    (espNetifDestroyDefaultWifi p netif s).drivers d = some driver := by
  obtain ⟨handle⟩ := netif
  cases handle with
  | none => exact hd
  | some d' =>
    obtain ⟨driver', hdriver', hback'⟩ := inv.driver p d' hp
    obtain ⟨driver'', hdriver'', hback''⟩ := inv.driver q d hn
    have hne : d ≠ d' := by
      rintro rfl
      cases hdriver'.symm.trans hdriver''
      exact hq (Option.some.inj (hback''.symm.trans hback'))
    rw [(destroy_with_driver p hdriver').1, Function.update_of_ne hne, hd]

/-- Destroying an interface keeps the invariant if the driver knows its receive functions. -/
theorem Inv.destroy (inv : Inv s) {netif : EspNetif} (hp : s.netifs p = some netif)
    (hrx : ∀ k, s.rxNetifs k = some p →
      ∃ d driver, s.netifs p = some ⟨some d⟩ ∧ s.drivers d = some driver ∧ driver.wifiIf = k) :
    Inv (espNetifDestroyDefaultWifi p netif s) := by
  have hnetifs := destroy_netifs p netif s
  constructor
  · intro k q h
    -- the entry was there before, and is not that of `p`
    have hold : (s.defaultNetifs k = some q ∨ s.rxNetifs k = some q) ∧ q ≠ p := by
      rcases h with h | h
      · rw [destroy_defaultNetifs] at h
        split at h
        · cases h
        · rename_i hne
          refine ⟨.inl h, fun hq => hne ?_⟩
          rw [h, hq]
      · rcases destroy_rxNetifs inv hp k with hsame | ⟨hnone, -⟩
        · refine ⟨.inr (hsame.symm.trans h), ?_⟩
          rintro rfl
          obtain ⟨d, driver, hn, hd, hif⟩ := hrx k (hsame.symm.trans h)
          cases hp.symm.trans hn
          rw [(destroy_with_driver q hd).2, hif, Function.update_self] at h
          cases h
        · rw [hnone] at h
          cases h
    obtain ⟨d, driver, hn, hd⟩ := inv.tables k q hold.1
    refine ⟨d, driver, ?_, inv.destroy_driver hp hold.2 hn hd⟩
    rw [hnetifs, Function.update_of_ne hold.2, hn]
  · intro q d h
    rw [hnetifs] at h
    have hq : q ≠ p := by
      rintro rfl
      rw [Function.update_self] at h
      cases h
    rw [Function.update_of_ne hq] at h
    obtain ⟨driver, hd, hback⟩ := inv.driver q d h
    exact ⟨driver, inv.destroy_driver hp hq h hd, hback⟩

end Steps

/-! ## Runs -/

section Runs

variable {ndebug : Bool} {s s' : State} {a : Action}

/-- Handlers that were set change the flag only. -/
theorem setDefaultWifiHandlers_ok {registered : Bool}
    (h : (setDefaultWifiHandlers registered s).ret = .ok) :
    ∃ flag, setDefaultWifiHandlers registered s =
      { s with defaultHandlersSet := flag, ret := .ok } := by
  rw [setDefaultWifiHandlers] at h ⊢
  split at h
  · rename_i hset
    rw [if_pos hset]
    exact ⟨s.defaultHandlersSet, rfl⟩
  · rename_i hset
    rw [if_neg hset]
    split at h
    · rename_i hregistered
      rw [if_pos hregistered]
      exact ⟨true, rfl⟩
    · cases h

/-- A default interface that did not abort has been created and attached. -/
theorem createDefault_cases {wifiIf : WifiIf} {netif : Option NetifPtr}
    {memory : Option DriverPtr} {registered : Bool}
    (h : espNetifCreateDefaultWifi wifiIf netif memory registered s = some s') :
    ∃ p d flag, netif = some p ∧ memory = some d ∧
      s' = { espNetifAttachWifi (some p) wifiIf (some d) (espNetifNew (some p) s) with
        defaultHandlersSet := flag } := by
  rw [espNetifCreateDefaultWifi] at h
  dsimp only at h
  split at h
  · rename_i hattached
    split at h
    · rename_i hset
      obtain ⟨flag, hflag⟩ := setDefaultWifiHandlers_ok hset
      rw [hflag] at h
      cases netif with
      | none => cases hattached
      | some p =>
        cases memory with
        | none => cases hattached
        | some d =>
          cases h
          exact ⟨p, d, flag, rfl, rfl, rfl⟩
    · cases h
  · cases h

/-- Every call that is in order keeps the entries attached, and leaves them alone if it is an attach
that fails. -/
theorem Inv.step (inv : Inv s) (hord : s.Orderly a) (h : Wifi.step ndebug s a = some s') :
    Inv s' ∧ s.Sound a s' := by
  cases a with
  | new netif =>
    rw [Wifi.step] at h
    split at h
    · rename_i hfresh
      cases h
      have inv' := inv.new hfresh.1
      exact ⟨inv', inv'.tables, trivial⟩
    · cases h
  | createDefault wifiIf netif memory registered =>
    rw [Wifi.step] at h
    split at h
    · rename_i hfresh
      obtain ⟨p, d, flag, rfl, rfl, rfl⟩ := createDefault_cases h
      have inv' := (inv.new hfresh.1).attach wifiIf p (hfresh.2 d rfl)
      have inv' : Inv { espNetifAttachWifi (some p) wifiIf (some d) (espNetifNew (some p) s) with
          defaultHandlersSet := flag } := ⟨inv'.tables, inv'.driver⟩
      exact ⟨inv', inv'.tables, trivial⟩
    · cases h
  | create wifiIf netif memory =>
    rw [Wifi.step] at h
    split at h
    · rename_i hfresh
      cases wifiIf with
      | none =>
        cases h
        exact ⟨inv, inv.tables, fun _ => ⟨rfl, rfl⟩⟩
      | some wifiIf =>
        rw [espNetifCreateWifi] at h
        split at h
        · cases h
          have hdrivers : (espNetifNew netif s).drivers = s.drivers := by cases netif <;> rfl
          have hord : netif = none ∨ memory.isSome := hord.resolve_left (Option.some_ne_none _)
          obtain ⟨inv', hret⟩ := (inv.new hfresh.1).attachWifi wifiIf
            (by rw [hdrivers]; exact hfresh.2) (hord.imp_right .inl)
          refine ⟨inv', inv'.tables, ?_⟩
          cases netif with
          | none => exact hret
          | some p => exact hret
        · cases h
    · cases h
  | attach wifiIf netif memory =>
    rw [Wifi.step] at h
    split at h
    · rename_i hfresh
      cases h
      obtain ⟨inv', hret⟩ := inv.attachWifi wifiIf hfresh.2.2 hord
      exact ⟨inv', inv'.tables, hret⟩
    · cases h
  | register d fn arg registered =>
    obtain ⟨driver, hdriver, rfl⟩ := Option.map_eq_some_iff.mp h
    have inv' : Inv (espWifiRegisterIfRxcb driver fn arg registered s) :=
      inv.register fun p hp => hord p hp driver hdriver
    exact ⟨inv', inv'.tables, trivial⟩
  | destroy netif =>
    cases netif with
    | none =>
      cases h
      exact ⟨inv, inv.tables, trivial⟩
    | some p =>
      obtain ⟨netif, hnetif, rfl⟩ := Option.map_eq_some_iff.mp h
      have inv' := inv.destroy hnetif fun k hk => hord p rfl k hk
      exact ⟨inv', inv'.tables, trivial⟩

/-- A call that is not in order leaves an entry without an attached interface, or is an attach that
fails and has changed the table. -/
theorem Inv.not_sound (inv : Inv s) (hnot : ¬ s.Orderly a) (h : Wifi.step ndebug s a = some s') :
    ¬ s.Sound a s' := by
  rintro ⟨tables, hret⟩
  refine hnot ?_
  cases a with
  | new netif => trivial
  | createDefault wifiIf netif memory registered => trivial
  | create wifiIf netif memory =>
    cases wifiIf with
    | none => exact .inl rfl
    | some wifiIf =>
      cases netif with
      | none => exact .inr (.inl rfl)
      | some p =>
        cases memory with
        | some d => exact .inr (.inr rfl)
        | none =>
          rw [Wifi.step] at h
          split at h
          · cases h
            -- the new interface is in the table, and has no driver
            obtain ⟨d, driver, hn, -⟩ := tables wifiIf p (.inl (Function.update_self ..))
            have hn : update s.netifs p (some ⟨none⟩) p = some ⟨some d⟩ := hn
            rw [Function.update_self] at hn
            cases hn
          · cases h
  | attach wifiIf netif memory =>
    cases netif with
    | none => exact .inl rfl
    | some p =>
      cases memory with
      | some d => exact .inr (.inl rfl)
      | none =>
        rw [Wifi.step] at h
        split at h
        · cases h
          have hsame : update s.defaultNetifs wifiIf (some p) = s.defaultNetifs := (hret nofun).1
          refine .inr (.inr ?_)
          rw [← hsame, Function.update_self]
        · cases h
  | register d fn arg registered =>
    intro p hp driver hdriver hback
    obtain ⟨driver', hdriver', rfl⟩ := Option.map_eq_some_iff.mp h
    cases hdriver.symm.trans hdriver'
    cases hp
    rw [espWifiRegisterIfRxcb, if_neg (not_not.mpr hback)] at tables
    refine tables driver.wifiIf p (.inr ?_)
    show update s.rxNetifs driver.wifiIf driver.netif driver.wifiIf = some p
    rw [Function.update_self, hback]
  | destroy netif =>
    intro p hp k hk
    cases hp
    obtain ⟨netif, hnetif, rfl⟩ := Option.map_eq_some_iff.mp h
    rcases destroy_rxNetifs inv hnetif k with hsame | ⟨-, d, driver, rfl, hd, hif⟩
    · -- the entry has stayed, and there is no interface any more
      obtain ⟨d, driver, hn, -⟩ := tables k p (.inr (hsame.trans hk))
      rw [destroy_netifs, Function.update_self] at hn
      cases hn
    · exact ⟨d, driver, hnetif, hd, hif⟩

/-- In every run both tables have only attached interfaces after each call, and an attach that fails
leaves them alone, exactly when every call is in order. -/
theorem sound_iff_orderly (ndebug : Bool) (actions : List Action) (t : State)
    (h : Machine.exec (Wifi.step ndebug) .init actions = some t) :
    Machine.Each (Wifi.step ndebug) State.Sound .init actions ↔
      Machine.Along (Wifi.step ndebug) State.Orderly .init actions := by
  refine Machine.each_iff_along ?_ ?_ h inv_init
  · intro s a s' hord h inv
    exact inv.step hord h
  · intro s a s' hnot h inv
    exact inv.not_sound hnot h

/-- A station that is created, gets frames, and is destroyed -/
def station : List Action :=
  [.createDefault .sta (some 1) (some 1) true, .register 1 7 (some 1) true, .destroy (some 1)]

/-- The run of `station`, which is orderly -/
theorem sound_iff_orderly_station : Machine.Each (Wifi.step false) State.Sound .init station := by
  obtain ⟨t, ht⟩ := Option.isSome_iff_exists.mp
    (show (Machine.exec (Wifi.step false) .init station).isSome by decide +kernel)
  refine (sound_iff_orderly false station t ht).mpr ⟨trivial, ?_, ?_, trivial⟩
  · rintro p ⟨⟩ driver ⟨⟩ -
    exact ⟨1, ⟨some 1, .sta⟩, rfl, rfl⟩
  · rintro p ⟨⟩ k hk
    cases k with
    | sta => exact ⟨1, ⟨some 1, .sta⟩, rfl, rfl, rfl⟩
    | ap => cases hk

/-- No memory for the driver: the table has an interface without one, or an attach has failed and
changed it. An interface that gets frames is attached once more, and destroyed: the frames go to
what has been freed. -/
theorem not_sound_attach :
    ¬ Machine.Each (Wifi.step false) State.Sound .init [.create (some .sta) (some 1) none] ∧
    ¬ Machine.Each (Wifi.step false) State.Sound .init
        [.new (some 1), .attach .sta (some 1) none] ∧
    ¬ Machine.Each (Wifi.step false) State.Sound .init
        [.createDefault .sta (some 1) (some 1) true, .register 1 7 (some 1) true,
          .attach .ap (some 1) (some 2), .destroy (some 1)] := by
  refine ⟨?_, ?_, ?_⟩
  · rintro ⟨⟨tables, -⟩, -⟩
    obtain ⟨d, driver, hn, -⟩ := tables .sta 1 (.inl rfl)
    cases hn
  · rintro ⟨-, ⟨-, hret⟩, -⟩
    have hsame := congrFun (hret nofun).1 .sta
    cases hsame
  · rintro ⟨-, -, -, ⟨tables, -⟩, -⟩
    obtain ⟨d, driver, hn, -⟩ := tables .sta 1 (.inr rfl)
    cases hn

end Runs

end PicoHost.Wifi
