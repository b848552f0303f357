import PicoHost.Netif.WifiTables

/-!
# The way of a Wi-Fi frame

A frame passes three files: `wifi_remote_net.c` knows the channels of the transport and the receive
function of the station and of the access point, `wifi_netif.c` the interface that each of these
functions gives its frames to, `wifi_default.c` which interface an event of the Wi-Fi driver is
about. They share nothing but the calls that they make of each other.

`Routes` is what the three amount to: one record for an interface of the driver. For the default
interfaces it says exactly what happens to every frame (`frames_routed`).
-/

namespace PicoHost.Wifi

open Function (update)

/-! ## The code -/

/-- `void *` of the transport -/
abbrev Channel := Nat

/-- `esp_remote_channel_tx_fn_t` -/
abbrev TxFn := Nat

/-- A default action of `esp_netif_handlers.c` -/
inductive NetifAction where
  | start | stop | connected | disconnected | gotIp
deriving DecidableEq, Repr

/-- What comes of a step. `fault`: a call through `NULL`, or of a freed interface. -/
inductive Output where
  | delivered (p : NetifPtr)
  | failed
  | sent (channel : Option Channel) (txCb : TxFn)
  | action (p : NetifPtr) (a : NetifAction)
  | fault
deriving DecidableEq, Repr

/-- The static variables of the three files. `sRxFn`: `wifi_sta_receive` and `wifi_ap_receive`
stand as `.sta` and `.ap`. -/
structure Path where
  wifi : State
  sTxCb : WifiIf → Option TxFn
  sChannel : WifiIf → Option Channel
  sRxFn : WifiIf → Option WifiIf
  log : List Output

def Path.init : Path := ⟨.init, fun _ => none, fun _ => none, fun _ => none, []⟩

/-- `esp_netif_receive`, the only function that the handlers register -/
def espNetifReceive : Nat := 0

def Path.emit (s : Path) (o : Output) : Path := { s with log := s.log ++ [o] }

/-- `esp_netif_get_io_driver`, as far as there is one -/
def Path.ioDriver (s : Path) (p : NetifPtr) : Option WifiNetifDriver :=
  ((s.wifi.netifs p).bind EspNetif.driverHandle).bind s.wifi.drivers

/-- `esp_wifi_remote_channel_set` (wifi_remote_net.c:29–42) -/
def espWifiRemoteChannelSet (ifx : WifiIf) (h : Option Channel) (txCb : Option TxFn) (s : Path) :
    Path :=
  { s with sChannel := update s.sChannel ifx h, sTxCb := update s.sTxCb ifx txCb }

/-- `wifi_sta_receive` and `wifi_ap_receive` (wifi_netif.c:37–46) -/
def wifiReceive (ifx : WifiIf) (s : State) : Output :=
  match s.rxcbs ifx, s.rxNetifs ifx with
  | some _, some p => if (s.netifs p).isSome then .delivered p else .fault
  | _, _ => .fault

/-- The function that is registered for an interface of the driver -/
def Path.callRxFn (s : Path) (ifx : WifiIf) : Output :=
  match s.sRxFn ifx with
  | some fn => wifiReceive fn s.wifi
  | none => .fault

/-- `esp_wifi_remote_channel_rx` (wifi_remote_net.c:17–27) -/
def espWifiRemoteChannelRx (h : Channel) (s : Path) : Output :=
  if s.sChannel .sta = some h ∧ (s.sRxFn .sta).isSome then s.callRxFn .sta
  else if s.sChannel .ap = some h ∧ (s.sRxFn .ap).isSome then s.callRxFn .ap
  else .failed

/-- `esp_wifi_internal_tx` (wifi_remote_net.c:61–72) -/
def espWifiInternalTx (ifx : WifiIf) (s : Path) : Output :=
  match s.sTxCb ifx with
  | some txCb => .sent (s.sChannel ifx) txCb
  | none => .fault

/-- `wifi_transmit_wrap` (wifi_netif.c:69–77), called as the `driver_transmit_wrap` of an
interface -/
def wifiTransmitWrap (p : NetifPtr) (s : Path) : Output :=
  match s.ioDriver p with
  | some driver => espWifiInternalTx driver.wifiIf s
  | none => .fault

/-- `esp_wifi_register_if_rxcb` (wifi_netif.c:132–178), with `esp_wifi_internal_reg_rxcb`
(wifi_remote_net.c:74–87), which refuses neither of the two -/
def registerIfRxcb (driver : WifiNetifDriver) (arg : NetifPtr) (s : Path) : Path :=
  { s with
    wifi := espWifiRegisterIfRxcb driver espNetifReceive (some arg) true s.wifi
    sRxFn :=
      if driver.netif ≠ some arg then s.sRxFn
      else update s.sRxFn driver.wifiIf (some driver.wifiIf) }

/-- `esp_wifi_is_if_ready_when_started` (wifi_netif.c:122–130) -/
def espWifiIsIfReadyWhenStarted (driver : WifiNetifDriver) : Bool := driver.wifiIf = .ap

/-- `wifi_start` (wifi_default.c:37–65); `mac` says whether the address of the interface is got. -/
def wifiStart (mac : Bool) (p : NetifPtr) (s : Path) : Path :=
  match s.ioDriver p with
  | none => s.emit .fault
  | some driver =>
    if ¬ mac then s
    else if espWifiIsIfReadyWhenStarted driver then
      let s := registerIfRxcb driver p s
      if s.wifi.ret ≠ .ok then s else s.emit (.action p .start)
    else s.emit (.action p .start)

/-- `wifi_default_action_sta_connected` (wifi_default.c:85–104) of an interface -/
def staConnected (p : NetifPtr) (s : Path) : Path :=
  match s.ioDriver p with
  | none => s.emit .fault
  | some driver =>
    if ¬ espWifiIsIfReadyWhenStarted driver then
      let s := registerIfRxcb driver p s
      if s.wifi.ret ≠ .ok then s else s.emit (.action p .connected)
    else s.emit (.action p .connected)

/-- An event for which `set_default_wifi_handlers` registers a handler -/
inductive WifiEvent where
  | staStart (mac : Bool) | staStop | staConnected | staDisconnected | staGotIp
  | apStart (mac : Bool) | apStop
deriving DecidableEq, Repr

/-- The interface of the driver that an event is about -/
def WifiEvent.wifiIf : WifiEvent → WifiIf
  | .staStart _ | .staStop | .staConnected | .staDisconnected | .staGotIp => .sta
  | .apStart _ | .apStop => .ap

/-- The handlers (wifi_default.c:71–139) -/
def WifiEvent.handler (e : WifiEvent) (p : NetifPtr) (s : Path) : Path :=
  match e with
  | .staStart mac | .apStart mac => wifiStart mac p s
  | .staStop | .apStop => s.emit (.action p .stop)
  | .staConnected => Wifi.staConnected p s
  | .staDisconnected => s.emit (.action p .disconnected)
  | .staGotIp => s.emit (.action p .gotIp)

/-- The event loop calls the handlers as long as they are registered. -/
def Path.event (s : Path) (e : WifiEvent) : Path :=
  if s.wifi.defaultHandlersSet then
    match s.wifi.defaultNetifs e.wifiIf with
    | none => s
    | some p => e.handler p s
  else s

/-- `esp_netif_destroy_default_wifi` (wifi_default.c:423–429), with what
`esp_wifi_destroy_if_driver` does in `wifi_remote_net.c` -/
def Path.destroy (s : Path) (p : NetifPtr) (netif : EspNetif) : Path :=
  { s with
    wifi := espNetifDestroyDefaultWifi p netif s.wifi
    sRxFn :=
      match netif.driverHandle.bind s.wifi.drivers with
      | none => s.sRxFn
      | some driver => update s.sRxFn driver.wifiIf none }

/-- What the transport, the application, the driver's events and lwIP do -/
inductive PathAction where
  | channelSet (ifx : WifiIf) (h : Option Channel) (txCb : Option TxFn)
  | create (wifiIf : WifiIf) (netif : Option NetifPtr) (memory : Option DriverPtr)
      (registered : Bool)
  | destroy (p : NetifPtr)
  | event (e : WifiEvent)
  | rx (h : Channel)
  | tx (p : NetifPtr)
deriving DecidableEq, Repr

/-- The interfaces that are given exist, and new memory is fresh. After an abort there is no
state. -/
def Path.step (s : Path) : PathAction → Option Path
  | .channelSet ifx h txCb => some (espWifiRemoteChannelSet ifx h txCb s)
  | .create wifiIf netif memory registered =>
    if s.wifi.Fresh netif memory then
      (espNetifCreateDefaultWifi wifiIf netif memory registered s.wifi).map fun wifi =>
        { s with wifi }
    else none
  | .destroy p => (s.wifi.netifs p).map (s.destroy p)
  | .event e => some (s.event e)
  | .rx h => some (s.emit (espWifiRemoteChannelRx h s))
  | .tx p => if (s.wifi.netifs p).isSome then some (s.emit (wifiTransmitWrap p s)) else none

/-! ## The routes -/

/-- What each interface was created as, and for each interface of the driver the one that its
events are about, the one that its frames go to, and the channel of the transport. -/
structure Routes where
  kind : NetifPtr → Option WifiIf
  current : WifiIf → Option NetifPtr
  listener : WifiIf → Option NetifPtr
  channel : WifiIf → Option Channel
  txCb : WifiIf → Option TxFn
  log : List Output

namespace Routes

def init : Routes := ⟨fun _ => none, fun _ => none, fun _ => none, fun _ => none, fun _ => none, []⟩

variable (r : Routes)

def emit (o : Output) : Routes := { r with log := r.log ++ [o] }

/-- The interface that events are about gets the frames from now on. -/
def listen (k : WifiIf) : Routes := { r with listener := update r.listener k (r.current k) }

/-- What an event does to the interface that it is about -/
def event (e : WifiEvent) (p : NetifPtr) : Routes :=
  match e with
  | .staStart mac => if mac then r.emit (.action p .start) else r
  | .apStart mac => if mac then (r.listen .ap).emit (.action p .start) else r
  | .staStop | .apStop => r.emit (.action p .stop)
  | .staConnected => (r.listen .sta).emit (.action p .connected)
  | .staDisconnected => r.emit (.action p .disconnected)
  | .staGotIp => r.emit (.action p .gotIp)

/-- Where a frame from a channel goes -/
def rx (h : Channel) : Output :=
  match (if r.channel .sta = some h then r.listener .sta else none),
    (if r.channel .ap = some h then r.listener .ap else none) with
  | some p, _ => .delivered p
  | none, some p => .delivered p
  | none, none => .failed

/-- Where a frame of an interface goes -/
def tx (k : WifiIf) : Output :=
  match r.txCb k with
  | some txCb => .sent (r.channel k) txCb
  | none => .fault

def next : PathAction → Routes
  | .channelSet k h txCb =>
    { r with channel := update r.channel k h, txCb := update r.txCb k txCb }
  | .create k netif _ _ =>
    match netif with
    | none => r
    | some p => { r with kind := update r.kind p (some k), current := update r.current k (some p) }
  | .destroy p =>
    match r.kind p with
    | none => r
    | some k => { r with
        kind := update r.kind p none
        current := fun k' => if r.current k' = some p then none else r.current k'
        listener := update r.listener k none }
  | .event e =>
    match r.current e.wifiIf with
    | none => r
    | some p => r.event e p
  | .rx h => r.emit (r.rx h)
  | .tx p =>
    match r.kind p with
    | none => r
    | some k => r.emit (r.tx k)

end Routes

/-! ## The simulation -/

/-- The tables of the three files say what the routes say. -/
structure Sim (r : Routes) (s : Path) : Prop where
  log : s.log = r.log
  channel : s.sChannel = r.channel
  txCb : s.sTxCb = r.txCb
  current : s.wifi.defaultNetifs = r.current
  handlers : ∀ k, (r.current k).isSome → s.wifi.defaultHandlersSet
  absent : ∀ p, r.kind p = none → s.wifi.netifs p = none
  present : ∀ p k, r.kind p = some k →
    ∃ d, s.wifi.netifs p = some ⟨some d⟩ ∧ s.wifi.drivers d = some ⟨some p, k⟩
  about : ∀ k p, r.current k = some p → r.kind p = some k
  silent : ∀ k, r.listener k = none → s.sRxFn k = none
  listening : ∀ k p, r.listener k = some p → r.kind p = some k ∧
    s.sRxFn k = some k ∧ (s.wifi.rxcbs k).isSome ∧ s.wifi.rxNetifs k = some p

section Steps

variable {r : Routes} {s s' : Path} {p : NetifPtr} {k : WifiIf}

/-- At boot no interface exists, no channel and no receive function. -/
theorem sim_init : Sim .init .init where
  log := rfl
  channel := rfl
  txCb := rfl
  current := rfl
  handlers k h := by cases h
  absent p h := rfl
  present p k h := by cases h
  about k p h := by cases h
  silent k h := rfl
  listening k p h := by cases h

/-- Both logs grow by the same output. -/
theorem Sim.emit (h : Sim r s) (o : Output) : Sim (r.emit o) (s.emit o) where
  log := congrArg (· ++ [o]) h.log
  channel := h.channel
  txCb := h.txCb
  current := h.current
  handlers := h.handlers
  absent := h.absent
  present := h.present
  about := h.about
  silent := h.silent
  listening := h.listening

/-- The driver of a default interface is the one of its kind. -/
theorem Sim.ioDriver (h : Sim r s) (hp : r.kind p = some k) : s.ioDriver p = some ⟨some p, k⟩ := by
  obtain ⟨d, hn, hd⟩ := h.present p k hp
  simp [Path.ioDriver, hn, hd]

/-- The interfaces of the route table are those that exist. -/
theorem Sim.exists_iff (h : Sim r s) (p : NetifPtr) :
    (s.wifi.netifs p).isSome ↔ (r.kind p).isSome := by
  cases hp : r.kind p with
  | none => simp [h.absent p hp]
  | some k =>
    obtain ⟨d, hn, -⟩ := h.present p k hp
    simp [hn]

/-! ### Frames -/

/-- A receive function delivers to the listener of its kind. -/
theorem Sim.callRxFn (h : Sim r s) (hl : r.listener k = some p) : s.callRxFn k = .delivered p := by
  obtain ⟨hkind, hfn, hcb, hnetif⟩ := h.listening k p hl
  obtain ⟨fn, hcb⟩ := Option.isSome_iff_exists.mp hcb
  have hexists : (s.wifi.netifs p).isSome := (h.exists_iff p).mpr (by simp [hkind])
  simp [Path.callRxFn, wifiReceive, hfn, hcb, hnetif, hexists]

/-- A receive function is set while an interface of its kind listens. -/
theorem Sim.isSome_iff (h : Sim r s) (k : WifiIf) :
    (s.sRxFn k).isSome ↔ (r.listener k).isSome := by
  cases hl : r.listener k with
  | none => simp [h.silent k hl]
  | some p => simp [(h.listening k p hl).2.1]

/-- A frame of a channel goes where the route table says. -/
theorem Sim.rx (h : Sim r s) (c : Channel) : espWifiRemoteChannelRx c s = r.rx c := by
  have hfrom : ∀ k, (s.sChannel k = some c ∧ (s.sRxFn k).isSome) ↔
      (if r.channel k = some c then r.listener k else none).isSome := by
    intro k
    rw [h.channel, h.isSome_iff]
    by_cases hc : r.channel k = some c
    · simp [hc]
    · simp [hc]
  have hto : ∀ k p, (if r.channel k = some c then r.listener k else none) = some p →
      s.callRxFn k = .delivered p := by
    intro k p hp
    split at hp
    · exact h.callRxFn hp
    · cases hp
  rw [espWifiRemoteChannelRx, Routes.rx]
  simp only [hfrom]
  -- the station comes first
  cases hsta : if r.channel .sta = some c then r.listener .sta else none with
  | some p => exact hto .sta p hsta
  | none =>
    cases hap : if r.channel .ap = some c then r.listener .ap else none with
    | some p => exact hto .ap p hap
    | none => rfl

/-- A frame to be sent goes to the channel that the route table says. -/
theorem Sim.tx (h : Sim r s) (hp : r.kind p = some k) : wifiTransmitWrap p s = r.tx k := by
  rw [wifiTransmitWrap, h.ioDriver hp]
  show espWifiInternalTx k s = r.tx k
  rw [espWifiInternalTx, Routes.tx, h.txCb, h.channel]

/-! ### Events -/

/-- What `esp_wifi_register_if_rxcb` sets: the interface of the kind and its receive function -/
theorem registerIfRxcb_eq (k : WifiIf) (p : NetifPtr) (s : Path) :
    registerIfRxcb ⟨some p, k⟩ p s = { s with
      wifi := { s.wifi with
        rxcbs := update s.wifi.rxcbs k (some espNetifReceive)
        rxNetifs := update s.wifi.rxNetifs k (some p)
        ret := .ok }
      sRxFn := update s.sRxFn k (some k) } := by
  simp [registerIfRxcb, espWifiRegisterIfRxcb]

/-- Registering the receive function makes the current interface the listener. -/
theorem Sim.register (h : Sim r s) (hp : r.current k = some p) :
    Sim (r.listen k) (registerIfRxcb ⟨some p, k⟩ p s) := by
  rw [registerIfRxcb_eq]
  refine { h with silent := ?_, listening := ?_ }
  · intro k' hl
    have hl : update r.listener k (r.current k) k' = none := hl
    by_cases hk : k' = k
    · rw [hk, Function.update_self, hp] at hl
      cases hl
    · rw [Function.update_of_ne hk] at hl
      exact (Function.update_of_ne hk _ _).trans (h.silent k' hl)
  · intro k' q hl
    have hl : update r.listener k (r.current k) k' = some q := hl
    by_cases hk : k' = k
    · rw [hk, Function.update_self, hp] at hl
      cases hl
      rw [hk]
      exact ⟨h.about k p hp, Function.update_self .., by simp, Function.update_self ..⟩
    · rw [Function.update_of_ne hk] at hl
      obtain ⟨hkind, hfn, hcb, hnetif⟩ := h.listening k' q hl
      refine ⟨hkind, ?_, ?_, ?_⟩
      · exact (Function.update_of_ne hk _ _).trans hfn
      · show (update s.wifi.rxcbs k _ k').isSome
        rw [Function.update_of_ne hk]
        exact hcb
      · exact (Function.update_of_ne hk _ _).trans hnetif

/-- The registration of a default interface returns `ESP_OK`. -/
theorem register_ret (k : WifiIf) (p : NetifPtr) (s : Path) :
    (registerIfRxcb ⟨some p, k⟩ p s).wifi.ret = .ok := by
  rw [registerIfRxcb_eq]

/-- The handler of an event acts on the current interface of its kind. -/
theorem Sim.handler (h : Sim r s) (e : WifiEvent) (hp : r.current e.wifiIf = some p) :
    Sim (r.event e p) (e.handler p s) := by
  have hdriver := h.ioDriver (h.about _ p hp)
  cases e with
  | staStart mac =>
    have hstart : wifiStart mac p s = if mac then s.emit (.action p .start) else s := by
      rw [wifiStart, hdriver]
      cases mac <;> rfl
    show Sim (if mac then _ else r) (wifiStart mac p s)
    rw [hstart]
    split
    · exact h.emit _
    · exact h
  | apStart mac =>
    have hstart : wifiStart mac p s =
        if mac then (registerIfRxcb ⟨some p, .ap⟩ p s).emit (.action p .start) else s := by
      rw [wifiStart, hdriver]
      cases mac with
      | false => rfl
      | true =>
        show (if (registerIfRxcb ⟨some p, .ap⟩ p s).wifi.ret ≠ .ok then _ else _) = _
        rw [if_neg (not_not_intro (register_ret .ap p s))]
        rfl
    show Sim (if mac then _ else r) (wifiStart mac p s)
    rw [hstart]
    split
    · exact (h.register hp).emit _
    · exact h
  | staConnected =>
    have hconnected : Wifi.staConnected p s =
        (registerIfRxcb ⟨some p, .sta⟩ p s).emit (.action p .connected) := by
      rw [Wifi.staConnected, hdriver]
      show (if (registerIfRxcb ⟨some p, .sta⟩ p s).wifi.ret ≠ .ok then _ else _) = _
      rw [if_neg (not_not_intro (register_ret .sta p s))]
      rfl
    show Sim _ (Wifi.staConnected p s)
    rw [hconnected]
    exact (h.register hp).emit _
  | staStop => exact h.emit _
  | apStop => exact h.emit _
  | staDisconnected => exact h.emit _
  | staGotIp => exact h.emit _

/-- An event runs its handler for the current interface of its kind, if there is one. -/
theorem Sim.event (h : Sim r s) (e : WifiEvent) : Sim (r.next (.event e)) (s.event e) := by
  have hevent : s.event e = match r.current e.wifiIf with
      | none => s
      | some p => e.handler p s := by
    rw [Path.event, h.current]
    cases hp : r.current e.wifiIf with
    | none => exact ite_self s
    | some p => exact if_pos (h.handlers e.wifiIf (by simp [hp]))
  rw [hevent, Routes.next]
  cases hp : r.current e.wifiIf with
  | none => exact h
  | some p => exact h.handler e hp

/-! ### Interfaces -/

/-- The first default interface sets the handlers. -/
theorem createDefault_handlers {netif : Option NetifPtr} {memory : Option DriverPtr}
    {registered : Bool} {wifi wifi' : State}
    (h : espNetifCreateDefaultWifi k netif memory registered wifi = some wifi') :
    wifi'.defaultHandlersSet = true := by
  rw [espNetifCreateDefaultWifi] at h
  dsimp only at h
  split at h
  · split at h
    · rename_i hok
      cases h
      rw [setDefaultWifiHandlers] at hok ⊢
      split
      · assumption
      · rename_i hset
        rw [if_neg hset] at hok
        split
        · rfl
        · rename_i hregistered
          rw [if_neg hregistered] at hok
          cases hok
    · cases h
  · cases h

/-- A new default interface is the current one of its kind. -/
theorem Sim.create (h : Sim r s) {netif : Option NetifPtr} {memory : Option DriverPtr}
    {registered : Bool} {wifi : State} (hfresh : s.wifi.Fresh netif memory)
    (hcreate : espNetifCreateDefaultWifi k netif memory registered s.wifi = some wifi) :
    Sim (r.next (.create k netif memory registered)) { s with wifi } := by
  have hset := createDefault_handlers hcreate
  obtain ⟨p, d, flag, rfl, rfl, rfl⟩ := createDefault_cases hcreate
  rw [attach_granted] at hset ⊢
  obtain rfl : flag = true := hset
  have hnetif : s.wifi.netifs p = none := hfresh.1 p rfl
  have hdriver : s.wifi.drivers d = none := hfresh.2 d rfl
  have hne : ∀ q k', r.kind q = some k' → q ≠ p := by
    rintro q k' hq rfl
    obtain ⟨d', hn, -⟩ := h.present q k' hq
    cases hnetif.symm.trans hn
  have hkind : ∀ q k', r.kind q = some k' → update r.kind p (some k) q = some k' := by
    intro q k' hq
    rw [Function.update_of_ne (hne q k' hq), hq]
  refine { h with current := ?_, handlers := ?_, absent := ?_, present := ?_, about := ?_,
                  listening := ?_ }
  · show update s.wifi.defaultNetifs k (some p) = update r.current k (some p)
    rw [h.current]
  · intro _ _
    rfl
  · intro q hq
    have hq : update r.kind p (some k) q = none := hq
    by_cases hqp : q = p
    · rw [hqp, Function.update_self] at hq
      cases hq
    · rw [Function.update_of_ne hqp] at hq
      simpa [espNetifNew, hqp] using h.absent q hq
  · intro q k' hq
    have hq : update r.kind p (some k) q = some k' := hq
    by_cases hqp : q = p
    · rw [hqp, Function.update_self] at hq
      cases hq
      rw [hqp]
      exact ⟨d, Function.update_self .., Function.update_self ..⟩
    · rw [Function.update_of_ne hqp] at hq
      obtain ⟨d', hn, hd⟩ := h.present q k' hq
      have hdd : d' ≠ d := by
        rintro rfl
        cases hdriver.symm.trans hd
      refine ⟨d', ?_, ?_⟩
      · simpa [espNetifNew, hqp] using hn
      · simpa [espNetifNew, hdd] using hd
  · intro k' q hq
    have hq : update r.current k (some p) k' = some q := hq
    by_cases hk : k' = k
    · rw [hk, Function.update_self] at hq
      cases hq
      rw [hk]
      exact Function.update_self ..
    · rw [Function.update_of_ne hk] at hq
      exact hkind q k' (h.about k' q hq)
  · intro k' q hq
    obtain ⟨hq, hfn, hcb, hrx⟩ := h.listening k' q hq
    exact ⟨hkind q k' hq, hfn, hcb, hrx⟩

/-- A driver that the code has lost sight of is that of no other interface. -/
theorem Sim.destroy (h : Sim r s) {netif : EspNetif} (hp : s.wifi.netifs p = some netif) :
    Sim (r.next (.destroy p)) (s.destroy p netif) := by
  obtain ⟨k, hk⟩ := Option.isSome_iff_exists.mp ((h.exists_iff p).mp (by simp [hp]))
  obtain ⟨d, hn, hd⟩ := h.present p k hk
  cases hp.symm.trans hn
  have hnetifs := destroy_netifs p ⟨some d⟩ s.wifi
  obtain ⟨hdrivers, hrx⟩ := destroy_with_driver p hd
  have hcurrent : (espNetifDestroyDefaultWifi p ⟨some d⟩ s.wifi).defaultNetifs =
      fun k' => if r.current k' = some p then none else r.current k' := by
    funext k'
    rw [destroy_defaultNetifs, h.current]
  have hfn : (s.destroy p ⟨some d⟩).sRxFn = update s.sRxFn k none := by
    simp [Path.destroy, hd]
  have hnext : r.next (.destroy p) = { r with
      kind := update r.kind p none
      current := fun k' => if r.current k' = some p then none else r.current k'
      listener := update r.listener k none } := by
    simp [Routes.next, hk]
  rw [hnext]
  refine { h with current := hcurrent, handlers := ?_, absent := ?_, present := ?_, about := ?_,
                  silent := ?_, listening := ?_ }
  · -- an interface of the driver that is left in the table keeps the handlers
    intro k' hleft
    have hset := h.handlers k' (by
      have hleft : (if r.current k' = some p then none else r.current k').isSome := hleft
      split at hleft
      · cases hleft
      · exact hleft)
    show (if _ then _ else _) = true
    rw [if_neg, hset]
    rintro ⟨hsta, hap⟩
    have hnone : (espNetifDestroyDefaultWifi p ⟨some d⟩ s.wifi).defaultNetifs k' = none := by
      cases k' with
      | sta => exact hsta
      | ap => exact hap
    have hnone := (congrFun hcurrent k').symm.trans hnone
    exact Option.not_isSome_iff_eq_none.mpr hnone hleft
  · intro q hq
    have hq : update r.kind p none q = none := hq
    show (espNetifDestroyDefaultWifi p ⟨some d⟩ s.wifi).netifs q = none
    rw [hnetifs]
    by_cases hqp : q = p
    · rw [hqp, Function.update_self]
    · rw [Function.update_of_ne hqp] at hq ⊢
      exact h.absent q hq
  · intro q k' hq
    have hq : update r.kind p none q = some k' := hq
    have hqp : q ≠ p := by
      rintro rfl
      rw [Function.update_self] at hq
      cases hq
    rw [Function.update_of_ne hqp] at hq
    obtain ⟨d', hn', hd'⟩ := h.present q k' hq
    have hdd : d' ≠ d := by
      rintro rfl
      cases hd.symm.trans hd'
      exact hqp rfl
    refine ⟨d', ?_, ?_⟩
    · show (espNetifDestroyDefaultWifi p ⟨some d⟩ s.wifi).netifs q = _
      rw [hnetifs, Function.update_of_ne hqp, hn']
    · show (espNetifDestroyDefaultWifi p ⟨some d⟩ s.wifi).drivers d' = _
      rw [hdrivers, Function.update_of_ne hdd, hd']
  · intro k' q hq
    have hsome : (if r.current k' = some p then none else r.current k') = some q := hq
    split at hsome
    · cases hsome
    · rename_i hne
      have hqp : q ≠ p := fun heq => hne (heq ▸ hsome)
      exact (Function.update_of_ne hqp _ _).trans (h.about k' q hsome)
  · intro k' hl
    rw [hfn]
    have hl : update r.listener k none k' = none := hl
    by_cases hkk : k' = k
    · rw [hkk, Function.update_self]
    · rw [Function.update_of_ne hkk] at hl ⊢
      exact h.silent k' hl
  · intro k' q hl
    have hl : update r.listener k none k' = some q := hl
    have hkk : k' ≠ k := by
      rintro rfl
      rw [Function.update_self] at hl
      cases hl
    rw [Function.update_of_ne hkk] at hl
    obtain ⟨hq, hfn', hcb, hnetif⟩ := h.listening k' q hl
    have hqp : q ≠ p := by
      rintro rfl
      exact hkk (Option.some.inj (hq.symm.trans hk))
    refine ⟨?_, ?_, hcb, ?_⟩
    · exact (Function.update_of_ne hqp _ _).trans hq
    · rw [hfn, Function.update_of_ne hkk, hfn']
    · show (espNetifDestroyDefaultWifi p ⟨some d⟩ s.wifi).rxNetifs k' = some q
      rw [hrx, Function.update_of_ne hkk, hnetif]

/-- Every step of the three files is a step of the route table. -/
theorem Sim.step (h : Sim r s) {a : PathAction} (hstep : s.step a = some s') :
    Sim (r.next a) s' := by
  cases a with
  | channelSet ifx c txCb =>
    cases hstep
    have hchannel : update s.sChannel ifx c = update r.channel ifx c := by rw [h.channel]
    have htx : update s.sTxCb ifx txCb = update r.txCb ifx txCb := by rw [h.txCb]
    exact { h with channel := hchannel, txCb := htx }
  | create k netif memory registered =>
    rw [Path.step] at hstep
    split at hstep
    · rename_i hfresh
      obtain ⟨wifi, hcreate, rfl⟩ := Option.map_eq_some_iff.mp hstep
      exact h.create hfresh hcreate
    · cases hstep
  | destroy p =>
    obtain ⟨netif, hnetif, rfl⟩ := Option.map_eq_some_iff.mp hstep
    exact h.destroy hnetif
  | event e =>
    cases hstep
    exact h.event e
  | rx c =>
    cases hstep
    rw [h.rx]
    exact h.emit _
  | tx p =>
    rw [Path.step] at hstep
    split at hstep
    · rename_i hp
      cases hstep
      obtain ⟨k, hk⟩ := Option.isSome_iff_exists.mp ((h.exists_iff p).mp hp)
      have hnext : r.next (.tx p) = r.emit (r.tx k) := by simp [Routes.next, hk]
      rw [h.tx hk, hnext]
      exact h.emit _
    · cases hstep

end Steps

/-! ## Runs -/

/-- What the calls and events of a run amount to -/
def routes (actions : List PathAction) : Routes := actions.foldl Routes.next .init

/-- When an interface sends, the transport has set the channel. -/
def Path.Connected (s : Path) : PathAction → Prop
  | .tx p => ∀ driver ∈ s.ioDriver p, (s.sTxCb driver.wifiIf).isSome
  | _ => True

instance (s : Path) : (a : PathAction) → Decidable (s.Connected a)
  | .tx p => inferInstanceAs (Decidable (∀ driver ∈ s.ioDriver p, (s.sTxCb driver.wifiIf).isSome))
  | .channelSet .. | .create .. | .destroy _ | .event _ | .rx _ => .isTrue trivial

section Runs

variable {r : Routes} {s s' t : Path} {a : PathAction} {actions : List PathAction}

/-- An output is a fault, or the faults are those of before. -/
theorem fault_mem_emit {o : Output} : .fault ∈ (r.emit o).log ↔ .fault ∈ r.log ∨ o = .fault := by
  simp [Routes.emit, eq_comm]

/-- No event is a fault. -/
theorem fault_mem_event (e : WifiEvent) (p : NetifPtr) :
    .fault ∈ (r.event e p).log ↔ .fault ∈ r.log := by
  cases e with
  | staStart mac => cases mac <;> simp [Routes.event, Routes.emit]
  | apStart mac => cases mac <;> simp [Routes.event, Routes.emit, Routes.listen]
  | staConnected => simp [Routes.event, Routes.emit, Routes.listen]
  | staStop => simp [Routes.event, Routes.emit]
  | apStop => simp [Routes.event, Routes.emit]
  | staDisconnected => simp [Routes.event, Routes.emit]
  | staGotIp => simp [Routes.event, Routes.emit]

/-- No received frame is a fault. -/
theorem rx_ne_fault (c : Channel) : r.rx c ≠ .fault := by
  rw [Routes.rx]
  split <;> exact Output.noConfusion

/-- A step adds a fault exactly if it sends through an unconnected interface. -/
theorem Sim.fault_iff (h : Sim r s) (hstep : s.step a = some s') :
    .fault ∈ (r.next a).log ↔ .fault ∈ r.log ∨ ¬ s.Connected a := by
  cases a with
  | channelSet ifx c txCb => simp [Routes.next, Path.Connected]
  | create k netif memory registered => cases netif <;> simp [Routes.next, Path.Connected]
  | destroy p => cases hp : r.kind p <;> simp [Routes.next, Path.Connected, hp]
  | event e =>
    cases hp : r.current e.wifiIf with
    | none => simp [Routes.next, Path.Connected, hp]
    | some p => simp [Routes.next, Path.Connected, hp, fault_mem_event]
  | rx c => simp [Routes.next, Path.Connected, fault_mem_emit, rx_ne_fault]
  | tx p =>
    rw [Path.step] at hstep
    split at hstep
    · rename_i hp
      obtain ⟨k, hk⟩ := Option.isSome_iff_exists.mp ((h.exists_iff p).mp hp)
      have hfault : r.tx k = .fault ↔ ¬ s.Connected (.tx p) := by
        rw [Routes.tx, Path.Connected, h.ioDriver hk, h.txCb]
        cases htx : r.txCb k <;> simp [htx]
      simp only [Routes.next, hk, fault_mem_emit, hfault]
    · cases hstep

/-- A run is free of faults exactly if it sends through connected interfaces only. -/
theorem fault_iff (hsim : Sim r s) (h : Machine.exec Path.step s actions = some t) :
    .fault ∈ (actions.foldl Routes.next r).log ↔
      .fault ∈ r.log ∨ ¬ Machine.Along Path.step Path.Connected s actions := by
  induction actions generalizing r s with
  | nil => simp [Machine.Along]
  | cons a actions ih =>
    obtain ⟨s', hstep, h⟩ := Machine.exec_cons_some.mp h
    rw [List.foldl_cons, ih (hsim.step hstep) h, hsim.fault_iff hstep, Machine.Along, hstep]
    tauto

end Runs

/-- However default interfaces come and go, events happen and the transport sets its channels: each
frame is given to the interface that its channel leads to, if any, and sent on the channel of its
interface; the interface is alive and of the right kind; and nothing goes wrong unless an interface
sends before there is a channel. -/
theorem frames_routed (actions : List PathAction) (t : Path)
    (h : Machine.exec Path.step .init actions = some t) :
    t.log = (routes actions).log ∧
      (∀ k p, (routes actions).listener k = some p →
        (routes actions).kind p = some k ∧ (t.wifi.netifs p).isSome) ∧
      (.fault ∉ t.log ↔ Machine.Along Path.step Path.Connected .init actions) := by
  have hsim : Sim (routes actions) t :=
    Machine.exec_fold (fun r s a s' hstep hr => hr.step hstep) h sim_init
  refine ⟨hsim.log, fun k p hl => ?_, ?_⟩
  · have hkind := (hsim.listening k p hl).1
    exact ⟨hkind, (hsim.exists_iff p).mpr (by simp [hkind])⟩
  · rw [hsim.log, routes, fault_iff sim_init h]
    simp [Routes.init]

/-- A station that connects, gets frames and answers, and is replaced by another one -/
def stationReplaced : List PathAction :=
  [.channelSet .sta (some 5) (some 6), .create .sta (some 1) (some 1) true, .rx 5,
    .event (.staStart true), .event .staConnected, .rx 5, .tx 1, .destroy 1, .rx 5,
    .create .sta (some 1) (some 1) true, .event .staConnected, .rx 5]

/-- The run of `stationReplaced`: the second station takes over. -/
theorem frames_routed_stationReplaced : ∃ t,
    Machine.exec Path.step .init stationReplaced = some t ∧
      t.log = [.failed, .action 1 .start, .action 1 .connected, .delivered 1, .sent (some 5) 6,
        .failed, .action 1 .connected, .delivered 1] ∧
      .fault ∉ t.log := by
  obtain ⟨t, ht⟩ := Option.isSome_iff_exists.mp
    (show (Machine.exec Path.step .init stationReplaced).isSome by decide +kernel)
  obtain ⟨hlog, -, hfault⟩ := frames_routed stationReplaced t ht
  exact ⟨t, ht, hlog.trans (by decide +kernel), hfault.mpr (by decide +kernel)⟩

end PicoHost.Wifi
