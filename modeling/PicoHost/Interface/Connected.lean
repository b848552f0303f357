import PicoHost.Interface.LostIp

/-!
# The got-IP events and what they are compared with (`esp_netif_handlers.c`)

`esp_netif_action_connected` runs outside the lwIP task: it is a row of calls, and a call of
another task may come between two of them (`Connecting`). The other places that post a got-IP event
are single calls of the lwIP task.

`Tracked` puts the handlers under way beside the interfaces, and for each interface the address
that its next got-IP event is to be compared with (`reference`). The flag of the events is judged
against it, not against `ip_info_old`.
-/

namespace PicoHost.Interface

open Dhcps (NetifPtr)

variable {κ : Type}

/-! ## `esp_netif_action_connected` -/

/-- `esp_netif_is_valid_static_ip` -/
def espNetifIsValidStaticIp (info : IpInfo) : Bool := !(info.ip = 0 || info.netmask = 0)

/-- What a call of `esp_netif_action_connected` does next; the last two calls are about the event
it has put together. -/
inductive Connecting where
  | up
  | dhcpcGetStatus
  | dhcpcStart
  | getIpInfo
  | getOldIpInfo (ip : IpInfo)
  | setOldIpInfo (ip : IpInfo) (ipChanged : Bool)
  | eventPost (ip : IpInfo) (ipChanged : Bool)
  | returned
deriving DecidableEq, Repr

namespace Connecting

/-- What comes after it, by what it reads of the interface (esp_netif_handlers.c:41–77) -/
def next (n : EspNetif κ) : Connecting → Connecting
  | up => dhcpcGetStatus
  | dhcpcGetStatus =>
    if n.flags.dhcpClient && !n.flags.dhcpServer then
      match n.dhcpcStatus with
      | .init => dhcpcStart
      | .started => returned
      | .stopped => getIpInfo
    else returned
  | dhcpcStart => returned
  | getIpInfo => getOldIpInfo (espNetifGetIpInfo n)
  | getOldIpInfo ip =>
    if espNetifIsValidStaticIp ip then setOldIpInfo ip (decide (ip ≠ n.ipInfoOld)) else returned
  | setOldIpInfo ip ipChanged => eventPost ip ipChanged
  | eventPost _ _ => returned
  | returned => returned

/-- What it does to the interface `n` at `p`. `mutex` is for the update of the default. -/
def run (lwip : Lwip κ) (w : World κ) (p : NetifPtr) (n : EspNetif κ) (mutex : Bool) :
    Connecting → Option (World κ)
  | up => w.espNetifCall lwip p .up mutex
  | dhcpcStart => w.espNetifCall lwip p .dhcpcStart mutex
  | setOldIpInfo ip _ => some (w.set p { n with ipInfoOld := ip })
  | eventPost ip ipChanged => some (w.perform p [.post (.gotIp n.getIpEvent ip ipChanged)])
  | dhcpcGetStatus | getIpInfo | getOldIpInfo _ => some w
  | returned => none

/-- It has read `ip_info_old`, and the event that it has compared with it is not posted yet. -/
def holdsEvent : Connecting → Bool
  | setOldIpInfo .. | eventPost .. => true
  | _ => false

/-- It reads `ip_info_old`. -/
def readsOld : Connecting → Bool
  | getOldIpInfo _ => true
  | _ => false

end Connecting

/-! ## Runs with the handlers -/

/-- A step of the interfaces, the start of a handler, or the next call of a handler -/
inductive TaskAction (κ : Type) where
  | world (a : World.Action κ)
  | connected (p : NetifPtr)
  | resume (t : Nat) (mutex : Bool)
deriving DecidableEq

/-- The interfaces, the handlers that have been started with what each does next, and the address
that the next got-IP event of an interface is to be compared with. -/
structure Tracked (κ : Type) where
  world : World κ
  handlers : List (NetifPtr × Connecting)
  reference : NetifPtr → IpInfo

/-- The events about `p` -/
def eventsOf (p : NetifPtr) (events : List (IpEvent × NetifPtr)) : List IpEvent :=
  (events.filter fun e => e.2 = p).map Prod.fst

/-- The address that a got-IP event announces is the reference for the next one. -/
def refer : IpInfo → IpEvent → IpInfo
  | _, .gotIp _ info _ => info
  | r, .lostIp _ | r, .gotIp6 => r

/-- Every got-IP event says that the address has changed exactly if it is not the reference. -/
def FlagsRight : IpInfo → List IpEvent → Prop
  | _, [] => True
  | r, .gotIp _ info ipChanged :: es => (ipChanged = true ↔ info ≠ r) ∧ FlagsRight info es
  | r, .lostIp _ :: es | r, .gotIp6 :: es => FlagsRight r es

/-- `esp_netif_ip_lost_timer` would find the interface in the list and without an address. -/
def World.findsNoAddress (w : World κ) (p : NetifPtr) : Bool :=
  decide (p ∈ w.list) && (w.heap p).any fun n => decide (n.lwip.addr.ip = 0)

/-- `esp_netif_ip_lost_timer` runs for `p`. -/
def World.Action.expiresAt (p : NetifPtr) : World.Action κ → Bool
  | .timeout .ipLost q => decide (q = p)
  | _ => false

namespace Tracked

def init : Tracked κ := ⟨World.init, [], fun _ => .any⟩

/-- What the events of a step are compared with: the initial configuration after a creation, zero
after an expired timer that finds no address, and otherwise what the last events left. -/
def compared (s : Tracked κ) (w' : World κ) (a : World.Action κ) (p : NetifPtr) : IpInfo :=
  if a.createsAt p then ((w'.heap p).map EspNetif.ipInfo).getD .any
  else if a.expiresAt p && s.world.findsNoAddress p then .any
  else s.reference p

/-- The reference after the events of a step, from what they are compared with -/
def referenceAfter (s : Tracked κ) (w' : World κ) (r : NetifPtr → IpInfo) (p : NetifPtr) : IpInfo :=
  (eventsOf p (Watched.posted s.world w')).foldl refer (r p)

def step (lwip : Lwip κ) (s : Tracked κ) : TaskAction κ → Option (Tracked κ)
  | .world a => (s.world.step lwip a).map fun w =>
    { s with world := w, reference := s.referenceAfter w (s.compared w a) }
  | .connected p => some { s with handlers := s.handlers ++ [(p, .up)] }
  | .resume t mutex =>
    match s.handlers[t]? with
    | none => none
    | some (p, c) =>
      match s.world.heap p with
      | none => none
      | some n => (c.run lwip s.world p n mutex).map fun w =>
        { world := w, handlers := s.handlers.set t (p, c.next n),
          reference := s.referenceAfter w s.reference }

/-- Every got-IP event of the step says rightly whether the address has changed. -/
def IpChangedOk (s : Tracked κ) (a : TaskAction κ) (s' : Tracked κ) : Prop :=
  ∀ p, FlagsRight (match a with
    | .world a => s.compared s'.world a p
    | _ => s.reference p) (eventsOf p (Watched.posted s.world s'.world))

end Tracked

/-! ## What may not come between -/

/-- `esp_netif_set_ip_info` accepts the address, gives it to lwIP and announces it. -/
def EspNetif.AnnouncesStatic (n : EspNetif κ) (info : IpInfo) : Prop :=
  ¬ n.RefusesIpInfo ∧ n.lwip.isUp = true ∧ n.flags.eventIpModified = true ∧
    info.ip ≠ 0 ∧ info.netmask ≠ 0 ∧ info.gw ≠ 0

/-- `esp_netif_internal_dhcpc_cb` is called for the address and announces it. -/
def EspNetif.AnnouncesDhcp (n : EspNetif κ) (registered : Bool) (addr : IpInfo) : Prop :=
  registered = true ∧ addr ≠ n.lwip.addr ∧ addr.ip ≠ 0 ∧ addr ≠ n.ipInfo

instance decidableAnnouncesStatic (n : EspNetif κ) (info : IpInfo) :
    Decidable (n.AnnouncesStatic info) :=
  inferInstanceAs (Decidable (¬ n.RefusesIpInfo ∧ n.lwip.isUp = true ∧
    n.flags.eventIpModified = true ∧ info.ip ≠ 0 ∧ info.netmask ≠ 0 ∧ info.gw ≠ 0))

instance decidableAnnouncesDhcp (n : EspNetif κ) (registered : Bool) (addr : IpInfo) :
    Decidable (n.AnnouncesDhcp registered addr) :=
  inferInstanceAs (Decidable (registered = true ∧ addr ≠ n.lwip.addr ∧ addr.ip ≠ 0 ∧
    addr ≠ n.ipInfo))

/-- The step is about `p`, and it announces an address, finds none when the timer expires, or
creates the interface. -/
def World.Rebases (w : World κ) (p : NetifPtr) : World.Action κ → Prop
  | .new q _ _ => q = p
  | .call (some q) (.setIpInfo (some info)) _ => q = p ∧ ∃ n ∈ w.heap p, n.AnnouncesStatic info
  | .addressChange q addr _ _ => q = p ∧ ∃ n ∈ w.heap p, n.AnnouncesDhcp w.callback addr
  | .timeout .ipLost q => q = p ∧ w.findsNoAddress p = true
  | _ => False

/-- While a handler is between its read of `ip_info_old` and its event, nothing else announces an
address of its interface or resets `ip_info_old`, and no other handler reads it. -/
def Tracked.Undisturbed (s : Tracked κ) : TaskAction κ → Prop
  | .world a => ∀ x ∈ s.handlers, x.2.holdsEvent = true → ¬ s.world.Rebases x.1 a
  | .connected _ => True
  | .resume t _ => ∀ x ∈ s.handlers[t]?, x.2.readsOld = true →
    ∀ y ∈ s.handlers, y.2.holdsEvent = true → y.1 ≠ x.1

end PicoHost.Interface
