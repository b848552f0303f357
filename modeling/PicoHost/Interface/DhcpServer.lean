import PicoHost.Interface.Create
import PicoHost.Lib.Run

/-!
# The DHCP server of an interface

`dhcps_status` and the state of the `dhcps` handle are two copies of one fact. They agree after
every call. But `esp_netif_stop` leaves the server running when the interface is down, and only
then (`agrees_iff`).
-/

namespace PicoHost.Interface

open Dhcps (NetifPtr PcbPtr)

variable {κ : Type} {lwip : Lwip κ} {p : NetifPtr} {n n' : EspNetif κ}

/-- The handle is in state `DHCPS_HANDLE_STARTED`. -/
def EspNetif.dhcpsRunning (n : EspNetif κ) : Bool :=
  n.dhcps.any fun s => decide (s.dhcps.state = .started)

/-- The status says whether the server is running, and a server that is running serves this
interface. -/
structure Agrees (p : NetifPtr) (n : EspNetif κ) : Prop where
  status : n.dhcpsStatus = .started ↔ n.dhcpsRunning = true
  netif : ∀ s, n.dhcps = some s → s.dhcps.state = .started → s.dhcps.dhcpsNetif = some p

section Agrees

/-- Only the server and its status matter. -/
theorem Agrees.of_server (a : Agrees p n) (h : n'.server = n.server) : Agrees p n' := by
  have hdhcps : n'.dhcps = n.dhcps := congrArg Prod.fst h
  have hstatus : n'.dhcpsStatus = n.dhcpsStatus := congrArg Prod.snd h
  constructor
  · rw [hstatus, EspNetif.dhcpsRunning, hdhcps]
    exact a.status
  · rw [hdhcps]
    exact a.netif

/-- The code about addresses keeps the agreement. -/
theorem Agrees.of_rest (a : Agrees p n) (h : n'.rest = n.rest) : Agrees p n' :=
  a.of_server (EspNetif.server_of_rest h)

/-- A server that is not said to run and does not run agrees. -/
theorem agrees_of_stopped (hstatus : n.dhcpsStatus ≠ .started)
    (hrunning : n.dhcpsRunning = false) : Agrees p n where
  status := ⟨fun h => absurd h hstatus, fun h => absurd (hrunning.symm.trans h) (by decide)⟩
  netif s hs hstate := by
    simp [EspNetif.dhcpsRunning, hs, hstate] at hrunning

/-- A new interface has a server that does not run. -/
theorem agrees_created {base : InherentConfig} {key : Option String}
    (h : Created lwip base key n) : Agrees p n := by
  refine agrees_of_stopped (fun hs => nomatch h.dhcpsStatus.symm.trans hs) ?_
  unfold EspNetif.dhcpsRunning
  rcases h.dhcps with hd | hd
  · rw [hd]
    rfl
  · rw [hd]
    rfl

/-! ## The calls of the server -/

/-- Computing the pool leaves the interface of the server. -/
theorem dhcpsPollSet_state (d : Dhcps.DhcpsT) (ip : UInt32) :
    (Dhcps.dhcpsPollSet d ip).dhcpsNetif = d.dhcpsNetif := by
  unfold Dhcps.dhcpsPollSet
  split <;> rfl

/-- A start that succeeds serves the interface; one that fails leaves the state alone. -/
theorem dhcpsStart_state (s : Dhcps.Server) (ip : UInt32) (udpNew : Option PcbPtr) :
    let r := Dhcps.dhcpsStart s (some p) ip udpNew
    (r.2.1 = true ∧ r.1.dhcps.state = .started ∧ r.1.dhcps.dhcpsNetif = some p) ∨
      (r.2.1 = false ∧ r.1.dhcps.state = s.dhcps.state) := by
  unfold Dhcps.dhcpsStart
  dsimp only
  cases udpNew with
  | none => exact .inr ⟨rfl, rfl⟩
  | some pcb =>
    dsimp only
    split
    · exact .inr ⟨rfl, rfl⟩
    · split
      · exact .inr ⟨rfl, rfl⟩
      · exact .inl ⟨rfl, rfl, dhcpsPollSet_state _ _⟩

/-- The status after a start is that of the server. -/
theorem startDhcps_agrees {udpNew : Option PcbPtr} (hrunning : n.dhcpsRunning = false) :
    Agrees p (startDhcps p udpNew n).2 := by
  unfold startDhcps
  cases hs : n.dhcps with
  | none =>
    refine agrees_of_stopped nofun ?_
    simp only [EspNetif.dhcpsRunning]
    rfl
  | some s =>
    have hstate : s.dhcps.state ≠ .started := by
      simpa [EspNetif.dhcpsRunning, hs] using hrunning
    dsimp only
    rcases dhcpsStart_state (p := p) (dhcpsSetSubnetMask s n.ipInfo.netmask) n.ipInfo.ip udpNew
      with ⟨hok, hstarted, hnetif⟩ | ⟨hok, hsame⟩
    · rw [if_pos hok]
      refine ⟨⟨fun _ => decide_eq_true hstarted, fun _ => rfl⟩, fun s' hs' _ => ?_⟩
      exact Option.some.inj hs' ▸ hnetif
    · rw [if_neg (by rw [hok]; exact Bool.false_ne_true)]
      refine agrees_of_stopped nofun ?_
      exact decide_eq_false fun h => hstate (hsame.symm.trans h)

/-- After `dhcps_stop` the server is not running, and if it was, the stop has succeeded. -/
theorem stopDhcps_stopped (a : Agrees p n) :
    (stopDhcps p n).2.dhcpsRunning = false ∧
      (n.dhcpsRunning = true → (stopDhcps p n).1 = true) := by
  unfold stopDhcps
  cases hs : n.dhcps with
  | none =>
    simp only [EspNetif.dhcpsRunning, hs]
    exact ⟨rfl, fun h => nomatch h⟩
  | some s =>
    dsimp only [EspNetif.dhcpsRunning]
    rw [hs]
    unfold Dhcps.dhcpsStop
    by_cases hnetif : s.dhcps.dhcpsNetif = some p
    · rw [if_neg (by simp [hnetif])]
      exact ⟨rfl, fun _ => rfl⟩
    · rw [if_pos (.inr hnetif)]
      have hstate : s.dhcps.state ≠ .started := fun h => hnetif (a.netif s hs h)
      exact ⟨decide_eq_false hstate, fun h => absurd (of_decide_eq_true h) hstate⟩

variable {registered : Bool}

/-- Stopping DHCP on an interface with the server flag stops the server. -/
theorem stopDhcp_stopped (a : Agrees p n) (hflag : n.flags.dhcpServer = true) :
    (stopDhcp lwip registered p n).1.dhcpsStatus ≠ .started ∧
      (stopDhcp lwip registered p n).1.dhcpsRunning = false := by
  unfold stopDhcp
  rw [if_pos hflag]
  dsimp only
  split
  · exact ⟨nofun, (stopDhcps_stopped a).1⟩
  · rename_i h
    simp only [Bool.or_eq_true, Bool.not_eq_true', decide_eq_true_eq, not_or, not_not] at h
    exact ⟨fun hs => (nomatch h.2.symm.trans hs), (stopDhcps_stopped a).1⟩

/-- Stopping DHCP keeps the agreement. -/
theorem stopDhcp_agrees (a : Agrees p n) : Agrees p (stopDhcp lwip registered p n).1 := by
  cases hflag : n.flags.dhcpServer with
  | true =>
    have hstopped : (stopDhcp lwip registered p n).1.dhcpsStatus ≠ .started ∧
        (stopDhcp lwip registered p n).1.dhcpsRunning = false := stopDhcp_stopped a hflag
    exact agrees_of_stopped hstopped.1 hstopped.2
  | false =>
    refine a.of_rest ?_
    unfold stopDhcp
    rw [if_neg (by rw [hflag]; exact Bool.false_ne_true)]
    split
    · exact (netifCallbackFn_rest ..).trans (netifCallbackFn_rest ..)
    · rfl

/-- Every call keeps the two copies in agreement. -/
theorem run_agrees {call : ApiCall} {r : Call κ} (a : Agrees p n)
    (h : call.run lwip registered p n = some r) : Agrees p r.netif := by
  have hnot : n.dhcpsStatus ≠ .started → n.dhcpsRunning = false := fun hne =>
    Bool.eq_false_iff.mpr fun hr => hne (a.status.mpr hr)
  cases call with
  | start udpNew malloc =>
    obtain ⟨n₀, n₁, hadd, rfl, -, h⟩ := startApi_cases h
    have a₁ : Agrees p (startAutoup lwip n₀) :=
      a.of_server (congrArg (fun r => r.2.1)
        ((startAutoup_rest lwip n₀).trans (lwipAdd_rest hadd)))
    rcases h with ⟨-, hstatus, -, h, -⟩ | ⟨h, -⟩ | ⟨-, -, h | h⟩
    · -- the server is started, from the status INIT only
      rw [h]
      refine startDhcps_agrees (Bool.eq_false_iff.mpr fun hr => ?_)
      exact nomatch hstatus.symm.trans (a₁.status.mpr hr)
    · exact h ▸ a₁
    · exact h ▸ a₁
    · exact h ▸ a₁.of_rest rfl
  | stop =>
    cases h
    dsimp only [espNetifStopApi]
    split
    · have ha : Agrees p (stopDhcp lwip registered p n).1 := stopDhcp_agrees a
      exact ha.of_server rfl
    · -- an interface that is down: neither copy is touched
      exact a.of_server rfl
  | up => cases h; exact a.of_rest upApi_rest
  | down => cases h; exact a.of_rest downApi_rest
  | dhcpcStart => cases h; exact a.of_rest dhcpcStartApi_rest
  | dhcpcStop => cases h; exact a.of_rest dhcpcStopApi_rest
  | dhcpsStart udpNew =>
    cases h
    dsimp only [espNetifDhcpsStartApi]
    split
    · exact a
    · rename_i hne
      split
      · exact startDhcps_agrees (hnot hne)
      · exact agrees_of_stopped nofun (hnot hne)
  | dhcpsStop =>
    cases h
    dsimp only [espNetifDhcpsStopApi]
    split
    · rename_i hstarted
      have hok := (stopDhcps_stopped a).2 (a.status.mp hstarted)
      rw [if_pos hok]
      exact agrees_of_stopped nofun (stopDhcps_stopped a).1
    · rename_i hinit
      exact agrees_of_stopped nofun (hnot fun hs => nomatch hinit.symm.trans hs)
    · exact a
  | setIpInfo info => cases h; exact a.of_rest (setIpInfoApi_rest info)
  | setDefaultNetif => cases h; exact a

/-- After `esp_netif_stop` the server is running exactly if it was and the interface was down. -/
theorem stopApi_running (a : Agrees p n) (hflag : n.flags.dhcpServer = true) :
    (espNetifStopApi lwip registered p n).netif.dhcpsRunning = true ↔
      n.lwip.isUp = false ∧ n.dhcpsStatus = .started := by
  dsimp only [espNetifStopApi]
  split
  · rename_i hup
    have hstopped : (stopDhcp lwip registered p n).1.dhcpsRunning = false :=
      (stopDhcp_stopped a hflag).2
    exact ⟨fun h => absurd (hstopped.symm.trans h) (by decide),
      fun h => absurd (hup.symm.trans h.1) (by decide)⟩
  · rename_i hup
    rw [a.status]
    exact ⟨fun h => ⟨Bool.eq_false_iff.mpr hup, h⟩, fun h => h.2⟩

end Agrees

/-! ## Every run -/

namespace World

/-- After the step the two copies agree on every interface with the flag, and a server whose
interface was just stopped is not running. -/
structure ServerOk (a : Action κ) (w' : World κ) : Prop where
  agrees : ∀ p n, w'.heap p = some n → n.flags.dhcpServer = true →
    (n.dhcpsStatus = .started ↔ n.dhcpsRunning = true)
  stopped : ∀ p mutex, a = .call (some p) .stop mutex → ∀ n, w'.heap p = some n →
    n.flags.dhcpServer = true → n.dhcpsRunning = false

/-- `esp_netif_stop` finds the interface up, or its DHCP server not started. -/
def StopsServer (w : World κ) : Action κ → Prop
  | .call (some p) .stop _ => ∀ n ∈ w.heap p, n.flags.dhcpServer = true →
      n.lwip.isUp = true ∨ n.dhcpsStatus ≠ .started
  | _ => True

section Run

variable {w w' : World κ}

/-- Every step keeps the agreement of every interface. -/
theorem step_agrees {a : Action κ} (hw : ∀ p n, w.heap p = some n → Agrees p n)
    (h : w.step lwip a = some w') : ∀ p n, w'.heap p = some n → Agrees p n := by
  intro q n' hq
  rcases step_heap_cases h hq with hq | ⟨_, _, _, _, -, hn⟩ | ⟨n, _, _, r, -, hn, hr, rfl⟩ |
    ⟨n, _, _, _, -, hn, rfl⟩ | ⟨n, -, -, hn, rfl⟩
  · exact hw q n' hq
  · exact agrees_created hn
  · exact run_agrees (hw q n hn) hr
  · exact (hw q n hn).of_rest (netifCallbackFn_rest ..)
  · exact (hw q n hn).of_rest ipLostTimer_rest

/-- The interface that `esp_netif_stop` leaves -/
theorem step_stop {mutex : Bool} {n' : EspNetif κ}
    (h : w.step lwip (.call (some p) .stop mutex) = some w') (hp : w'.heap p = some n') :
    ∃ n, w.heap p = some n ∧ n' = (espNetifStopApi lwip w.callback p n).netif := by
  have h : w.espNetifCall lwip p .stop mutex = some w' := h
  obtain ⟨n, r, last, overridden, lock, hn, hr, rfl, -⟩ := espNetifCall_frame h
  cases hr
  exact ⟨n, hn, (Option.some.inj ((set_heap _).symm.trans hp)).symm⟩

/-- A step that stops the server it must stop is right. -/
theorem serverOk_of_stopsServer {a : Action κ} (hw : ∀ p n, w.heap p = some n → Agrees p n)
    (ha : StopsServer w a) (h : w.step lwip a = some w') : ServerOk a w' where
  agrees p n hn _ := (step_agrees hw h p n hn).status
  stopped := by
    rintro p mutex rfl n' hp hflag
    obtain ⟨n, hn, rfl⟩ := step_stop h hp
    have hflags : (espNetifStopApi lwip w.callback p n).netif.flags = n.flags :=
      congrArg Prod.fst stopApi_config
    rw [hflags] at hflag
    rw [Bool.eq_false_iff, ne_eq, stopApi_running (hw p n hn) hflag]
    rintro ⟨hdown, hstarted⟩
    rcases ha n hn hflag with hup | hne
    · exact absurd (hup.symm.trans hdown) (by decide)
    · exact hne hstarted

/-- A step that leaves a server running is not. -/
theorem not_serverOk_of_not_stopsServer {a : Action κ}
    (hw : ∀ p n, w.heap p = some n → Agrees p n) (ha : ¬ StopsServer w a)
    (h : w.step lwip a = some w') : ¬ ServerOk a w' := by
  intro hok
  cases a with
  | call p call mutex =>
    cases p with
    | none => exact ha trivial
    | some p =>
      cases call with
      | stop =>
        simp only [StopsServer, not_forall, not_or, not_not] at ha
        obtain ⟨n, hn, hflag, hdown, hstarted⟩ := ha
        have hn : w.heap p = some n := hn
        have hrunning : (espNetifStopApi lwip w.callback p n).netif.dhcpsRunning = true :=
          (stopApi_running (hw p n hn) hflag).mpr ⟨Bool.eq_false_iff.mpr hdown, hstarted⟩
        have h : w.espNetifCall lwip p .stop mutex = some w' := h
        obtain ⟨n₁, r, last, overridden, lock, hn₁, hr, rfl, -⟩ := espNetifCall_frame h
        cases hr
        cases hn.symm.trans hn₁
        have hflags : (espNetifStopApi lwip w.callback p n).netif.flags = n.flags :=
          congrArg Prod.fst stopApi_config
        have hstopped := hok.stopped p mutex rfl _ (set_heap _) (by rw [hflags]; exact hflag)
        exact absurd (hstopped.symm.trans hrunning) (by decide)
      | start | up | down | dhcpcStart | dhcpcStop | dhcpsStart | dhcpsStop | setIpInfo
      | setDefaultNetif => exact ha trivial
  | new | destroy | addressChange | ip6Valid | timeout => exact ha trivial

/-- After every call the two copies agree and stopped servers are not running, exactly if no
interface was stopped while it was down and its server started. -/
theorem agrees_iff (lwip : Lwip κ) (actions : List (Action κ)) (w : World κ)
    (h : Machine.exec (World.step lwip) World.init actions = some w) :
    Machine.Each (World.step lwip) (fun _ a w => ServerOk a w) World.init actions ↔
      Machine.Along (World.step lwip) StopsServer World.init actions :=
  Machine.each_iff_along
    (I := fun w : World κ => ∀ p n, w.heap p = some n → Agrees p n)
    (fun _ _ _ ha h hw => ⟨step_agrees hw h, serverOk_of_stopsServer hw ha h⟩)
    (fun _ _ _ ha h hw => not_serverOk_of_not_stopsServer hw ha h) h
    (fun _ n h => absurd h (Option.some_ne_none n).symm)

end Run

instance decidableStopsServer (w : World κ) : ∀ a, Decidable (StopsServer w a)
  | .call (some p) .stop _ => inferInstanceAs (Decidable (∀ n ∈ w.heap p,
      n.flags.dhcpServer = true → n.lwip.isUp = true ∨ n.dhcpsStatus ≠ .started))
  | .call none _ _ | .call (some _) (.start ..) _ | .call (some _) .up _ | .call (some _) .down _
  | .call (some _) .dhcpcStart _ | .call (some _) .dhcpcStop _ | .call (some _) (.dhcpsStart _) _
  | .call (some _) .dhcpsStop _ | .call (some _) (.setIpInfo _) _
  | .call (some _) .setDefaultNetif _ => .isTrue trivial
  | .new .. | .destroy .. | .addressChange .. | .ip6Valid _ | .timeout .. => .isTrue trivial

/-- The access point is started, started again in vain, stopped, and started without memory for a
pcb; its server is then started and stopped by hand. -/
def serverCalls : List (Action Bool) :=
  [.new 0 (some wifiAp.full) .plenty, .call (some 0) (.start (some 7) true) true,
    .call (some 0) (.start (some 8) true) true, .call (some 0) .stop true,
    .call (some 0) (.start none true) true, .call (some 0) .up true,
    .call (some 0) (.dhcpsStart (some 9)) true, .call (some 0) .dhcpsStop true,
    .call (some 0) .down true, .call (some 0) .stop true]

/-- The run of `serverCalls`, with starts and stops of a server -/
theorem agrees_iff_serverCalls : ∃ w,
    Machine.exec (World.step Lwip.simple) World.init serverCalls = some w ∧
      Machine.Each (World.step Lwip.simple) (fun _ a w => ServerOk a w) World.init serverCalls := by
  obtain ⟨w, hw⟩ := Option.isSome_iff_exists.mp
    (show (Machine.exec (World.step Lwip.simple) World.init serverCalls).isSome by decide +kernel)
  exact ⟨w, hw, (agrees_iff Lwip.simple serverCalls w hw).mpr (by decide +kernel)⟩

/-- The access point goes down, and then it is stopped: its server is still running. -/
def stopWhileDown : List (Action Bool) :=
  [.new 0 (some wifiAp.full) .plenty, .call (some 0) (.start (some 7) true) true,
    .call (some 0) .down true, .call (some 0) .stop true]

/-- A stop of the interface while it is down leaves its server running. -/
theorem stopWhileDown_running : ∃ w : World Bool,
    Machine.exec (World.step Lwip.simple) World.init stopWhileDown = some w ∧
      ((w.heap 0).any fun n => n.flags.dhcpServer && n.dhcpsRunning) = true := by
  obtain ⟨w, hw⟩ := Option.isSome_iff_exists.mp
    (show (Machine.exec (World.step Lwip.simple) World.init stopWhileDown).isSome by
      decide +kernel)
  refine ⟨w, hw, ?_⟩
  have hrun : ((Machine.exec (World.step Lwip.simple) World.init stopWhileDown).bind fun w =>
      w.heap 0).any (fun n => n.flags.dhcpServer && n.dhcpsRunning) = true := by decide +kernel
  rw [hw] at hrun
  exact hrun

end World

end PicoHost.Interface
