import PicoHost.Interface.Create
import PicoHost.Lib.Run

/-!
# Gratuitous ARP and MLD reports

`netif_send_garp` and `netif_send_mldv6` arm themselves again; `esp_netif_lwip_remove` removes one
timeout of each. So a second start, or a second valid IPv6 address, leaves a timeout behind. At
most one is pending, and none for a `struct netif` that lwIP has removed, exactly if no timer is
armed while it is pending, nor one for a removed `struct netif` (`reports_iff`).
-/

namespace PicoHost.Interface

open Dhcps (NetifPtr PcbPtr)

variable {κ : Type} {lwip : Lwip κ} {registered : Bool} {p q : NetifPtr} {n n' : EspNetif κ}

/-! ## Pending timeouts -/

namespace World

/-- The effects arm no timer of this kind. -/
def Quiet (t : Timer) (es : List Effect) : Prop := Effect.sysTimeout t ∉ es

/-- Without an arming effect, no more timeouts are pending afterwards. -/
theorem count_timeoutsAfter_le {t : Timer} {es : List Effect} (h : Quiet t es)
    (ts : List (Timer × NetifPtr)) :
    (timeoutsAfter p ts es).count (t, q) ≤ ts.count (t, q) := by
  induction es generalizing ts with
  | nil => exact Nat.le_refl _
  | cons e es ih =>
    obtain ⟨hne, hes⟩ := not_or.mp (List.mem_cons.not.mp h)
    cases e with
    | sysTimeout t' =>
      have ht : ((t', p) == (t, q)) = false :=
        beq_false_of_ne fun heq => hne (congrArg Effect.sysTimeout (congrArg Prod.fst heq).symm)
      refine Nat.le_trans (ih hes _) ?_
      rw [List.count_append, List.count_singleton, ht]
      exact Nat.le_refl _
    | sysUntimeout t' =>
      refine Nat.le_trans (ih hes _) ?_
      rw [List.count_erase]
      exact Nat.sub_le _ _
    | post e => exact ih hes ts

end World

open World (Quiet)

/-! ## The timers that the calls arm -/

section Effects

variable {t : Timer}

/-- Two quiet lists of effects, one after the other -/
theorem quiet_append {es es' : List Effect} (h : Quiet t es) (h' : Quiet t es') :
    Quiet t (es ++ es') := fun hm => (List.mem_append.mp hm).elim h h'

/-- Two quiet pieces of a call, one after the other -/
theorem quiet_andThen {r : Done κ} {f : EspNetif κ → Done κ} (h : Quiet t r.2)
    (h' : Quiet t (f r.1).2) : Quiet t (r.andThen f).2 := quiet_append h h'

/-- Only the timer of the lost address is armed by the code about addresses. -/
theorem startIpLostTimer_quiet (ht : t ≠ .ipLost) : Quiet t (espNetifStartIpLostTimer n).2 := by
  unfold espNetifStartIpLostTimer Quiet
  split
  · exact List.not_mem_nil
  · split
    · intro h
      exact ht (Effect.sysTimeout.inj (List.mem_singleton.mp h))
    · exact List.not_mem_nil

/-- The callback of a changed address arms the timer of its loss at most. -/
theorem internalDhcpcCb_quiet (ht : t ≠ .ipLost) : Quiet t (espNetifInternalDhcpcCb n).2 := by
  rw [espNetifInternalDhcpcCb]
  split
  · split
    · exact fun h => by cases List.mem_singleton.mp h
    · exact List.not_mem_nil
  · split
    · exact startIpLostTimer_quiet ht
    · exact List.not_mem_nil

/-- The extended callback of lwIP arms no report timer. -/
theorem netifCallbackFn_quiet (ht : t ≠ .ipLost) (r : LwipNetif κ × Bool) :
    Quiet t (netifCallbackFn registered n r).2 := by
  unfold netifCallbackFn
  dsimp only
  split
  · exact internalDhcpcCb_quiet ht
  · exact List.not_mem_nil

/-- The timer of a lost address arms nothing. -/
theorem ipLostTimer_quiet : Quiet t (espNetifIpLostTimer n).2 := by
  rw [espNetifIpLostTimer]
  dsimp only
  split
  · dsimp only
    split
    · exact fun h => by cases List.mem_singleton.mp h
    · exact List.not_mem_nil
  · exact List.not_mem_nil

/-- Stopping DHCP arms no report timer. -/
theorem stopDhcp_quiet (ht : t ≠ .ipLost) : Quiet t (stopDhcp lwip registered p n).2 := by
  rw [stopDhcp]
  split
  · dsimp only
    split <;> exact List.not_mem_nil
  · split
    · exact quiet_andThen (quiet_andThen (netifCallbackFn_quiet ht _) (netifCallbackFn_quiet ht _))
        List.not_mem_nil
    · exact List.not_mem_nil

/-- `esp_netif_down_api` arms no report timer. -/
theorem downApi_quiet (ht : t ≠ .ipLost) :
    Quiet t (espNetifDownApi lwip registered n).effects := by
  have hdhcpc : Quiet t (downDhcpc lwip registered n).2 := by
    rw [downDhcpc]
    split
    · exact quiet_andThen (netifCallbackFn_quiet ht _) List.not_mem_nil
    · exact List.not_mem_nil
  have hmldv6 : ∀ b : Bool, Quiet t (if b then [.sysUntimeout .mldv6] else []) := by
    intro b
    cases b with
    | true => exact fun h => by cases List.mem_singleton.mp h
    | false => exact List.not_mem_nil
  refine quiet_andThen (quiet_andThen (quiet_andThen (quiet_andThen hdhcpc (hmldv6 _))
    (netifCallbackFn_quiet ht _)) List.not_mem_nil) ?_
  rw [downIpLost]
  split
  · exact startIpLostTimer_quiet ht
  · exact List.not_mem_nil

/-- `esp_netif_dhcpc_stop_api` arms no report timer. -/
theorem dhcpcStopApi_quiet (ht : t ≠ .ipLost) :
    Quiet t (espNetifDhcpcStopApi lwip registered n).effects := by
  rw [espNetifDhcpcStopApi]
  split
  · exact quiet_append (netifCallbackFn_quiet ht _) (startIpLostTimer_quiet ht)
  · exact List.not_mem_nil
  · exact List.not_mem_nil

/-- `esp_netif_dhcpc_start_api` arms no report timer. -/
theorem dhcpcStartApi_quiet (ht : t ≠ .ipLost) :
    Quiet t (espNetifDhcpcStartApi lwip n).effects := by
  rcases dhcpcStartApi_cases lwip n with ⟨-, h⟩ | ⟨-, -, err, status, h⟩ | ⟨-, -, h⟩
  · rw [h]
    exact List.not_mem_nil
  · rw [h]
    exact startIpLostTimer_quiet ht
  · rw [h]
    exact List.not_mem_nil

/-- `esp_netif_set_ip_info_api` arms no report timer. -/
theorem setIpInfoApi_quiet (ht : t ≠ .ipLost) (info : Option IpInfo) :
    Quiet t (espNetifSetIpInfoApi lwip registered info n).effects := by
  rcases setIpInfoApi_cases lwip registered n info with
    ⟨err, h, -⟩ | ⟨i, -, -, -, h⟩ | ⟨i, -, -, -, h⟩
  · rw [h]
    exact List.not_mem_nil
  · rw [h]
    refine quiet_andThen (netifCallbackFn_quiet ht _) ?_
    rw [setIpInfoEvent]
    split
    · exact fun h => by cases List.mem_singleton.mp h
    · exact List.not_mem_nil
  · rw [h]
    exact List.not_mem_nil

/-- A start arms the ARP timer and lwIP knows the `struct netif`; a stop ends with
`esp_netif_lwip_remove`; no other call arms a report timer. -/
theorem run_reports {call : ApiCall} {r : Call κ} (h : call.run lwip registered p n = some r) :
    (∃ udpNew malloc, call = .start udpNew malloc ∧ r.netif.added = true ∧
      r.effects = (if n.flags.garp then [.sysTimeout .garp] else [])) ∨
    (∃ es, (∀ t, t ≠ .ipLost → Quiet t es) ∧ r.netif.added = false ∧
      r.effects = es ++ (espNetifLwipRemove lwip n).2) ∨
    ((∀ t, t ≠ .ipLost → Quiet t r.effects) ∧ r.netif.added = n.added) := by
  cases call with
  | start udpNew malloc =>
    obtain ⟨n₀, n₁, hadd, rfl, heffects, h⟩ := startApi_cases h
    have hrest := (startAutoup_rest lwip n₀).trans (lwipAdd_rest hadd)
    have hadded : (startAutoup lwip n₀).added = true := congrArg (fun r => r.2.2) hrest
    have hflags : n₀.flags = n.flags := congrArg (fun r => r.1.1) (lwipAdd_rest hadd)
    refine .inl ⟨udpNew, malloc, rfl, ?_, hflags ▸ heffects⟩
    rcases h with ⟨-, -, -, h, -⟩ | ⟨h, -⟩ | ⟨-, -, h | h⟩
    · rw [h, ← hadded]
      rw [startDhcps]
      split
      · rfl
      · dsimp only
        split <;> rfl
    · exact h ▸ hadded
    · exact h ▸ hadded
    · exact h ▸ hadded
  | stop =>
    cases h
    dsimp only [espNetifStopApi]
    -- up or down, `esp_netif_lwip_remove` comes last
    split
    · refine .inr (.inl ⟨(stopDhcp lwip registered p n).2, fun t => stopDhcp_quiet, rfl, ?_⟩)
      have hflags : (stopDhcp lwip registered p n).1.flags = n.flags :=
        congrArg Prod.fst stopDhcp_config
      simp only [Done.andThen_snd, espNetifLwipRemove, hflags]
    · exact .inr (.inl ⟨[], fun _ _ => List.not_mem_nil, rfl, rfl⟩)
  | up =>
    cases h
    exact .inr (.inr ⟨fun t ht => quiet_append (netifCallbackFn_quiet ht _) List.not_mem_nil,
      EspNetif.added_of_rest upApi_rest⟩)
  | down =>
    cases h
    exact .inr (.inr ⟨fun t => downApi_quiet, EspNetif.added_of_rest downApi_rest⟩)
  | dhcpcStart =>
    cases h
    exact .inr (.inr ⟨fun t => dhcpcStartApi_quiet, EspNetif.added_of_rest dhcpcStartApi_rest⟩)
  | dhcpcStop =>
    cases h
    exact .inr (.inr ⟨fun t => dhcpcStopApi_quiet, EspNetif.added_of_rest dhcpcStopApi_rest⟩)
  | dhcpsStart udpNew =>
    cases h
    dsimp only [espNetifDhcpsStartApi]
    refine .inr (.inr ?_)
    split
    · exact ⟨fun _ _ => List.not_mem_nil, rfl⟩
    · split
      · refine ⟨fun _ _ => List.not_mem_nil, ?_⟩
        rw [startDhcps]
        split
        · rfl
        · dsimp only
          split <;> rfl
      · exact ⟨fun _ _ => List.not_mem_nil, rfl⟩
  | dhcpsStop =>
    cases h
    have hstop : (stopDhcps p n).2.added = n.added := by
      rw [stopDhcps]
      split <;> rfl
    dsimp only [espNetifDhcpsStopApi]
    refine .inr (.inr ?_)
    split
    · split <;> exact ⟨fun _ _ => List.not_mem_nil, hstop⟩
    · exact ⟨fun _ _ => List.not_mem_nil, rfl⟩
    · exact ⟨fun _ _ => List.not_mem_nil, rfl⟩
  | setIpInfo info =>
    cases h
    exact .inr (.inr ⟨fun t ht => setIpInfoApi_quiet ht info,
      EspNetif.added_of_rest (setIpInfoApi_rest info)⟩)
  | setDefaultNetif =>
    cases h
    exact .inr (.inr ⟨fun _ _ => List.not_mem_nil, rfl⟩)

end Effects

/-! ## At most one -/

/-- The interface is configured to have this report timer. -/
def EspNetif.reports (n : EspNetif κ) : Timer → Bool
  | .garp => n.flags.garp
  | .mldv6 => n.flags.mldv6Report
  | .ipLost => false

/-- Whether an interface reports is part of its configuration. -/
theorem reports_of_config (h : n'.config = n.config) (t : Timer) : n'.reports t = n.reports t := by
  have hflags : n'.flags = n.flags := congrArg Prod.fst h
  cases t with
  | garp => exact congrArg Flags.garp hflags
  | mldv6 => exact congrArg Flags.mldv6Report hflags
  | ipLost => rfl

/-- `esp_netif_lwip_remove` clears timers and arms none. -/
theorem lwipRemove_quiet {t : Timer} : Quiet t (espNetifLwipRemove lwip n).2 := by
  unfold espNetifLwipRemove Quiet
  cases n.flags.garp <;> cases n.flags.mldv6Report <;> simp

/-- `esp_netif_lwip_remove` removes one timeout of each kind that the interface is configured
for. -/
theorem count_lwipRemove {t : Timer} (ht : t ≠ .ipLost) (ts : List (Timer × NetifPtr)) :
    (World.timeoutsAfter p ts (espNetifLwipRemove lwip n).2).count (t, p) =
      ts.count (t, p) - if n.reports t then 1 else 0 := by
  unfold espNetifLwipRemove EspNetif.reports
  cases t with
  | ipLost => exact absurd rfl ht
  | garp => cases n.flags.garp <;> cases n.flags.mldv6Report <;> simp [World.timeoutsAfter]
  | mldv6 => cases n.flags.garp <;> cases n.flags.mldv6Report <;> simp [World.timeoutsAfter]

/-- A valid IPv6 address arms the MLD timer of an interface that is up. -/
theorem timeoutsAfter_nd6Cb (p : NetifPtr) (ts : List (Timer × NetifPtr)) :
    World.timeoutsAfter p ts (espNetifInternalNd6Cb n) =
      if n.flags.mldv6Report = true ∧ n.lwip.isUp = true then ts ++ [(.mldv6, p)] else ts := by
  unfold espNetifInternalNd6Cb netifSetMldv6Flag
  cases n.flags.mldv6Report <;> cases n.lwip.isUp <;> simp [World.timeoutsAfter]

namespace World

/-- At most one timeout of each report timer is pending for a `struct netif`, none if lwIP does
not know it or it is freed, and none has run on one that was freed. -/
structure ReportsOk (w : World κ) : Prop where
  garp : ∀ q, w.timeouts.count (.garp, q) ≤ 1
  mldv6 : ∀ q, w.timeouts.count (.mldv6, q) ≤ 1
  removed : ∀ q, (∀ n, w.heap q = some n → n.added = false) →
    w.timeouts.count (.garp, q) = 0 ∧ w.timeouts.count (.mldv6, q) = 0
  fault : w.fault = false

/-- A start finds no ARP timeout of the interface pending, and a valid IPv6 address arms the MLD
timer only if lwIP knows the `struct netif` and none of it is pending. -/
def ArmsOnce (w : World κ) : Action κ → Prop
  | .call (some p) (.start ..) _ => ∀ n ∈ w.heap p, n.flags.garp = true → (.garp, p) ∉ w.timeouts
  | .ip6Valid p => ∀ n ∈ w.heap p, w.callback = true → n.flags.mldv6Report = true →
      n.lwip.isUp = true → n.added = true ∧ (.mldv6, p) ∉ w.timeouts
  | _ => True

/-- How many timeouts of a kind may be pending -/
def due (w : World κ) (t : Timer) (q : NetifPtr) : Nat :=
  match w.heap q with
  | none => 0
  | some n => if n.reports t && n.added then 1 else 0

/-- The invariant -/
structure Reporting (w : World κ) : Prop where
  due : ∀ t, t ≠ .ipLost → ∀ q, w.timeouts.count (t, q) ≤ w.due t q
  fault : w.fault = false

section Reporting

variable {w w' : World κ} {t : Timer}

/-- At most one timeout of a kind is due for an interface. -/
theorem due_le_one (w : World κ) (t : Timer) (q : NetifPtr) : w.due t q ≤ 1 := by
  rw [World.due]
  split
  · exact Nat.zero_le _
  · split
    · exact Nat.le_refl _
    · exact Nat.zero_le _

/-- What is due depends on the interface alone. -/
theorem due_congr (h : w'.heap q = w.heap q) : w'.due t q = w.due t q := by
  rw [World.due, World.due, h]

/-- Nothing is due for an interface that does not exist. -/
theorem due_none (h : w.heap q = none) : w.due t q = 0 := by rw [World.due, h]

/-- An interface that reports is due a timeout while lwIP knows it. -/
theorem due_some (h : w.heap q = some n) :
    w.due t q = if n.reports t && n.added then 1 else 0 := by
  rw [World.due, h]

/-- The invariant gives what is asked of the timers. -/
theorem Reporting.ok (k : Reporting w) : ReportsOk w where
  garp q := Nat.le_trans (k.due .garp nofun q) (due_le_one ..)
  mldv6 q := Nat.le_trans (k.due .mldv6 nofun q) (due_le_one ..)
  removed q hq := by
    have hzero : ∀ t, w.due t q = 0 := by
      intro t
      cases hn : w.heap q with
      | none => exact due_none hn
      | some n => rw [due_some hn, hq n hn, Bool.and_false, if_neg Bool.false_ne_true]
    exact ⟨Nat.le_zero.mp (hzero .garp ▸ k.due .garp nofun q),
      Nat.le_zero.mp (hzero .mldv6 ▸ k.due .mldv6 nofun q)⟩
  fault := k.fault

/-- At boot no timeout is pending. -/
theorem reporting_init : Reporting (init : World κ) := ⟨fun _ _ _ => Nat.le_refl 0, rfl⟩

/-- Where an interface keeps its timers and its place in lwIP, at most as many may stay pending. -/
theorem Reporting.mono (k : Reporting w)
    (hcount : ∀ t, t ≠ .ipLost → ∀ q, w'.timeouts.count (t, q) ≤ w.timeouts.count (t, q))
    (hdue : ∀ t q, w'.due t q = w.due t q) (hfault : w'.fault = w.fault) : Reporting w' where
  due t ht q := by
    rw [hdue]
    exact Nat.le_trans (hcount t ht q) (k.due t ht q)
  fault := hfault.trans k.fault

/-- A change that leaves the configuration alone leaves what is due. -/
theorem due_set (hn : w.heap p = some n) (hconfig : n'.config = n.config)
    (hadded : n'.added = n.added) (t : Timer) (q : NetifPtr) :
    (w.set p n').due t q = w.due t q := by
  by_cases hq : q = p
  · rw [hq, due_some (set_heap n'), due_some hn, reports_of_config hconfig, hadded]
  · exact due_congr (set_heap_of_ne n' hq)

/-- Nothing is left of an interface after `esp_netif_lwip_remove`. -/
theorem Reporting.removed (k : Reporting w) (ht : t ≠ .ipLost) (hn : w.heap p = some n)
    {ts : List (Timer × NetifPtr)} (hts : ts.count (t, p) ≤ w.timeouts.count (t, p)) :
    (timeoutsAfter p ts (espNetifLwipRemove lwip n).2).count (t, p) = 0 := by
  have hdue := k.due t ht p
  rw [due_some hn] at hdue
  rw [count_lwipRemove ht]
  cases hreports : n.reports t with
  | true =>
    have hone : (if (n.reports t && n.added) = true then 1 else 0) ≤ 1 := by split <;> omega
    rw [if_pos rfl]
    omega
  | false =>
    rw [hreports, Bool.false_and, if_neg Bool.false_ne_true] at hdue
    omega

/-- Only the timeouts of the interface that has changed are in question. -/
theorem Reporting.of_self {es : List Effect} (k : Reporting w)
    (hself : ∀ t, t ≠ .ipLost → (timeoutsAfter p w.timeouts es).count (t, p) ≤
      if n'.reports t && n'.added then 1 else 0) : Reporting ((w.set p n').perform p es) where
  due t ht q := by
    show (timeoutsAfter p w.timeouts es).count (t, q) ≤ (w.set p n').due t q
    by_cases hq : q = p
    · subst hq
      rw [due_some (set_heap _)]
      exact hself t ht
    · rw [count_timeoutsAfter_of_ne hq, due_congr (set_heap_of_ne _ hq)]
      exact k.due t ht q
  fault := k.fault

/-- A start arms the ARP timer of an interface that is configured for it. -/
theorem Reporting.start {udpNew : Option PcbPtr} {malloc mutex : Bool} (k : Reporting w)
    (ha : ArmsOnce w (.call (some p) (.start udpNew malloc) mutex)) (hn : w.heap p = some n)
    (hconfig : n'.config = n.config) (hadded : n'.added = true) :
    Reporting ((w.set p n').perform p (if n.flags.garp then [.sysTimeout .garp] else [])) := by
  refine k.of_self fun t ht => ?_
  have hdue := k.due t ht p
  rw [due_some hn] at hdue
  rw [hadded, Bool.and_true, reports_of_config hconfig]
  cases t with
  | ipLost => exact absurd rfl ht
  | garp =>
    cases hgarp : n.flags.garp with
    | true =>
      -- none is pending, and the start arms one
      have hnone := List.count_eq_zero.mpr (ha n hn hgarp)
      simp [timeoutsAfter, List.count_append, hnone, EspNetif.reports, hgarp]
    | false =>
      simpa [timeoutsAfter, EspNetif.reports, hgarp] using hdue
  | mldv6 =>
    have hsame : (timeoutsAfter p w.timeouts
        (if n.flags.garp then [.sysTimeout .garp] else [])).count (.mldv6, p) =
          w.timeouts.count (.mldv6, p) := by
      cases n.flags.garp <;> simp [timeoutsAfter, List.count_append]
    rw [hsame]
    refine Nat.le_trans hdue ?_
    cases n.added <;> cases n.reports .mldv6 <;> simp

/-- A call of the API -/
theorem Reporting.call {call : ApiCall} {mutex : Bool} (k : Reporting w)
    (ha : ArmsOnce w (.call (some p) call mutex))
    (h : w.espNetifCall lwip p call mutex = some w') : Reporting w' := by
  obtain ⟨n, r, last, overridden, lock, hn, hr, rfl, -⟩ := espNetifCall_frame h
  suffices hk : Reporting ((w.set p r.netif).perform p r.effects) from
    hk.mono (fun _ _ _ => Nat.le_refl _) (fun _ _ => rfl) rfl
  have hconfig := run_config hr
  rcases run_reports hr with ⟨udpNew, malloc, rfl, hadded, he⟩ | ⟨es, hes, -, he⟩ | ⟨he, hadded⟩
  · rw [he]
    exact k.start ha hn hconfig hadded
  · refine k.of_self fun t ht => ?_
    rw [he, timeoutsAfter_append, k.removed ht hn (count_timeoutsAfter_le (hes t ht) w.timeouts)]
    exact Nat.zero_le _
  · exact k.mono (fun t ht q => count_timeoutsAfter_le (he t ht) _)
      (due_set hn hconfig hadded) rfl

/-- Destroying an interface clears its timeouts first. -/
theorem Reporting.destroy {env : DestroyEnv} (k : Reporting w)
    (h : w.espNetifDestroy lwip p env = some w') : Reporting w' := by
  obtain ⟨n, last, overridden, callback, lock, hn, rfl, -⟩ := espNetifDestroy_frame h
  obtain ⟨-, htimeouts, -, hfault⟩ := removeFromList_same w p env.removeMutex
  refine ⟨fun t ht q => ?_, hfault.trans k.fault⟩
  show (timeoutsAfter p (w.removeFromList p env.removeMutex).2.timeouts _).count (t, q) ≤ _
  rw [htimeouts]
  by_cases hq : q = p
  · subst hq
    rw [k.removed ht hn (Nat.le_refl _)]
    exact Nat.zero_le _
  · rw [count_timeoutsAfter_of_ne hq]
    exact Nat.le_trans (k.due t ht q) (Nat.le_of_eq (due_congr (Function.update_of_ne hq ..)).symm)

/-- A creation that fails takes its interface away again. -/
theorem Reporting.undone {w₂ : World κ} {env : DestroyEnv} (k : Reporting w)
    (hp : w.heap p = none) (hw₂ : Halfway w p w₂)
    (h : w₂.espNetifDestroy lwip p env = some w') : Reporting w' := by
  have hheap := hw₂.destroy hp h
  obtain ⟨-, -, -, htimeouts, -, hfault⟩ := hw₂.same
  obtain ⟨m, last, overridden, callback, lock, -, rfl, -⟩ := espNetifDestroy_frame h
  obtain ⟨-, htimeouts', -, hfault'⟩ := removeFromList_same w₂ p env.removeMutex
  refine k.mono (fun t _ q => ?_) (fun t q => due_congr (congrFun hheap q)) (hfault'.trans hfault)
  refine Nat.le_trans (count_timeoutsAfter_le lwipRemove_quiet _) (Nat.le_of_eq ?_)
  rw [htimeouts', htimeouts]

/-- A new interface has no timeout and is due none. -/
theorem Reporting.created {w₂ : World κ} (k : Reporting w) (hp : w.heap p = none)
    (hw₂ : Halfway w p w₂) : Reporting { w₂ with callback := true } := by
  obtain ⟨-, -, -, htimeouts, -, hfault⟩ := hw₂.same
  refine ⟨fun t ht q => ?_, hfault.trans k.fault⟩
  show w₂.timeouts.count (t, q) ≤ w₂.due t q
  rw [htimeouts]
  have hdue := k.due t ht q
  by_cases hq : q = p
  · subst hq
    exact Nat.le_trans (due_none hp ▸ hdue) (Nat.zero_le _)
  · exact Nat.le_trans hdue (Nat.le_of_eq (due_congr (hw₂.heap q hq)).symm)

/-- A valid IPv6 address arms the MLD timer of an interface that lwIP knows. -/
theorem Reporting.ip6Valid (k : Reporting w) (ha : ArmsOnce w (.ip6Valid p))
    (hn : w.heap p = some n) (hcallback : w.callback = true) :
    Reporting (w.perform p (espNetifInternalNd6Cb n)) := by
  refine ⟨fun t ht q => ?_, k.fault⟩
  show (timeoutsAfter p w.timeouts (espNetifInternalNd6Cb n)).count (t, q) ≤ w.due t q
  rw [timeoutsAfter_nd6Cb]
  split
  · rename_i hreport
    obtain ⟨hadded, hnone⟩ := ha n hn hcallback hreport.1 hreport.2
    rw [List.count_append, List.count_singleton]
    split
    · rename_i heq
      obtain ⟨rfl, rfl⟩ := Prod.mk.inj (eq_of_beq heq)
      rw [List.count_eq_zero.mpr hnone, due_some hn, EspNetif.reports, hreport.1, hadded]
      exact Nat.le_refl _
    · exact k.due t ht q
  · exact k.due t ht q

/-- A timeout that expires is armed again, or gone with its interface. -/
theorem Reporting.timeout (k : Reporting w) (ht : (t, p) ∈ w.timeouts) :
    Reporting ({ w with timeouts := w.timeouts.erase (t, p) }.runTimeout t p) := by
  have herase : ∀ t' q, (w.timeouts.erase (t, p)).count (t', q) ≤ w.timeouts.count (t', q) := by
    intro t' q
    rw [List.count_erase]
    exact Nat.sub_le _ _
  have hpos : 0 < w.timeouts.count (t, p) := List.count_pos_iff.mpr ht
  -- arming a timer again that has just run
  have hagain : ∀ t' q, (w.timeouts.erase (t, p) ++ [(t, p)]).count (t', q) ≤
      w.timeouts.count (t', q) := by
    intro t' q
    rw [List.count_append, List.count_erase, List.count_singleton]
    split
    · rename_i heq
      obtain ⟨rfl, rfl⟩ := Prod.mk.inj (eq_of_beq heq)
      omega
    · omega
  cases hn : w.heap p with
  | none =>
    have hlost : t = .ipLost := by
      by_contra ht'
      have hdue := k.due t ht' p
      rw [due_none hn] at hdue
      omega
    subst hlost
    simp only [runTimeout, hn]
    exact k.mono (fun t' _ q => herase t' q) (fun _ _ => rfl) rfl
  | some n =>
    cases t with
    | ipLost =>
      simp only [runTimeout, hn]
      split
      · exact k.mono (fun t' ht' q => Nat.le_trans
          (count_timeoutsAfter_le ipLostTimer_quiet _) (herase t' q))
          (due_set hn (EspNetif.config_of_rest ipLostTimer_rest)
            (EspNetif.added_of_rest ipLostTimer_rest)) rfl
      · exact k.mono (fun t' _ q => herase t' q) (fun _ _ => rfl) rfl
    | garp =>
      simp only [runTimeout, hn]
      exact k.mono (fun t' _ q => hagain t' q) (fun _ _ => rfl) rfl
    | mldv6 =>
      simp only [runTimeout, hn, netifSetMldv6Flag]
      split
      · exact k.mono (fun t' _ q => hagain t' q) (fun _ _ => rfl) rfl
      · exact k.mono (fun t' _ q => herase t' q) (fun _ _ => rfl) rfl

/-- One step keeps the invariant if it arms no timeout twice. -/
theorem Reporting.step {a : Action κ} (k : Reporting w) (ha : ArmsOnce w a)
    (h : w.step lwip a = some w') : Reporting w' := by
  cases stepped_of_step h with
  | refused | destroyNull | callNull | ip6Ignored => exact k
  | undone hp _ hw₂ h => exact k.undone hp hw₂ h
  | created hp => exact k.created hp ((halfway_addToList w _ (.zeroed lwip) _ _).set _)
  | destroy h => exact k.destroy h
  | call h => exact k.call ha h
  | addressChange hn =>
    exact k.mono (fun t ht q => count_timeoutsAfter_le (netifCallbackFn_quiet ht _) _)
      (due_set hn (EspNetif.config_of_rest (netifCallbackFn_rest ..))
        (EspNetif.added_of_rest (netifCallbackFn_rest ..))) rfl
  | ip6Valid hn hcallback => exact k.ip6Valid ha hn hcallback
  | timeout ht => exact k.timeout ht

/-- A timer that is armed while it is pending, or for a `struct netif` that lwIP does not know -/
theorem not_reportsOk_of_not_armsOnce {a : Action κ} (ha : ¬ ArmsOnce w a)
    (h : w.step lwip a = some w') : ¬ ReportsOk w' := by
  intro hok
  cases a with
  | call p call mutex =>
    cases p with
    | none => exact ha trivial
    | some p =>
      cases call with
      | start udpNew malloc =>
        simp only [ArmsOnce, not_forall, not_not] at ha
        obtain ⟨n, hn, hgarp, hmem⟩ := ha
        have hn : w.heap p = some n := hn
        have h : w.espNetifCall lwip p (.start udpNew malloc) mutex = some w' := h
        obtain ⟨n', r, last, overridden, lock, hn', hr, rfl, -⟩ := espNetifCall_frame h
        cases hn.symm.trans hn'
        have htwo := hok.garp p
        obtain ⟨n₀, n₁, hadd, -, he, -⟩ := startApi_cases hr
        have hflags : n₀.flags = n.flags := congrArg (fun r => r.1.1) (lwipAdd_rest hadd)
        rw [hflags, if_pos hgarp] at he
        have hcount : (timeoutsAfter p w.timeouts r.effects).count (.garp, p) =
            w.timeouts.count (.garp, p) + 1 := by
          rw [he]
          simp [timeoutsAfter, List.count_append]
        have hpos : 0 < w.timeouts.count (.garp, p) := List.count_pos_iff.mpr hmem
        have htwo : (timeoutsAfter p w.timeouts r.effects).count (.garp, p) ≤ 1 := htwo
        omega
      | stop | up | down | dhcpcStart | dhcpcStop | dhcpsStart | dhcpsStop | setIpInfo
      | setDefaultNetif => exact ha trivial
  | ip6Valid p =>
    simp only [ArmsOnce, not_forall, not_and, not_not] at ha
    obtain ⟨n, hn, hcallback, hreport, hup, hbad⟩ := ha
    have hn : w.heap p = some n := hn
    simp only [World.step, hn, hcallback, if_true, Option.some.injEq] at h
    subst h
    have hcount : (timeoutsAfter p w.timeouts (espNetifInternalNd6Cb n)).count (.mldv6, p) =
        w.timeouts.count (.mldv6, p) + 1 := by
      rw [timeoutsAfter_nd6Cb, if_pos ⟨hreport, hup⟩]
      simp [List.count_append]
    have hone : (timeoutsAfter p w.timeouts (espNetifInternalNd6Cb n)).count (.mldv6, p) ≤ 1 :=
      hok.mldv6 p
    cases hadded : n.added with
    | true =>
      -- the second one
      have hpos : 0 < w.timeouts.count (.mldv6, p) := List.count_pos_iff.mpr (hbad hadded)
      omega
    | false =>
      -- one for a `struct netif` that lwIP does not know
      have hzero : (timeoutsAfter p w.timeouts (espNetifInternalNd6Cb n)).count (.mldv6, p) = 0 :=
        (hok.removed p fun m hm => by
          cases hn.symm.trans hm
          exact hadded).2
      omega
  | new | destroy | addressChange | timeout => exact ha trivial

end Reporting

/-! ## Every run -/

/-- After every step at most one report timer of each kind is pending for a `struct netif`, and
none for a removed one, exactly if every timer was armed only once. -/
theorem reports_iff (lwip : Lwip κ) (actions : List (Action κ)) (w : World κ)
    (h : Machine.exec (World.step lwip) World.init actions = some w) :
    Machine.Each (World.step lwip) (fun _ _ w => ReportsOk w) World.init actions ↔
      Machine.Along (World.step lwip) ArmsOnce World.init actions :=
  Machine.each_iff_along
    (fun _ _ _ ha h (k : Reporting _) => ⟨k.step ha h, (k.step ha h).ok⟩)
    (fun _ _ _ ha h _ => not_reportsOk_of_not_armsOnce ha h) h reporting_init

instance decidableArmsOnce (w : World κ) : ∀ a, Decidable (ArmsOnce w a)
  | .call (some p) (.start ..) _ => inferInstanceAs (Decidable (∀ n ∈ w.heap p,
      n.flags.garp = true → (.garp, p) ∉ w.timeouts))
  | .ip6Valid p => inferInstanceAs (Decidable (∀ n ∈ w.heap p, w.callback = true →
      n.flags.mldv6Report = true → n.lwip.isUp = true → n.added = true ∧ (.mldv6, p) ∉ w.timeouts))
  | .call none _ _ | .call (some _) .stop _ | .call (some _) .up _ | .call (some _) .down _
  | .call (some _) .dhcpcStart _ | .call (some _) .dhcpcStop _ | .call (some _) (.dhcpsStart _) _
  | .call (some _) .dhcpsStop _ | .call (some _) (.setIpInfo _) _
  | .call (some _) .setDefaultNetif _ => .isTrue trivial
  | .new .. | .destroy .. | .addressChange .. | .timeout .. => .isTrue trivial

/-- The station gets one IPv6 address each time it goes up; its timers run, and it is destroyed in
the end. -/
def oneAddress : List (Action Bool) :=
  [.new 0 (some wifiSta.full) .plenty, .call (some 0) (.start none true) true,
    .call (some 0) .up true, .ip6Valid 0, .timeout .mldv6 0, .timeout .garp 0,
    .call (some 0) .down true, .call (some 0) .up true, .ip6Valid 0, .call (some 0) .stop true,
    .call (some 0) (.start none true) true, .destroy (some 0) ⟨true, true⟩]

/-- The run of `oneAddress`, in which every report timer is armed once -/
theorem reports_iff_oneAddress : ∃ w,
    Machine.exec (World.step Lwip.simple) World.init oneAddress = some w ∧
      Machine.Each (World.step Lwip.simple) (fun _ _ w => ReportsOk w) World.init oneAddress := by
  obtain ⟨w, hw⟩ := Option.isSome_iff_exists.mp
    (show (Machine.exec (World.step Lwip.simple) World.init oneAddress).isSome by decide +kernel)
  exact ⟨w, hw, (reports_iff Lwip.simple oneAddress w hw).mpr (by decide +kernel)⟩

/-- The station gets a link-local, a unique local and a global IPv6 address; stopping and
destroying it removes two of the three timeouts. -/
def threeAddresses : List (Action Bool) :=
  [.new 0 (some wifiSta.full) .plenty, .call (some 0) (.start none true) true,
    .call (some 0) .up true, .ip6Valid 0, .ip6Valid 0, .ip6Valid 0, .call (some 0) .stop true,
    .destroy (some 0) ⟨true, true⟩, .timeout .mldv6 0]

/-- A third IPv6 address arms the timer twice, and one timeout outlives the interface. -/
theorem threeAddresses_fault : ∃ w : World Bool,
    Machine.exec (World.step Lwip.simple) World.init threeAddresses = some w ∧ w.fault = true := by
  obtain ⟨w, hw⟩ := Option.isSome_iff_exists.mp
    (show (Machine.exec (World.step Lwip.simple) World.init threeAddresses).isSome by
      decide +kernel)
  have hfault : (Machine.exec (World.step Lwip.simple) World.init threeAddresses).any World.fault =
      true := by decide +kernel
  rw [hw] at hfault
  exact ⟨w, hw, hfault⟩

end World

end PicoHost.Interface
