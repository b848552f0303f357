import PicoHost.Interface.Listed
import PicoHost.Interface.UpDown
import PicoHost.Lib.Best
import PicoHost.Lib.Run

/-!
# The default interface

After every call the default interface is the one that was set by hand, as long as it exists, and
otherwise one that is up with the greatest `route_prio`, if any is up. It is kept up to date call
by call, and `esp_netif_start` has ways out before the update; `UpdatesDefault` says when they do
no harm.
-/

namespace PicoHost.Interface

open Best (IsBest)
open Dhcps (NetifPtr PcbPtr)

variable {κ : Type} {lwip : Lwip κ} {registered : Bool} {p : NetifPtr} {n : EspNetif κ}

namespace World

/-! ## Updating the default -/

/-- The interfaces that are up -/
def upNetifs (w : World κ) : Set NetifPtr := {p | w.isNetifUp p}

/-- The default after an update that is not held off by one set by hand -/
def nextDefault (w : World κ) (p : NetifPtr) : DefaultAction → Option NetifPtr
  | .setDefault => some p
  | .started =>
    let last := w.isActive w.lastDefault
    if last.any fun l => w.isNetifUp l && decide (w.routePrio p < w.routePrio l) then last
    else if w.isNetifUp p then some p
    else last
  | .stopped => w.bestDefault

section

variable {w w' : World κ}

/-- An interface of the list is active. -/
theorem isActive_eq {o : Option NetifPtr} (h : ∀ q ∈ o, q ∈ w.list) : w.isActive o = o := by
  cases o with
  | none => rfl
  | some q => exact Option.filter_eq_some_iff.mpr ⟨rfl, decide_eq_true (h q rfl)⟩

/-- A default that was set by hand and is still there stays. -/
theorem updateDefaultNetif_held {action : DefaultAction} {mutex : Bool} {q : NetifPtr}
    (h : w.updateDefaultNetif p action mutex = some w') (ha : action ≠ .setDefault)
    (ho : w.overridden = true) (hlast : w.lastDefault = some q) (hq : q ∈ w.list) :
    w'.lastDefault = some q ∧ w'.overridden = true := by
  have hactive : w.isActive w.lastDefault = some q := by
    rw [hlast]
    exact isActive_eq fun q' hq' => Option.some.inj hq' ▸ hq
  rw [updateDefaultNetif] at h
  rw [hactive] at h
  dsimp only at h
  rw [if_pos ⟨ho, ha, rfl⟩] at h
  cases h
  exact ⟨rfl, ho⟩

/-- An update of the default interface takes the best one and keeps the mark of a choice by hand. -/
theorem stopped_default {mutex : Bool}
    (h : ((w.listLock? mutex).map fun w => { w with lastDefault := w.bestDefault }.listUnlock) =
      some w') : w'.lastDefault = w.bestDefault ∧ w'.overridden = w.overridden := by
  obtain ⟨u, hu, rfl⟩ := Option.map_eq_some_iff.mp h
  rw [listLock?_eq hu]
  obtain ⟨lock, hunlock, -⟩ := listUnlock_frame
    { w with lastDefault := bestDefault { w with listLock := true }, listLock := true }
  exact hunlock ▸ ⟨rfl, rfl⟩

/-- Otherwise the default is found anew. -/
theorem updateDefaultNetif_next {action : DefaultAction} {mutex : Bool}
    (h : w.updateDefaultNetif p action mutex = some w')
    (ho : w.overridden = true → w.isActive w.lastDefault = none ∧ action = .stopped) :
    w'.lastDefault = w.nextDefault p action ∧
      w'.overridden = decide (action = .setDefault) := by
  rw [updateDefaultNetif] at h
  dsimp only at h
  by_cases hover : w.overridden = true
  · -- the default that was set by hand is not in the list any more
    obtain ⟨hnone, rfl⟩ := ho hover
    rw [hnone, if_neg (fun h => by cases h.2.2), if_pos ⟨hover, by simp⟩] at h
    exact stopped_default h
  · have hover' : w.overridden = false := Bool.eq_false_iff.mpr hover
    rw [if_neg (fun h => hover h.1), if_neg (fun h => hover h.1)] at h
    cases action with
    | setDefault =>
      cases h
      exact ⟨rfl, rfl⟩
    | started =>
      dsimp only at h
      unfold nextDefault
      dsimp only
      split at h
      · rename_i hlast
        rw [if_pos hlast]
        cases h
        exact ⟨rfl, hover'⟩
      · rename_i hlast
        rw [if_neg hlast]
        split at h
        · rename_i hup
          rw [if_pos hup]
          cases h
          exact ⟨rfl, hover'⟩
        · rename_i hup
          rw [if_neg hup]
          cases h
          exact ⟨rfl, hover'⟩
    | stopped =>
      obtain ⟨hbest, hsame⟩ := stopped_default h
      exact ⟨hbest, hsame.trans hover'⟩

/-- The loop over the interfaces finds the best one that is up. -/
theorem isBest_bestDefault (honce : w.list.Nodup) (hlisted : ∀ q ∈ w.upNetifs, q ∈ w.list) :
    IsBest w.routePrio w.upNetifs w.bestDefault := by
  -- the best so far is always up, so that `better` need not ask
  have hscan : ∀ (l : List NetifPtr) (o : Option NetifPtr), (∀ q ∈ o, w.isNetifUp q = true) →
      l.foldl w.better o = l.foldl (Best.scan w.isNetifUp w.routePrio) o := by
    intro l
    induction l with
    | nil => exact fun _ _ => rfl
    | cons q l ih =>
      intro o ho
      have hstep : w.better o q = Best.scan w.isNetifUp w.routePrio o q ∧
          ∀ q' ∈ w.better o q, w.isNetifUp q' = true := by
        unfold better Best.scan
        by_cases hq : w.isNetifUp q
        · rw [if_pos hq, if_pos hq]
          cases o with
          | none => exact ⟨rfl, fun q' h => Option.some.inj h ▸ hq⟩
          | some a =>
            have ha := ho a rfl
            dsimp only
            rw [if_pos ha]
            refine ⟨rfl, fun q' h => ?_⟩
            split at h
            · exact Option.some.inj h ▸ hq
            · exact Option.some.inj h ▸ ha
        · rw [if_neg hq, if_neg hq]
          exact ⟨rfl, ho⟩
      rw [List.foldl_cons, List.foldl_cons, ← hstep.1]
      exact ih _ hstep.2
  unfold bestDefault espNetifNext
  rw [Successor.visits_eq honce (Nat.le_refl _), hscan w.list none nofun]
  refine (Best.isBest_foldl_scan w.isNetifUp w.routePrio w.list).congr ?_ fun _ _ => rfl
  ext q
  exact ⟨fun h => ⟨hlisted q h, h⟩, fun h => h.2⟩

/-- An interface that has come up becomes the default unless there is a better one. -/
theorem isBest_started {s : Set NetifPtr} (hs : IsBest w.routePrio s w.lastDefault)
    (hup : w.upNetifs = insert p s) (hlisted : ∀ q ∈ w.upNetifs, q ∈ w.list) :
    IsBest w.routePrio w.upNetifs (w.nextDefault p .started) := by
  have hp : w.isNetifUp p = true := hup.symm.subset (Set.mem_insert p s)
  unfold nextDefault
  dsimp only
  cases hlast : w.lastDefault with
  | none =>
    -- none was up before
    rw [hlast] at hs
    have hnone : w.isActive none = none := rfl
    rw [hnone, Option.any_none, if_neg Bool.false_ne_true, if_pos hp, hup]
    exact hs.insert_self nofun
  | some q =>
    rw [hlast] at hs
    have hq : q ∈ w.upNetifs := hup.symm.subset (Set.mem_insert_of_mem p hs.mem)
    have hq' : w.isNetifUp q = true := hq
    rw [isActive_eq fun q' h => Option.some.inj h ▸ hlisted q hq, if_pos hp, Option.any_some, hq',
      Bool.true_and, hup]
    split
    · rename_i hlt
      exact hs.insert_le (le_of_lt (of_decide_eq_true hlt))
    · rename_i hlt
      refine hs.insert_self fun a ha => ?_
      cases ha
      exact not_lt.mp fun h => hlt (decide_eq_true h)

/-- One that is down does not become the default. -/
theorem nextDefault_of_down (hp : w.isNetifUp p = false)
    (hlast : ∀ q ∈ w.lastDefault, q ∈ w.list) : w.nextDefault p .started = w.lastDefault := by
  unfold nextDefault
  dsimp only
  rw [isActive_eq hlast, hp]
  split
  · rfl
  · exact if_neg Bool.false_ne_true

end

/-! ## The invariant -/

/-- The interface that was set by hand last, unless it has been destroyed since -/
def manual (m : Option NetifPtr) : Action κ → Option NetifPtr
  | .call (some p) .setDefaultNetif _ => some p
  | .destroy (some p) _ => if m = some p then none else m
  | _ => m

/-- The default is the one that was set by hand, or else the best one that is up. -/
structure DefaultOk (m : Option NetifPtr) (w : World κ) : Prop where
  manual : ∀ p, m = some p → w.lastDefault = some p
  best : m = none → IsBest w.routePrio w.upNetifs w.lastDefault

/-- An interface that is created can be put into the list. Unless a default was set by hand,
`esp_netif_start` with the flag `AUTOUP` gets as far as the update, or the interface was up
already, or it is not better than the default; without the flag it is not called on the
default. -/
def UpdatesDefault (w : World κ) : Action κ → Prop
  | .call (some p) (.start udpNew malloc) _ => w.overridden = true ∨ ∀ n ∈ w.heap p,
      if n.flags.autoup = true then n.StartUpdates p udpNew malloc ∨ n.lwip.isUp = true ∨
        ∃ q ∈ w.lastDefault, n.routePrio ≤ w.routePrio q
      else w.lastDefault ≠ some p
  | action => Inserts w action

/-- What every step keeps: the flag for a default set by hand agrees with the history, and that
default exists. -/
structure DefaultKept (m : Option NetifPtr) (w : World κ) : Prop
    extends Listed w, DefaultOk m w where
  overridden : w.overridden = m.isSome
  exists_manual : ∀ p, m = some p → (w.heap p).isSome

section Kept

variable {w w' : World κ} {m : Option NetifPtr}

/-- Interfaces that are up are in the list. -/
theorem upNetifs_listed (l : Listed w) : ∀ q ∈ w.upNetifs, q ∈ w.list := by
  intro q hq
  rw [l.mem_iff]
  obtain ⟨n, hn, -⟩ := Option.any_eq_true _ _ |>.mp hq
  exact Option.isSome_of_eq_some hn

/-- A call changes the set of interfaces that are up by its own at most. -/
theorem upNetifs_set (n : EspNetif κ) :
    (w.set p n).upNetifs = if n.lwip.isUp = true then insert p w.upNetifs else w.upNetifs \ {p} := by
  ext q
  have hself : p ∈ (w.set p n).upNetifs ↔ n.lwip.isUp = true := by
    show ((w.set p n).heap p).any _ = true ↔ _
    rw [set_heap]
    rfl
  have hother : q ≠ p → (q ∈ (w.set p n).upNetifs ↔ q ∈ w.upNetifs) := by
    intro hq
    show ((w.set p n).heap q).any _ = true ↔ (w.heap q).any _ = true
    rw [set_heap_of_ne n hq]
  by_cases hq : q = p
  · subst hq
    rw [hself]
    split
    · rename_i hup
      exact ⟨fun _ => Set.mem_insert q _, fun _ => hup⟩
    · rename_i hup
      exact ⟨fun h => absurd h hup, fun h => absurd rfl h.2⟩
  · rw [hother hq]
    split
    · exact ⟨Set.mem_insert_of_mem p, fun h => (Set.mem_insert_iff.mp h).resolve_left hq⟩
    · exact ⟨fun h => ⟨h, hq⟩, fun h => h.1⟩

/-- Nothing else matters. -/
theorem upNetifs_set_same {n n' : EspNetif κ} (hn : w.heap p = some n)
    (hup : n'.lwip.isUp = n.lwip.isUp) : (w.set p n').upNetifs = w.upNetifs := by
  have hp : p ∈ w.upNetifs ↔ n.lwip.isUp = true := by
    show (w.heap p).any _ = true ↔ _
    rw [hn]
    rfl
  rw [upNetifs_set, hup]
  split
  · rename_i h
    exact Set.insert_eq_of_mem (hp.mpr h)
  · rename_i h
    exact Set.sdiff_singleton_eq_self fun hmem => h (hp.mp hmem)

/-- A call keeps all route priorities. -/
theorem routePrio_set {n n' : EspNetif κ} (hn : w.heap p = some n)
    (hconfig : n'.config = n.config) : (w.set p n').routePrio = w.routePrio := by
  funext q
  by_cases hq : q = p
  · subst hq
    have hprio : n'.routePrio = n.routePrio := congrArg (fun c => c.2.2.1) hconfig
    rw [World.routePrio, World.routePrio, set_heap, hn, Option.map_some, Option.map_some, hprio]
  · rw [World.routePrio, World.routePrio, set_heap_of_ne _ hq]

/-! ## One call -/

/-- Only `esp_netif_set_default_netif` asks for a default interface by name. -/
theorem update_ne_setDefault (u : lwip.UpSpec) {call : ApiCall} {r : Call κ}
    (hr : call.run lwip registered p n = some r) (hcall : call ≠ .setDefaultNetif) :
    r.update ≠ some .setDefault := by
  rcases run_update u hr with h | ⟨_, _, -, h, -⟩
  · rw [h]
    cases call with
    | stop =>
      by_cases hup : n.lwip.isUp = true <;> simp [ApiCall.update, hup]
    | setDefaultNetif => exact absurd rfl hcall
    | start | up | down | dhcpcStart | dhcpcStop | dhcpsStart | dhcpsStop | setIpInfo =>
      simp [ApiCall.update]
  · rw [h]
    nofun

/-- No other call touches a default that was set by hand. -/
theorem call_held (u : lwip.UpSpec) {call : ApiCall} {mutex : Bool} {q : NetifPtr}
    (h : w.espNetifCall lwip p call mutex = some w') (hcall : call ≠ .setDefaultNetif)
    (ho : w.overridden = true) (hlast : w.lastDefault = some q) (hq : q ∈ w.list) :
    w'.lastDefault = some q ∧ w'.overridden = true := by
  obtain ⟨n, r, -, hr, ⟨-, rfl⟩ | ⟨action, haction, hupdate⟩⟩ := espNetifCall_cases h
  · exact ⟨hlast, ho⟩
  · refine updateDefaultNetif_held hupdate ?_ ho hlast hq
    rintro rfl
    exact update_ne_setDefault u hr hcall haction

/-- `esp_netif_set_default_netif` sets the interface and marks it as chosen by hand. -/
theorem call_setDefault {mutex : Bool}
    (h : w.espNetifCall lwip p .setDefaultNetif mutex = some w') :
    w'.lastDefault = some p ∧ w'.overridden = true := by
  obtain ⟨n, r, -, hr, hcases⟩ := espNetifCall_cases h
  cases hr
  obtain ⟨hnone, -⟩ | ⟨action, haction, hupdate⟩ := hcases
  · exact nomatch hnone
  · cases haction
    rw [updateDefaultNetif] at hupdate
    dsimp only at hupdate
    rw [if_neg (fun h => h.2.1 rfl), if_neg (fun h => h.2 rfl)] at hupdate
    cases hupdate
    exact ⟨rfl, rfl⟩

/-- While the default is the best interface that is up, a call replaces `n` at `p` by `n'` and asks
for an update or for none, and `o` is the default after it. -/
structure Updating (w : World κ) (p : NetifPtr) (n n' : EspNetif κ) (es : List Effect)
    (update : Option DefaultAction) (o : Option NetifPtr) : Prop where
  before : w.heap p = some n
  config : n'.config = n.config
  listed : Listed w
  best : IsBest w.routePrio w.upNetifs w.lastDefault
  unchanged : update = none → o = w.lastDefault
  next : ∀ action, update = some action →
    o = ((w.set p n').perform p es).nextDefault p action

section Updating

variable {n' : EspNetif κ} {es : List Effect} {update : Option DefaultAction} {o : Option NetifPtr}

/-- An update leaves the list as it is. -/
theorem Updating.listed_after (h : Updating w p n n' es update o) :
    Listed ((w.set p n').perform p es) :=
  (h.listed.set h.before n').congr rfl rfl (fun _ => rfl) h.listed.locked

/-- An update keeps all route priorities. -/
theorem Updating.routePrio (h : Updating w p n n' es update o) :
    ((w.set p n').perform p es).routePrio = w.routePrio :=
  routePrio_set h.before h.config

/-- The priority of the interface is that of its configuration. -/
theorem Updating.routePrio_self (h : Updating w p n n' es update o) :
    w.routePrio p = n.routePrio := by
  rw [World.routePrio, h.before]
  rfl

/-- The interface is up after the call, and the update is made. -/
theorem Updating.started (h : Updating w p n n' es (some .started) o)
    (hup : n'.lwip.isUp = true) : IsBest w.routePrio (w.set p n').upNetifs o := by
  have hset : ((w.set p n').perform p es).upNetifs = insert p w.upNetifs :=
    (upNetifs_set n').trans (if_pos hup)
  have hbest : IsBest ((w.set p n').perform p es).routePrio w.upNetifs
      ((w.set p n').perform p es).lastDefault := h.routePrio ▸ h.best
  rw [h.next .started rfl, ← h.routePrio]
  exact isBest_started hbest hset (upNetifs_listed h.listed_after)

/-- An interface has been stopped, and all of them are looked at. -/
theorem Updating.stopped (h : Updating w p n n' es (some .stopped) o) :
    IsBest w.routePrio (w.set p n').upNetifs o := by
  rw [h.next .stopped rfl, ← h.routePrio]
  exact isBest_bestDefault h.listed_after.once (upNetifs_listed h.listed_after)

/-- Nothing is to be updated. -/
theorem Updating.same (h : Updating w p n n' es none o) (hup : n'.lwip.isUp = n.lwip.isUp) :
    IsBest w.routePrio (w.set p n').upNetifs o := by
  rw [h.unchanged rfl, upNetifs_set_same h.before hup]
  exact h.best

/-- An interface that is not better than the default has come up, and the update is left out. -/
theorem Updating.missed {q : NetifPtr} (h : Updating w p n n' es none o) (hup : n'.lwip.isUp = true)
    (hq : q ∈ w.lastDefault) (hle : n.routePrio ≤ w.routePrio q) :
    IsBest w.routePrio (w.set p n').upNetifs o := by
  have hbest := h.best
  rw [h.unchanged rfl, upNetifs_set, if_pos hup]
  rw [show w.lastDefault = some q from hq] at hbest ⊢
  exact hbest.insert_le (h.routePrio_self ▸ hle)

/-- An interface that is not the default is down after `esp_netif_start`, with or without an
update. -/
theorem Updating.down (h : Updating w p n n' es update o)
    (hupdate : update = none ∨ update = some .started) (hdown : n'.lwip.isUp = false)
    (hp : w.lastDefault ≠ some p) : IsBest w.routePrio (w.set p n').upNetifs o := by
  have hlast : ∀ q ∈ w.lastDefault, q ∈ w.list := fun q hq => by
    have hbest := h.best
    rw [hq] at hbest
    exact upNetifs_listed h.listed q hbest.mem
  have hself : ((w.set p n').perform p es).isNetifUp p = false := by
    show ((w.set p n').heap p).any _ = false
    rw [set_heap]
    exact hdown
  have ho : o = w.lastDefault := by
    rcases hupdate with hnone | hstarted
    · exact h.unchanged hnone
    · exact (h.next .started hstarted).trans (nextDefault_of_down hself hlast)
  rw [ho, upNetifs_set, hdown, if_neg Bool.false_ne_true]
  exact h.best.diff hp

end Updating

/-- As long as none is set by hand, the default stays the best interface that is up. -/
theorem isBest_run (u : lwip.UpSpec) {call : ApiCall} {mutex : Bool} {r : Call κ}
    {o : Option NetifPtr} (ha : UpdatesDefault w (.call (some p) call mutex))
    (hr : call.run lwip w.callback p n = some r) (hcall : call ≠ .setDefaultNetif)
    (hover : w.overridden = false) (h : Updating w p n r.netif r.effects r.update o) :
    IsBest w.routePrio (w.set p r.netif).upNetifs o := by
  have hup := run_isUp u hr
  cases call with
  | start udpNew malloc =>
    have ha := ha.resolve_left (Bool.eq_false_iff.mp hover) n h.before
    have hup : r.netif.lwip.isUp = n.flags.autoup := hup
    -- only a start may leave out its update
    have hupdate : r.update = some .started ∨
        r.update = none ∧ ¬ n.StartUpdates p udpNew malloc := by
      rcases run_update u hr with h | ⟨_, _, hstart, h, hnot⟩
      · exact .inl h
      · cases hstart
        exact .inr ⟨h, hnot⟩
    by_cases hflag : n.flags.autoup = true
    · rw [if_pos hflag] at ha
      rw [hflag] at hup
      rcases hupdate with hupdate | ⟨hupdate, hnot⟩
      · rw [hupdate] at h
        exact h.started hup
      · rw [hupdate] at h
        rcases ha with hupdates | hwas | ⟨q, hq, hle⟩
        · exact absurd hupdates hnot
        · exact h.same (hup.trans hwas.symm)
        · exact h.missed hup hq hle
    · rw [if_neg hflag] at ha
      have hdown : r.netif.lwip.isUp = false := hup.trans (Bool.eq_false_iff.mpr hflag)
      exact h.down (hupdate.symm.imp_left And.left) hdown ha
  | stop =>
    rw [run_update_eq u hr nofun] at h
    by_cases hwas : n.lwip.isUp = true
    · rw [show ApiCall.stop.update n = some .stopped from if_pos hwas] at h
      exact h.stopped
    · rw [show ApiCall.stop.update n = none from if_neg hwas] at h
      exact h.same (hup.trans (Bool.eq_false_iff.mpr hwas).symm)
  | up =>
    rw [run_update_eq u hr nofun] at h
    exact h.started hup
  | down =>
    rw [run_update_eq u hr nofun] at h
    exact h.stopped
  | setDefaultNetif => exact absurd rfl hcall
  | dhcpcStart | dhcpcStop | dhcpsStart | dhcpsStop | setIpInfo =>
    rw [run_update_eq u hr nofun] at h
    exact h.same hup

/-- After a call that updates it, the default interface is the best of those that are up. -/
theorem call_best (u : lwip.UpSpec) (l : Listed w) {call : ApiCall} {mutex : Bool}
    (ha : UpdatesDefault w (.call (some p) call mutex))
    (h : w.espNetifCall lwip p call mutex = some w') (hcall : call ≠ .setDefaultNetif)
    (hover : w.overridden = false) (hbest : IsBest w.routePrio w.upNetifs w.lastDefault) :
    w'.overridden = false ∧ IsBest w'.routePrio w'.upNetifs w'.lastDefault := by
  obtain ⟨n, r, hn, hr, ⟨hnone, rfl⟩ | ⟨action, haction, hupdate⟩⟩ := espNetifCall_cases h
  · have hprio := routePrio_set (w := w) hn (run_config hr)
    refine ⟨hover, ?_⟩
    show IsBest (w.set p r.netif).routePrio (w.set p r.netif).upNetifs w.lastDefault
    rw [hprio]
    exact isBest_run u ha hr hcall hover ⟨hn, run_config hr, l, hbest, fun _ => rfl,
      fun action h => nomatch hnone.symm.trans h⟩
  · have hprio := routePrio_set (w := w) hn (run_config hr)
    obtain ⟨hlast, hover'⟩ := updateDefaultNetif_next hupdate fun h =>
      absurd (hover.symm.trans h) (by decide)
    obtain ⟨last, overridden, lock, hw', -⟩ := updateDefaultNetif_frame hupdate
    have hne : action ≠ .setDefault := by
      rintro rfl
      exact update_ne_setDefault u hr hcall haction
    refine ⟨hover'.trans (decide_eq_false hne), ?_⟩
    rw [hlast, hw']
    show IsBest (w.set p r.netif).routePrio (w.set p r.netif).upNetifs _
    rw [hprio]
    refine isBest_run u ha hr hcall hover ⟨hn, run_config hr, l, hbest,
      fun h => absurd (haction.symm.trans h) nofun, fun action' haction' => ?_⟩
    cases haction.symm.trans haction'
    rfl

/-- No default is set by hand. -/
theorem DefaultKept.of_best (l : Listed w') (hover : w'.overridden = false)
    (hbest : IsBest w'.routePrio w'.upNetifs w'.lastDefault) : DefaultKept none w' :=
  ⟨l, ⟨nofun, fun _ => hbest⟩, hover, nofun⟩

/-- The default is set by hand. -/
theorem DefaultKept.of_held (l : Listed w') {q : NetifPtr} (hlast : w'.lastDefault = some q)
    (hover : w'.overridden = true) (hq : q ∈ w'.list) : DefaultKept (some q) w' := by
  refine ⟨l, ⟨fun q' hq' => ?_, nofun⟩, hover, fun q' hq' => ?_⟩
  · cases hq'
    exact hlast
  · cases hq'
    exact (l.mem_iff q).mp hq

/-- A call keeps the invariant. -/
theorem DefaultKept.call (k : DefaultKept m w) (u : lwip.UpSpec) {call : ApiCall} {mutex : Bool}
    (ha : UpdatesDefault w (.call (some p) call mutex))
    (h : w.espNetifCall lwip p call mutex = some w') :
    DefaultKept (World.manual m (.call (some p) call mutex : Action κ)) w' := by
  obtain ⟨l', hlist⟩ := k.toListed.call h
  by_cases hcall : call = .setDefaultNetif
  · subst hcall
    obtain ⟨hlast, hover⟩ := call_setDefault h
    obtain ⟨n, r, hn, -⟩ := espNetifCall_cases h
    refine .of_held l' hlast hover ?_
    rw [hlist, k.mem_iff]
    exact Option.isSome_of_eq_some hn
  · have hm : World.manual m (.call (some p) call mutex : Action κ) = m := by
      cases call with
      | setDefaultNetif => exact absurd rfl hcall
      | start | stop | up | down | dhcpcStart | dhcpcStop | dhcpsStart | dhcpsStop | setIpInfo => rfl
    rw [hm]
    cases hm : m with
    | none =>
      subst hm
      obtain ⟨hover, hbest⟩ := call_best u k.toListed ha h hcall k.overridden (k.best rfl)
      exact .of_best l' hover hbest
    | some q =>
      subst hm
      have hq : q ∈ w.list := (k.mem_iff q).mpr (k.exists_manual q rfl)
      obtain ⟨hlast, hover⟩ := call_held u h hcall k.overridden (k.manual q rfl) hq
      exact .of_held l' hlast hover (hlist ▸ hq)

/-! ## The other steps -/

/-- Only the default, and the interfaces that are up with their priorities matter. -/
theorem DefaultKept.congr (k : DefaultKept m w) (l : Listed w')
    (hlast : w'.lastDefault = w.lastDefault) (hover : w'.overridden = w.overridden)
    (hup : w'.upNetifs = w.upNetifs) (hprio : ∀ q ∈ w.upNetifs, w'.routePrio q = w.routePrio q)
    (hexists : ∀ q, (w.heap q).isSome → (w'.heap q).isSome) : DefaultKept m w' where
  toListed := l
  manual q hq := hlast.trans (k.manual q hq)
  best hm := hlast ▸ (k.best hm).congr hup hprio
  overridden := hover.trans k.overridden
  exists_manual q hq := hexists q (k.exists_manual q hq)

/-- Replacing an interface by one that is up if and only if the old one was -/
theorem DefaultKept.set (k : DefaultKept m w) {n n' : EspNetif κ} (hn : w.heap p = some n)
    (hconfig : n'.config = n.config) (hup : n'.lwip.isUp = n.lwip.isUp) :
    DefaultKept m (w.set p n') :=
  k.congr (k.toListed.set hn n') rfl rfl (upNetifs_set_same hn hup)
    (fun q _ => congrFun (routePrio_set hn hconfig) q) fun q hq => (isSome_set hn n' q) ▸ hq

/-- The last thing that `esp_netif_destroy` does is to update the default. -/
theorem destroy_update {env : DestroyEnv} (h : w.espNetifDestroy lwip p env = some w') :
    ∃ v : World κ, v.updateDefaultNetif p .stopped env.updateMutex = some w' ∧
      v.lastDefault = w.lastDefault ∧ v.overridden = w.overridden ∧ v.list = w'.list ∧
      v.heap = w'.heap := by
  rw [espNetifDestroy] at h
  cases hn : w.heap p with
  | none =>
    rw [hn] at h
    cases h
  | some n =>
    rw [hn] at h
    dsimp only at h
    obtain ⟨last, overridden, lock, hw', -⟩ := updateDefaultNetif_frame h
    have hsame : (w.removeFromList p env.removeMutex).2.lastDefault = w.lastDefault ∧
        (w.removeFromList p env.removeMutex).2.overridden = w.overridden := by
      rcases removeFromList_cases w p env.removeMutex with ⟨-, -, _, hr, -⟩ | ⟨-, _, hr, -⟩
      · rw [hr]
        exact ⟨rfl, rfl⟩
      · rw [hr]
        exact ⟨rfl, rfl⟩
    refine ⟨_, h, ?_, ?_, by rw [hw'], by rw [hw']⟩
    · rw [← hsame.1]
      split <;> rfl
    · rw [← hsame.2]
      split <;> rfl

/-- A default that was set by hand and has not been destroyed stays. -/
theorem destroy_held {env : DestroyEnv} {q : NetifPtr}
    (h : w.espNetifDestroy lwip p env = some w') (ho : w.overridden = true)
    (hlast : w.lastDefault = some q) (hq : q ∈ w'.list) :
    w'.lastDefault = some q ∧ w'.overridden = true := by
  obtain ⟨v, hupdate, hvlast, hvover, hvlist, -⟩ := destroy_update h
  exact updateDefaultNetif_held hupdate nofun (hvover.trans ho) (hvlast.trans hlast) (hvlist ▸ hq)

/-- Otherwise the default becomes the best of the interfaces that are left. -/
theorem destroy_best {env : DestroyEnv} (l : Listed w')
    (h : w.espNetifDestroy lwip p env = some w')
    (ho : w.overridden = true → ∀ q ∈ w.lastDefault, q ∉ w'.list) :
    w'.overridden = false ∧ IsBest w'.routePrio w'.upNetifs w'.lastDefault := by
  obtain ⟨v, hupdate, hvlast, hvover, hvlist, hvheap⟩ := destroy_update h
  have hprio : v.routePrio = w'.routePrio := by
    funext q
    rw [World.routePrio, World.routePrio, hvheap]
  have hup : v.upNetifs = w'.upNetifs := by
    unfold upNetifs isNetifUp
    rw [hvheap]
  obtain ⟨hlast, hover⟩ := updateDefaultNetif_next hupdate fun hover => by
    refine ⟨?_, rfl⟩
    have hnot := ho (hvover ▸ hover)
    rw [hvlast, isActive, hvlist]
    exact Option.filter_eq_none_iff.mpr fun q hq => by simpa using hnot q hq
  refine ⟨hover, ?_⟩
  rw [hlast, ← hprio, ← hup]
  refine isBest_bestDefault (hvlist ▸ l.once) fun q hq => ?_
  rw [hvlist]
  exact upNetifs_listed l q (hup ▸ hq)

/-- Destroying an interface keeps the invariant. -/
theorem DefaultKept.destroy (k : DefaultKept m w) {env : DestroyEnv}
    (h : w.espNetifDestroy lwip p env = some w') :
    DefaultKept (World.manual m (.destroy (some p) env : Action κ)) w' := by
  obtain ⟨l, hlist, hheap⟩ := k.toListed.destroy h
  have hgone : p ∉ w'.list := by
    rw [hlist]
    exact k.once.not_mem_erase
  cases hm : m with
  | none =>
    subst hm
    obtain ⟨hover, hbest⟩ := destroy_best l h fun ho =>
      absurd (k.overridden.symm.trans ho) (by decide)
    exact .of_best l hover hbest
  | some q =>
    subst hm
    by_cases hqp : q = p
    · -- the default that was set by hand is destroyed
      subst hqp
      have hm : World.manual (some q) (.destroy (some q) env : Action κ) = none := if_pos rfl
      obtain ⟨hover, hbest⟩ := destroy_best l h fun _ q' hq' => by
        cases (k.manual q rfl).symm.trans hq'
        exact hgone
      rw [hm]
      exact .of_best l hover hbest
    · have hm : World.manual (some q) (.destroy (some p) env : Action κ) = some q :=
        if_neg fun h => hqp (Option.some.inj h)
      have hq : q ∈ w'.list := by
        rw [hlist, k.once.mem_erase_iff]
        exact ⟨hqp, (k.mem_iff q).mpr (k.exists_manual q rfl)⟩
      obtain ⟨hlast, hover⟩ := destroy_held h k.overridden (k.manual q rfl) hq
      rw [hm]
      exact .of_held l hlast hover hq

/-- A creation that fails keeps the invariant. -/
theorem DefaultKept.undone {w₂ : World κ} {env : DestroyEnv} (k : DefaultKept m w)
    (hp : w.heap p = none) (hw₂ : Halfway w p w₂)
    (h : w₂.espNetifDestroy lwip p env = some w') : DefaultKept m w' := by
  obtain ⟨l, hlist⟩ := k.toListed.undone hp hw₂ h
  cases hm : m with
  | none =>
    subst hm
    obtain ⟨hover, hbest⟩ := destroy_best l h fun ho =>
      absurd (k.overridden.symm.trans (hw₂.same.2.1.symm.trans ho)) (by decide)
    exact .of_best l hover hbest
  | some q =>
    subst hm
    have hq : q ∈ w'.list := hlist ▸ (k.mem_iff q).mpr (k.exists_manual q rfl)
    obtain ⟨hlast, hover⟩ := destroy_held h (hw₂.same.2.1.trans k.overridden)
      (hw₂.same.1.trans (k.manual q rfl)) hq
    exact .of_held l hlast hover hq

/-- A new interface is down. -/
theorem DefaultKept.created {base : InherentConfig} {key : Option String} {n n₀ : EspNetif κ}
    {item mutex : Bool} (k : DefaultKept m w) (hp : w.heap p = none)
    (hn : Created lwip base key n) (hadd : item = true ∧ (w.listLock = true ∨ mutex = true)) :
    DefaultKept m
      { ((w.set p n₀).addToList p item mutex).2.set p n with callback := true } := by
  obtain ⟨l, hlist⟩ := k.toListed.created n n₀ hp hadd
  have hhalf := (halfway_addToList w p n₀ item mutex).set n
  generalize ((w.set p n₀).addToList p item mutex).2 = u at l hlist hhalf ⊢
  have hup : ∀ q ∈ w.upNetifs, q ≠ p := by
    rintro q hq rfl
    have hq : (w.heap q).any _ = true := hq
    rw [hp] at hq
    exact Bool.false_ne_true hq
  refine k.congr l hhalf.same.1 hhalf.same.2.1 ?_ (fun q hq => ?_) fun q hq => ?_
  · -- `p` is down, and the others are as they were
    show (u.set p n).upNetifs = w.upNetifs
    rw [upNetifs_set, hn.lwip, if_neg Bool.false_ne_true]
    ext q
    have hother : q ≠ p → u.isNetifUp q = w.isNetifUp q := fun hq => by
      rw [isNetifUp, isNetifUp, ← hhalf.heap q hq, set_heap_of_ne _ hq]
    constructor
    · rintro ⟨hq, hne⟩
      exact (hother hne).symm.trans hq
    · intro hq
      exact ⟨(hother (hup q hq)).trans hq, hup q hq⟩
  · show ((((u.set p n).heap q).map EspNetif.routePrio).getD 0) = _
    rw [hhalf.heap q (hup q hq)]
    rfl
  · rw [← l.mem_iff]
    show q ∈ u.list
    rw [hlist]
    exact List.mem_cons_of_mem p ((k.mem_iff q).mpr hq)

/-- The condition on a step asks that a new interface gets into the list. -/
theorem inserts_of_updatesDefault {a : Action κ} (h : UpdatesDefault w a) : Inserts w a := by
  cases a with
  | new | destroy | addressChange | ip6Valid | timeout => exact h
  | call => trivial

/-- A timer does not touch the default interface. -/
theorem DefaultKept.runTimeout (k : DefaultKept m w) (t : Timer) :
    DefaultKept m (w.runTimeout t p) := by
  have l := k.toListed.runTimeout (p := p) t
  cases hn : w.heap p with
  | none =>
    cases t <;> simp only [World.runTimeout, hn] at l ⊢
    · exact k.congr l rfl rfl rfl (fun _ _ => rfl) fun _ h => h
    · exact k.congr l rfl rfl rfl (fun _ _ => rfl) fun _ h => h
    · exact k
  | some n =>
    cases t <;> simp only [World.runTimeout, hn] at l ⊢
    · exact k.congr l rfl rfl rfl (fun _ _ => rfl) fun _ h => h
    · exact k.congr l rfl rfl rfl (fun _ _ => rfl) fun _ h => h
    · split at l
      · rename_i hlist
        rw [if_pos hlist]
        have hset := k.set hn (EspNetif.config_of_rest ipLostTimer_rest)
          (congrArg LwipNetif.isUp ipLostTimer_lwip)
        exact hset.congr l rfl rfl rfl (fun _ _ => rfl) fun _ h => h
      · rename_i hlist
        rw [if_neg hlist]
        exact k

/-- Every step that meets the condition keeps the invariant. -/
theorem DefaultKept.step (k : DefaultKept m w) (u : lwip.UpSpec) {a : Action κ}
    (ha : UpdatesDefault w a) (h : w.step lwip a = some w') :
    DefaultKept (World.manual m a) w' := by
  have l' : Listed w' := k.toListed.step (inserts_of_updatesDefault ha) h
  cases stepped_of_step h with
  | refused | destroyNull | callNull | ip6Ignored => exact k
  | undone hp hc hw₂ h => exact k.undone hp hw₂ h
  | created hp hc hkey hn => exact k.created hp hn (ha hc)
  | destroy h => exact k.destroy h
  | call h => exact k.call u ha h
  | @addressChange p n addr dhcpData core hn =>
    have hset := k.set hn (EspNetif.config_of_rest (netifCallbackFn_rest w.callback n
        (⟨n.lwip.isUp, addr, dhcpData, core⟩, decide (addr ≠ n.lwip.addr))))
      (by rw [netifCallbackFn_lwip])
    exact hset.congr l' rfl rfl rfl (fun _ _ => rfl) fun _ h => h
  | ip6Valid => exact k.congr l' rfl rfl rfl (fun _ _ => rfl) fun _ h => h
  | @timeout t p hmem =>
    have herase : DefaultKept m { w with timeouts := w.timeouts.erase (t, p) } :=
      k.congr (k.toListed.congr rfl rfl (fun _ => rfl) k.locked) rfl rfl rfl (fun _ _ => rfl)
        fun _ h => h
    exact herase.runTimeout t

/-- At boot there is no interface and no default. -/
theorem defaultKept_init : DefaultKept none (init : World κ) where
  toListed := listed_init
  manual := nofun
  best _ := Set.eq_empty_of_forall_notMem fun _ h => Bool.false_ne_true h
  overridden := rfl
  exists_manual := nofun

end Kept

/-! ## Every run -/

instance decidableStartUpdates (n : EspNetif κ) (p : NetifPtr) (udpNew : Option PcbPtr)
    (malloc : Bool) : Decidable (n.StartUpdates p udpNew malloc) := by
  unfold EspNetif.StartUpdates
  infer_instance

instance decidableUpdatesDefault (w : World κ) : ∀ a, Decidable (UpdatesDefault w a)
  | .call (some p) (.start udpNew malloc) _ => inferInstanceAs (Decidable (_ ∨ ∀ n ∈ w.heap p,
      if n.flags.autoup = true then n.StartUpdates p udpNew malloc ∨ n.lwip.isUp = true ∨
        ∃ q ∈ w.lastDefault, n.routePrio ≤ w.routePrio q
      else w.lastDefault ≠ some p))
  | .call none _ _ | .call (some _) .stop _ | .call (some _) .up _ | .call (some _) .down _
  | .call (some _) .dhcpcStart _ | .call (some _) .dhcpcStop _ | .call (some _) (.dhcpsStart _) _
  | .call (some _) .dhcpsStop _ | .call (some _) (.setIpInfo _) _
  | .call (some _) .setDefaultNetif _ => .isTrue trivial
  | .new p config env => inferInstanceAs (Decidable (Inserts w (.new p config env)))
  | .destroy .. | .addressChange .. | .ip6Valid _ | .timeout .. => .isTrue trivial

/-- In every run whose steps meet the condition, the default is after every step the one set by
hand as long as it exists, and otherwise the best interface that is up. -/
theorem default_of_updates (lwip : Lwip κ) (u : lwip.UpSpec) (actions : List (Action κ))
    (w : World κ) (h : Machine.exec (World.step lwip) World.init actions = some w)
    (hmeets : Machine.Along (World.step lwip) UpdatesDefault World.init actions) :
    DefaultOk (actions.foldl manual none) w := by
  have hkept : DefaultKept (actions.foldl manual none) w :=
    Machine.exec_fold_along (I := DefaultKept) (g := manual)
      (fun _ _ _ _ ha h k => k.step u ha h) h hmeets defaultKept_init
  exact hkept.toDefaultOk

/-- The access point is started and the station comes up; the access point is set by hand, the
station goes down and up, and both are destroyed. -/
def defaultCalls : List (Action Bool) :=
  [.new 0 (some wifiSta.full) .plenty, .new 1 (some wifiAp.full) .plenty,
    .call (some 1) (.start (some 7) true) true, .call (some 0) (.start none true) true,
    .call (some 0) .up true, .call (some 1) .setDefaultNetif true, .call (some 0) .down true,
    .call (some 0) .up true, .destroy (some 1) ⟨true, true⟩, .call (some 0) .stop true,
    .destroy (some 0) ⟨true, true⟩]

/-- The run of `defaultCalls`, chosen by priority and by hand -/
theorem default_of_updates_defaultCalls : ∃ w,
    Machine.exec (World.step Lwip.simple) World.init defaultCalls = some w ∧
      DefaultOk (defaultCalls.foldl manual none) w := by
  obtain ⟨w, hw⟩ := Option.isSome_iff_exists.mp
    (show (Machine.exec (World.step Lwip.simple) World.init defaultCalls).isSome by
      decide +kernel)
  exact ⟨w, hw, default_of_updates Lwip.simple simple_upSpec defaultCalls w hw (by decide +kernel)⟩

/-- The DHCP server of the access point cannot be started: the interface is up, and there is no
default. -/
def startWithoutPcb : List (Action Bool) :=
  [.new 0 (some wifiAp.full) .plenty, .call (some 0) (.start none true) true]

/-- The access point is up after the failed start, and there is no default interface. -/
theorem startWithoutPcb_not_default : ∃ w : World Bool,
    Machine.exec (World.step Lwip.simple) World.init startWithoutPcb = some w ∧
      ¬ DefaultOk (startWithoutPcb.foldl manual none) w := by
  obtain ⟨w, hw⟩ := Option.isSome_iff_exists.mp
    (show (Machine.exec (World.step Lwip.simple) World.init startWithoutPcb).isSome by
      decide +kernel)
  refine ⟨w, hw, fun hok => ?_⟩
  have hstate : (Machine.exec (World.step Lwip.simple) World.init startWithoutPcb).any
      (fun w => w.lastDefault.isNone && w.isNetifUp 0) = true := by decide +kernel
  rw [hw, Option.any_some, Bool.and_eq_true] at hstate
  have hbest := hok.best rfl
  rw [Option.isNone_iff_eq_none.mp hstate.1] at hbest
  exact Set.notMem_empty 0 (hbest.subset hstate.2)

end World

end PicoHost.Interface
