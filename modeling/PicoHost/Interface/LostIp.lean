import PicoHost.Interface.Address
import PicoHost.Interface.Create
import PicoHost.Lib.Run

/-!
# The lost-IP event

An interface that loses its address gets a lost-IP event, after a while, and only if it has
announced the address. This goes wrong where a call resets `ip_info` before it asks for the timer,
where the memory of a destroyed interface is used again while its timer is pending, and where the
timer of an interface expires that has announced nothing; and nowhere else (`lostIp_iff`).
-/

namespace PicoHost.Interface

open Dhcps (NetifPtr PcbPtr)

variable {κ : Type} {lwip : Lwip κ} {p q : NetifPtr} {n n' : EspNetif κ}

/-! ## The events of one interface -/

/-- Whether an address has been announced since the last lost-IP event -/
def announcedAfter (announced : Bool) : IpEvent → Bool
  | .gotIp .. => true
  | .lostIp _ => false
  | .gotIp6 => announced

def announced (es : List IpEvent) : Bool := es.foldl announcedAfter false

/-- Events that announce an address make the last one an announcement. -/
theorem announced_append_of_ne_nil {es es' : List IpEvent} (h : es' ≠ [])
    (hannounces : ∀ e ∈ es', e.announces = true) : announced (es ++ es') = true := by
  unfold announced
  rw [List.foldl_append]
  generalize es.foldl announcedAfter false = b
  induction es' generalizing b with
  | nil => exact absurd rfl h
  | cons e es' ih =>
    have he : announcedAfter b e = true := by
      cases e with
      | gotIp => rfl
      | lostIp | gotIp6 => cases hannounces _ (List.mem_cons_self ..)
    rw [List.foldl_cons, he]
    by_cases hnil : es' = []
    · rw [hnil]
      rfl
    · exact ih hnil (fun e' he' => hannounces e' (List.mem_cons_of_mem e he')) true

/-- After the event of a lost address nothing is announced. -/
theorem announced_append_lostIp (es : List IpEvent) (id : Nat) :
    announced (es ++ [.lostIp id]) = false := by
  unfold announced
  rw [List.foldl_append]
  rfl

/-- The events among the effects of a call -/
def posts : List Effect → List IpEvent
  | [] => []
  | .post e :: es => e :: posts es
  | .sysTimeout _ :: es | .sysUntimeout _ :: es => posts es

/-- The events among the effects of a call -/
theorem mem_posts {es : List Effect} {e : IpEvent} : e ∈ posts es ↔ .post e ∈ es := by
  induction es with
  | nil => exact ⟨nofun, nofun⟩
  | cons e' es ih =>
    cases e' with
    | post e' => simp [posts, ih]
    | sysTimeout t => simp [posts, ih]
    | sysUntimeout t => simp [posts, ih]

/-- Every event of a call is about the interface of the call. -/
theorem events_eq (p : NetifPtr) (es : List Effect) :
    World.events p es = (posts es).map fun e => (e, p) := by
  induction es with
  | nil => rfl
  | cons e es ih =>
    cases e with
    | post e => exact congrArg _ ih
    | sysTimeout t => exact ih
    | sysUntimeout t => exact ih

/-! ## Runs with their events -/

/-- The interfaces, and for each of them the events that were posted for it since it was
created -/
structure Watched (κ : Type) where
  world : World κ
  since : NetifPtr → List IpEvent

/-- The calls about addresses, the callback of lwIP for an address, the timer of the lost address,
and the creation and the destruction of interfaces -/
def World.Action.aboutAddress : World.Action κ → Bool
  | .new .. | .destroy .. | .addressChange .. | .timeout .ipLost _ => true
  | .call _ apiCall _ => apiCall.aboutAddress
  | .ip6Valid _ | .timeout .garp _ | .timeout .mldv6 _ => false

/-- `esp_netif_new` with the memory at `p` -/
def World.Action.createsAt (p : NetifPtr) : World.Action κ → Bool
  | .new q _ _ => decide (q = p)
  | _ => false

namespace Watched

open World (Action)

def init : Watched κ := ⟨World.init, fun _ => []⟩

/-- The events that a step has posted -/
def posted (w w' : World κ) : List (IpEvent × NetifPtr) := w'.posted.drop w.posted.length

/-- A creation begins the events of an interface anew. -/
def record (s : Watched κ) (a : Action κ) (events : List (IpEvent × NetifPtr)) (p : NetifPtr) :
    List IpEvent :=
  (if a.createsAt p then [] else s.since p) ++ (events.filter fun e => e.2 = p).map Prod.fst

def step (lwip : Lwip κ) (s : Watched κ) (a : Action κ) : Option (Watched κ) :=
  if a.aboutAddress then
    (s.world.step lwip a).map fun w => ⟨w, s.record a (posted s.world w)⟩
  else none

/-- An interface that loses its address has its timer pending, unless it has no lost-IP event;
`timer_running` says whether the timer is pending; and a lost-IP event is posted only for an
interface that exists and has announced an address since the last one. -/
structure LostIpOk (s s' : Watched κ) : Prop where
  armed : ∀ p n n', s.world.heap p = some n → s'.world.heap p = some n' → n.lostIpEvent ≠ 0 →
    n.lwip.addr.ip ≠ 0 → n'.lwip.addr.ip = 0 → (.ipLost, p) ∈ s'.world.timeouts
  running : ∀ p n, s'.world.heap p = some n →
    (n.timerRunning = true ↔ (.ipLost, p) ∈ s'.world.timeouts)
  announced : ∀ id p, (.lostIp id, p) ∈ posted s.world s'.world →
    (s.world.heap p).isSome ∧ announced (s.since p) = true

/-- - An interface is not created where a timer of a destroyed one is pending;
- the address of an interface with a lost-IP event becomes zero only while the timer is running or
  in a call that arms it (`ApiCall.Watches`), or in a callback that does;
- when the timer of an interface expires, the interface is in the list, and if its address is
  zero, it has announced an address and `ip_info_old` is not zero. -/
def Watches (lwip : Lwip κ) (s : Watched κ) : Action κ → Prop
  | .new p config env => s.world.creates config env = true → (.ipLost, p) ∉ s.world.timeouts
  | .call (some p) call _ => ∀ n ∈ s.world.heap p, n.lostIpEvent ≠ 0 → n.lwip.addr.ip ≠ 0 →
      n.timerRunning = true ∨ call.Watches lwip s.world.callback n
  | .addressChange p addr _ _ => ∀ n ∈ s.world.heap p, n.lostIpEvent ≠ 0 →
      n.lwip.addr.ip ≠ 0 → addr.ip = 0 →
      n.timerRunning = true ∨ s.world.callback = true ∧ n.ipInfo.ip ≠ 0
  | .timeout .ipLost p => ∀ n ∈ s.world.heap p, p ∈ s.world.list ∧
      (n.lwip.addr.ip = 0 → n.lostIpEvent ≠ 0 →
        n.ipInfoOld.ip ≠ 0 ∧ ∃ e ∈ s.since p, e.announces = true)
  | _ => True

/-! ## The invariant -/

/-- The timer of an interface is pending once if it is running, and the last address that an
interface with a lost-IP event has announced is in `ip_info_old`, from the first one on. -/
structure Watching (s : Watched κ) : Prop where
  timer : ∀ p n, s.world.heap p = some n →
    s.world.timeouts.count (.ipLost, p) = n.timerRunning.toNat
  old : ∀ p n, s.world.heap p = some n → n.lostIpEvent ≠ 0 →
    (announced (s.since p) = true ↔
      n.ipInfoOld.ip ≠ 0 ∧ ∃ e ∈ s.since p, e.announces = true)

/-- At boot no interface exists and no timer is set. -/
theorem watching_init : Watching (init : Watched κ) where
  timer _ _ h := absurd h (Option.some_ne_none _).symm
  old _ _ h := absurd h (Option.some_ne_none _).symm

section Step

variable {s : Watched κ} {w' : World κ}

/-- `timer_running` says whether lwIP holds the timer of the interface. -/
theorem Watching.mem_iff (k : Watching s) (hn : s.world.heap p = some n) :
    (.ipLost, p) ∈ s.world.timeouts ↔ n.timerRunning = true := by
  rw [← List.count_pos_iff, k.timer p n hn]
  cases n.timerRunning <;> decide

/-- What a step posts is what it adds to the log. -/
theorem posted_append {w : World κ} {events : List (IpEvent × NetifPtr)}
    (h : w'.posted = w.posted ++ events) : posted w w' = events := by
  rw [posted, h, List.drop_left]

/-- The events of a step about one interface are those of the step, or none. -/
theorem filter_events (p q : NetifPtr) (es : List IpEvent) :
    ((es.map fun e => (e, p)).filter fun e => e.2 = q).map Prod.fst = if q = p then es else [] := by
  by_cases hq : q = p
  · subst hq
    rw [if_pos rfl]
    induction es with
    | nil => rfl
    | cons e es ih =>
      rw [List.map_cons, List.filter_cons_of_pos (by simp), List.map_cons, ih]
  · rw [if_neg hq]
    induction es with
    | nil => rfl
    | cons e es ih =>
      rw [List.map_cons, List.filter_cons_of_neg (by simpa using Ne.symm hq), ih]

/-- The events of a step about `p`, as they are recorded for `q` -/
theorem record_events (s : Watched κ) (a : Action κ) (es : List IpEvent)
    (ha : a.createsAt q = false) :
    s.record a (es.map fun e => (e, p)) q = s.since q ++ if q = p then es else [] := by
  rw [record, ha, if_neg Bool.false_ne_true, filter_events]

/-! ## A call or a callback about one address -/

/-- A step that replaces `p` by `n'` with these effects, and touches no other interface -/
structure Replaces (s : Watched κ) (p : NetifPtr) (n n' : EspNetif κ) (es : List Effect)
    (w' : World κ) : Prop where
  before : s.world.heap p = some n
  config : n'.config = n.config
  moves : Moves n n' es
  heap : w'.heap = (s.world.set p n').heap
  timeouts : w'.timeouts = World.timeoutsAfter p s.world.timeouts es
  posted : w'.posted = s.world.posted ++ World.events p es

section Replaces

variable {es : List Effect} {a : Action κ}

/-- After the step, `p` is the new interface. -/
theorem Replaces.heap_eq (h : Replaces s p n n' es w') : w'.heap p = some n' := by
  rw [h.heap, World.set_heap]

/-- The other interfaces are as they were. -/
theorem Replaces.heap_of_ne (h : Replaces s p n n' es w') (hq : q ≠ p) :
    w'.heap q = s.world.heap q := by
  rw [h.heap, World.set_heap_of_ne _ hq]

/-- The record after the step -/
theorem Replaces.since (h : Replaces s p n n' es w') (ha : ∀ p, a.createsAt p = false)
    (q : NetifPtr) : s.record a (Watched.posted s.world w') q =
      s.since q ++ if q = p then posts es else [] := by
  rw [posted_append h.posted, events_eq, record_events s a _ (ha q)]

/-- Replacing an interface by one that keeps the rules of the timer keeps the invariant. -/
theorem Replaces.watching (h : Replaces s p n n' es w') (k : Watching s)
    (ha : ∀ p, a.createsAt p = false) :
    Watching ⟨w', s.record a (Watched.posted s.world w')⟩ where
  timer q m hm := by
    have hm : w'.heap q = some m := hm
    show w'.timeouts.count (.ipLost, q) = _
    rw [h.timeouts]
    by_cases hq : q = p
    · subst hq
      cases h.heap_eq.symm.trans hm
      rw [World.count_timeoutsAfter_self h.moves.armed, k.timer q n h.before, Nat.add_comm,
        h.moves.timer]
    · rw [World.count_timeoutsAfter_of_ne hq]
      exact k.timer q m ((h.heap_of_ne hq).symm.trans hm)
  old q m hm hlost := by
    have hm : w'.heap q = some m := hm
    show announced (s.record a (Watched.posted s.world w') q) = true ↔ _ ∧
      ∃ e ∈ s.record a (Watched.posted s.world w') q, e.announces = true
    rw [h.since ha]
    by_cases hq : q = p
    · subst hq
      cases h.heap_eq.symm.trans hm
      have hlost' : n.lostIpEvent ≠ 0 := by
        have heq : n'.lostIpEvent = n.lostIpEvent := congrArg (fun c => c.2.2.2.2) h.config
        rw [← heq]
        exact hlost
      rw [if_pos rfl]
      rcases h.moves.old with ⟨⟨e, he⟩, hold⟩ | ⟨hnone, hold⟩
      · -- an announcement, with the address in `ip_info_old`
        have hposts : ∀ e ∈ posts es, e.announces = true := fun e he =>
          h.moves.events e (mem_posts.mp he)
        rw [announced_append_of_ne_nil (List.ne_nil_of_mem (mem_posts.mpr he)) hposts]
        refine ⟨fun _ => ⟨hold, e, List.mem_append_right _ (mem_posts.mpr he), ?_⟩, fun _ => rfl⟩
        exact h.moves.events e he
      · have hnil : posts es = [] :=
          List.eq_nil_iff_forall_not_mem.mpr fun e he => hnone e (mem_posts.mp he)
        rw [hnil, List.append_nil, hold]
        exact k.old q n h.before hlost'
    · rw [if_neg hq, List.append_nil]
      exact k.old q m ((h.heap_of_ne hq).symm.trans hm) hlost

/-- Such a step is in order exactly if an address that it makes zero leaves the timer running. -/
theorem Replaces.ok_iff (h : Replaces s p n n' es w') (k : Watching s)
    (ha : ∀ p, a.createsAt p = false) :
    LostIpOk s ⟨w', s.record a (Watched.posted s.world w')⟩ ↔
      (n.lostIpEvent ≠ 0 → n.lwip.addr.ip ≠ 0 → n'.lwip.addr.ip = 0 → n'.timerRunning = true) := by
  have k' := h.watching k ha
  constructor
  · intro hok hlost hip hzero
    exact (k'.mem_iff h.heap_eq).mp (hok.armed p n n' h.before h.heap_eq hlost hip hzero)
  · intro harmed
    refine ⟨fun q m m' hm hm' hlost hip hzero => ?_, fun q m hm => (k'.mem_iff hm).symm,
      fun id q hq => ?_⟩
    · have hm' : w'.heap q = some m' := hm'
      by_cases hq : q = p
      · subst hq
        cases h.before.symm.trans hm
        cases h.heap_eq.symm.trans hm'
        exact (k'.mem_iff h.heap_eq).mpr (harmed hlost hip hzero)
      · rw [h.heap_of_ne hq] at hm'
        cases hm.symm.trans hm'
        exact absurd hzero hip
    · rw [posted_append h.posted, events_eq] at hq
      obtain ⟨e, he, heq⟩ := List.mem_map.mp hq
      cases heq
      exact nomatch h.moves.events _ (mem_posts.mp he)

end Replaces

/-- A call replaces its interface and performs its effects. -/
theorem replaces_call {call : ApiCall} {mutex : Bool}
    (h : s.world.espNetifCall lwip p call mutex = some w') :
    ∃ n r, call.run lwip s.world.callback p n = some r ∧ Replaces s p n r.netif r.effects w' := by
  obtain ⟨n, r, last, overridden, lock, hn, hr, rfl, -⟩ := World.espNetifCall_frame h
  exact ⟨n, r, hr, hn, run_config hr, run_moves hr, rfl, rfl, rfl⟩

/-- So does a change that lwIP makes by itself. -/
theorem replaces_addressChange {addr : IpInfo} {dhcpData : Bool} {core : κ}
    (hn : s.world.heap p = some n) :
    Replaces s p n (s.world.addressChanged n addr dhcpData core).1
      (s.world.addressChanged n addr dhcpData core).2
      ((s.world.set p (s.world.addressChanged n addr dhcpData core).1).perform p
        (s.world.addressChanged n addr dhcpData core).2) :=
  ⟨hn, EspNetif.config_of_rest (netifCallbackFn_rest ..), netifCallbackFn_moves .., rfl, rfl, rfl⟩

/-- Whether the callback arms the timer when the address becomes zero -/
theorem addressChange_watches {w : World κ} {addr : IpInfo} {dhcpData : Bool} {core : κ}
    (hip : n.lwip.addr.ip ≠ 0) :
    ((w.addressChanged n addr dhcpData core).1.lwip.addr.ip = 0 →
      (w.addressChanged n addr dhcpData core).1.timerRunning = true) ↔
      (addr.ip = 0 → n.timerRunning = true ∨ w.callback = true ∧ n.ipInfo.ip ≠ 0) := by
  unfold World.addressChanged
  rw [netifCallbackFn_lwip]
  refine imp_congr_right fun hzero => ?_
  have hchanged : addr ≠ n.lwip.addr := fun h => hip (h ▸ hzero)
  rw [(netifCallbackFn_lost w.callback n hzero).2]
  simp [hchanged]

/-! ## Creation and destruction -/

/-- Removing an interface from lwIP neither sets nor clears the timer of its lost address. -/
theorem count_lwipRemove_ipLost (ts : List (Timer × NetifPtr)) :
    (World.timeoutsAfter p ts (espNetifLwipRemove lwip n).2).count (.ipLost, q) =
      ts.count (.ipLost, q) := by
  by_cases hq : q = p
  · subst hq
    have hnot : ∀ e ∈ (espNetifLwipRemove lwip n).2,
        e = .sysUntimeout .garp ∨ e = .sysUntimeout .mldv6 := by
      intro e he
      rcases List.mem_append.mp he with he | he
      · split at he
        · exact .inl (List.mem_singleton.mp he)
        · cases he
      · split at he
        · exact .inr (List.mem_singleton.mp he)
        · cases he
    have huntimeout : .sysUntimeout .ipLost ∉ (espNetifLwipRemove lwip n).2 := fun h =>
      (hnot _ h).elim nofun nofun
    have htimeout : .sysTimeout .ipLost ∉ (espNetifLwipRemove lwip n).2 := fun h =>
      (hnot _ h).elim nofun nofun
    rw [World.count_timeoutsAfter_self huntimeout, List.count_eq_zero_of_not_mem htimeout]
    rfl
  · exact World.count_timeoutsAfter_of_ne hq ..

/-- Removing it posts no event. -/
theorem events_lwipRemove : World.events p (espNetifLwipRemove lwip n).2 = [] := by
  unfold espNetifLwipRemove
  dsimp only
  split <;> split <;> rfl

/-- Destroying an interface leaves its timer of the lost address alone. -/
theorem destroy_ipLost {w : World κ} {env : DestroyEnv}
    (h : w.espNetifDestroy lwip p env = some w') :
    w'.posted = w.posted ∧
      ∀ q, w'.timeouts.count (.ipLost, q) = w.timeouts.count (.ipLost, q) := by
  obtain ⟨n, last, overridden, callback, lock, -, rfl, -⟩ := World.espNetifDestroy_frame h
  obtain ⟨-, htimeouts, hposted, -⟩ := World.removeFromList_same w p env.removeMutex
  refine ⟨?_, fun q => ?_⟩
  · show (w.removeFromList p env.removeMutex).2.posted ++ _ = w.posted
    rw [events_lwipRemove, List.append_nil, hposted]
  · show (World.timeoutsAfter p (w.removeFromList p env.removeMutex).2.timeouts _).count _ = _
    rw [count_lwipRemove_ipLost, htimeouts]

/-- A step after which no interface is there that was not there before, as it was -/
structure Leaves (s : Watched κ) (a : Action κ) (w' : World κ) : Prop where
  heap : ∀ q m, w'.heap q = some m → s.world.heap q = some m ∧ a.createsAt q = false
  timeouts : ∀ q m, w'.heap q = some m →
    w'.timeouts.count (.ipLost, q) = s.world.timeouts.count (.ipLost, q)
  posted : w'.posted = s.world.posted

/-- An interface that is left alone keeps its history. -/
theorem Leaves.since {a : Action κ} (h : Leaves s a w') (hq : w'.heap q = some n) :
    s.record a (Watched.posted s.world w') q = s.since q := by
  have hposted : Watched.posted s.world w' = [] := posted_append (by rw [h.posted, List.append_nil])
  rw [hposted, record, (h.heap q n hq).2]
  exact List.append_nil _

/-- Steps that leave the timers alone keep the invariant. -/
theorem Leaves.watching {a : Action κ} (h : Leaves s a w') (k : Watching s) :
    Watching ⟨w', s.record a (Watched.posted s.world w')⟩ where
  timer q m hm := (h.timeouts q m hm).trans (k.timer q m (h.heap q m hm).1)
  old q m hm hlost := by
    show announced (s.record a (Watched.posted s.world w') q) = true ↔ _ ∧
      ∃ e ∈ s.record a (Watched.posted s.world w') q, e.announces = true
    rw [h.since hm]
    exact k.old q m (h.heap q m hm).1 hlost

/-- A step that leaves addresses alone takes none away. -/
theorem Leaves.ok {a : Action κ} (h : Leaves s a w') (k : Watching s) :
    LostIpOk s ⟨w', s.record a (Watched.posted s.world w')⟩ where
  armed q m m' hm hm' _ hip hzero := by
    cases hm.symm.trans (h.heap q m' hm').1
    exact absurd hzero hip
  running q m hm := ((h.watching k).mem_iff hm).symm
  announced id q hq := by
    have hposted : Watched.posted s.world w' = [] :=
      posted_append (by rw [h.posted, List.append_nil])
    rw [hposted] at hq
    cases hq

/-- Where nothing happens -/
theorem Leaves.refl {a : Action κ} (ha : ∀ q m, s.world.heap q = some m → a.createsAt q = false) :
    Leaves s a s.world :=
  ⟨fun q m hm => ⟨hm, ha q m hm⟩, fun _ _ _ => rfl, rfl⟩

/-- `esp_netif_destroy` takes an interface with its timer out of the world. -/
theorem leaves_destroy {env : DestroyEnv}
    (h : s.world.espNetifDestroy lwip p env = some w') : Leaves s (.destroy (some p) env) w' := by
  obtain ⟨hposted, htimeouts⟩ := destroy_ipLost h
  obtain ⟨n, last, overridden, callback, lock, -, hw', -⟩ := World.espNetifDestroy_frame h
  refine ⟨fun q m hm => ⟨?_, rfl⟩, fun q _ _ => htimeouts q, hposted⟩
  rw [hw'] at hm
  by_cases hq : q = p
  · subst hq
    exact absurd ((Function.update_self ..).symm.trans hm) (Option.some_ne_none m).symm
  · exact (Function.update_of_ne hq ..).symm.trans hm

/-- The memory of a new interface is none that is in use. -/
theorem createsAt_of_free {w : World κ} {config : Option Config} {env : NewEnv}
    {m : EspNetif κ} (hp : w.heap p = none) (hq : w.heap q = some m) :
    (Action.new p config env : Action κ).createsAt q = false := by
  refine decide_eq_false ?_
  rintro rfl
  exact absurd (hp.symm.trans hq) (Option.some_ne_none m).symm

/-- `esp_netif_new` gives the interface up that it has begun. -/
theorem leaves_undone {config : Option Config} {env : NewEnv} {w₂ : World κ}
    (hp : s.world.heap p = none) (hw₂ : World.Halfway s.world p w₂)
    (h : w₂.espNetifDestroy lwip p env.destroy = some w') : Leaves s (.new p config env) w' := by
  have hheap := hw₂.destroy hp h
  obtain ⟨hposted, htimeouts⟩ := destroy_ipLost h
  obtain ⟨-, -, -, htimeouts₂, hposted₂, -⟩ := hw₂.same
  refine ⟨fun q m hm => ?_, fun q m _ => ?_, hposted.trans hposted₂⟩
  · rw [hheap] at hm
    exact ⟨hm, createsAt_of_free hp hm⟩
  · rw [htimeouts, htimeouts₂]

/-! ## The timer -/

/-- The events of a timer that expires for an interface in the list -/
def lostEvents (n : EspNetif κ) : List IpEvent :=
  if n.lwip.addr.ip = 0 ∧ n.lostIpEvent ≠ 0 then [.lostIp n.lostIpEvent] else []

/-- The expired timer: it no longer runs; without an address the old one is forgotten and its loss
is posted. -/
theorem ipLostTimer_spec (n : EspNetif κ) :
    (espNetifIpLostTimer n).1.timerRunning = false ∧
      (espNetifIpLostTimer n).1.ipInfoOld =
        (if n.lwip.addr.ip = 0 then .any else n.ipInfoOld) ∧
      (espNetifIpLostTimer n).2 = (lostEvents n).map .post := by
  unfold espNetifIpLostTimer lostEvents
  dsimp only
  by_cases hzero : n.lwip.addr.ip = 0
  · by_cases hlost : n.lostIpEvent ≠ 0
    · simp [hzero, hlost]
    · simp [hzero, hlost]
  · simp [hzero]

/-- Events set no timer. -/
theorem timeoutsAfter_posts (es : List IpEvent) (ts : List (Timer × NetifPtr)) :
    World.timeoutsAfter p ts (es.map .post) = ts := by
  induction es with
  | nil => rfl
  | cons e es ih => exact ih

/-- The events of the expired timer are about its interface. -/
theorem events_posts (es : List IpEvent) :
    World.events p (es.map .post) = es.map fun e => (e, p) := by
  induction es with
  | nil => rfl
  | cons e es ih => exact congrArg _ ih

/-- The timer of `p` expires, and `p` is in the list. -/
structure Expires (s : Watched κ) (p : NetifPtr) (n : EspNetif κ) (w' : World κ) : Prop where
  pending : (.ipLost, p) ∈ s.world.timeouts
  before : s.world.heap p = some n
  heap : w'.heap = (s.world.set p (espNetifIpLostTimer n).1).heap
  timeouts : w'.timeouts = s.world.timeouts.erase (.ipLost, p)
  posted : w'.posted = s.world.posted ++ (lostEvents n).map fun e => (e, p)

section Expires

/-- The interface whose timer expires runs `esp_netif_ip_lost_timer`. -/
theorem Expires.heap_eq (h : Expires s p n w') : w'.heap p = some (espNetifIpLostTimer n).1 := by
  rw [h.heap, World.set_heap]

/-- The other interfaces are as they were. -/
theorem Expires.heap_of_ne (h : Expires s p n w') (hq : q ≠ p) :
    w'.heap q = s.world.heap q := by
  rw [h.heap, World.set_heap_of_ne _ hq]

/-- An expired timer is gone from lwIP as well as from the interface. -/
theorem Expires.watching (h : Expires s p n w') (k : Watching s) :
    Watching ⟨w', s.record (.timeout .ipLost p) (Watched.posted s.world w')⟩ where
  timer q m hm := by
    have hm : w'.heap q = some m := hm
    show w'.timeouts.count (.ipLost, q) = _
    rw [h.timeouts]
    by_cases hq : q = p
    · subst hq
      cases h.heap_eq.symm.trans hm
      rw [(ipLostTimer_spec n).1, List.count_erase_self, k.timer q n h.before,
        (k.mem_iff h.before).mp h.pending]
      rfl
    · rw [List.count_erase_of_ne fun heq => hq (congrArg Prod.snd heq)]
      exact k.timer q m ((h.heap_of_ne hq).symm.trans hm)
  old q m hm hlost := by
    have hm : w'.heap q = some m := hm
    show announced (s.record _ (Watched.posted s.world w') q) = true ↔ _ ∧
      ∃ e ∈ s.record _ (Watched.posted s.world w') q, e.announces = true
    rw [posted_append h.posted, record_events s _ _ rfl]
    by_cases hq : q = p
    · subst hq
      cases h.heap_eq.symm.trans hm
      have hlost' : n.lostIpEvent ≠ 0 := by
        have heq : (espNetifIpLostTimer n).1.lostIpEvent = n.lostIpEvent :=
          congrArg (fun r => r.1.2.2.2.2) ipLostTimer_rest
        rw [← heq]
        exact hlost
      rw [if_pos rfl, (ipLostTimer_spec n).2.1, lostEvents]
      by_cases hzero : n.lwip.addr.ip = 0
      · -- the lost-IP event, and `ip_info_old` is reset
        rw [if_pos ⟨hzero, hlost'⟩, if_pos hzero, announced_append_lostIp]
        exact ⟨nofun, fun hold => absurd rfl hold.1⟩
      · rw [if_neg fun hz => hzero hz.1, if_neg hzero, List.append_nil]
        exact k.old q n h.before hlost'
    · rw [if_neg hq, List.append_nil]
      exact k.old q m ((h.heap_of_ne hq).symm.trans hm) hlost

/-- Such a step is in order exactly if a lost-IP event comes after an announcement. -/
theorem Expires.ok_iff (h : Expires s p n w') (k : Watching s) :
    LostIpOk s ⟨w', s.record (.timeout .ipLost p) (Watched.posted s.world w')⟩ ↔
      (n.lwip.addr.ip = 0 → n.lostIpEvent ≠ 0 → n.ipInfoOld.ip ≠ 0 ∧
        ∃ e ∈ s.since p, e.announces = true) := by
  have hevents : ∀ id q, (.lostIp id, q) ∈ Watched.posted s.world w' ↔
      q = p ∧ id = n.lostIpEvent ∧ n.lwip.addr.ip = 0 ∧ n.lostIpEvent ≠ 0 := by
    intro id q
    rw [posted_append h.posted, lostEvents]
    split
    · rename_i hboth
      simp only [List.map_cons, List.map_nil, List.mem_singleton, Prod.mk.injEq,
        IpEvent.lostIp.injEq]
      exact ⟨fun heq => ⟨heq.2, heq.1, hboth⟩, fun heq => ⟨heq.2.1, heq.1⟩⟩
    · rename_i hnot
      exact ⟨nofun, fun heq => absurd heq.2.2 hnot⟩
  constructor
  · intro hok hzero hlost
    have hann := (hok.announced n.lostIpEvent p ((hevents _ _).mpr ⟨rfl, rfl, hzero, hlost⟩)).2
    exact (k.old p n h.before hlost).mp hann
  · intro hann
    refine ⟨fun q m m' hm hm' _ hip hzero => ?_, fun q m hm => ((h.watching k).mem_iff hm).symm,
      fun id q hq => ?_⟩
    · have hm' : w'.heap q = some m' := hm'
      by_cases hq : q = p
      · subst hq
        cases h.before.symm.trans hm
        cases h.heap_eq.symm.trans hm'
        rw [ipLostTimer_lwip] at hzero
        exact absurd hzero hip
      · rw [h.heap_of_ne hq] at hm'
        cases hm.symm.trans hm'
        exact absurd hzero hip
    · obtain ⟨rfl, -, hzero, hlost⟩ := (hevents id q).mp hq
      exact ⟨Option.isSome_of_eq_some h.before,
        (k.old q n h.before hlost).mpr (hann hzero hlost)⟩

end Expires

/-- A timeout that is left over from a destroyed interface just goes. -/
theorem leaves_timeout (hn : s.world.heap p = none) :
    Leaves s (.timeout .ipLost p)
      ({ s.world with timeouts := s.world.timeouts.erase (.ipLost, p) }.runTimeout .ipLost p) := by
  have hrun : World.runTimeout { s.world with timeouts := s.world.timeouts.erase (.ipLost, p) }
      .ipLost p = { s.world with timeouts := s.world.timeouts.erase (.ipLost, p) } := by
    simp only [World.runTimeout, hn]
  rw [hrun]
  refine ⟨fun q m hm => ⟨hm, rfl⟩, fun q m hm => ?_, rfl⟩
  refine List.count_erase_of_ne fun heq => ?_
  have hq : q = p := congrArg Prod.snd heq
  exact absurd (hn.symm.trans (hq ▸ hm)) (Option.some_ne_none m).symm

/-- A timer of an interface on the list runs its function. -/
theorem expires_timeout (ht : (.ipLost, p) ∈ s.world.timeouts) (hn : s.world.heap p = some n)
    (hlist : p ∈ s.world.list) :
    Expires s p n
      ({ s.world with timeouts := s.world.timeouts.erase (.ipLost, p) }.runTimeout .ipLost p) := by
  simp only [World.runTimeout, hn, if_pos hlist]
  refine ⟨ht, hn, rfl, ?_, ?_⟩
  · rw [(ipLostTimer_spec n).2.2]
    exact timeoutsAfter_posts _ _
  · rw [(ipLostTimer_spec n).2.2]
    exact congrArg _ (events_posts _)

/-- The timeout of an interface that is not in the list goes, and `timer_running` still says that
it is pending. -/
theorem not_ok_of_unlisted (k : Watching s) (ht : (.ipLost, p) ∈ s.world.timeouts)
    (hn : s.world.heap p = some n) (hlist : p ∉ s.world.list)
    {since : NetifPtr → List IpEvent} :
    ¬ LostIpOk s ⟨World.runTimeout
      { s.world with timeouts := s.world.timeouts.erase (.ipLost, p) } .ipLost p, since⟩ := by
  simp only [World.runTimeout, hn, if_neg hlist]
  intro hok
  have hrunning := (k.mem_iff hn).mp ht
  have hcount : (s.world.timeouts.erase (.ipLost, p)).count (.ipLost, p) = 0 := by
    rw [List.count_erase_self, k.timer p n hn, hrunning]
    rfl
  exact absurd ((hok.running p n hn).mp hrunning) (List.count_eq_zero.mp hcount)

/-! ## Every step -/

/-- A new interface at `p`, and the others as they were -/
structure Creates (s : Watched κ) (p : NetifPtr) (n : EspNetif κ) (w' : World κ) : Prop where
  before : s.world.heap p = none
  heap : w'.heap p = some n
  heap_of_ne : ∀ q, q ≠ p → w'.heap q = s.world.heap q
  running : n.timerRunning = false
  timeouts : w'.timeouts = s.world.timeouts
  posted : w'.posted = s.world.posted

/-- A new interface has no history. -/
theorem Creates.since {config : Option Config} {env : NewEnv} (h : Creates s p n w')
    (q : NetifPtr) : s.record (.new p config env) (Watched.posted s.world w') q =
      if q = p then [] else s.since q := by
  have hposted : Watched.posted s.world w' = [] := posted_append (by rw [h.posted, List.append_nil])
  have hcreates : (Action.new p config env : Action κ).createsAt q = decide (p = q) := rfl
  rw [hposted, record, hcreates]
  refine (List.append_nil _).trans ?_
  by_cases hq : q = p
  · rw [if_pos hq, if_pos (decide_eq_true hq.symm)]
  · rw [if_neg hq, if_neg fun heq => hq (of_decide_eq_true heq).symm]

/-- A creation is in order exactly if no timer is left over from an earlier interface. -/
theorem Creates.spec (h : Creates s p n w') (config : Option Config) (env : NewEnv)
    (k : Watching s) :
    (LostIpOk s ⟨w', s.record (.new p config env) (Watched.posted s.world w')⟩ ↔
        (.ipLost, p) ∉ s.world.timeouts) ∧
      ((.ipLost, p) ∉ s.world.timeouts →
        Watching ⟨w', s.record (.new p config env) (Watched.posted s.world w')⟩) := by
  have hwatching : (.ipLost, p) ∉ s.world.timeouts →
      Watching ⟨w', s.record (.new p config env) (Watched.posted s.world w')⟩ := by
    intro hstale
    refine ⟨fun q m hm => ?_, fun q m hm hlost => ?_⟩
    · have hm : w'.heap q = some m := hm
      show w'.timeouts.count (.ipLost, q) = _
      rw [h.timeouts]
      by_cases hq : q = p
      · subst hq
        cases h.heap.symm.trans hm
        rw [h.running, List.count_eq_zero_of_not_mem hstale]
        rfl
      · exact k.timer q m ((h.heap_of_ne q hq).symm.trans hm)
    · have hm : w'.heap q = some m := hm
      show announced (s.record _ (Watched.posted s.world w') q) = true ↔ _ ∧
        ∃ e ∈ s.record _ (Watched.posted s.world w') q, e.announces = true
      rw [h.since]
      by_cases hq : q = p
      · rw [if_pos hq]
        exact ⟨nofun, fun hold => absurd hold.2 (by simp)⟩
      · rw [if_neg hq]
        exact k.old q m ((h.heap_of_ne q hq).symm.trans hm) hlost
  refine ⟨⟨fun hok hstale => ?_, fun hstale => ?_⟩, hwatching⟩
  · -- a timeout left over is pending, and `timer_running` is false
    have hrunning := (hok.running p n h.heap).mpr (h.timeouts ▸ hstale)
    exact Bool.false_ne_true (h.running.symm.trans hrunning)
  · refine ⟨fun q m m' hm hm' _ hip hzero => ?_,
      fun q m hm => ((hwatching hstale).mem_iff hm).symm, fun id q hq => ?_⟩
    · have hm' : w'.heap q = some m' := hm'
      have hq : q ≠ p := by
        rintro rfl
        exact absurd (h.before.symm.trans hm) (Option.some_ne_none m).symm
      rw [h.heap_of_ne q hq] at hm'
      cases hm.symm.trans hm'
      exact absurd hzero hip
    · have hposted : Watched.posted s.world w' = [] :=
        posted_append (by rw [h.posted, List.append_nil])
      rw [hposted] at hq
      cases hq

/-- `esp_netif_new` puts a zeroed interface into the world, and on the list if it can. -/
theorem creates_created {base : InherentConfig} {ifKey : Option String} {listItem listMutex : Bool}
    (hp : s.world.heap p = none) (hn : Created lwip base ifKey n) :
    Creates s p n
      { ((s.world.set p (.zeroed lwip)).addToList p listItem listMutex).2.set p n with
        callback := true } := by
  have hhalf := (World.halfway_addToList s.world p (.zeroed lwip) listItem listMutex).set n
  obtain ⟨-, -, -, htimeouts, hposted, -⟩ := hhalf.same
  exact ⟨hp, World.set_heap n, hhalf.heap, hn.timerRunning, htimeouts, hposted⟩

/-! ## What is due in a step -/

/-- The step is in order exactly if it meets the condition, and then it keeps the invariant. -/
def Spec (lwip : Lwip κ) (s : Watched κ) (a : Action κ) (w' : World κ) : Prop :=
  (LostIpOk s ⟨w', s.record a (posted s.world w')⟩ ↔ Watches lwip s a) ∧
    (Watches lwip s a → Watching ⟨w', s.record a (posted s.world w')⟩)

/-- `Spec` holds of every step that leaves addresses alone. -/
theorem Leaves.spec {a : Action κ} (h : Leaves s a w') (k : Watching s)
    (hmeets : Watches lwip s a) : Spec lwip s a w' :=
  ⟨⟨fun _ => hmeets, fun _ => h.ok k⟩, fun _ => h.watching k⟩

/-- `Spec` holds of a step that replaces an interface, if it watches exactly where the timer runs.
-/
theorem Replaces.spec {a : Action κ} {es : List Effect} (h : Replaces s p n n' es w')
    (k : Watching s) (ha : ∀ p, a.createsAt p = false)
    (hmeets : (n.lostIpEvent ≠ 0 → n.lwip.addr.ip ≠ 0 → n'.lwip.addr.ip = 0 →
      n'.timerRunning = true) ↔ Watches lwip s a) : Spec lwip s a w' :=
  ⟨(h.ok_iff k ha).trans hmeets, fun _ => h.watching k ha⟩

/-- `Spec` of a call about an address, by what the call watches -/
theorem spec_call {call : ApiCall} {mutex : Bool} (hlwip : lwip.AddrSpec) (k : Watching s)
    (hcall : call.aboutAddress = true)
    (h : s.world.espNetifCall lwip p call mutex = some w') :
    Spec lwip s (.call (some p) call mutex) w' := by
  obtain ⟨n, r, hr, hreplaces⟩ := replaces_call h
  refine hreplaces.spec k (fun _ => rfl) ⟨?_, ?_⟩
  · intro harmed m hm hlost hip
    cases hreplaces.before.symm.trans hm
    exact (run_watches hlwip hcall hr hip).mp (harmed hlost hip)
  · intro hmeets hlost hip
    exact (run_watches hlwip hcall hr hip).mpr (hmeets n hreplaces.before hlost hip)

/-- `Spec` of a change by lwIP itself, whose callback arms the timer -/
theorem spec_addressChange {addr : IpInfo} {dhcpData : Bool} {core : κ} (k : Watching s)
    (hn : s.world.heap p = some n) :
    Spec lwip s (.addressChange p addr dhcpData core)
      ((s.world.set p (s.world.addressChanged n addr dhcpData core).1).perform p
        (s.world.addressChanged n addr dhcpData core).2) := by
  refine (replaces_addressChange hn).spec k (fun _ => rfl) ⟨?_, ?_⟩
  · intro harmed m hm hlost hip
    cases hn.symm.trans hm
    exact (addressChange_watches hip).mp (harmed hlost hip)
  · intro hmeets hlost hip
    exact (addressChange_watches hip).mpr (hmeets n hn hlost hip)

/-- `Spec` of the timer, which announces the loss -/
theorem spec_timeout (k : Watching s) (ht : (.ipLost, p) ∈ s.world.timeouts) :
    Spec lwip s (.timeout .ipLost p)
      ({ s.world with timeouts := s.world.timeouts.erase (.ipLost, p) }.runTimeout .ipLost p) := by
  cases hn : s.world.heap p with
  | none =>
    refine (leaves_timeout hn).spec k fun n hn' => ?_
    exact absurd (hn.symm.trans hn') (Option.some_ne_none n).symm
  | some n =>
    by_cases hlist : p ∈ s.world.list
    · have hexpires := expires_timeout ht hn hlist
      refine ⟨(hexpires.ok_iff k).trans ⟨fun hann m hm => ?_, fun hmeets => (hmeets n hn).2⟩,
        fun _ => hexpires.watching k⟩
      cases hn.symm.trans hm
      exact ⟨hlist, hann⟩
    · have hnot : ¬ Watches lwip s (.timeout .ipLost p) := fun hmeets => hlist (hmeets n hn).1
      exact ⟨⟨fun hok => absurd hok (not_ok_of_unlisted k ht hn hlist),
        fun hmeets => absurd hmeets hnot⟩, fun hmeets => absurd hmeets hnot⟩

/-- A step is in order exactly if it meets the condition, and then the invariant is kept. -/
theorem step_spec {a : Action κ} {s' : Watched κ} (hlwip : lwip.AddrSpec) (k : Watching s)
    (h : s.step lwip a = some s') :
    (LostIpOk s s' ↔ Watches lwip s a) ∧ (Watches lwip s a → Watching s') := by
  simp only [Watched.step, Option.ite_none_right_eq_some, Option.map_eq_some_iff] at h
  obtain ⟨habout, w', h, rfl⟩ := h
  show Spec lwip s a w'
  cases World.stepped_of_step h with
  | @refused p config env hp hc =>
    exact (Leaves.refl fun q m hm => createsAt_of_free hp hm).spec k fun hc' =>
      absurd (hc.symm.trans hc') Bool.false_ne_true
  | undone hp hc hw₂ h =>
    exact (leaves_undone hp hw₂ h).spec k fun hc' => absurd (hc.symm.trans hc') Bool.false_ne_true
  | @created p config env base key n hp hc hkey hn =>
    obtain ⟨hok, hwatching⟩ := (creates_created hp hn).spec config env k
    exact ⟨⟨fun h _ => hok.mp h, fun h => hok.mpr (h hc)⟩, fun h => hwatching (h hc)⟩
  | destroyNull | callNull => exact (Leaves.refl fun _ _ _ => rfl).spec k trivial
  | destroy h => exact (leaves_destroy h).spec k trivial
  | call h => exact spec_call hlwip k habout h
  | addressChange hn => exact spec_addressChange k hn
  | ip6Ignored | ip6Valid => cases habout
  | @timeout t p ht =>
    cases t with
    | garp | mldv6 => cases habout
    | ipLost => exact spec_timeout k ht

end Step

/-! ## Every run -/

/-- Lost addresses, timers and lost-IP events are in order in every step of a run, exactly if
every step meets the condition. -/
theorem lostIp_iff (lwip : Lwip κ) (hlwip : lwip.AddrSpec) (actions : List (Action κ))
    (s : Watched κ) (h : Machine.exec (Watched.step lwip) Watched.init actions = some s) :
    Machine.Each (Watched.step lwip) (fun s _ s' => LostIpOk s s') Watched.init actions ↔
      Machine.Along (Watched.step lwip) (Watches lwip) Watched.init actions :=
  Machine.each_iff_along (I := Watching)
    (fun _ _ _ ha h k =>
      ⟨(step_spec hlwip k h).2 ha, (step_spec hlwip k h).1.mpr ha⟩)
    (fun _ _ _ ha h k hok => ha ((step_spec hlwip k h).1.mp hok)) h watching_init

instance decidableRefusesIpInfo (n : EspNetif κ) : Decidable n.RefusesIpInfo :=
  inferInstanceAs (Decidable (if n.flags.dhcpServer = true then n.dhcpsStatus ≠ .stopped
    else n.flags.dhcpClient = true ∧ n.dhcpcStatus ≠ .stopped))

instance decidableCallWatches (lwip : Lwip κ) (registered : Bool) (n : EspNetif κ) :
    ∀ call, Decidable (ApiCall.Watches lwip registered n call)
  | .dhcpcStart => inferInstanceAs (Decidable (n.dhcpcStatus = .started ∨ n.lwip.isUp = false))
  | .dhcpcStop => inferInstanceAs (Decidable (n.dhcpcStatus = .started →
      (lwip.dhcpStop n.lwip).1.addr.ip = 0 → registered = true ∧ n.ipInfo.ip ≠ 0))
  | .up => inferInstanceAs (Decidable (n.ipInfo.ip ≠ 0))
  | .down => inferInstanceAs (Decidable (n.ipInfo.ip ≠ 0 ∧
      if n.flags.dhcpClient = true ∧ n.dhcpcStatus = .started then
        registered = true ∧ (lwip.dhcpStop n.lwip).1.addr.ip = 0
      else registered = true ∨ n.flags.dhcpClient = true))
  | .setIpInfo info => inferInstanceAs (Decidable (∀ i ∈ info,
      i.ip ≠ 0 ∨ n.lwip.isUp = false ∨ n.RefusesIpInfo))
  | .start .. | .stop | .dhcpsStart _ | .dhcpsStop | .setDefaultNetif => .isTrue trivial

instance decidableWatches (lwip : Lwip κ) (s : Watched κ) : ∀ a, Decidable (Watches lwip s a)
  | .new p config env => inferInstanceAs (Decidable (s.world.creates config env = true →
      (Timer.ipLost, p) ∉ s.world.timeouts))
  | .call (some p) call _ => inferInstanceAs (Decidable (∀ n ∈ s.world.heap p,
      n.lostIpEvent ≠ 0 → n.lwip.addr.ip ≠ 0 →
        n.timerRunning = true ∨ call.Watches lwip s.world.callback n))
  | .addressChange p addr _ _ => inferInstanceAs (Decidable (∀ n ∈ s.world.heap p,
      n.lostIpEvent ≠ 0 → n.lwip.addr.ip ≠ 0 → addr.ip = 0 →
        n.timerRunning = true ∨ s.world.callback = true ∧ n.ipInfo.ip ≠ 0))
  | .timeout .ipLost p => inferInstanceAs (Decidable (∀ n ∈ s.world.heap p, p ∈ s.world.list ∧
      (n.lwip.addr.ip = 0 → n.lostIpEvent ≠ 0 →
        n.ipInfoOld.ip ≠ 0 ∧ ∃ e ∈ s.since p, e.announces = true)))
  | .call none _ _ | .destroy .. | .ip6Valid _ | .timeout .garp _ | .timeout .mldv6 _ =>
    .isTrue trivial

/-- An address that a DHCP server has given, and one that is configured by hand -/
def leased : IpInfo := ⟨Dhcps.ip4 192 168 1 7, Dhcps.ip4 255 255 255 0, Dhcps.ip4 192 168 1 1⟩

def static : IpInfo := ⟨Dhcps.ip4 192 168 1 9, Dhcps.ip4 255 255 255 0, Dhcps.ip4 192 168 1 1⟩

/-- The station gets an address, goes down, and its timer expires; it gets the address again,
loses it and has it back before the timer expires; it is destroyed and created anew. -/
def leaseCalls : List (Action Bool) :=
  [.new 0 (some wifiSta.full) .plenty, .call (some 0) .up true, .call (some 0) .dhcpcStart true,
    .addressChange 0 leased true true, .call (some 0) .down true, .timeout .ipLost 0,
    .call (some 0) .up true, .call (some 0) .dhcpcStart true, .addressChange 0 leased true true,
    .addressChange 0 .any true false, .addressChange 0 static true true, .timeout .ipLost 0,
    .destroy (some 0) ⟨true, true⟩, .new 0 (some wifiSta.full) .plenty]

/-- The run of `leaseCalls`, in which every loss is watched -/
theorem lostIp_iff_leaseCalls : ∃ s,
    Machine.exec (Watched.step Lwip.simple) Watched.init leaseCalls = some s ∧
      Machine.Each (Watched.step Lwip.simple) (fun s _ s' => LostIpOk s s') Watched.init
        leaseCalls := by
  obtain ⟨s, hs⟩ := Option.isSome_iff_exists.mp
    (show (Machine.exec (Watched.step Lwip.simple) Watched.init leaseCalls).isSome by
      decide +kernel)
  exact ⟨s, hs, (lostIp_iff Lwip.simple simple_addrSpec leaseCalls s hs).mpr (by decide +kernel)⟩

/-- The station has an address of its own, and then its DHCP client is started. -/
def staticThenDhcp : List (Action Bool) :=
  [.new 0 (some wifiSta.full) .plenty, .call (some 0) .dhcpcStop true, .call (some 0) .up true,
    .call (some 0) (.setIpInfo (some static)) true]

/-- The address is gone, and no timer is pending. -/
theorem staticThenDhcp_not_armed :
    ¬ Machine.Each (Watched.step Lwip.simple) (fun s _ s' => LostIpOk s s') Watched.init
      (staticThenDhcp ++ [.call (some 0) .dhcpcStart true]) := by
  intro heach
  have hrun : (Machine.exec (Watched.step Lwip.simple) Watched.init staticThenDhcp).any
      (fun s => (s.step Lwip.simple (.call (some 0) .dhcpcStart true)).any fun s' =>
        (s.world.heap 0).any (fun n => decide (n.lostIpEvent ≠ 0 ∧ n.lwip.addr.ip ≠ 0)) &&
        (s'.world.heap 0).any (fun n => decide (n.lwip.addr.ip = 0)) &&
        decide ((Timer.ipLost, 0) ∉ s'.world.timeouts)) = true := by decide +kernel
  obtain ⟨s, hs, hrun⟩ := (Option.any_eq_true _ _).mp hrun
  obtain ⟨s', hs', hrun⟩ := (Option.any_eq_true _ _).mp hrun
  simp only [Bool.and_eq_true, decide_eq_true_eq] at hrun
  obtain ⟨⟨hbefore, hafter⟩, hnot⟩ := hrun
  obtain ⟨n, hn, hlost⟩ := (Option.any_eq_true _ _).mp hbefore
  obtain ⟨n', hn', hzero⟩ := (Option.any_eq_true _ _).mp hafter
  obtain ⟨hlost, hip⟩ := of_decide_eq_true hlost
  exact hnot ((heach.last hs hs').armed 0 n n' hn hn' hlost hip (of_decide_eq_true hzero))

end Watched

end PicoHost.Interface
