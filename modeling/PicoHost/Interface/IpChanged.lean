import PicoHost.Interface.Connected

/-!
# The `ip_changed` flag

`ip_info_old` is what the last got-IP event announced (`Accounts`), for everything that runs in one
call of the lwIP task. A handler of `esp_netif_action_connected` compares, copies and posts in
separate calls; in between, `ip_info_old` and the last event may differ (`Tracking`). The flags are
right in every run in which nothing announces an address there (`ipChanged_of_undisturbed`).
-/

namespace PicoHost.Interface

open Dhcps (NetifPtr PcbPtr)

variable {κ : Type} {lwip : Lwip κ} {registered : Bool} {p q : NetifPtr} {n n' n'' : EspNetif κ}

/-! ## Flags in a list of events -/

/-- The flags of a run are right if those of its parts are, each against the address before it. -/
theorem flagsRight_append {r : IpInfo} {es es' : List IpEvent} :
    FlagsRight r (es ++ es') ↔ FlagsRight r es ∧ FlagsRight (es.foldl refer r) es' := by
  induction es generalizing r with
  | nil => exact (iff_of_eq (true_and _)).symm
  | cons e es ih =>
    cases e with
    | gotIp id info ipChanged =>
      show (_ ∧ FlagsRight info (es ++ es')) ↔ (_ ∧ FlagsRight info es) ∧ _
      rw [ih, and_assoc]
      rfl
    | lostIp id => exact ih
    | gotIp6 => exact ih

/-- Events that announce no address -/
def Silent (es : List IpEvent) : Prop := ∀ e ∈ es, e.announces = false

/-- Where no event is posted, nothing is announced. -/
theorem silent_nil : Silent [] := fun _ he => (List.not_mem_nil he).elim

/-- Silent events carry no flag that could be wrong and refer to no address. -/
theorem Silent.right {es : List IpEvent} (h : Silent es) (r : IpInfo) :
    FlagsRight r es ∧ es.foldl refer r = r := by
  induction es generalizing r with
  | nil => exact ⟨trivial, rfl⟩
  | cons e es ih =>
    have hrest : Silent es := fun e' he => h e' (List.mem_cons_of_mem e he)
    cases e with
    | gotIp id info ipChanged => exact absurd (h _ (List.mem_cons_self ..)) Bool.noConfusion
    | lostIp id => exact ih hrest r
    | gotIp6 => exact ih hrest r

/-- The events of two pieces, in order -/
theorem posts_append (es es' : List Effect) : posts (es ++ es') = posts es ++ posts es' := by
  induction es with
  | nil => rfl
  | cons e es ih =>
    cases e with
    | post e => exact congrArg _ ih
    | sysTimeout t => exact ih
    | sysUntimeout t => exact ih

/-- Effects that are not about addresses post no event. -/
theorem posts_aside {es : List Effect} (hes : ∀ e ∈ es, e.aside = true) : posts es = [] :=
  List.eq_nil_iff_forall_not_mem.mpr fun _ he =>
    Bool.false_ne_true (hes _ (mem_posts.mp he))

/-! ## Calls of the lwIP task -/

/-- Between `n` and `n'`, every event is compared with `ip_info_old` and goes into it. -/
structure Accounts (n n' : EspNetif κ) (es : List Effect) : Prop where
  right : FlagsRight n.ipInfoOld (posts es)
  old : n'.ipInfoOld = (posts es).foldl refer n.ipInfoOld

/-- Silent events leave the old address to count. -/
theorem Accounts.of_silent {es : List Effect} (hold : n'.ipInfoOld = n.ipInfoOld)
    (hes : Silent (posts es)) : Accounts n n' es :=
  ⟨(hes.right _).1, hold.trans (hes.right _).2.symm⟩

/-- Two pieces that account for their events do so together. -/
theorem Accounts.trans {es es' : List Effect} (h : Accounts n n' es) (h' : Accounts n' n'' es') :
    Accounts n n'' (es ++ es') where
  right := by
    rw [posts_append, flagsRight_append, ← h.old]
    exact ⟨h.right, h'.right⟩
  old := by
    rw [posts_append, List.foldl_append, ← h.old, h'.old]

/-- An address that is announced, and compared with the old one -/
theorem Accounts.announce {id : Nat} {info : IpInfo} (hold : n'.ipInfoOld = info) :
    Accounts n n' [.post (.gotIp id info (decide (info ≠ n.ipInfoOld)))] :=
  ⟨⟨decide_eq_true_iff, trivial⟩, hold⟩

/-- Arming the timer posts nothing. -/
theorem startIpLostTimer_accounts (n : EspNetif κ) :
    Accounts n (espNetifStartIpLostTimer n).1 (espNetifStartIpLostTimer n).2 := by
  rw [espNetifStartIpLostTimer]
  split
  · exact .of_silent rfl silent_nil
  · split
    · exact .of_silent rfl silent_nil
    · exact .of_silent rfl silent_nil

/-- The callback compares with the old address and remembers the new one. -/
theorem internalDhcpcCb_accounts (n : EspNetif κ) :
    Accounts n (espNetifInternalDhcpcCb n).1 (espNetifInternalDhcpcCb n).2 := by
  rw [espNetifInternalDhcpcCb]
  split
  · split
    · exact .announce rfl
    · exact .of_silent rfl silent_nil
  · split
    · exact startIpLostTimer_accounts n
    · exact .of_silent rfl silent_nil

/-- The extended callback of lwIP does what the callback of the client does, or nothing. -/
theorem netifCallbackFn_accounts (registered : Bool) (n : EspNetif κ) (r : LwipNetif κ × Bool) :
    Accounts n (netifCallbackFn registered n r).1 (netifCallbackFn registered n r).2 := by
  have hset : Accounts n { n with lwip := r.1 } [] := .of_silent rfl silent_nil
  unfold netifCallbackFn
  dsimp only
  split
  · exact hset.trans (internalDhcpcCb_accounts _)
  · exact hset

/-- The event of a static address compares with the old address too. -/
theorem setIpInfoEvent_accounts (info : IpInfo) (n : EspNetif κ) :
    Accounts n (setIpInfoEvent info n).1 (setIpInfoEvent info n).2 := by
  rw [setIpInfoEvent]
  split
  · exact .announce rfl
  · exact .of_silent rfl silent_nil

variable {Announce : IpInfo → EspNetif κ → Prop}

/-- Whatever is made of these pieces flags its events rightly. -/
theorem Pieces.accounts {es : List Effect} (h : Pieces lwip registered Announce n n' es) :
    Accounts n n' es := by
  induction h with
  | aside h hes =>
    refine .of_silent (congrArg Prod.snd h) ?_
    rw [posts_aside hes]
    exact silent_nil
  | lostTimer n => exact startIpLostTimer_accounts n
  | setAddr | clearAddr | dhcpStop | dhcpRelease => exact netifCallbackFn_accounts ..
  | event => exact setIpInfoEvent_accounts ..
  | trans _ _ ih ih' => exact ih.trans ih'

/-! ## Calls that announce nothing -/

/-- `dhcp_release` gives back an address that came from DHCP, as `dhcp_stop` does. -/
structure Lwip.ReleaseSpec (lwip : Lwip κ) : Prop extends lwip.AddrSpec where
  dhcpRelease : ∀ n, (lwip.dhcpRelease n).1.addr = n.addr ∧ (lwip.dhcpRelease n).2 = false ∨
    (lwip.dhcpRelease n).1.addr = .any ∧ (lwip.dhcpRelease n).2 = decide (n.addr ≠ .any)

/-- No event, and `ip_info_old` is what it was. -/
def Still (n n' : EspNetif κ) (es : List Effect) : Prop :=
  posts es = [] ∧ n'.ipInfoOld = n.ipInfoOld

/-- Two pieces without events, one after the other -/
theorem Still.trans {es es' : List Effect} (h : Still n n' es) (h' : Still n' n'' es') :
    Still n n'' (es ++ es') := by
  constructor
  · rw [posts_append, h.1, h'.1]
    rfl
  · exact h'.2.trans h.2

/-- Arming the timer does not move the old address. -/
theorem startIpLostTimer_still (n : EspNetif κ) :
    Still n (espNetifStartIpLostTimer n).1 (espNetifStartIpLostTimer n).2 := by
  rw [espNetifStartIpLostTimer]
  split
  · exact ⟨rfl, rfl⟩
  · split <;> exact ⟨rfl, rfl⟩

/-- The callback announces neither a zero address nor the one that is in `ip_info`. -/
theorem netifCallbackFn_still {r : LwipNetif κ × Bool}
    (h : registered = true → r.2 = true → r.1.addr.ip = 0 ∨ r.1.addr = n.ipInfo) :
    Still n (netifCallbackFn registered n r).1 (netifCallbackFn registered n r).2 := by
  unfold netifCallbackFn
  dsimp only
  split
  · rename_i hcallback
    obtain ⟨hregistered, hr⟩ := Bool.and_eq_true_iff.mp hcallback
    rw [espNetifInternalDhcpcCb]
    dsimp only
    rcases h hregistered hr with hzero | hsame
    · rw [if_neg (not_not_intro hzero)]
      split
      · exact startIpLostTimer_still { n with lwip := r.1 }
      · exact ⟨rfl, rfl⟩
    · rw [if_neg (not_not_intro hsame)]
      split
      · exact ⟨rfl, rfl⟩
      · split
        · exact startIpLostTimer_still { n with lwip := r.1 }
        · exact ⟨rfl, rfl⟩
  · exact ⟨rfl, rfl⟩

/-- A call posts nothing and keeps the old address, if that is so of what it may announce itself. -/
theorem Pieces.still_of {es : List Effect} (hlwip : lwip.ReleaseSpec)
    (hannounce : ∀ info m, Announce info m → Still m (setIpInfoEvent info m).1
      (setIpInfoEvent info m).2) (h : Pieces lwip registered Announce n n' es) :
    Still n n' es := by
  have hany : ∀ {n : EspNetif κ} {r : LwipNetif κ × Bool} {m : LwipNetif κ},
      r.1.addr = m.addr ∧ r.2 = false ∨ r.1.addr = .any ∧ r.2 = decide (m.addr ≠ .any) →
        registered = true → r.2 = true → r.1.addr.ip = 0 ∨ r.1.addr = n.ipInfo := by
    rintro n r m (⟨-, hr⟩ | ⟨haddr, -⟩) - hcallback
    · exact absurd (hr.symm.trans hcallback) Bool.false_ne_true
    · exact .inl (congrArg IpInfo.ip haddr)
  induction h with
  | aside h hes => exact ⟨posts_aside hes, congrArg Prod.snd h⟩
  | lostTimer n => exact startIpLostTimer_still n
  | setAddr n => exact netifCallbackFn_still fun _ _ => .inr (hlwip.netifSetAddr n.lwip n.ipInfo).1
  | clearAddr n =>
    exact netifCallbackFn_still fun _ _ =>
      .inl (congrArg IpInfo.ip (hlwip.netifSetAddr n.lwip .any).1)
  | dhcpStop n => exact netifCallbackFn_still (hany (hlwip.dhcpStop n.lwip))
  | dhcpRelease n => exact netifCallbackFn_still (hany (hlwip.dhcpRelease n.lwip))
  | event h => exact hannounce _ _ h
  | trans _ _ ih ih' => exact ih.trans ih'

/-- A call that sets no address to announce does not announce one. -/
theorem run_still {call : ApiCall} {r : Call κ} (hlwip : lwip.ReleaseSpec)
    (hcall : ∀ info, call = .setIpInfo (some info) → ¬ n.AnnouncesStatic info)
    (h : call.run lwip registered p n = some r) : Still n r.netif r.effects := by
  refine (run_pieces h).still_of hlwip ?_
  rintro info m ⟨hinfo, hrefuses, hup, hflags⟩
  rw [setIpInfoEvent]
  split
  · rename_i hevent
    simp only [Bool.and_eq_true, Bool.not_eq_true', Bool.or_eq_false_iff, decide_eq_false_iff_not,
      hflags] at hevent
    obtain ⟨hmodified, ⟨hip, hmask⟩, hgw⟩ := hevent
    exact absurd ⟨hrefuses, hup, hmodified, hip, hmask, hgw⟩ (hcall info hinfo)
  · exact ⟨rfl, rfl⟩

/-- A change by lwIP posts nothing unless it announces an address from DHCP. -/
theorem addressChanged_still {w : World κ} {addr : IpInfo} {dhcpData : Bool} {core : κ}
    (h : ¬ n.AnnouncesDhcp w.callback addr) : Still n (w.addressChanged n addr dhcpData core).1
      (w.addressChanged n addr dhcpData core).2 := by
  refine netifCallbackFn_still fun hregistered hchanged => ?_
  by_cases hip : addr.ip = 0
  · exact .inl hip
  · by_cases hsame : addr = n.ipInfo
    · exact .inr hsame
    · exact absurd ⟨hregistered, of_decide_eq_true hchanged, hip, hsame⟩ h

/-! ## One interface in a step -/

/-- The events of a call about one interface -/
theorem eventsOf_events (p q : NetifPtr) (es : List Effect) :
    eventsOf q (World.events p es) = if q = p then posts es else [] := by
  rw [events_eq, eventsOf, Watched.filter_events]

/-- What a step does to the interface at `q`, and the events that it posts for it -/
inductive Fate (w w' : World κ) (a : World.Action κ) (q : NetifPtr) : Prop
  | gone (h : w'.heap q = none) (hes : eventsOf q (Watched.posted w w') = [])
  | created {n' : EspNetif κ} (ha : a.createsAt q = true) (h : w'.heap q = some n')
    (hold : n'.ipInfoOld = n'.ipInfo) (hes : eventsOf q (Watched.posted w w') = [])
  | kept {n n' : EspNetif κ} {r : IpInfo} (ha : a.createsAt q = false) (h : w.heap q = some n)
    (h' : w'.heap q = some n')
    (hr : r = if a.expiresAt q && w.findsNoAddress q then .any else n.ipInfoOld)
    (right : FlagsRight r (eventsOf q (Watched.posted w w')))
    (hold : n'.ipInfoOld = (eventsOf q (Watched.posted w w')).foldl refer r)
    (still : ¬ w.Rebases q a →
      Silent (eventsOf q (Watched.posted w w')) ∧ n'.ipInfoOld = n.ipInfoOld)

section Fate

variable {w w' : World κ} {a : World.Action κ} {es : List Effect}

/-- A step that posts nothing posts nothing about the interface. -/
theorem posted_same (hposted : w'.posted = w.posted) : eventsOf q (Watched.posted w w') = [] := by
  rw [Watched.posted_append (by rw [hposted, List.append_nil])]
  rfl

/-- An interface that a step does not touch keeps its old address. -/
theorem fate_same (hheap : w'.heap q = w.heap q)
    (hes : eventsOf q (Watched.posted w w') = [])
    (hexpires : (a.expiresAt q && w.findsNoAddress q) = false)
    (hcreates : ∀ n, w.heap q = some n → a.createsAt q = false) : Fate w w' a q := by
  cases hq : w.heap q with
  | none => exact .gone (hheap.trans hq) hes
  | some n =>
    refine .kept (hcreates n hq) hq (hheap.trans hq) rfl ?_ ?_ fun _ => ⟨?_, rfl⟩
    · rw [hes]
      trivial
    · rw [hes, hexpires]
      rfl
    · rw [hes]
      exact silent_nil

/-- A step that replaces the interface at `p`, with these events -/
theorem fate_replaced {r : IpInfo} {es : List IpEvent} (hn : w.heap p = some n)
    (hheap : w'.heap = (w.set p n').heap)
    (hposted : w'.posted = w.posted ++ es.map fun e => (e, p))
    (hcreates : ∀ q, a.createsAt q = false) (hexpires : ∀ q, q ≠ p → a.expiresAt q = false)
    (hr : r = if a.expiresAt p && w.findsNoAddress p then .any else n.ipInfoOld)
    (hright : FlagsRight r es) (hold : n'.ipInfoOld = es.foldl refer r)
    (hstill : ¬ w.Rebases p a → Silent es ∧ n'.ipInfoOld = n.ipInfoOld) (q : NetifPtr) :
    Fate w w' a q := by
  have hes : eventsOf q (Watched.posted w w') = if q = p then es else [] := by
    rw [Watched.posted_append hposted, eventsOf, Watched.filter_events]
  by_cases hq : q = p
  · subst hq
    rw [if_pos rfl] at hes
    refine .kept (hcreates q) hn (by rw [hheap, World.set_heap]) hr ?_ ?_ ?_
    · rw [hes]
      exact hright
    · rw [hes]
      exact hold
    · rw [hes]
      exact hstill
  · rw [if_neg hq] at hes
    refine fate_same ?_ hes ?_ fun _ _ => hcreates q
    · rw [hheap, World.set_heap_of_ne _ hq]
    · rw [hexpires q hq]
      rfl

/-- A step that is not about the timer of a lost address, by what it does to one interface -/
theorem fate_accounts (hn : w.heap p = some n) (hheap : w'.heap = (w.set p n').heap)
    (hposted : w'.posted = w.posted ++ World.events p es) (hcreates : ∀ q, a.createsAt q = false)
    (hexpires : ∀ q, a.expiresAt q = false) (haccounts : Accounts n n' es)
    (hstill : ¬ w.Rebases p a → Still n n' es) (q : NetifPtr) : Fate w w' a q := by
  rw [events_eq] at hposted
  refine fate_replaced hn hheap hposted hcreates (fun q _ => hexpires q) ?_ haccounts.right
    haccounts.old (fun h => ?_) q
  · rw [hexpires]
    rfl
  · obtain ⟨hes, hold⟩ := hstill h
    rw [hes]
    exact ⟨silent_nil, hold⟩

/-- A step that posts other events for `p`, and leaves the interfaces alone -/
theorem fate_silent {es : List IpEvent} (hn : w.heap p = some n) (hheap : w'.heap = w.heap)
    (hposted : w'.posted = w.posted ++ es.map fun e => (e, p))
    (hcreates : ∀ q, a.createsAt q = false) (hexpires : ∀ q, a.expiresAt q = false)
    (hes : Silent es) (q : NetifPtr) : Fate w w' a q := by
  have hset : w'.heap = (w.set p n).heap := by
    rw [hheap, World.set, ← hn]
    exact (Function.update_eq_self p w.heap).symm
  refine fate_replaced (r := n.ipInfoOld) hn hset hposted hcreates (fun q _ => hexpires q) ?_
    (hes.right _).1 (hes.right _).2.symm (fun _ => ⟨hes, rfl⟩) q
  rw [hexpires]
  rfl

/-- The events of IPv6 addresses announce no IPv4 address. -/
theorem silent_nd6Cb (n : EspNetif κ) : Silent (posts (espNetifInternalNd6Cb n)) := by
  intro e he
  rcases List.mem_append.mp (mem_posts.mp he) with he | he
  · unfold netifSetMldv6Flag at he
    split at he
    · split at he
      · exact nomatch List.mem_singleton.mp he
      · cases he
    · cases he
  · cases List.mem_singleton.mp he
    rfl

/-- The timer of a lost address finds the interface in the list. -/
theorem fate_ipLost (hn : w.heap p = some n) (hlist : p ∈ w.list)
    (hheap : w'.heap = (w.set p (espNetifIpLostTimer n).1).heap)
    (hposted : w'.posted = w.posted ++ World.events p (espNetifIpLostTimer n).2) (q : NetifPtr) :
    Fate w w' (.timeout .ipLost p) q := by
  obtain ⟨-, hold, hes⟩ := Watched.ipLostTimer_spec n
  have hsilent : Silent (Watched.lostEvents n) := by
    intro e he
    unfold Watched.lostEvents at he
    split at he
    · rw [List.mem_singleton.mp he]
      rfl
    · cases he
  rw [hes, Watched.events_posts] at hposted
  have hfinds : w.findsNoAddress p = decide (n.lwip.addr.ip = 0) := by
    rw [World.findsNoAddress, hn, decide_eq_true hlist]
    rfl
  have hexpires : (World.Action.timeout .ipLost p : World.Action κ).expiresAt p = true :=
    decide_eq_true rfl
  refine fate_replaced hn hheap hposted (fun _ => rfl) (fun q hq => ?_) rfl
    (hsilent.right _).1 ?_ (fun hnot => ?_) q
  · exact decide_eq_false (Ne.symm hq)
  · rw [(hsilent.right _).2, hold, hexpires, hfinds, Bool.true_and]
    by_cases hzero : n.lwip.addr.ip = 0
    · rw [if_pos hzero, if_pos (decide_eq_true hzero)]
    · rw [if_neg hzero, if_neg (by simpa using hzero)]
  · refine ⟨hsilent, ?_⟩
    have hzero : ¬ n.lwip.addr.ip = 0 := fun hzero =>
      hnot ⟨rfl, hfinds.trans (decide_eq_true hzero)⟩
    rw [hold, if_neg hzero]

/-- The timers do nothing to addresses and events, but that of a lost address for an interface in
the list. -/
theorem runTimeout_same {t : Timer} (h : ∀ n, t = .ipLost → w.heap p = some n → p ∉ w.list) :
    (w.runTimeout t p).heap = w.heap ∧ (w.runTimeout t p).posted = w.posted := by
  unfold World.runTimeout
  split
  · rename_i n hn
    rw [if_neg (h n rfl hn)]
    exact ⟨rfl, rfl⟩
  · exact ⟨rfl, rfl⟩
  · exact ⟨rfl, List.append_nil _⟩
  · rename_i n hn
    refine ⟨rfl, ?_⟩
    unfold netifSetMldv6Flag
    split
    · exact List.append_nil _
    · exact List.append_nil _
  · exact ⟨rfl, rfl⟩

/-- What becomes of the events and of the old address when a timer expires -/
theorem fate_timeout (t : Timer) (p q : NetifPtr) :
    Fate w ({ w with timeouts := w.timeouts.erase (t, p) }.runTimeout t p) (.timeout t p) q := by
  by_cases h : t = .ipLost ∧ p ∈ w.list ∧ (w.heap p).isSome
  · obtain ⟨rfl, hlist, hn⟩ := h
    obtain ⟨n, hn⟩ := Option.isSome_iff_exists.mp hn
    simp only [World.runTimeout, hn, if_pos hlist]
    refine fate_ipLost hn hlist ?_ ?_ q
    · rfl
    · rfl
  · have hnot : ∀ n, t = .ipLost → w.heap p = some n → p ∉ w.list := fun n ht hn hlist =>
      h ⟨ht, hlist, Option.isSome_iff_exists.mpr ⟨n, hn⟩⟩
    obtain ⟨hheap, hposted⟩ := @runTimeout_same κ p { w with timeouts := w.timeouts.erase (t, p) }
      t hnot
    refine fate_same (congrFun hheap q) (posted_same hposted) ?_ fun _ _ => rfl
    rw [Bool.and_eq_false_iff, ← Bool.not_eq_true, ← Bool.not_eq_true, or_iff_not_imp_left,
      Classical.not_not]
    intro hexpires hfinds
    cases t with
    | garp | mldv6 => cases hexpires
    | ipLost =>
      have hq : p = q := of_decide_eq_true hexpires
      subst hq
      obtain ⟨hlist, hn⟩ := Bool.and_eq_true_iff.mp hfinds
      obtain ⟨n, hn, -⟩ := (Option.any_eq_true _ _).mp hn
      exact hnot n rfl hn (of_decide_eq_true hlist)

/-- What a step does to each interface -/
theorem fate_of_step (hlwip : lwip.ReleaseSpec) (h : w.step lwip a = some w') (q : NetifPtr) :
    Fate w w' a q := by
  cases World.stepped_of_step h with
  | @refused p config env hp hc =>
    exact fate_same rfl (posted_same rfl) rfl fun n hn => Watched.createsAt_of_free hp hn
  | @undone p config env w₂ w' hp hc hw₂ h =>
    obtain ⟨-, -, -, -, hposted, -⟩ := hw₂.same
    exact fate_same (congrFun (hw₂.destroy hp h) q)
      (posted_same ((Watched.destroy_ipLost h).1.trans hposted)) rfl
      fun n hn => Watched.createsAt_of_free hp hn
  | @created p config env base key n hp hc hkey hn =>
    have hhalf := World.halfway_addToList w p (EspNetif.zeroed lwip) env.listItem env.listMutex
    obtain ⟨-, -, -, -, hposted, -⟩ := (hhalf.set n).same
    by_cases hq : q = p
    · subst hq
      exact .created (decide_eq_true rfl) (World.set_heap n) hn.ipInfoOld (posted_same hposted)
    · exact fate_same ((hhalf.set n).heap q hq) (posted_same hposted) rfl
        fun _ _ => decide_eq_false (Ne.symm hq)
  | destroyNull | callNull | ip6Ignored =>
    exact fate_same rfl (posted_same rfl) rfl fun _ _ => rfl
  | @destroy p env w' h =>
    have hes : eventsOf q (Watched.posted w w') = [] := posted_same (Watched.destroy_ipLost h).1
    obtain ⟨n, last, overridden, callback, lock, -, rfl, -⟩ := World.espNetifDestroy_frame h
    by_cases hq : q = p
    · subst hq
      exact .gone (Function.update_self ..) hes
    · exact fate_same (Function.update_of_ne hq ..) hes rfl fun _ _ => rfl
  | @call p call mutex w' h =>
    obtain ⟨n, r, last, overridden, lock, hn, hr, rfl, -⟩ := World.espNetifCall_frame h
    refine fate_accounts hn ?_ ?_ (fun _ => rfl) (fun _ => rfl) (run_pieces hr).accounts
      (fun hnot => run_still hlwip ?_ hr) q
    · rfl
    · rfl
    · rintro info rfl hann
      exact hnot ⟨rfl, n, hn, hann⟩
  | @addressChange p n addr dhcpData core hn =>
    have haccounts : Accounts n (w.addressChanged n addr dhcpData core).1
        (w.addressChanged n addr dhcpData core).2 := netifCallbackFn_accounts ..
    refine fate_accounts hn ?_ ?_ (fun _ => rfl) (fun _ => rfl) haccounts (fun hnot => ?_) q
    · rfl
    · rfl
    · exact addressChanged_still fun hann => hnot ⟨rfl, n, hn, hann⟩
  | @ip6Valid p n hn hc =>
    refine fate_silent hn ?_ ?_ (fun _ => rfl) (fun _ => rfl) (silent_nd6Cb n) q
    · rfl
    · exact congrArg _ (events_eq ..)
  | timeout => exact fate_timeout ..

/-- A step that does not rebase `q` neither creates it nor finds it without an address. -/
theorem not_rebases (h : ¬ w.Rebases q a) :
    a.createsAt q = false ∧ (a.expiresAt q && w.findsNoAddress q) = false := by
  cases a with
  | new p config env => exact ⟨decide_eq_false h, rfl⟩
  | timeout t p =>
    cases t with
    | garp | mldv6 => exact ⟨rfl, rfl⟩
    | ipLost =>
      refine ⟨rfl, Bool.eq_false_iff.mpr fun hand => h ?_⟩
      obtain ⟨hexpires, hfinds⟩ := Bool.and_eq_true_iff.mp hand
      have hq : p = q := of_decide_eq_true hexpires
      exact ⟨hq, hfinds⟩
  | destroy | call | addressChange | ip6Valid => exact ⟨rfl, rfl⟩

/-- What a step that does not rebase `q` leaves of it -/
theorem Fate.unchanged (h : Fate w w' a q) (hnot : ¬ w.Rebases q a) :
    Silent (eventsOf q (Watched.posted w w')) ∧
      ∀ n', w'.heap q = some n' → ∃ n, w.heap q = some n ∧ n'.ipInfoOld = n.ipInfoOld := by
  cases h with
  | gone h hes =>
    refine ⟨hes ▸ silent_nil, fun n' hn' => ?_⟩
    exact absurd (h.symm.trans hn') (Option.some_ne_none n').symm
  | created ha => exact absurd ((not_rebases hnot).1.symm.trans ha) Bool.false_ne_true
  | @kept n m r ha hn hm hr right hold still =>
    refine ⟨(still hnot).1, fun n' hn' => ⟨n, hn, ?_⟩⟩
    cases hm.symm.trans hn'
    exact (still hnot).2

end Fate

/-! ## Every step -/

namespace Tracked

variable {s : Tracked κ} {w' : World κ} {t : Nat} {c c' : Connecting}

/-- Where no handler is between its copy of the address and its event, `ip_info_old` is the
reference. An event that is held is judged rightly, and its interface has no other. -/
structure Tracking (s : Tracked κ) : Prop where
  old : ∀ p n, s.world.heap p = some n →
    (∀ ip ipChanged, (p, Connecting.eventPost ip ipChanged) ∉ s.handlers) →
    n.ipInfoOld = s.reference p
  held : ∀ p ip ipChanged, (p, Connecting.setOldIpInfo ip ipChanged) ∈ s.handlers →
    (ipChanged = true ↔ ip ≠ s.reference p)
  copied : ∀ p ip ipChanged, (p, Connecting.eventPost ip ipChanged) ∈ s.handlers →
    (ipChanged = true ↔ ip ≠ s.reference p) ∧ ∀ n ∈ s.world.heap p, n.ipInfoOld = ip
  single : ∀ (i j : Nat) (x y : NetifPtr × Connecting), s.handlers[i]? = some x →
    s.handlers[j]? = some y → x.2.holdsEvent = true → y.2.holdsEvent = true → x.1 = y.1 → i = j

/-- At boot there is no interface to keep track of. -/
theorem tracking_init : Tracking (init : Tracked κ) where
  old _ n h := absurd h (Option.some_ne_none n).symm
  held _ _ _ h := (List.not_mem_nil h).elim
  copied _ _ _ h := (List.not_mem_nil h).elim
  single _ _ x _ h := absurd h (Option.some_ne_none x).symm

/-- A step that does not move the base compares with the last announced address. -/
theorem compared_of_not_rebases {a : World.Action κ} (h : ¬ s.world.Rebases p a) :
    s.compared w' a p = s.reference p := by
  obtain ⟨hcreates, hexpires⟩ := not_rebases h
  rw [compared, hcreates, hexpires]
  rfl

/-- Silent events leave the reference as it is. -/
theorem referenceAfter_of_silent {r : NetifPtr → IpInfo}
    (h : Silent (eventsOf p (Watched.posted s.world w'))) : s.referenceAfter w' r p = r p :=
  (h.right (r p)).2

/-- A step of the interfaces that rebases none for which a handler holds an event -/
theorem Tracking.world {a : World.Action κ} (k : Tracking s) (hlwip : lwip.ReleaseSpec)
    (h : s.world.step lwip a = some w')
    (hclear : ∀ x ∈ s.handlers, x.2.holdsEvent = true → ¬ s.world.Rebases x.1 a) :
    Tracking { s with world := w', reference := s.referenceAfter w' (s.compared w' a) } ∧
      ∀ p, FlagsRight (s.compared w' a p) (eventsOf p (Watched.posted s.world w')) := by
  have hfate : ∀ q, Fate s.world w' a q := fate_of_step hlwip h
  have hsame : ∀ {p : NetifPtr} {c : Connecting}, (p, c) ∈ s.handlers → c.holdsEvent = true →
      s.referenceAfter w' (s.compared w' a) p = s.reference p := by
    intro p c hx hholds
    have hnot := hclear (p, c) hx hholds
    exact (referenceAfter_of_silent ((hfate p).unchanged hnot).1).trans
      (compared_of_not_rebases hnot)
  have hcompared : ∀ {q : NetifPtr} {n : EspNetif κ}, a.createsAt q = false →
      s.world.heap q = some n → (∀ ip ipChanged, (q, .eventPost ip ipChanged) ∉ s.handlers) →
      (if a.expiresAt q && s.world.findsNoAddress q then .any else n.ipInfoOld) =
        s.compared w' a q := by
    intro q n hcreates hn hnone
    rw [compared, hcreates, k.old q n hn hnone]
    rfl
  refine ⟨⟨fun p n' hn' hnone => ?_, fun p ip ipChanged hx => ?_, fun p ip ipChanged hx => ?_,
    k.single⟩, fun p => ?_⟩
  · have hn' : w'.heap p = some n' := hn'
    show n'.ipInfoOld = s.referenceAfter w' (s.compared w' a) p
    cases hfate p with
    | gone h => exact absurd (h.symm.trans hn') (Option.some_ne_none n').symm
    | created ha h hold hes =>
      cases h.symm.trans hn'
      rw [referenceAfter, hes, hold, List.foldl_nil, compared, ha, hn']
      rfl
    | kept ha hn hm hr right hold =>
      cases hm.symm.trans hn'
      rw [hold, hr, hcompared ha hn hnone]
      rfl
  · show ipChanged = true ↔ ip ≠ s.referenceAfter w' (s.compared w' a) p
    rw [hsame hx rfl]
    exact k.held p ip ipChanged hx
  · obtain ⟨hflag, hold⟩ := k.copied p ip ipChanged hx
    show (ipChanged = true ↔ ip ≠ s.referenceAfter w' (s.compared w' a) p) ∧ _
    rw [hsame hx rfl]
    refine ⟨hflag, fun n' hn' => ?_⟩
    obtain ⟨n, hn, heq⟩ := ((hfate p).unchanged (hclear _ hx rfl)).2 n' hn'
    exact heq.trans (hold n hn)
  · cases hfate p with
    | gone h hes | created ha h hold hes =>
      rw [hes]
      trivial
    | kept ha hn hm hr right hold still =>
      by_cases hheld : ∃ ip ipChanged, (p, Connecting.eventPost ip ipChanged) ∈ s.handlers
      · -- nothing is announced while a handler holds an event
        obtain ⟨ip, ipChanged, hx⟩ := hheld
        exact ((still (hclear _ hx rfl)).1.right _).1
      · rw [hr, hcompared ha hn fun ip ipChanged hx => hheld ⟨ip, ipChanged, hx⟩] at right
        exact right

/-! ### The calls of a handler -/

/-- A read after a write into the list of handlers -/
theorem getElem?_set {i j : Nat} {x y : NetifPtr × Connecting}
    {l : List (NetifPtr × Connecting)} (h : (l.set i y)[j]? = some x) :
    j = i ∧ x = y ∨ j ≠ i ∧ l[j]? = some x := by
  rw [List.getElem?_set] at h
  split at h
  · rename_i hij
    split at h
    · exact .inl ⟨hij.symm, (Option.some.inj h).symm⟩
    · cases h
  · rename_i hij
    exact .inr ⟨Ne.symm hij, h⟩

/-- The other handlers stay in the list. -/
theorem mem_set_of_ne {i : Nat} {x y z : NetifPtr × Connecting}
    {l : List (NetifPtr × Connecting)} (hi : l[i]? = some y) (hx : x ∈ l) (hne : x ≠ y) :
    x ∈ l.set i z := by
  obtain ⟨j, hj⟩ := List.getElem?_of_mem hx
  have hij : i ≠ j := by
    rintro rfl
    exact hne (Option.some.inj (hj.symm.trans hi))
  exact List.mem_of_getElem? ((List.getElem?_set_ne hij).trans hj)

section Resume

variable (k : Tracking s) (ht : s.handlers[t]? = some (p, c))
include k ht

/-- The handler `t` may go on to hold an event if it holds one, or none is held for its
interface. -/
theorem Tracking.single_set (h : c'.holdsEvent = true →
      c.holdsEvent = true ∨ ∀ y ∈ s.handlers, y.2.holdsEvent = true → y.1 ≠ p) :
    ∀ (i j : Nat) (x y : NetifPtr × Connecting), (s.handlers.set t (p, c'))[i]? = some x →
      (s.handlers.set t (p, c'))[j]? = some y → x.2.holdsEvent = true → y.2.holdsEvent = true →
      x.1 = y.1 → i = j := by
  have hother : ∀ {j : Nat} {y : NetifPtr × Connecting}, c'.holdsEvent = true → j ≠ t →
      s.handlers[j]? = some y → y.2.holdsEvent = true → y.1 ≠ p := by
    intro j y hc' hj hy hholds hp
    rcases h hc' with hc | hnone
    · exact hj (k.single j t y (p, c) hy ht hholds hc hp)
    · exact hnone y (List.mem_of_getElem? hy) hholds hp
  intro i j x y hi hj hx hy hxy
  rcases getElem?_set hi with ⟨hit, hxt⟩ | ⟨hit, hi'⟩
  · rcases getElem?_set hj with ⟨hjt, -⟩ | ⟨hjt, hj'⟩
    · rw [hit, hjt]
    · subst hxt
      exact absurd hxy.symm (hother hx hjt hj' hy)
  · rcases getElem?_set hj with ⟨hjt, hyt⟩ | ⟨hjt, hj'⟩
    · subst hyt
      exact absurd hxy (hother hy hit hi' hx)
    · exact k.single i j x y hi' hj' hx hy hxy

/-- The handlers that hold an event, after the handler `t`, which holds one, has gone on -/
theorem Tracking.mem_set {x : NetifPtr × Connecting} (hc : c.holdsEvent = true)
    (hx : x ∈ s.handlers.set t (p, c')) (hholds : x.2.holdsEvent = true) :
    x = (p, c') ∨ x.1 ≠ p ∧ x ∈ s.handlers := by
  obtain ⟨j, hj⟩ := List.getElem?_of_mem hx
  rcases getElem?_set hj with ⟨-, rfl⟩ | ⟨hjt, hj⟩
  · exact .inl rfl
  · refine .inr ⟨fun hp => hjt ?_, List.mem_of_getElem? hj⟩
    exact k.single j t x (p, c) hj ht hholds hc hp

/-- A handler that does not come to hold an event, and held none -/
theorem Tracking.set (hc : c.holdsEvent = false) (hc' : c'.holdsEvent = false) :
    Tracking { s with handlers := s.handlers.set t (p, c') } where
  old q n hn hnone := by
    refine k.old q n hn fun ip ipChanged hx => hnone ip ipChanged (mem_set_of_ne ht hx ?_)
    rintro heq
    obtain ⟨-, rfl⟩ := Prod.mk.inj heq
    cases hc
  held q ip ipChanged hx := by
    rcases List.mem_or_eq_of_mem_set hx with hx | heq
    · exact k.held q ip ipChanged hx
    · obtain ⟨-, rfl⟩ := Prod.mk.inj heq
      cases hc'
  copied q ip ipChanged hx := by
    rcases List.mem_or_eq_of_mem_set hx with hx | heq
    · exact k.copied q ip ipChanged hx
    · obtain ⟨-, rfl⟩ := Prod.mk.inj heq
      cases hc'
  single := k.single_set ht fun h => absurd (hc'.symm.trans h) Bool.false_ne_true

/-- The handler `t` reads `ip_info_old` while no handler holds an event for the interface. -/
theorem Tracking.read {ip : IpInfo} (hn : s.world.heap p = some n) (hc : c.holdsEvent = false)
    (hnone : ∀ y ∈ s.handlers, y.2.holdsEvent = true → y.1 ≠ p) :
    Tracking { s with
      handlers := s.handlers.set t (p, .setOldIpInfo ip (decide (ip ≠ n.ipInfoOld))) } where
  old q m hm hpost := by
    refine k.old q m hm fun ip ipChanged hx => hpost ip ipChanged (mem_set_of_ne ht hx ?_)
    rintro heq
    obtain ⟨-, rfl⟩ := Prod.mk.inj heq
    cases hc
  held q ip' ipChanged hx := by
    rcases List.mem_or_eq_of_mem_set hx with hx | heq
    · exact k.held q ip' ipChanged hx
    · obtain ⟨rfl, hevent⟩ := Prod.mk.inj heq
      obtain ⟨rfl, rfl⟩ := Connecting.setOldIpInfo.inj hevent
      rw [k.old q n hn fun ip ipChanged hx => hnone _ hx rfl rfl]
      exact decide_eq_true_iff
  copied q ip ipChanged hx := by
    rcases List.mem_or_eq_of_mem_set hx with hx | heq
    · exact k.copied q ip ipChanged hx
    · cases (Prod.mk.inj heq).2
  single := k.single_set ht fun _ => .inr hnone

/-- The handler `t` copies the address of its event. -/
theorem Tracking.copy {ip : IpInfo} {ipChanged : Bool} (hn : s.world.heap p = some n)
    (hc : c = .setOldIpInfo ip ipChanged) (hw' : w' = s.world.set p { n with ipInfoOld := ip }) :
    Tracking ⟨w', s.handlers.set t (p, .eventPost ip ipChanged), s.reference⟩ where
  old q m hm hpost := by
    subst hc hw'
    by_cases hq : q = p
    · subst hq
      obtain ⟨hlt, -⟩ := List.getElem?_eq_some_iff.mp ht
      exact absurd (List.mem_of_getElem? (List.getElem?_set_self hlt)) (hpost ip ipChanged)
    · refine k.old q m ((World.set_heap_of_ne _ hq).symm.trans hm) fun ip ipChanged hx =>
        hpost ip ipChanged (mem_set_of_ne ht hx fun heq => hq (Prod.mk.inj heq).1)
  held q ip' ipChanged' hx := by
    subst hc
    rcases k.mem_set ht rfl hx rfl with heq | ⟨-, hx⟩
    · cases (Prod.mk.inj heq).2
    · exact k.held q ip' ipChanged' hx
  copied q ip' ipChanged' hx := by
    subst hc hw'
    rcases k.mem_set ht rfl hx rfl with heq | ⟨hq, hx⟩
    · obtain ⟨rfl, hevent⟩ := Prod.mk.inj heq
      obtain ⟨rfl, rfl⟩ := Connecting.eventPost.inj hevent
      refine ⟨k.held q ip' ipChanged' (List.mem_of_getElem? ht), fun m hm => ?_⟩
      cases (World.set_heap _).symm.trans hm
      rfl
    · obtain ⟨hflag, hold⟩ := k.copied q ip' ipChanged' hx
      exact ⟨hflag, fun m hm => hold m ((World.set_heap_of_ne _ hq).symm.trans hm)⟩
  single := k.single_set ht fun _ => .inl (by rw [hc]; rfl)

/-- The handler `t` posts its event. -/
theorem Tracking.post {ip : IpInfo} {ipChanged : Bool} {id : Nat}
    (hc : c = .eventPost ip ipChanged)
    (hw' : w' = s.world.perform p [.post (.gotIp id ip ipChanged)]) :
    Tracking ⟨w', s.handlers.set t (p, .returned), s.referenceAfter w' s.reference⟩ ∧
      ∀ q, FlagsRight (s.reference q) (eventsOf q (Watched.posted s.world w')) := by
  have hes : ∀ q, eventsOf q (Watched.posted s.world w') =
      if q = p then [.gotIp id ip ipChanged] else [] := by
    intro q
    have hposted : w'.posted =
        s.world.posted ++ World.events p [.post (.gotIp id ip ipChanged)] := by
      rw [hw']
      rfl
    rw [Watched.posted_append hposted, eventsOf_events]
    rfl
  subst hc
  obtain ⟨hflag, hcopied⟩ := k.copied p ip ipChanged (List.mem_of_getElem? ht)
  have hself : s.referenceAfter w' s.reference p = ip := by
    rw [referenceAfter, hes, if_pos rfl]
    rfl
  have hother : ∀ {q : NetifPtr}, q ≠ p → s.referenceAfter w' s.reference q = s.reference q := by
    intro q hq
    rw [referenceAfter, hes, if_neg hq]
    rfl
  have hheap : w'.heap = s.world.heap := by
    rw [hw']
    rfl
  refine ⟨⟨fun q m hm hpost => ?_, fun q ip' ipChanged' hx => ?_, fun q ip' ipChanged' hx => ?_,
    k.single_set ht nofun⟩, fun q => ?_⟩
  · have hm' : s.world.heap q = some m := (congrFun hheap q).symm.trans hm
    show m.ipInfoOld = s.referenceAfter w' s.reference q
    by_cases hq : q = p
    · subst hq
      rw [hself]
      exact hcopied m hm'
    · rw [hother hq]
      exact k.old q m hm' fun ip ipChanged hx =>
        hpost ip ipChanged (mem_set_of_ne ht hx fun heq => hq (Prod.mk.inj heq).1)
  · show ipChanged' = true ↔ ip' ≠ s.referenceAfter w' s.reference q
    rcases k.mem_set ht rfl hx rfl with heq | ⟨hq, hx⟩
    · cases (Prod.mk.inj heq).2
    · rw [hother hq]
      exact k.held q ip' ipChanged' hx
  · show (ipChanged' = true ↔ ip' ≠ s.referenceAfter w' s.reference q) ∧ ∀ n ∈ w'.heap q, _
    rcases k.mem_set ht rfl hx rfl with heq | ⟨hq, hx⟩
    · cases (Prod.mk.inj heq).2
    · rw [hother hq, hheap]
      exact k.copied q ip' ipChanged' hx
  · rw [hes]
    by_cases hq : q = p
    · subst hq
      rw [if_pos rfl]
      exact ⟨hflag, trivial⟩
    · rw [if_neg hq]
      trivial

end Resume

/-- A handler that starts has read nothing yet. -/
theorem Tracking.append (k : Tracking s) (p : NetifPtr) :
    Tracking { s with handlers := s.handlers ++ [(p, .up)] } := by
  have hmem : ∀ {x : NetifPtr × Connecting}, x ∈ s.handlers ++ [(p, .up)] →
      x.2.holdsEvent = true → x ∈ s.handlers := by
    intro x hx hholds
    rcases List.mem_append.mp hx with hx | hx
    · exact hx
    · rw [List.mem_singleton.mp hx] at hholds
      cases hholds
  have hget : ∀ {i : Nat} {x : NetifPtr × Connecting}, (s.handlers ++ [(p, .up)])[i]? = some x →
      x.2.holdsEvent = true → s.handlers[i]? = some x := by
    intro i x hi hholds
    rw [List.getElem?_append] at hi
    split at hi
    · exact hi
    · rw [List.mem_singleton.mp (List.mem_of_getElem? hi)] at hholds
      cases hholds
  exact {
    old := fun q n hn hnone => k.old q n hn fun ip ipChanged hx =>
      hnone ip ipChanged (List.mem_append_left _ hx)
    held := fun q ip ipChanged hx => k.held q ip ipChanged (hmem hx rfl)
    copied := fun q ip ipChanged hx => k.copied q ip ipChanged (hmem hx rfl)
    single := fun i j x y hi hj hx hy => k.single i j x y (hget hi hx) (hget hj hy) hx hy }

/-- What a handler does that holds no event is a step of the interfaces, and it rebases none. -/
theorem exists_step {mutex : Bool} {w : World κ} (hc : c.holdsEvent = false)
    (h : c.run lwip w p n mutex = some w') :
    ∃ a, w.step lwip a = some w' ∧ ∀ q, ¬ w.Rebases q a := by
  cases c with
  | up => exact ⟨.call (some p) .up mutex, h, fun _ => id⟩
  | dhcpcStart => exact ⟨.call (some p) .dhcpcStart mutex, h, fun _ => id⟩
  | dhcpcGetStatus | getIpInfo | getOldIpInfo => exact ⟨.destroy none ⟨true, true⟩, h, fun _ => id⟩
  | setOldIpInfo | eventPost => cases hc
  | returned => cases h

/-- A handler that has not read the old address holds no event after its next step. -/
theorem next_holdsEvent (hc : c.holdsEvent = false) (hread : c.readsOld = false) :
    (c.next n).holdsEvent = false := by
  cases c with
  | dhcpcGetStatus =>
    rw [Connecting.next]
    split
    · split <;> rfl
    · rfl
  | up | dhcpcStart | getIpInfo | returned => rfl
  | getOldIpInfo => cases hread
  | setOldIpInfo | eventPost => cases hc

/-- A handler that holds no event makes its next call. -/
theorem Tracking.resume {mutex : Bool} (k : Tracking s) (hlwip : lwip.ReleaseSpec)
    (ht : s.handlers[t]? = some (p, c)) (hn : s.world.heap p = some n) (hc : c.holdsEvent = false)
    (hnone : c.readsOld = true → ∀ y ∈ s.handlers, y.2.holdsEvent = true → y.1 ≠ p)
    (h : c.run lwip s.world p n mutex = some w') :
    Tracking ⟨w', s.handlers.set t (p, c.next n), s.referenceAfter w' s.reference⟩ ∧
      ∀ q, FlagsRight (s.reference q) (eventsOf q (Watched.posted s.world w')) := by
  obtain ⟨a, hstep, hnot⟩ := exists_step hc h
  have hcompared : s.compared w' a = s.reference := funext fun q => compared_of_not_rebases (hnot q)
  obtain ⟨k', hflags⟩ := k.world hlwip hstep fun x _ _ => hnot x.1
  rw [hcompared] at k' hflags
  refine ⟨?_, hflags⟩
  cases hread : c.readsOld with
  | false => exact k'.set ht hc (next_holdsEvent hc hread)
  | true =>
    cases c with
    | getOldIpInfo ip =>
      cases h
      rw [Connecting.next]
      split
      · exact k'.read ht hn hc (hnone hread)
      · exact k'.set ht hc rfl
    | up | dhcpcGetStatus | dhcpcStart | getIpInfo | returned => cases hread
    | setOldIpInfo | eventPost => cases hc

/-- One step of any task keeps track and flags its events rightly, if it is not disturbed. -/
theorem step_tracking {a : TaskAction κ} {s' : Tracked κ} (hlwip : lwip.ReleaseSpec)
    (k : Tracking s) (ha : s.Undisturbed a) (h : s.step lwip a = some s') :
    Tracking s' ∧ IpChangedOk s a s' := by
  cases a with
  | world a =>
    obtain ⟨w', hstep, rfl⟩ := Option.map_eq_some_iff.mp h
    exact k.world hlwip hstep ha
  | connected p =>
    cases h
    refine ⟨k.append p, fun q => ?_⟩
    rw [posted_same rfl]
    trivial
  | resume t mutex =>
    unfold Tracked.step at h
    dsimp only at h
    split at h
    · cases h
    · rename_i p c ht
      split at h
      · cases h
      · rename_i n hn
        obtain ⟨w', hrun, rfl⟩ := Option.map_eq_some_iff.mp h
        cases hc : c.holdsEvent with
        | false => exact k.resume hlwip ht hn hc (ha (p, c) ht) hrun
        | true =>
          cases c with
          | setOldIpInfo ip ipChanged =>
            cases hrun
            have hes : ∀ q, eventsOf q (Watched.posted s.world
                (s.world.set p { n with ipInfoOld := ip })) = [] := fun q => posted_same rfl
            refine ⟨?_, fun q => ?_⟩
            · have hsame : s.referenceAfter (s.world.set p { n with ipInfoOld := ip }) s.reference =
                  s.reference := funext fun q => referenceAfter_of_silent (hes q ▸ silent_nil)
              show Tracking ⟨_, s.handlers.set t _, s.referenceAfter _ _⟩
              rw [hsame]
              exact k.copy ht hn rfl rfl
            · rw [hes]
              trivial
          | eventPost ip ipChanged =>
            cases hrun
            exact k.post ht rfl rfl
          | up | dhcpcGetStatus | dhcpcStart | getIpInfo | getOldIpInfo | returned => cases hc

/-! ## Every run -/

/-- In a run in which nothing comes between a handler's read of `ip_info_old` and its event, every
got-IP event says rightly whether the address has changed. -/
theorem ipChanged_of_undisturbed (lwip : Lwip κ) (hlwip : lwip.ReleaseSpec)
    (actions : List (TaskAction κ))
    (h : Machine.Along (Tracked.step lwip) Tracked.Undisturbed Tracked.init actions) :
    Machine.Each (Tracked.step lwip) IpChangedOk Tracked.init actions :=
  Machine.each_of_along (P := Tracked.Undisturbed) (I := Tracking) (R := IpChangedOk)
    (fun _ _ _ ha h k => step_tracking hlwip k ha h) h tracking_init

instance decidableRebases (w : World κ) (p : NetifPtr) : ∀ a, Decidable (w.Rebases p a)
  | .new q _ _ => inferInstanceAs (Decidable (q = p))
  | .call (some q) (.setIpInfo (some info)) _ =>
    inferInstanceAs (Decidable (q = p ∧ ∃ n ∈ w.heap p, n.AnnouncesStatic info))
  | .addressChange q addr _ _ =>
    inferInstanceAs (Decidable (q = p ∧ ∃ n ∈ w.heap p, n.AnnouncesDhcp w.callback addr))
  | .timeout .ipLost q => inferInstanceAs (Decidable (q = p ∧ w.findsNoAddress p = true))
  | .call none _ _ | .call (some _) .up _ | .call (some _) .down _ | .call (some _) .dhcpcStart _
  | .call (some _) .dhcpcStop _ | .call (some _) (.dhcpsStart _) _ | .call (some _) .dhcpsStop _
  | .call (some _) (.start _ _) _ | .call (some _) .stop _ | .call (some _) .setDefaultNetif _
  | .call (some _) (.setIpInfo none) _ | .destroy .. | .ip6Valid _ | .timeout .garp _
  | .timeout .mldv6 _ => .isFalse id

instance decidableUndisturbed (s : Tracked κ) : ∀ a, Decidable (s.Undisturbed a)
  | .world a => inferInstanceAs (Decidable (∀ x ∈ s.handlers, x.2.holdsEvent = true →
      ¬ s.world.Rebases x.1 a))
  | .connected _ => .isTrue trivial
  | .resume t _ => inferInstanceAs (Decidable (∀ x ∈ s.handlers[t]?, x.2.readsOld = true →
      ∀ y ∈ s.handlers, y.2.holdsEvent = true → y.1 ≠ x.1))

/-- `Lwip.simple` does what `ReleaseSpec` asks of lwIP. -/
theorem simple_releaseSpec : Lwip.simple.ReleaseSpec where
  toAddrSpec := simple_addrSpec
  dhcpRelease n := by
    dsimp only [Lwip.simple]
    split
    · exact .inr ⟨rfl, rfl⟩
    · exact .inl ⟨rfl, rfl⟩

/-- A station with an address of its own; the handler has read `ip_info_old` for it. -/
def connectingStation : List (TaskAction Bool) :=
  [.world (.new 0 (some wifiSta.full) .plenty), .world (.call (some 0) .dhcpcStop true),
    .world (.call (some 0) (.setIpInfo (some Watched.static)) true), .connected 0, .resume 0 true,
    .resume 0 true, .resume 0 true, .resume 0 true]

/-- The handler goes on, the address is set again, the station goes down until its timer expires,
and then it is connected again. -/
def reconnectingStation : List (TaskAction Bool) :=
  connectingStation ++ [.resume 0 true, .resume 0 true,
    .world (.call (some 0) (.setIpInfo (some Watched.static)) true),
    .world (.call (some 0) .down true), .world (.timeout .ipLost 0), .connected 0, .resume 1 true,
    .resume 1 true, .resume 1 true, .resume 1 true, .resume 1 true, .resume 1 true]

/-- The run of `reconnectingStation`, which nothing disturbs -/
theorem ipChanged_of_undisturbed_reconnectingStation : ∃ s,
    Machine.exec (Tracked.step Lwip.simple) Tracked.init reconnectingStation = some s ∧
      Machine.Each (Tracked.step Lwip.simple) IpChangedOk Tracked.init reconnectingStation := by
  obtain ⟨s, hs⟩ := Option.isSome_iff_exists.mp
    (show (Machine.exec (Tracked.step Lwip.simple) Tracked.init reconnectingStation).isSome by
      decide +kernel)
  exact ⟨s, hs, ipChanged_of_undisturbed Lwip.simple simple_releaseSpec reconnectingStation
    (by decide +kernel)⟩

/-- The application sets the address while the handler holds its event: both events say that the
address has changed. -/
theorem ipChanged_not_of_race : ¬ Machine.Each (Tracked.step Lwip.simple) IpChangedOk Tracked.init
    (connectingStation ++ [.world (.call (some 0) (.setIpInfo (some Watched.static)) true),
      .resume 0 true] ++ [.resume 0 true]) := by
  intro heach
  have hrun : (Machine.exec (Tracked.step Lwip.simple) Tracked.init
      (connectingStation ++ [.world (.call (some 0) (.setIpInfo (some Watched.static)) true),
        .resume 0 true])).any (fun s => (s.step Lwip.simple (.resume 0 true)).any fun s' =>
      decide (s.reference 0 = Watched.static) &&
        decide (eventsOf 0 (Watched.posted s.world s'.world) = [.gotIp 0 Watched.static true])) =
      true := by decide +kernel
  obtain ⟨s, hs, hrun⟩ := (Option.any_eq_true _ _).mp hrun
  obtain ⟨s', hs', hrun⟩ := (Option.any_eq_true _ _).mp hrun
  obtain ⟨hreference, hevents⟩ := Bool.and_eq_true_iff.mp hrun
  have hok : FlagsRight (s.reference 0) (eventsOf 0 (Watched.posted s.world s'.world)) :=
    heach.last hs hs' 0
  rw [of_decide_eq_true hreference, of_decide_eq_true hevents] at hok
  exact hok.1.mp rfl rfl

end Tracked

end PicoHost.Interface
