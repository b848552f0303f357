import PicoHost.Interface.Frame

/-!
# Creating an interface (`esp_netif_new`)

A call of `esp_netif_new` returns `NULL`, and then it has undone what it did, or it returns an
interface as its configuration describes it (`espNetifNew_cases`). Which of the two is decided by
the configuration and by the allocations that it checks (`creates`).
-/

namespace PicoHost.Interface

open Dhcps (NetifPtr PcbPtr)

variable {κ : Type} {lwip : Lwip κ}

/-! ## The configured interface -/

/-- When `esp_netif_init_configuration` accepts a configuration -/
theorem initConfiguration_ok {n : EspNetif κ} {config : Config} {base : InherentConfig}
    {key : Option String} :
    (espNetifInitConfiguration n config base key).1 = .ok ↔
      config.stack.isSome ∧ base.flags.isPpp = false := by
  rw [espNetifInitConfiguration]
  cases config.stack with
  | none => simp
  | some stack =>
    dsimp only
    cases base.flags.isPpp with
    | true => simp
    | false => cases config.driver <;> simp

/-- The interface that `esp_netif_new` returns for this configuration and this copy of the key -/
structure Created (lwip : Lwip κ) (base : InherentConfig) (key : Option String)
    (n : EspNetif κ) : Prop where
  config : n.config = (base.flags, key, base.routePrio, base.getIpEvent, base.lostIpEvent)
  ipInfo : n.ipInfo = base.ipInfo.getD .any
  ipInfoOld : n.ipInfoOld = n.ipInfo
  lwip : n.lwip = ⟨false, .any, false, lwip.zeroed⟩
  added : n.added = false
  dhcpcStatus : n.dhcpcStatus = .init
  dhcpsStatus : n.dhcpsStatus = .init
  dhcps : n.dhcps = none ∨ n.dhcps = some ⟨Dhcps.dhcpsNew, Heap.empty⟩
  timerRunning : n.timerRunning = false

/-- An accepted configuration creates the interface. -/
theorem created_of_ok {config : Config} {base : InherentConfig} {key : Option String}
    (h : (espNetifInitConfiguration (.unconfigured lwip base) config base key).1 = .ok) :
    Created lwip base key
      (espNetifInitConfiguration (.unconfigured lwip base) config base key).2 := by
  obtain ⟨hstack, hppp⟩ := initConfiguration_ok.mp h
  obtain ⟨stack, hstack⟩ := Option.isSome_iff_exists.mp hstack
  unfold espNetifInitConfiguration EspNetif.unconfigured
  rw [hstack, hppp]
  cases config.driver with
  | none =>
    cases base.flags.dhcpServer with
    | true => exact ⟨rfl, rfl, rfl, rfl, rfl, rfl, rfl, .inr rfl, rfl⟩
    | false => exact ⟨rfl, rfl, rfl, rfl, rfl, rfl, rfl, .inl rfl, rfl⟩
  | some driver =>
    cases base.flags.dhcpServer with
    | true => exact ⟨rfl, rfl, rfl, rfl, rfl, rfl, rfl, .inr rfl, rfl⟩
    | false => exact ⟨rfl, rfl, rfl, rfl, rfl, rfl, rfl, .inl rfl, rfl⟩

namespace World

/-! ## The call -/

/-- The configuration passes all checks of `esp_netif_new`, and the allocations that it checks
succeed. -/
def creates (w : World κ) (config : Option Config) (env : NewEnv) : Bool :=
  match config with
  | none => false
  | some config =>
    match config.base, config.stack with
    | some base, some _ =>
      match base.ifKey with
      | none => false
      | some key =>
        decide (w.getHandleFromIfkey key w.list = some none) &&
          !(base.flags.dhcpServer && base.flags.dhcpClient) &&
          (env.espNetif && env.ipInfo && env.ipInfoOld && env.lwipNetif) &&
          (!base.flags.dhcpServer || env.dhcps) && !base.flags.isPpp
    | _, _ => false

section

variable {w w' : World κ} {p : NetifPtr} {r : World κ × Option NetifPtr}

/-- The interface becomes the head of the list, or the item or the mutex is refused. -/
theorem addToList_cases (w : World κ) (p : NetifPtr) (item mutex : Bool) :
    (item = true ∧ (w.listLock = true ∨ mutex = true)) ∧ (w.addToList p item mutex).2 =
        { w with list := p :: w.list, counter := w.counter + 1, listLock := true } ∨
      ¬ (item = true ∧ (w.listLock = true ∨ mutex = true)) ∧ (w.addToList p item mutex).2 = w := by
  unfold addToList listLock?
  cases item with
  | false => exact .inr ⟨fun h => Bool.false_ne_true h.1, rfl⟩
  | true =>
    rw [if_pos rfl]
    by_cases hlock : w.listLock = true ∨ mutex = true
    · rw [if_pos (by simpa using hlock)]
      exact .inl ⟨⟨rfl, hlock⟩, rfl⟩
    · rw [if_neg (by simpa using hlock)]
      exact .inr ⟨fun h => hlock h.2, rfl⟩

/-- In `w₂` the interface `p` is allocated, and it has been put into the list of `w` or not. -/
structure Halfway (w : World κ) (p : NetifPtr) (w₂ : World κ) : Prop where
  heap : ∀ q, q ≠ p → w₂.heap q = w.heap q
  list : w₂.list = p :: w.list ∧ w₂.counter = w.counter + 1 ∧ w₂.listLock = true ∨
    w₂.list = w.list ∧ w₂.counter = w.counter ∧ w₂.listLock = w.listLock
  same : w₂.lastDefault = w.lastDefault ∧ w₂.overridden = w.overridden ∧
    w₂.callback = w.callback ∧ w₂.timeouts = w.timeouts ∧ w₂.posted = w.posted ∧
    w₂.fault = w.fault

/-- Adding an interface to the list changes the list only. -/
theorem halfway_addToList (w : World κ) (p : NetifPtr) (n : EspNetif κ) (item mutex : Bool) :
    Halfway w p ((w.set p n).addToList p item mutex).2 := by
  rcases addToList_cases (w.set p n) p item mutex with ⟨-, h⟩ | ⟨-, h⟩
  · rw [h]
    exact ⟨fun q hq => set_heap_of_ne n hq, .inl ⟨rfl, rfl, rfl⟩, rfl, rfl, rfl, rfl, rfl, rfl⟩
  · rw [h]
    exact ⟨fun q hq => set_heap_of_ne n hq, .inr ⟨rfl, rfl, rfl⟩, rfl, rfl, rfl, rfl, rfl, rfl⟩

/-- The new interface may still be written. -/
theorem Halfway.set {w₂ : World κ} (h : Halfway w p w₂) (n : EspNetif κ) :
    Halfway w p (w₂.set p n) :=
  ⟨fun q hq => (set_heap_of_ne n hq).trans (h.heap q hq), h.list, h.same⟩

/-- The handle that `esp_netif_get_handle_from_ifkey` does not find belongs to no interface. -/
theorem ifKey_ne_of_getHandle {key : String} {l : List NetifPtr}
    (h : w.getHandleFromIfkey key l = some none) : ∀ q ∈ l, w.ifKey q ≠ some key := by
  induction l with
  | nil => exact nofun
  | cons q l ih =>
    rw [getHandleFromIfkey] at h
    cases hkey : w.ifKey q with
    | none =>
      rw [hkey] at h
      cases h
    | some k =>
      rw [hkey] at h
      dsimp only at h
      split at h
      · cases h
      · rename_i hne
        intro r hr
        rcases List.mem_cons.mp hr with rfl | hr
        · rw [hkey]
          exact fun h => hne (Option.some.inj h).symm
        · exact ih h r hr

/-- `esp_netif_new` returns `NULL`, having undone what it did, or it returns an interface, which
it has tried to put into the list. -/
theorem espNetifNew_cases {config : Option Config} {env : NewEnv}
    (h : w.espNetifNew lwip p config env = some r) :
    w.creates config env = false ∧ r.2 = none ∧ (r.1 = w ∨ ∃ w₂, Halfway w p w₂ ∧
        w₂.espNetifDestroy lwip p env.destroy = some r.1) ∨
      w.creates config env = true ∧ ∃ c base key n, config = some c ∧ c.base = some base ∧
        base.ifKey = some key ∧ w.getHandleFromIfkey key w.list = some none ∧
        Created lwip base (if env.ifKey then some key else none) n ∧
        r = ({ ((w.set p (.zeroed lwip)).addToList p env.listItem env.listMutex).2.set p n with
          callback := true }, some p) := by
  unfold espNetifNew at h
  unfold creates
  cases config with
  | none =>
    cases h
    exact .inl ⟨rfl, rfl, .inl rfl⟩
  | some config =>
    dsimp only at h ⊢
    cases hbase : config.base with
    | none =>
      rw [hbase] at h
      cases h
    | some base =>
      rw [hbase] at h
      dsimp only at h
      cases hkey : base.ifKey with
      | none =>
        rw [hkey] at h
        cases h
        refine .inl ⟨?_, rfl, .inl rfl⟩
        cases config.stack <;> simp [hkey]
      | some key =>
        rw [hkey] at h
        dsimp only at h
        -- the walk over the keys, then a key that is taken
        split at h
        · cases h
        · rename_i hfound
          cases h
          refine .inl ⟨?_, rfl, .inl rfl⟩
          cases config.stack <;> simp [hkey, hfound]
        · rename_i hfound
          split at h
          · -- DHCP server and client together
            rename_i hboth
            cases h
            refine .inl ⟨?_, rfl, .inl rfl⟩
            cases config.stack <;> simp [hkey, hboth]
          · rename_i hboth
            have hboth' : (base.flags.dhcpServer && base.flags.dhcpClient) = false := by
              simpa using hboth
            rw [espNetifCreate] at h
            split at h
            · rename_i hallocs
              dsimp only at h
              have hhalf := halfway_addToList w p (EspNetif.zeroed lwip) env.listItem env.listMutex
              split at h
              · -- `dhcps_new` fails
                rename_i hdhcps
                obtain ⟨u, hu, rfl⟩ := Option.map_eq_some_iff.mp h
                refine .inl ⟨?_, rfl, .inr ⟨_, hhalf, hu⟩⟩
                cases config.stack <;> simp [hkey, hdhcps]
              · rename_i hdhcps
                have hdhcps' : (!base.flags.dhcpServer || env.dhcps) = true := by
                  cases hs : base.flags.dhcpServer <;> simp [hs] at hdhcps ⊢
                  exact hdhcps
                generalize hcopy : (if env.ifKey then some key else none) = copy at h ⊢
                split at h
                · rename_i hok
                  obtain ⟨hstack, hppp⟩ := initConfiguration_ok.mp hok
                  obtain ⟨stack, hstack⟩ := Option.isSome_iff_exists.mp hstack
                  cases h
                  refine .inr ⟨?_, config, base, key, _, rfl, hbase, hkey, hfound, ?_, rfl⟩
                  · simp only [hstack, hkey, hfound, hboth', hallocs, hdhcps', hppp, decide_true,
                      Bool.not_false, Bool.and_self]
                  · rw [hcopy]
                    exact created_of_ok hok
                · -- `esp_netif_init_configuration` fails
                  rename_i hok
                  obtain ⟨u, hu, rfl⟩ := Option.map_eq_some_iff.mp h
                  refine .inl ⟨?_, rfl, .inr ⟨_, hhalf.set _, hu⟩⟩
                  rw [initConfiguration_ok, not_and_or] at hok
                  cases hstack : config.stack with
                  | none => rfl
                  | some stack =>
                    have hppp : base.flags.isPpp = true := by
                      simpa [hstack] using hok
                    simp [hkey, hppp]
            · -- one of the first four allocations fails
              rename_i hallocs
              cases h
              refine .inl ⟨?_, rfl, .inl rfl⟩
              have hallocs' :
                  (env.espNetif && env.ipInfo && env.ipInfoOld && env.lwipNetif) = false := by
                rw [← Bool.not_eq_true]
                simpa [and_assoc] using hallocs
              cases config.stack <;> simp [hkey, hallocs']

/-- Where it returns `NULL`, the interfaces are what they were. -/
theorem Halfway.destroy {w₂ : World κ} {env : DestroyEnv} (hw₂ : Halfway w p w₂)
    (hp : w.heap p = none) (h : w₂.espNetifDestroy lwip p env = some w') :
    w'.heap = w.heap := by
  obtain ⟨n, last, overridden, callback, lock, -, rfl, -⟩ := espNetifDestroy_frame h
  funext q
  by_cases hq : q = p
  · subst hq
    exact (Function.update_self ..).trans hp.symm
  · exact (Function.update_of_ne hq ..).trans (hw₂.heap q hq)

/-! ## What a step does -/

/-- `netif_callback` after lwIP has changed the address of an interface -/
def addressChanged (w : World κ) (n : EspNetif κ) (addr : IpInfo) (dhcpData : Bool) (core : κ) :
    Done κ :=
  netifCallbackFn w.callback n
    (⟨n.lwip.isUp, addr, dhcpData, core⟩, decide (addr ≠ n.lwip.addr))

/-- The ways in which a step can be taken -/
inductive Stepped (lwip : Lwip κ) (w : World κ) : Action κ → World κ → Prop
  | refused {p : NetifPtr} {config : Option Config} {env : NewEnv} (hp : w.heap p = none)
    (hc : w.creates config env = false) : Stepped lwip w (.new p config env) w
  | undone {p : NetifPtr} {config : Option Config} {env : NewEnv} {w₂ w' : World κ}
    (hp : w.heap p = none) (hc : w.creates config env = false) (hw₂ : Halfway w p w₂)
    (h : w₂.espNetifDestroy lwip p env.destroy = some w') : Stepped lwip w (.new p config env) w'
  | created {p : NetifPtr} {config : Option Config} {env : NewEnv} {base : InherentConfig}
    {key : String} {n : EspNetif κ} (hp : w.heap p = none) (hc : w.creates config env = true)
    (hkey : w.getHandleFromIfkey key w.list = some none)
    (hn : Created lwip base (if env.ifKey then some key else none) n) :
    Stepped lwip w (.new p config env)
      { ((w.set p (.zeroed lwip)).addToList p env.listItem env.listMutex).2.set p n with
        callback := true }
  | destroyNull {env : DestroyEnv} : Stepped lwip w (.destroy none env) w
  | destroy {p : NetifPtr} {env : DestroyEnv} {w' : World κ}
    (h : w.espNetifDestroy lwip p env = some w') : Stepped lwip w (.destroy (some p) env) w'
  | callNull {call : ApiCall} {mutex : Bool} : Stepped lwip w (.call none call mutex) w
  | call {p : NetifPtr} {call : ApiCall} {mutex : Bool} {w' : World κ}
    (h : w.espNetifCall lwip p call mutex = some w') : Stepped lwip w (.call (some p) call mutex) w'
  | addressChange {p : NetifPtr} {n : EspNetif κ} {addr : IpInfo} {dhcpData : Bool} {core : κ}
    (hn : w.heap p = some n) :
    Stepped lwip w (.addressChange p addr dhcpData core)
      ((w.set p (w.addressChanged n addr dhcpData core).1).perform p
        (w.addressChanged n addr dhcpData core).2)
  | ip6Ignored {p : NetifPtr} : Stepped lwip w (.ip6Valid p) w
  | ip6Valid {p : NetifPtr} {n : EspNetif κ} (hn : w.heap p = some n) (hc : w.callback = true) :
    Stepped lwip w (.ip6Valid p) (w.perform p (espNetifInternalNd6Cb n))
  | timeout {t : Timer} {p : NetifPtr} (h : (t, p) ∈ w.timeouts) :
    Stepped lwip w (.timeout t p)
      ({ w with timeouts := w.timeouts.erase (t, p) }.runTimeout t p)

/-- What a step is, by cases on the action -/
theorem stepped_of_step {a : Action κ} (h : w.step lwip a = some w') : Stepped lwip w a w' := by
  cases a with
  | new p config env =>
    simp only [World.step, Option.ite_none_left_eq_some, Option.map_eq_some_iff] at h
    obtain ⟨hp, r, h, rfl⟩ := h
    have hp : w.heap p = none := by simpa using hp
    rcases espNetifNew_cases h with
      ⟨hc, -, hw | ⟨w₂, hw₂, h⟩⟩ | ⟨hc, c, base, key, n, -, -, -, hkey, hn, rfl⟩
    · rw [hw]
      exact .refused hp hc
    · exact .undone hp hc hw₂ h
    · exact .created hp hc hkey hn
  | destroy p env =>
    cases p with
    | none =>
      cases h
      exact .destroyNull
    | some p => exact .destroy h
  | call p call mutex =>
    cases p with
    | none =>
      simp only [World.step, Option.ite_none_right_eq_some, Option.some.injEq] at h
      exact h.2 ▸ .callNull
    | some p => exact .call h
  | addressChange p addr dhcpData core =>
    rw [World.step] at h
    dsimp only at h
    split at h
    · cases h
    · rename_i n hn
      cases h
      exact .addressChange hn
  | ip6Valid p =>
    unfold World.step at h
    dsimp only at h
    split at h
    · cases h
    · rename_i n hn
      cases h
      split
      · rename_i hcallback
        exact .ip6Valid hn hcallback
      · exact .ip6Ignored
  | timeout t p =>
    simp only [World.step, Option.ite_none_right_eq_some, Option.some.injEq] at h
    obtain ⟨hmem, rfl⟩ := h
    exact .timeout hmem

/-- A timer changes its own interface at most. -/
theorem heap_runTimeout {t : Timer} {q : NetifPtr} {n' : EspNetif κ}
    (hq : (w.runTimeout t p).heap q = some n') :
    w.heap q = some n' ∨ ∃ n, t = .ipLost ∧ q = p ∧ p ∈ w.list ∧ w.heap p = some n ∧
      n' = (espNetifIpLostTimer n).1 := by
  unfold runTimeout at hq
  split at hq
  · rename_i n hn
    split at hq
    · rename_i hlist
      by_cases hqp : q = p
      · subst hqp
        exact .inr ⟨n, rfl, rfl, hlist, hn, (Option.some.inj ((set_heap _).symm.trans hq)).symm⟩
      · exact .inl ((set_heap_of_ne _ hqp).symm.trans hq)
    · exact .inl hq
  · exact .inl hq
  · exact .inl hq
  · exact .inl hq
  · exact .inl hq

/-- An interface after a step was there before it, or it has been created, or it is the one that
the step is about. -/
theorem step_heap_cases {a : Action κ} (h : w.step lwip a = some w') {q : NetifPtr}
    {n' : EspNetif κ} (hq : w'.heap q = some n') :
    w.heap q = some n' ∨
    (∃ config env base key, a = .new q config env ∧ Created lwip base key n') ∨
    (∃ n call mutex r, a = .call (some q) call mutex ∧ w.heap q = some n ∧
      call.run lwip w.callback q n = some r ∧ n' = r.netif) ∨
    (∃ n addr dhcpData core, a = .addressChange q addr dhcpData core ∧ w.heap q = some n ∧
      n' = (w.addressChanged n addr dhcpData core).1) ∨
    ∃ n, a = .timeout .ipLost q ∧ q ∈ w.list ∧ w.heap q = some n ∧
      n' = (espNetifIpLostTimer n).1 := by
  cases stepped_of_step h with
  | refused | destroyNull | callNull | ip6Ignored | ip6Valid => exact .inl hq
  | undone hp hc hw₂ h => exact .inl ((congrFun (hw₂.destroy hp h) q).symm.trans hq)
  | @created p config env base key n hp hc hkey hn =>
    have hhalf := halfway_addToList w p (EspNetif.zeroed lwip) env.listItem env.listMutex
    by_cases hqp : q = p
    · subst hqp
      have hn' : n = n' := Option.some.inj ((set_heap _).symm.trans hq)
      exact .inr (.inl ⟨config, env, base, _, rfl, hn' ▸ hn⟩)
    · exact .inl (((hhalf.set n).heap q hqp).symm.trans hq)
  | @destroy p env w' h =>
    obtain ⟨n, last, overridden, callback, lock, -, rfl, -⟩ := espNetifDestroy_frame h
    by_cases hqp : q = p
    · subst hqp
      exact nomatch (Function.update_self ..).symm.trans hq
    · exact .inl ((Function.update_of_ne hqp ..).symm.trans hq)
  | @call p call mutex w' h =>
    obtain ⟨n, r, last, overridden, lock, hn, hr, rfl, -⟩ := espNetifCall_frame h
    by_cases hqp : q = p
    · subst hqp
      have hn' : r.netif = n' := Option.some.inj ((set_heap _).symm.trans hq)
      exact .inr (.inr (.inl ⟨n, call, mutex, r, rfl, hn, hr, hn'.symm⟩))
    · exact .inl ((set_heap_of_ne _ hqp).symm.trans hq)
  | @addressChange p n addr dhcpData core hn =>
    by_cases hqp : q = p
    · subst hqp
      have hn' := Option.some.inj ((set_heap _).symm.trans hq)
      exact .inr (.inr (.inr (.inl ⟨n, addr, dhcpData, core, rfl, hn, hn'.symm⟩)))
    · exact .inl ((set_heap_of_ne _ hqp).symm.trans hq)
  | timeout =>
    rcases heap_runTimeout hq with hq | ⟨n, rfl, rfl, hlist, hn, rfl⟩
    · exact .inl hq
    · exact .inr (.inr (.inr (.inr ⟨n, rfl, hlist, hn, rfl⟩)))

end

end World

end PicoHost.Interface
