import PicoHost.Interface.Create

/-!
# Which interfaces are in the list

As long as `esp_netif_add_to_list` does not fail in a call that returns an interface, the list
holds the interfaces that exist, each once, and a step puts one in or takes one out or leaves the
list alone (`Listed.step_cases`).
-/

namespace PicoHost.Interface

open Dhcps (NetifPtr PcbPtr)

variable {κ : Type} {lwip : Lwip κ}

namespace World

/-- The list holds the interfaces that exist, the counter counts it, and while it is not empty
its lock exists. -/
structure Listed (w : World κ) : Prop where
  counter : w.counter = w.list.length
  once : w.list.Nodup
  mem_iff : ∀ p, p ∈ w.list ↔ (w.heap p).isSome
  locked : w.list ≠ [] → w.listLock = true

/-- Where an interface is created, it can be put into the list. -/
def Inserts (w : World κ) : Action κ → Prop
  | .new _ config env =>
    w.creates config env → env.listItem ∧ (w.listLock ∨ env.listMutex)
  | _ => True

instance decidableInserts (w : World κ) : ∀ action, Decidable (Inserts w action)
  | .new _ config env => inferInstanceAs (Decidable (w.creates config env = true →
      env.listItem = true ∧ (w.listLock = true ∨ env.listMutex = true)))
  | .destroy .. | .call .. | .addressChange .. | .ip6Valid _ | .timeout .. => .isTrue trivial

section Listed

variable {w w' : World κ} {p : NetifPtr}

/-- At boot the list is empty. -/
theorem listed_init : Listed (init : World κ) where
  counter := rfl
  once := List.nodup_nil
  mem_iff _ := ⟨nofun, nofun⟩
  locked := fun h => absurd rfl h

/-- While the list has an interface, the counter says so. -/
theorem Listed.counter_ne_zero (l : Listed w) (h : w.list ≠ []) : w.counter ≠ 0 := by
  rw [l.counter]
  exact fun h0 => h (List.eq_nil_of_length_eq_zero h0)

/-- What does not exist is not in the list. -/
theorem Listed.not_mem (l : Listed w) (hp : w.heap p = none) : p ∉ w.list := by
  rw [l.mem_iff, hp]
  exact Bool.false_ne_true

/-- Only the list, its counter and lock, and which interfaces exist matter. -/
theorem Listed.congr (l : Listed w) (hlist : w'.list = w.list) (hcounter : w'.counter = w.counter)
    (hheap : ∀ q, (w'.heap q).isSome = (w.heap q).isSome)
    (hlocked : w.list ≠ [] → w'.listLock = true) : Listed w' where
  counter := by rw [hcounter, hlist, l.counter]
  once := hlist ▸ l.once
  mem_iff q := by rw [hlist, hheap, l.mem_iff]
  locked h := hlocked (hlist ▸ h)

theorem isSome_set {n : EspNetif κ} (hn : w.heap p = some n) (n' : EspNetif κ) (q : NetifPtr) :
    ((w.set p n').heap q).isSome = (w.heap q).isSome := by
  by_cases hq : q = p
  · subst hq
    rw [set_heap, hn]
    rfl
  · rw [set_heap_of_ne _ hq]

/-- Writing an interface leaves the list. -/
theorem Listed.set (l : Listed w) {n : EspNetif κ} (hn : w.heap p = some n) (n' : EspNetif κ) :
    Listed (w.set p n') :=
  l.congr rfl rfl (isSome_set hn n') l.locked

/-- A call leaves the list. -/
theorem Listed.call {call : ApiCall} {mutex : Bool} (l : Listed w)
    (h : w.espNetifCall lwip p call mutex = some w') : Listed w' ∧ w'.list = w.list := by
  obtain ⟨n, r, last, overridden, lock, hn, -, rfl, hlock⟩ := espNetifCall_frame h
  exact ⟨(l.set hn r.netif).congr rfl rfl (fun _ => rfl) fun hne =>
    hlock (l.counter_ne_zero hne) (l.locked hne), rfl⟩

theorem list_runTimeout (w : World κ) (t : Timer) (p : NetifPtr) :
    (w.runTimeout t p).list = w.list := by
  unfold World.runTimeout
  split
  · split <;> rfl
  · rfl
  · rfl
  · rfl
  · rfl

/-- A timer leaves the list. -/
theorem Listed.runTimeout (l : Listed w) (t : Timer) : Listed (w.runTimeout t p) := by
  cases hn : w.heap p with
  | none =>
    cases t <;> simp only [World.runTimeout, hn]
    · exact l.congr rfl rfl (fun _ => rfl) l.locked
    · exact l.congr rfl rfl (fun _ => rfl) l.locked
    · exact l
  | some n =>
    cases t <;> simp only [World.runTimeout, hn]
    · exact l.congr rfl rfl (fun _ => rfl) l.locked
    · exact l.congr rfl rfl (fun _ => rfl) l.locked
    · split
      · exact (l.set hn _).congr rfl rfl (fun _ => rfl) l.locked
      · exact l

/-- Destroying takes the interface out of the list. -/
theorem Listed.destroy {env : DestroyEnv} (l : Listed w)
    (h : w.espNetifDestroy lwip p env = some w') :
    Listed w' ∧ w'.list = w.list.erase p ∧ w'.heap = Function.update w.heap p none := by
  obtain ⟨n, last, overridden, callback, lock, hn, rfl, hlock⟩ := espNetifDestroy_frame h
  have hp : p ∈ w.list := (l.mem_iff p).mpr (by rw [hn]; rfl)
  have hne : w.list ≠ [] := List.ne_nil_of_mem hp
  rcases removeFromList_cases w p env.removeMutex with ⟨-, -, lock', hr, hl⟩ | ⟨hnot, -⟩
  · rw [hr] at hlock ⊢
    have hlength : (w.list.erase p).length = w.list.length - 1 := List.length_erase_of_mem hp
    refine ⟨⟨?_, l.once.erase p, fun q => ?_, fun hne' => ?_⟩, rfl, rfl⟩
    · show w.counter - 1 = (w.list.erase p).length
      rw [hlength, l.counter]
    · show q ∈ w.list.erase p ↔ (Function.update w.heap p none q).isSome
      rw [List.Nodup.mem_erase_iff l.once, l.mem_iff]
      by_cases hq : q = p
      · subst hq
        rw [Function.update_self]
        exact ⟨fun h => absurd rfl h.1, nofun⟩
      · rw [Function.update_of_ne hq]
        exact ⟨fun h => h.2, fun h => ⟨hq, h⟩⟩
    · have hcounter : w.counter - 1 ≠ 0 := by
        rw [l.counter, ← hlength]
        exact fun h0 => hne' (List.eq_nil_of_length_eq_zero h0)
      exact hlock hcounter (hl hcounter)
  · exact absurd ⟨hp, .inl (l.locked hne)⟩ hnot

/-- A creation that is undone leaves the list as it was. -/
theorem Listed.undone {w₂ : World κ} {env : DestroyEnv} (l : Listed w) (hp : w.heap p = none)
    (hw₂ : Halfway w p w₂) (h : w₂.espNetifDestroy lwip p env = some w') :
    Listed w' ∧ w'.list = w.list := by
  obtain ⟨n, last, overridden, callback, lock, -, hw', hlock⟩ := espNetifDestroy_frame h
  have hheap : w'.heap = w.heap := hw₂.destroy hp h
  subst hw'
  have hlist : (w₂.removeFromList p env.removeMutex).2.list = w.list ∧
      (w₂.removeFromList p env.removeMutex).2.counter = w.counter ∧
      (w.list ≠ [] → (w₂.removeFromList p env.removeMutex).2.listLock = true) := by
    rcases hw₂.list with ⟨hl, hc, hm⟩ | ⟨hl, hc, hm⟩
    · rcases removeFromList_cases w₂ p env.removeMutex with ⟨-, -, lock', hr, hl'⟩ | ⟨hnot, -⟩
      · rw [hr, hl, hc, List.erase_cons_head]
        refine ⟨rfl, rfl, fun hne => hl' ?_⟩
        rw [hc]
        exact l.counter_ne_zero hne
      · exact absurd ⟨by rw [hl]; exact List.mem_cons_self .., .inl hm⟩ hnot
    · rcases removeFromList_cases w₂ p env.removeMutex with ⟨hmem, -⟩ | ⟨-, lock', hr, hl'⟩
      · rw [hl] at hmem
        exact absurd hmem (l.not_mem hp)
      · rw [hr]
        refine ⟨hl, hc, fun hne => hl' ?_ ?_⟩
        · rw [hc]
          exact l.counter_ne_zero hne
        · rw [hm]
          exact l.locked hne
  refine ⟨l.congr hlist.1 hlist.2.1 (fun q => congrArg Option.isSome (congrFun hheap q)) ?_,
    hlist.1⟩
  intro hne
  refine hlock ?_ (hlist.2.2 hne)
  rw [hlist.2.1]
  exact l.counter_ne_zero hne

/-- An interface that is put into the list -/
theorem Listed.created (l : Listed w) (n n₀ : EspNetif κ) {item mutex : Bool}
    (hp : w.heap p = none) (hadd : item = true ∧ (w.listLock = true ∨ mutex = true)) :
    Listed { ((w.set p n₀).addToList p item mutex).2.set p n with callback := true } ∧
      ((w.set p n₀).addToList p item mutex).2.list = p :: w.list := by
  rcases addToList_cases (w.set p n₀) p item mutex with ⟨-, h⟩ | ⟨hno, -⟩
  · rw [h]
    refine ⟨⟨congrArg (· + 1) l.counter, List.nodup_cons.mpr ⟨l.not_mem hp, l.once⟩, fun q => ?_,
      fun _ => rfl⟩, rfl⟩
    show q ∈ p :: w.list ↔
      (Function.update (Function.update w.heap p (some n₀)) p (some n) q).isSome
    rw [List.mem_cons, l.mem_iff]
    by_cases hq : q = p
    · subst hq
      rw [Function.update_self]
      exact ⟨fun _ => rfl, fun _ => .inl rfl⟩
    · rw [Function.update_of_ne hq, Function.update_of_ne hq]
      exact ⟨fun h => h.resolve_left hq, .inr⟩
  · exact absurd hadd hno

/-! ## Every step -/

/-- A step keeps the list in order; it takes out an interface that is destroyed and puts in one
that is created. -/
theorem Listed.step_cases {a : Action κ} (l : Listed w) (ha : Inserts w a)
    (h : w.step lwip a = some w') :
    Listed w' ∧
      (w'.list = w.list ∨
        (∃ p env, a = .destroy (some p) env ∧ w'.list = w.list.erase p) ∨
        ∃ p config env, a = .new p config env ∧ w.creates config env = true ∧
          w'.list = p :: w.list) := by
  cases stepped_of_step h with
  | refused | destroyNull | callNull | ip6Ignored => exact ⟨l, .inl rfl⟩
  | undone hp hc hw₂ h =>
    obtain ⟨hl, hlist⟩ := l.undone hp hw₂ h
    exact ⟨hl, .inl hlist⟩
  | @created p config env base key n hp hc hkey hn =>
    obtain ⟨hl, hlist⟩ := l.created n _ hp (ha hc)
    exact ⟨hl, .inr (.inr ⟨p, config, env, rfl, hc, hlist⟩)⟩
  | @destroy p env w' h =>
    obtain ⟨hl, hlist, -⟩ := l.destroy h
    exact ⟨hl, .inr (.inl ⟨p, env, rfl, hlist⟩)⟩
  | call h =>
    obtain ⟨hl, hlist⟩ := l.call h
    exact ⟨hl, .inl hlist⟩
  | addressChange hn =>
    exact ⟨(l.set hn _).congr rfl rfl (fun _ => rfl) l.locked, .inl rfl⟩
  | ip6Valid => exact ⟨l.congr rfl rfl (fun _ => rfl) l.locked, .inl rfl⟩
  | @timeout t p hmem =>
    have herase : Listed { w with timeouts := w.timeouts.erase (t, p) } :=
      l.congr rfl rfl (fun _ => rfl) l.locked
    exact ⟨herase.runTimeout t, .inl (list_runTimeout _ t p)⟩

/-- Every step keeps the list in order if new interfaces get into it. -/
theorem Listed.step {a : Action κ} (l : Listed w) (ha : Inserts w a)
    (h : w.step lwip a = some w') : Listed w' := (l.step_cases ha h).1

/-- No step changes the configuration of an interface. -/
theorem config_step {a : Action κ} {n n' : EspNetif κ} (h : w.step lwip a = some w')
    (hn : w.heap p = some n) (hn' : w'.heap p = some n') : n'.config = n.config := by
  rcases step_heap_cases h hn' with hsame | ⟨_, _, _, _, rfl, -⟩ | ⟨m, call, _, r, -, hm, hr, rfl⟩ |
    ⟨m, _, _, _, -, hm, rfl⟩ | ⟨m, -, -, hm, rfl⟩
  · cases hn.symm.trans hsame
    rfl
  · -- a new interface is put where there was none
    simp only [World.step, Option.ite_none_left_eq_some] at h
    rw [hn] at h
    exact absurd rfl h.1
  · cases hn.symm.trans hm
    exact run_config hr
  · cases hn.symm.trans hm
    exact EspNetif.config_of_rest (netifCallbackFn_rest ..)
  · cases hn.symm.trans hm
    exact EspNetif.config_of_rest ipLostTimer_rest

end Listed

end World

end PicoHost.Interface
