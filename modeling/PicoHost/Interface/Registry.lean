import PicoHost.Interface.Listed
import PicoHost.Lib.Run

/-!
# The list of interfaces

`esp_netif_new` puts an interface into the list before it is configured, and looks at the result
neither of `esp_netif_add_to_list` nor of `strdup`. So the counter, the list and the keys agree
with the interfaces that exist exactly as long as neither of the two has failed in a call that
returned an interface (`registered_iff`).
-/

namespace PicoHost.Interface

open Dhcps (NetifPtr PcbPtr)

variable {κ : Type} {lwip : Lwip κ}

namespace World

/-- The counter counts the list, the keys in it are there and distinct, every interface that
exists is in it, and asking for the next interface from `NULL` on goes through it once. -/
structure Registered (w : World κ) : Prop where
  counter : w.counter = w.list.length
  keyed : ∀ p ∈ w.list, (w.ifKey p).isSome
  distinct : (w.list.map w.ifKey).Nodup
  listed : ∀ p, (w.heap p).isSome → p ∈ w.list
  once : w.list.Nodup
  visited : ∀ fuel, w.list.length ≤ fuel →
    Successor.visits w.list fuel (w.espNetifNext none) = w.list

/-- Where an interface is created, the list item and the copy of its key can be allocated, and so
can the list lock if it is missing. -/
def Allocates (w : World κ) : Action κ → Prop
  | .new _ config env =>
    w.creates config env → env.listItem ∧ (w.listLock ∨ env.listMutex) ∧ env.ifKey
  | _ => True

instance decidableAllocates (w : World κ) : ∀ action, Decidable (Allocates w action)
  | .new _ config env => inferInstanceAs
      (Decidable (w.creates config env = true → env.listItem = true ∧
        (w.listLock = true ∨ env.listMutex = true) ∧ env.ifKey = true))
  | .destroy .. | .call .. | .addressChange .. | .ip6Valid _ | .timeout .. => .isTrue trivial

/-! ## The invariant -/

/-- The keys in the list are there and distinct. -/
structure Kept (w : World κ) : Prop extends Listed w where
  keyed : ∀ p ∈ w.list, (w.ifKey p).isSome
  distinct : (w.list.map w.ifKey).Nodup

section Kept

variable {w w' : World κ} {p : NetifPtr}

/-- At boot no interface is registered. -/
theorem kept_init : Kept (init : World κ) where
  toListed := listed_init
  keyed := nofun
  distinct := List.nodup_nil

/-- The invariant is what is asked of the registry. -/
theorem Kept.registered (k : Kept w) : Registered w where
  counter := k.counter
  keyed := k.keyed
  distinct := k.distinct
  listed p := (k.mem_iff p).mpr
  once := k.once
  visited _ hfuel := Successor.visits_eq k.once hfuel

/-- Where every allocation is granted, a new interface gets into the list. -/
theorem inserts_of_allocates {a : Action κ} (h : Allocates w a) : Inserts w a := by
  cases a with
  | new p config env => exact fun hc => ⟨(h hc).1, (h hc).2.1⟩
  | destroy | call | addressChange | ip6Valid | timeout => trivial

/-- Writing an interface writes its key. -/
theorem ifKey_set_self (w : World κ) (n : EspNetif κ) : (w.set p n).ifKey p = n.ifKey := by
  rw [ifKey, set_heap]
  rfl

/-- A key belongs to the configuration. -/
theorem ifKey_step {a : Action κ} (l : Listed w) (l' : Listed w')
    (h : w.step lwip a = some w') {q : NetifPtr} (hq : q ∈ w.list) (hq' : q ∈ w'.list) :
    w'.ifKey q = w.ifKey q := by
  obtain ⟨n, hn⟩ := Option.isSome_iff_exists.mp ((l.mem_iff q).mp hq)
  obtain ⟨n', hn'⟩ := Option.isSome_iff_exists.mp ((l'.mem_iff q).mp hq')
  have hkey : n'.ifKey = n.ifKey := congrArg (fun c => c.2.1) (config_step h hn hn')
  rw [ifKey, ifKey, hn, hn']
  exact hkey

/-- The key of an interface that has been created is a copy of one that was not in use. -/
theorem ifKey_created {config : Option Config} {env : NewEnv}
    (h : w.step lwip (.new p config env) = some w') (hc : w.creates config env = true)
    (hcopy : env.ifKey = true) :
    ∃ key, w.getHandleFromIfkey key w.list = some none ∧ w'.ifKey p = some key := by
  cases stepped_of_step h with
  | refused hp hnot => exact absurd (hnot.symm.trans hc) (by decide)
  | undone hp hnot => exact absurd (hnot.symm.trans hc) (by decide)
  | @created _ _ _ base key n hp hc hkey hn =>
    rw [if_pos hcopy] at hn
    exact ⟨key, hkey, (ifKey_set_self ..).trans (congrArg (fun c => c.2.1) hn.config)⟩

/-- Every step that meets the condition keeps the invariant. -/
theorem Kept.step {a : Action κ} (k : Kept w) (ha : Allocates w a)
    (h : w.step lwip a = some w') : Kept w' := by
  obtain ⟨l, hcases⟩ := k.toListed.step_cases (inserts_of_allocates ha) h
  have hkey : ∀ q ∈ w.list, q ∈ w'.list → w'.ifKey q = w.ifKey q := fun q =>
    ifKey_step k.toListed l h
  suffices hkeys : (∀ q ∈ w'.list, (w'.ifKey q).isSome) ∧ (w'.list.map w'.ifKey).Nodup from
    ⟨l, hkeys.1, hkeys.2⟩
  rcases hcases with hlist | ⟨p, env, -, hlist⟩ | ⟨p, config, env, rfl, hc, hlist⟩
  · rw [hlist] at hkey ⊢
    refine ⟨fun q hq => ?_, ?_⟩
    · rw [hkey q hq hq]
      exact k.keyed q hq
    · rw [List.map_congr_left fun q hq => hkey q hq hq]
      exact k.distinct
  · rw [hlist] at hkey ⊢
    refine ⟨fun q hq => ?_, ?_⟩
    · rw [hkey q (List.mem_of_mem_erase hq) hq]
      exact k.keyed q (List.mem_of_mem_erase hq)
    · rw [List.map_congr_left fun q hq => hkey q (List.mem_of_mem_erase hq) hq]
      exact k.distinct.sublist (List.Sublist.map _ List.erase_sublist)
  · obtain ⟨key, hfree, hp⟩ := ifKey_created h hc (ha hc).2.2
    rw [hlist] at hkey ⊢
    have hrest : ∀ q ∈ w.list, w'.ifKey q = w.ifKey q := fun q hq =>
      hkey q hq (List.mem_cons_of_mem p hq)
    refine ⟨fun q hq => ?_, List.nodup_cons.mpr ⟨fun hmem => ?_, ?_⟩⟩
    · rcases List.mem_cons.mp hq with rfl | hq
      · exact Option.isSome_of_eq_some hp
      · rw [hrest q hq]
        exact k.keyed q hq
    · obtain ⟨q, hq, heq⟩ := List.mem_map.mp hmem
      exact ifKey_ne_of_getHandle hfree q hq ((hrest q hq).symm.trans (heq.trans hp))
    · rw [List.map_congr_left hrest]
      exact k.distinct

end Kept

/-! ## Creations that are not in order -/

section Create

variable {w w' : World κ} {p : NetifPtr}

/-- An interface that was returned without a place in the list or without a key -/
theorem not_registered_of_created {key : Option String} {n n₀ : EspNetif κ} {item mutex : Bool}
    (k : Kept w) (hp : w.heap p = none) (hn : n.ifKey = key)
    (hbad : ¬ ((item = true ∧ (w.listLock = true ∨ mutex = true)) ∧ key.isSome)) :
    ¬ Registered { ((w.set p n₀).addToList p item mutex).2.set p n with callback := true } := by
  intro hreg
  have hexists :
      (Function.update ((w.set p n₀).addToList p item mutex).2.heap p (some n) p).isSome := by
    rw [Function.update_self]
    rfl
  have hlisted : p ∈ ((w.set p n₀).addToList p item mutex).2.list := hreg.listed p hexists
  have hkey : n.ifKey.isSome := by
    have hkeyed := hreg.keyed p hlisted
    simpa [ifKey, World.set] using hkeyed
  rcases addToList_cases (w.set p n₀) p item mutex with ⟨hadd, -⟩ | ⟨-, h⟩
  · exact hbad ⟨hadd, hn ▸ hkey⟩
  · rw [h] at hlisted
    exact k.not_mem hp hlisted

end Create

/-! ## Every run -/

section Run

variable {w w' : World κ}

/-- A creation outside the condition leaves the registry wrong. -/
theorem not_registered_of_not_allocates {action : Action κ} (k : Kept w)
    (ha : ¬ Allocates w action) (h : w.step lwip action = some w') : ¬ Registered w' := by
  cases action with
  | new p config env =>
    simp only [Allocates, Classical.not_imp] at ha
    obtain ⟨hc, ha⟩ := ha
    cases stepped_of_step h with
    | refused hp hnot => exact absurd (hnot.symm.trans hc) (by decide)
    | undone hp hnot => exact absurd (hnot.symm.trans hc) (by decide)
    | created hp hc hkey hn =>
      have hkey := congrArg (fun c => c.2.1) hn.config
      refine not_registered_of_created k hp hkey fun ⟨⟨hitem, hlock⟩, hkey⟩ =>
        ha ⟨hitem, hlock, ?_⟩
      by_contra hcopy
      rw [if_neg hcopy] at hkey
      exact Bool.false_ne_true hkey
  | destroy | call | addressChange | ip6Valid | timeout => exact absurd trivial ha

/-- After every call the list, the counter and the keys agree with the interfaces that exist,
exactly if every creation was in order. -/
theorem registered_iff (lwip : Lwip κ) (actions : List (Action κ)) (w : World κ)
    (h : Machine.exec (World.step lwip) World.init actions = some w) :
    Machine.Each (World.step lwip) (fun _ _ w => Registered w) World.init actions ↔
      Machine.Along (World.step lwip) Allocates World.init actions :=
  Machine.each_iff_along
    (fun _ _ _ ha h (k : Kept _) => ⟨k.step ha h, (k.step ha h).registered⟩)
    (fun _ _ _ ha h k => not_registered_of_not_allocates k ha h) h kept_init

end Run

/-- The station is created twice, the second time in vain; the access point first lacks the memory
for its DHCP server; the station is destroyed and created again. -/
def creations : List (Action Bool) :=
  [.new 0 (some wifiSta.full) .plenty, .new 1 (some wifiSta.full) .plenty,
    .new 1 (some wifiAp.full) { NewEnv.plenty with dhcps := false },
    .new 1 (some wifiAp.full) .plenty, .destroy (some 0) ⟨true, true⟩,
    .new 2 (some wifiSta.full) .plenty]

/-- The run of `creations`, in which every allocation is granted -/
theorem registered_iff_creations : ∃ w,
    Machine.exec (World.step Lwip.simple) World.init creations = some w ∧
      Machine.Each (World.step Lwip.simple) (fun _ _ w => Registered w) World.init creations := by
  obtain ⟨w, hw⟩ := Option.isSome_iff_exists.mp
    (show (Machine.exec (World.step Lwip.simple) World.init creations).isSome by decide +kernel)
  exact ⟨w, hw, (registered_iff Lwip.simple creations w hw).mpr (by decide +kernel)⟩

/-- The list item cannot be allocated, but the interface is returned. -/
theorem unlisted_not_registered : ∃ w : World Bool,
    Machine.exec (World.step Lwip.simple) World.init
      [.new 0 (some wifiSta.full) { NewEnv.plenty with listItem := false }] = some w ∧
      ¬ Registered w :=
  ⟨_, rfl, fun h => absurd (h.listed 0 rfl) (by decide)⟩

end World

end PicoHost.Interface
