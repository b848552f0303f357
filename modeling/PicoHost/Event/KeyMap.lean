import PicoHost.Event.Calls
import PicoHost.Lib.Run
import Mathlib.Data.List.Induction

/-!
# The legacy registrations as a map

`esp_event.h` says of the legacy functions that registering the same handler for
the same event again overwrites the previous registration: the registrations are a
map from event and handler to an argument, `KeyMap`. The code looks for the previous
registration in one list of handlers only, `reached`, and the map is lost exactly by
a registration of a live key that is not in that list (`behavesAsMap_iff`).
-/

namespace PicoHost.Event

/-! ## The abstract map -/

/-- The argument of every registered pair of an event and a handler. -/
abbrev KeyMap := EventId → Handler → Option Arg

def KeyMap.empty : KeyMap := fun _ _ => none

def KeyMap.set (map : KeyMap) (key : EventId) (handler : Handler) (arg : Option Arg) : KeyMap :=
  fun k h => if k = key ∧ h = handler then arg else map k h

def HandlerCall.effect (map : KeyMap) : HandlerCall → KeyMap
  | .register key handler arg => map.set key handler (some arg)
  | .unregister key handler => map.set key handler none

/-- A loop and the map that it should behave as. -/
structure Keyed where
  registry : Registry
  map : KeyMap

def Keyed.empty : Keyed := ⟨Registry.empty, KeyMap.empty⟩

/-- A successful call on both. -/
def Keyed.step (A : Allocator) (s : Keyed) (call : HandlerCall) : Option Keyed :=
  let o := call.apply A s.registry
  if o.err = .ok then some ⟨o.registry, call.effect s.map⟩ else none

/-- The slot is registered for the key, with the handler. -/
def Slot.at (key : EventId) (handler : Handler) (s : Slot) : Bool :=
  decide (s.key = key) && decide (s.node.ctx.handler = handler)

/-- The arguments of the live registrations of a key. -/
def liveArgs (t : Registry) (key : EventId) (handler : Handler) : List Arg :=
  ((slots t.loopNodes).filter (Slot.at key handler)).map fun s => s.node.ctx.arg

/-- The registrations are the map: one for every key in it, with its argument, and
a dispatch invokes the handlers of the keys that match. -/
structure BehavesAsMap (s : Keyed) : Prop where
  live : ∀ key handler, liveArgs s.registry key handler = (s.map key handler).toList
  dispatched : ∀ e handler arg,
    (∃ it ∈ dispatch s.registry.loopNodes e, it.ctx.handler = handler ∧ it.ctx.arg = arg) ↔
      ∃ key, Matches e key ∧ s.map key handler = some arg

/-- A registration of a live key searches the list that holds it. -/
def Finds (t : Registry) : HandlerCall → Prop
  | .register key handler _ =>
    (∃ s ∈ slots t.loopNodes, s.key = key ∧ s.node.ctx.handler = handler) →
      ∃ it ∈ reached t.loopNodes key.base key.id, it.ctx.handler = handler
  | .unregister _ _ => True

/-! ## The live registrations -/

section Live

variable {key : EventId} {handler : Handler} {s : Slot} {l l' : List Slot}

/-- A registration is at its key and handler. -/
theorem Slot.at_iff : s.at key handler = true ↔ s.key = key ∧ s.node.ctx.handler = handler := by
  simp [Slot.at]

/-- The dispatch follows from the live registrations. -/
theorem BehavesAsMap.of_live {t : Registry} {map : KeyMap} (wf : Wf t)
    (live : ∀ key handler, liveArgs t key handler = (map key handler).toList) :
    BehavesAsMap ⟨t, map⟩ := by
  refine ⟨live, fun e handler arg => ?_⟩
  have hmem : ∀ key, arg ∈ liveArgs t key handler ↔ map key handler = some arg := by
    intro key
    rw [live, Option.mem_toList]
  rw [dispatch_eq wf.loopNodes]
  constructor
  · rintro ⟨it, hit, hh, ha⟩
    obtain ⟨s, hs, rfl⟩ := List.mem_map.mp hit
    obtain ⟨hs, hmatch⟩ := List.mem_filter.mp hs
    refine ⟨s.key, of_decide_eq_true hmatch, (hmem s.key).mp ?_⟩
    exact List.mem_map.mpr ⟨s, List.mem_filter.mpr ⟨hs, Slot.at_iff.mpr ⟨rfl, hh⟩⟩, ha⟩
  · rintro ⟨key, hmatch, harg⟩
    obtain ⟨s, hs, ha⟩ := List.mem_map.mp ((hmem key).mpr harg)
    obtain ⟨hs, hat⟩ := List.mem_filter.mp hs
    obtain ⟨hkey, hh⟩ := Slot.at_iff.mp hat
    refine ⟨s.node, List.mem_map.mpr ⟨s, ?_, rfl⟩, hh, ha⟩
    exact List.mem_filter.mpr ⟨hs, decide_eq_true (hkey ▸ hmatch)⟩

/-- A slot in the middle of others. -/
theorem filter_at_append (s : Slot) (pre post : List Slot) :
    (pre ++ s :: post).filter (Slot.at key handler) =
      pre.filter (Slot.at key handler) ++ ((if s.key = key ∧ s.node.ctx.handler = handler then [s]
        else []) ++ post.filter (Slot.at key handler)) := by
  rw [List.filter_append]
  congr 1
  by_cases h : s.key = key ∧ s.node.ctx.handler = handler
  · rw [if_pos h, List.filter_cons_of_pos (Slot.at_iff.mpr h)]
    rfl
  · rw [if_neg h, List.filter_cons_of_neg fun hat => h (Slot.at_iff.mp hat)]
    rfl

/-- Nothing is registered at the key. -/
theorem liveArgs_eq_nil {t : Registry} : liveArgs t key handler = [] ↔
    ¬ ∃ s ∈ slots t.loopNodes, s.key = key ∧ s.node.ctx.handler = handler := by
  rw [liveArgs]
  rw [List.map_eq_nil_iff, List.filter_eq_nil_iff]
  constructor
  · rintro h ⟨s, hs, hat⟩
    exact h s hs (Slot.at_iff.mpr hat)
  · exact fun h s hs hat => h ⟨s, hs, Slot.at_iff.mp hat⟩

/-- A slot that is the only one. -/
theorem alone_of_length {pre post : List Slot} (h : (pre ++ ([s] ++ post)).length ≤ 1) :
    pre = [] ∧ post = [] := by
  simp only [List.length_append, List.length_singleton] at h
  exact ⟨List.length_eq_zero_iff.mp (by omega), List.length_eq_zero_iff.mp (by omega)⟩

end Live

@[simp] theorem KeyMap.set_same (map : KeyMap) (key : EventId) (handler : Handler)
    (arg : Option Arg) : map.set key handler arg key handler = arg := if_pos ⟨rfl, rfl⟩

/-- Other entries of the map stay. -/
theorem KeyMap.set_ne (map : KeyMap) {key key' : EventId} {handler handler' : Handler}
    (arg : Option Arg) (h : ¬ (key' = key ∧ handler' = handler)) :
    map.set key handler arg key' handler' = map key' handler' := if_neg h

/-! ## One call -/

section Step

variable (A : Allocator)

/-- A successful registration keeps the map if and only if it finds the previous
registration of its key. -/
theorem register_behaves {s : Keyed} (wf : Wf s.registry) (h : BehavesAsMap s) (key : EventId)
    (handler : Handler) (arg : Arg)
    (hok : (handlerRegisterWith A s.registry key handler arg).err = .ok) :
    BehavesAsMap ⟨(handlerRegisterWith A s.registry key handler arg).registry,
        s.map.set key handler (some arg)⟩ ↔
      Finds s.registry (.register key handler arg) := by
  have wf' : Wf (handlerRegisterWith A s.registry key handler arg).registry :=
    registerWithInternal_wf A handler arg true wf key.base key.id
  have hreg := (registerWithInternal_spec A wf ⟨key, handler, arg, true⟩).registered
  have hlive := h.live
  have hnone := @liveArgs_eq_nil key handler s.registry
  rw [Finds]
  rw [handlerRegisterWith] at hok wf' ⊢
  dsimp only at hreg hok wf' ⊢
  generalize registerWithInternal A s.registry key.base key.id handler arg true = r
    at hreg hok wf' ⊢
  obtain ⟨node, heap, err, ctx⟩ := r
  dsimp only at hreg hok wf' ⊢
  subst hok
  unfold liveArgs at hlive hnone
  generalize slots s.registry.loopNodes = l at hreg hlive hnone ⊢
  generalize hl' : slots node = l' at hreg
  cases hreg with
  | refused herr => exact absurd rfl herr
  | @inserted pre post slot hkey hhandler harg _ _ new =>
    -- nothing found: the new slot must be the only one
    have hlost : ¬ ∃ it ∈ reached s.registry.loopNodes key.base key.id,
        it.ctx.handler = handler := by
      rintro ⟨it, hit, heq⟩
      exact new rfl it hit heq
    have hat : slot.key = key ∧ slot.node.ctx.handler = handler := ⟨hkey, hhandler⟩
    constructor
    · intro hmap hold
      have hone := hmap.live key handler
      rw [liveArgs] at hone
      dsimp only at hone
      rw [hl', filter_at_append, if_pos hat, KeyMap.set_same] at hone
      have hlen := congrArg List.length hone
      rw [List.length_map] at hlen
      obtain ⟨hpre, hpost⟩ := alone_of_length (Nat.le_of_eq hlen)
      refine absurd hold (hnone.mp ?_)
      rw [List.filter_append, hpre, hpost]
      rfl
    · intro hfinds
      refine BehavesAsMap.of_live wf' fun k f => ?_
      rw [liveArgs]
      rw [hl', filter_at_append]
      by_cases hk : k = key ∧ f = handler
      · obtain ⟨rfl, rfl⟩ := hk
        have hnil := hnone.mpr fun hold => hlost (hfinds hold)
        rw [List.filter_append] at hnil
        obtain ⟨hpre, hpost⟩ := List.append_eq_nil_iff.mp (List.map_eq_nil_iff.mp hnil)
        rw [if_pos hat, hpre, hpost, KeyMap.set_same]
        exact congrArg (fun a => [a]) harg
      · have hne : ¬ (slot.key = k ∧ slot.node.ctx.handler = f) := by
          rintro ⟨rfl, rfl⟩
          exact hk hat
        rw [if_neg hne, KeyMap.set_ne _ _ hk, ← hlive k f, List.filter_append]
        rfl
  | @overwritten pre post slot _ hkey hhandler old =>
    -- found: the slot was the only one of its key and stays it
    refine ⟨fun _ _ => old, fun _ => BehavesAsMap.of_live wf' fun k f => ?_⟩
    have hold := hlive k f
    rw [liveArgs]
    rw [filter_at_append] at hold
    rw [hl', filter_at_append]
    by_cases hk : k = key ∧ f = handler
    · obtain ⟨rfl, rfl⟩ := hk
      rw [if_pos ⟨hkey, hhandler⟩] at hold
      have hlen := congrArg List.length hold
      have hle : (s.map k f).toList.length ≤ 1 := by cases s.map k f <;> simp
      rw [List.length_map] at hlen
      obtain ⟨hpre, hpost⟩ := alone_of_length (Nat.le_trans (Nat.le_of_eq hlen) hle)
      rw [if_pos ⟨hkey, hhandler⟩, hpre, hpost, KeyMap.set_same]
      rfl
    · have hne : ¬ (slot.key = k ∧ slot.node.ctx.handler = f) := by
        rintro ⟨rfl, rfl⟩
        exact hk ⟨hkey, hhandler⟩
      have hne' : ¬ ((slot.withArg arg).key = k ∧ (slot.withArg arg).node.ctx.handler = f) := hne
      rw [if_neg hne] at hold
      rw [if_neg hne', KeyMap.set_ne _ _ hk, ← hold]

/-- A successful unregistration keeps the map. -/
theorem unregister_behaves {s : Keyed} (wf : Wf s.registry) (h : BehavesAsMap s) (key : EventId)
    (handler : Handler) (hok : (handlerUnregisterWith s.registry key handler).err = .ok) :
    BehavesAsMap ⟨(handlerUnregisterWith s.registry key handler).registry,
      s.map.set key handler none⟩ := by
  rcases unregister_cases wf key (.handler handler) with hrefused | ⟨-, hunreg⟩
  · rw [handlerUnregisterWith] at hok
    rw [hrefused] at hok
    cases hok
  · have hone : (slots s.registry.loopNodes).countP (Slot.at key handler) ≤ 1 := by
      have hlen := congrArg List.length (h.live key handler)
      rw [liveArgs, List.length_map, ← List.countP_eq_length_filter] at hlen
      rw [hlen]
      cases s.map key handler <;> simp
    refine BehavesAsMap.of_live hunreg.wf fun k f => ?_
    have hslots : slots (handlerUnregisterWith s.registry key handler).registry.loopNodes =
        (slots s.registry.loopNodes).filter fun x => !x.at key handler :=
      hunreg.pruned.eq_filter hone
    rw [liveArgs]
    rw [hslots, List.filter_filter]
    by_cases hk : k = key ∧ f = handler
    · obtain ⟨rfl, rfl⟩ := hk
      rw [KeyMap.set_same, List.filter_eq_nil_iff.mpr fun x _ => by simp]
      rfl
    · -- a slot at another key is not dropped
      rw [KeyMap.set_ne _ _ hk, ← h.live k f, liveArgs]
      refine congrArg _ (List.filter_congr fun x _ => ?_)
      cases hx : x.at k f with
      | false => rfl
      | true =>
        obtain ⟨rfl, rfl⟩ := Slot.at_iff.mp hx
        have hnot : x.at key handler = false :=
          Bool.eq_false_iff.mpr fun hat => hk (Slot.at_iff.mp hat)
        rw [hnot]
        rfl

/-- One successful call keeps the map if and only if it finds the previous
registration of its key. -/
theorem step_behaves {s s' : Keyed} (wf : Wf s.registry) (h : BehavesAsMap s)
    {call : HandlerCall} (hstep : s.step A call = some s') :
    BehavesAsMap s' ↔ Finds s.registry call := by
  rw [Keyed.step] at hstep
  by_cases hok : (call.apply A s.registry).err = .ok
  · rw [if_pos hok, Option.some.injEq] at hstep
    subst hstep
    cases call with
    | register key handler arg => exact register_behaves A wf h key handler arg hok
    | unregister key handler =>
      exact ⟨fun _ => trivial, fun _ => unregister_behaves wf h key handler hok⟩
  · rw [if_neg hok] at hstep
    cases hstep

/-- A call keeps the registry well formed. -/
theorem step_wf {s s' : Keyed} {call : HandlerCall} (hstep : s.step A call = some s')
    (wf : Wf s.registry) : Wf s'.registry := by
  unfold Keyed.step at hstep
  dsimp only at hstep
  split at hstep
  · cases hstep
    exact call.apply_wf A wf
  · cases hstep

end Step

/-! ## Every history -/

/-- An empty loop behaves as the empty map. -/
theorem behavesAsMap_empty : BehavesAsMap Keyed.empty :=
  BehavesAsMap.of_live wf_empty fun _ _ => rfl

/-- A history of successful calls behaves as the map after each call if and only if
each registration of a live key in it finds the previous one. -/
theorem behavesAsMap_iff (A : Allocator) (calls : List HandlerCall) :
    (∀ before s, before <+: calls → Machine.exec (Keyed.step A) Keyed.empty before = some s →
        BehavesAsMap s) ↔
      ∀ before call s s', before ++ [call] <+: calls →
        Machine.exec (Keyed.step A) Keyed.empty before = some s → s.step A call = some s' →
        Finds s.registry call := by
  have hwf : ∀ {before s}, Machine.exec (Keyed.step A) Keyed.empty before = some s →
      Wf s.registry := fun hrun =>
    Machine.exec_inv (P := fun s => Wf s.registry) (fun _ _ _ h => step_wf A h) hrun wf_empty
  have hsnoc : ∀ {before call s s'}, Machine.exec (Keyed.step A) Keyed.empty before = some s →
      s.step A call = some s' →
      Machine.exec (Keyed.step A) Keyed.empty (before ++ [call]) = some s' := by
    intro before call s s' hrun hstep
    exact Machine.exec_append_some.mpr ⟨s, hrun, Machine.exec_cons_some.mpr ⟨s', hstep, rfl⟩⟩
  constructor
  · intro hmap before call s s' hprefix hrun hstep
    have hs := hmap before s ((List.prefix_append before [call]).trans hprefix) hrun
    exact (step_behaves A (hwf hrun) hs hstep).mp (hmap _ s' hprefix (hsnoc hrun hstep))
  · intro hfinds before
    -- along the history, call by call
    induction before using List.reverseRecOn with
    | nil =>
      intro s _ hrun
      cases hrun
      exact behavesAsMap_empty
    | append_singleton before call ih =>
      intro s' hprefix hrun
      obtain ⟨s, hbefore, hlast⟩ := Machine.exec_append_some.mp hrun
      obtain ⟨s'', hstep, hnil⟩ := Machine.exec_cons_some.mp hlast
      cases hnil
      have hs := ih s ((List.prefix_append before [call]).trans hprefix) hbefore
      exact (step_behaves A (hwf hbefore) hs hstep).mpr
        (hfinds before call s s' hprefix hbefore hstep)

/-- A handler for all events, one for an event, and the first one again: the second
registration for all events opens a new loop node and finds nothing in it. -/
def reregistered : List HandlerCall :=
  [.register anyEvent 1 10, .register ⟨some 7, 0⟩ 2 20, .register anyEvent 1 11]

/-- The handler is then registered twice, with both arguments. -/
theorem reregistered_not_map :
    ¬ ∀ (A : Allocator) (calls : List HandlerCall) (s : Keyed),
      Machine.exec (Keyed.step A) Keyed.empty calls = some s → BehavesAsMap s := by
  intro h
  obtain ⟨s, hrun⟩ : ∃ s,
      Machine.exec (Keyed.step Allocator.unbounded) Keyed.empty reregistered = some s := ⟨_, rfl⟩
  have hlive := (h Allocator.unbounded reregistered s hrun).live anyEvent 1
  cases hrun
  exact absurd (congrArg List.length hlive) (by decide)

end PicoHost.Event
