import PicoHost.Event.Calls
import PicoHost.Lib.Run

/-!
# The tree is one list in the order of registration

`Registrations` is what the instance API is for: a list of registrations; a new one
goes to the end, an unregistration takes its registration out, and a dispatch runs
the registrations that match the event, in the order of the list. The tree of
`esp_event.c` refines it (`dispatch_refines`).
-/

namespace PicoHost.Event

/-! ## The abstract list -/

/-- A live registration: its handler and argument, and the handle that its caller was
given. -/
structure Registration where
  key : EventId
  handler : Handler
  arg : Arg
  handle : Option Nat
deriving DecidableEq, Repr

/-- The effect of a call that returned `ESP_OK`: a registration is live from then on,
whatever handle its caller was given. -/
def InstanceCall.effect (handle : Option Nat) (registrations : List Registration) :
    InstanceCall → List Registration
  | .register key handler arg => registrations ++ [⟨key, handler, arg, handle⟩]
  | .unregister key h =>
    registrations.filter fun r => !(decide (r.key = key) && decide (r.handle = h))

/-- The registrations that an event invokes. -/
def invoked (registrations : List Registration) (e : EventId) : List Registration :=
  registrations.filter fun r => decide (Matches e r.key)

/-! ## The tree beside the list -/

/-- A loop and the list that it should behave as. -/
structure Loop where
  registry : Registry
  registrations : List Registration

/-- A call on both; a call that fails does not change the list. -/
def Loop.step (A : Allocator) (loop : Loop) (call : InstanceCall) : Loop × EspErr :=
  let o := call.apply A loop.registry
  (⟨o.registry, if o.err = .ok then
      call.effect (o.ctx.map fun ctx => ctx.self.addr) loop.registrations
    else loop.registrations⟩, o.err)

def Loop.empty : Loop := ⟨Registry.empty, []⟩

/-- The loop after a history of calls of the instance API. -/
def Loop.after (A : Allocator) (calls : List InstanceCall) : Loop :=
  (Machine.run (Loop.step A) Loop.empty calls).1

/-- The registration that a slot holds. -/
def Slot.registration (s : Slot) : Registration :=
  ⟨s.key, s.node.ctx.handler, s.node.ctx.arg, some s.node.ctx.self.addr⟩

/-- The simulation: for every event the matching slots are the matching registrations,
in the order of registration. -/
structure Refines (loop : Loop) : Prop where
  wf : Wf loop.registry
  order : ∀ e, (matching e (slots loop.registry.loopNodes)).map Slot.registration =
    invoked loop.registrations e

/-! ## One call -/

section Step

variable {e : EventId} {l l' : List Slot}

/-- A new slot comes behind all slots that an event of its key runs. -/
theorem matching_inserted {pre post : List Slot} {s : Slot}
    (apart : ∀ y ∈ post, Apart s.key y.key) :
    matching e (pre ++ s :: post) =
      matching e (pre ++ post) ++ if Matches e s.key then [s] else [] := by
  rw [matching_append, matching_append]
  by_cases h : Matches e s.key
  · have hpost : matching e post = [] :=
      List.filter_eq_nil_iff.mpr fun y hy => by simpa using apart y hy e h
    have hs : matching e (s :: post) = s :: matching e post :=
      List.filter_cons_of_pos (decide_eq_true h)
    rw [if_pos h, hs, hpost, List.append_nil]
  · have hs : matching e (s :: post) = matching e post :=
      List.filter_cons_of_neg (by simpa using h)
    rw [if_neg h, hs, List.append_nil]

/-- Dropping slots and selecting the matching ones commute. -/
theorem matching_filter (p : Slot → Bool) :
    matching e (l.filter p) = (matching e l).filter p := by
  unfold matching
  rw [List.filter_filter, List.filter_filter]
  exact List.filter_congr fun s _ => Bool.and_comm ..

/-- A handle names one registration at most. -/
theorem countP_instance_le_one {t : Registry} (wf : Wf t) (key : EventId) (ctx : Nat) :
    (slots t.loopNodes).countP ((Target.instance_ ctx).selects key) ≤ 1 := by
  have hnd := wf.ctx_addr_nodup
  have hle := List.nodup_iff_count_le_one.mp hnd ctx
  rw [List.count, List.countP_map] at hle
  refine Nat.le_trans (List.countP_mono_left fun s _ hs => ?_) hle
  have his := (Bool.and_eq_true_iff.mp hs).2
  simpa [Target.is] using his

end Step

theorem Loop.step_refines (A : Allocator) {loop : Loop} (h : Refines loop) (call : InstanceCall) :
    Refines (loop.step A call).1 := by
  refine ⟨call.apply_wf A h.wf, fun e => ?_⟩
  have horder := h.order e
  unfold Loop.step
  cases call with
  | register key handler arg =>
    have hreg := (registerWithInternal_spec A h.wf ⟨key, handler, arg, false⟩).registered
    dsimp only [InstanceCall.apply, handlerInstanceRegisterWith] at hreg ⊢
    generalize registerWithInternal A loop.registry key.base key.id handler arg false = r at hreg ⊢
    obtain ⟨node, heap, err, ctx⟩ := r
    dsimp only at hreg ⊢
    generalize hl : slots loop.registry.loopNodes = l at hreg horder
    generalize slots node = l' at hreg ⊢
    cases hreg with
    | refused herr =>
      rw [if_neg herr]
      exact horder
    | @inserted pre post s hkey hhandler harg _ apart _ =>
      -- the new registration is the last of the list
      rw [if_pos rfl, matching_inserted (hkey ▸ apart), List.map_append, horder]
      show invoked loop.registrations e ++ _ = invoked (loop.registrations ++ _) e
      unfold invoked
      rw [List.filter_append]
      congr 1
      by_cases hm : Matches e s.key
      · simp [Slot.registration, hkey, hhandler, harg, hkey ▸ hm]
      · simp [hm, hkey ▸ hm]
    | overwritten legacy => cases legacy
  | unregister key handle =>
    cases handle with
    | none =>
      -- `NULL` is refused
      exact horder
    | some ctx =>
      dsimp only [InstanceCall.apply, handlerInstanceUnregisterWith]
      rcases unregister_cases h.wf key (.instance_ ctx) with hrefused | ⟨hok, hunreg⟩
      · rw [hrefused]
        exact horder
      · rw [if_pos hok, hunreg.pruned.eq_filter (countP_instance_le_one h.wf key ctx),
          matching_filter]
        show _ = invoked (loop.registrations.filter _) e
        unfold invoked at horder ⊢
        rw [List.filter_filter, List.filter_congr fun r _ => Bool.and_comm .., ← List.filter_filter,
          ← horder, List.filter_map]
        refine congrArg _ (List.filter_congr fun s _ => ?_)
        show (!(decide (s.key = key) && decide (s.node.ctx.self.addr = ctx))) =
          !(decide (s.key = key) && decide (some s.node.ctx.self.addr = some ctx))
        rw [decide_eq_decide.mpr (Option.some.injEq s.node.ctx.self.addr ctx).to_iff]

/-! ## Every history -/

theorem Loop.after_refines (A : Allocator) (calls : List InstanceCall) :
    Refines (Loop.after A calls) :=
  Machine.run_inv (fun _ call h => Loop.step_refines A h call)
    (P := Refines) ⟨wf_empty, fun _ => rfl⟩ calls

/-- What a handler is invoked with, and the handle of its registration. -/
def HandlerNode.invocation (it : HandlerNode) : Handler × Arg × Option Nat :=
  (it.ctx.handler, it.ctx.arg, some it.ctx.self.addr)

def Registration.invocation (r : Registration) : Handler × Arg × Option Nat :=
  (r.handler, r.arg, r.handle)

/-- After any history of instance calls, a dispatch invokes exactly the live
registrations that match the event, each once, in the order of registration. -/
theorem dispatch_refines (A : Allocator) (calls : List InstanceCall) (e : EventId) :
    (dispatch (Loop.after A calls).registry.loopNodes e).map HandlerNode.invocation =
      (invoked (Loop.after A calls).registrations e).map Registration.invocation := by
  have h := Loop.after_refines A calls
  rw [dispatch_eq h.wf.loopNodes, ← h.order e, List.map_map, List.map_map]
  rfl

/-- Registrations for the id 1 of the base 7, for all its ids and for all events, among
them one of another base; the handler of all events that came second goes again. -/
def wildcards : List InstanceCall :=
  [.register ⟨some 7, 1⟩ 1 10, .register ⟨anyBase, anyId⟩ 2 20, .register ⟨some 7, anyId⟩ 3 30,
    .register ⟨some 9, 1⟩ 4 40, .register ⟨some 7, 1⟩ 5 50, .register ⟨anyBase, anyId⟩ 6 60,
    .unregister ⟨anyBase, anyId⟩ (some 8), .register ⟨some 7, 1⟩ 7 70]

/-- With memory for all of them, the event of base 7 and id 1 invokes five handlers, and
another id of that base the two that take every id. -/
theorem dispatch_refines_wildcards :
    (dispatch (Loop.after .unbounded wildcards).registry.loopNodes ⟨some 7, 1⟩).map
        HandlerNode.invocation =
      [(1, 10, some 5), (3, 30, some 11), (5, 50, some 18), (6, 60, some 21),
        (7, 70, some 25)] ∧
    (dispatch (Loop.after .unbounded wildcards).registry.loopNodes ⟨some 7, 2⟩).map
        HandlerNode.invocation = [(3, 30, some 11), (6, 60, some 21)] :=
  ⟨(dispatch_refines .unbounded wildcards ⟨some 7, 1⟩).trans (by decide +kernel),
    (dispatch_refines .unbounded wildcards ⟨some 7, 2⟩).trans (by decide +kernel)⟩

end PicoHost.Event
