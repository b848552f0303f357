import PicoHost.Event.RegisterWf
import PicoHost.Event.UnregisterSpec

/-!
# The registration API and its histories

The four functions of the API that change the registrations of a loop, and the
registry after a history of calls. Every history keeps the registry well-formed
(`after_wf`).
-/

namespace PicoHost.Event

/-! ## Calls -/

/-- A call of the legacy functions. -/
inductive HandlerCall where
  | register (key : EventId) (handler : Handler) (arg : Arg)
  | unregister (key : EventId) (handler : Handler)
deriving DecidableEq, Repr

/-- A call of the instance functions. A handle is the address of a context or
`NULL`. -/
inductive InstanceCall where
  | register (key : EventId) (handler : Handler) (arg : Arg)
  | unregister (key : EventId) (handle : Option Nat)
deriving DecidableEq, Repr

inductive Call where
  | handler (call : HandlerCall)
  | instance_ (call : InstanceCall)
deriving DecidableEq, Repr

/-- What a call leaves and returns; `ctx` is what a registration sets the handle to. -/
structure Outcome where
  registry : Registry
  err : EspErr
  ctx : Option HandlerCtx

section Api

variable (A : Allocator) (t : Registry)

/-- `esp_event_handler_register_with` (esp_event.c:795–799) -/
def handlerRegisterWith (key : EventId) (handler : Handler) (arg : Arg) : Outcome :=
  let r := registerWithInternal A t key.base key.id handler arg true
  ⟨⟨r.node, r.heap⟩, r.err, none⟩

/-- `esp_event_handler_instance_register_with` (esp_event.c:801–806) -/
def handlerInstanceRegisterWith (key : EventId) (handler : Handler) (arg : Arg) : Outcome :=
  let r := registerWithInternal A t key.base key.id handler arg false
  ⟨⟨r.node, r.heap⟩, r.err, r.ctx⟩

/-- `esp_event_handler_unregister_with` (esp_event.c:851–859) -/
def handlerUnregisterWith (key : EventId) (handler : Handler) : Outcome :=
  let r := unregisterWithInternal t key.base key.id (.handler handler)
  ⟨r.1, r.2, none⟩

/-- `esp_event_handler_instance_unregister_with` (esp_event.c:861–867) -/
def handlerInstanceUnregisterWith (key : EventId) (handle : Option Nat) : Outcome :=
  match handle with
  | none => ⟨t, .invalidArg, none⟩
  | some ctx =>
    let r := unregisterWithInternal t key.base key.id (.instance_ ctx)
    ⟨r.1, r.2, none⟩

def HandlerCall.apply : HandlerCall → Outcome
  | .register key handler arg => handlerRegisterWith A t key handler arg
  | .unregister key handler => handlerUnregisterWith t key handler

def InstanceCall.apply : InstanceCall → Outcome
  | .register key handler arg => handlerInstanceRegisterWith A t key handler arg
  | .unregister key handle => handlerInstanceUnregisterWith t key handle

def Call.apply : Call → Outcome
  | .handler call => call.apply A t
  | .instance_ call => call.apply A t

/-- The registry after several calls. -/
def applyAll (calls : List Call) : Registry :=
  calls.foldl (fun t call => (call.apply A t).registry) t

end Api

/-- The registry of a loop after a history of calls. -/
def after (A : Allocator) (calls : List Call) : Registry := applyAll A Registry.empty calls

/-! ## What a call does -/

section Step

variable (A : Allocator) {t : Registry}

/-- An unregistration refuses a wrong combination of base and id, or else prunes. -/
theorem unregister_cases (wf : Wf t) (key : EventId) (target : Target) :
    unregisterWithInternal t key.base key.id target = (t, .fail) ∨
      (unregisterWithInternal t key.base key.id target).2 = .ok ∧
        Unregistered t (unregisterWithInternal t key.base key.id target).1
          (target.selects key) := by
  by_cases h : key.base = anyBase ∧ key.id ≠ anyId
  · exact .inl (unregisterWithInternal_refused h)
  · exact .inr (unregisterWithInternal_spec wf h)

/-- Unregistering a handler keeps the registry well formed. -/
theorem unregister_wf (wf : Wf t) (key : EventId) (target : Target) :
    Wf (unregisterWithInternal t key.base key.id target).1 := by
  rcases unregister_cases wf key target with h | h
  · rw [h]
    exact wf
  · exact h.2.wf

/-- A call with a handler keeps the registry well formed. -/
theorem HandlerCall.apply_wf (wf : Wf t) (call : HandlerCall) : Wf (call.apply A t).registry := by
  cases call with
  | register key handler arg => exact registerWithInternal_wf A handler arg true wf key.base key.id
  | unregister key handler => exact unregister_wf wf key (.handler handler)

/-- A call with an instance keeps the registry well formed. -/
theorem InstanceCall.apply_wf (wf : Wf t) (call : InstanceCall) :
    Wf (call.apply A t).registry := by
  cases call with
  | register key handler arg => exact registerWithInternal_wf A handler arg false wf key.base key.id
  | unregister key handle =>
    cases handle with
    | none => exact wf
    | some ctx => exact unregister_wf wf key (.instance_ ctx)

/-- A call of either kind keeps the registry well formed. -/
theorem Call.apply_wf (wf : Wf t) (call : Call) : Wf (call.apply A t).registry := by
  cases call with
  | handler call => exact call.apply_wf A wf
  | instance_ call => exact call.apply_wf A wf

/-- Calls keep the registry well formed, by induction on the list. -/
theorem applyAll_wf (wf : Wf t) (calls : List Call) : Wf (applyAll A t calls) := by
  induction calls generalizing t with
  | nil => exact wf
  | cons call calls ih => exact ih (call.apply_wf A wf)

/-- The registry is well-formed after any history. -/
theorem after_wf (calls : List Call) : Wf (after A calls) := applyAll_wf A wf_empty calls

end Step

/-! ## The order of registration -/

/-- Of two slots that one event runs, the one that was registered first comes first. -/
def Ordered (l : List Slot) : Prop :=
  l.Pairwise fun a b => ¬ Apart a.key b.key → a.node.self.serial < b.node.self.serial

section Ordered

variable (A : Allocator) {t : Registry}

/-- A registration is appended, so the order is kept. -/
theorem Registered.ordered {q : Request} {reached : List HandlerNode} {n : Nat}
    {l l' : List Slot} {err : EspErr} {ctx : Option HandlerCtx}
    (h : Registered q reached n l l' err ctx) (ho : Ordered l)
    (hlt : ∀ s ∈ l, s.node.self.serial < n) : Ordered l' := by
  unfold Ordered at ho ⊢
  cases h with
  | refused => exact ho
  | @inserted pre post s hkey _ _ fresh apart _ =>
    obtain ⟨hpre, hpost, hcross⟩ := List.pairwise_append.mp ho
    refine List.pairwise_append.mpr ⟨hpre, List.pairwise_cons.mpr ⟨fun y hy hnot => ?_, hpost⟩,
      fun x hx y hy hnot => ?_⟩
    · exact absurd (hkey ▸ apart y hy) hnot
    · rcases List.mem_cons.mp hy with rfl | hy
      · exact Nat.lt_of_lt_of_le (hlt x (List.mem_append_left _ hx)) fresh
      · exact hcross x hx y hy hnot
  | @overwritten pre post s =>
    obtain ⟨hpre, hs, hcross⟩ := List.pairwise_append.mp ho
    obtain ⟨hs, hpost⟩ := List.pairwise_cons.mp hs
    refine List.pairwise_append.mpr ⟨hpre, List.pairwise_cons.mpr ⟨hs, hpost⟩,
      fun x hx y hy => ?_⟩
    rcases List.mem_cons.mp hy with rfl | hy
    · exact hcross x hx s (List.mem_cons_self ..)
    · exact hcross x hx y (List.mem_cons_of_mem s hy)

/-- Registering a handler keeps the order. -/
theorem register_ordered (wf : Wf t) (ho : Ordered (slots t.loopNodes)) (q : Request) :
    Ordered (slots
      (registerWithInternal A t q.key.base q.key.id q.handler q.arg q.legacy).node) :=
  (registerWithInternal_spec A wf q).registered.ordered ho
    fun _ hs => wf.owns.serial_lt (wf.owns.mem_iff.mp (wf.node_live hs))

/-- Unregistering a handler keeps the order of the others. -/
theorem unregister_ordered (wf : Wf t) (ho : Ordered (slots t.loopNodes)) (key : EventId)
    (target : Target) :
    Ordered (slots (unregisterWithInternal t key.base key.id target).1.loopNodes) := by
  rcases unregister_cases wf key target with h | h
  · rw [h]
    exact ho
  · exact ho.sublist h.2.pruned.sublist

/-- A call of either kind keeps the order. -/
theorem Call.apply_ordered (wf : Wf t) (ho : Ordered (slots t.loopNodes)) (call : Call) :
    Ordered (slots (call.apply A t).registry.loopNodes) := by
  cases call with
  | handler call =>
    cases call with
    | register key handler arg => exact register_ordered A wf ho ⟨key, handler, arg, true⟩
    | unregister key handler => exact unregister_ordered wf ho key (.handler handler)
  | instance_ call =>
    cases call with
    | register key handler arg => exact register_ordered A wf ho ⟨key, handler, arg, false⟩
    | unregister key handle =>
      cases handle with
      | none => exact ho
      | some ctx => exact unregister_ordered wf ho key (.instance_ ctx)

/-- Calls keep the order, by induction on the list. -/
theorem applyAll_ordered (wf : Wf t) (ho : Ordered (slots t.loopNodes)) (calls : List Call) :
    Ordered (slots (applyAll A t calls).loopNodes) := by
  induction calls generalizing t with
  | nil => exact ho
  | cons call calls ih => exact ih (call.apply_wf A wf) (call.apply_ordered A wf ho)

/-- The slots are in the order of registration after any history. -/
theorem after_ordered (calls : List Call) : Ordered (slots (after A calls).loopNodes) :=
  applyAll_ordered A wf_empty List.Pairwise.nil calls

end Ordered

end PicoHost.Event
