import PicoHost.Lib.Heap
import PicoHost.Lib.Run

/-!
# Timers of the OS wrapper

`hosted_timer_start`, `hosted_timer_stop` and the expiry callback (os_wrapper.c:574–681).
A timer has three objects: the private argument, the handle, and FreeRTOS's timer block,
which `xTimerDelete` releases.

`hosted_timer_stop` releases the block twice, and the argument again when a one-shot timer
has expired. The failure label of `hosted_timer_start` reads the handle before there is one,
and releases the block twice when `xTimerStart` fails. So only timers that are never stopped,
and starts that succeed or fail in `xTimerCreate`, are safe (`safe_iff`).
-/

namespace PicoHost.Timer

/-! ## Objects -/

/-- `struct timer_argument_t`, with its address. It is not written after the start. -/
structure TimerArgument where
  self : Block
  arg : Nat
  type : Bool
  timeoutHandler : Option Nat
deriving DecidableEq, Repr

/-- FreeRTOS's timer block; the timer's id points to the private argument. -/
structure TimerBlock where
  self : Block
  id : TimerArgument
  autoReload : Bool
  active : Bool
deriving DecidableEq, Repr

/-- `struct timer_handle_t`, with its address. -/
structure TimerHandle where
  self : Block
  timerId : Block
deriving DecidableEq, Repr

/-- `timers` are those that FreeRTOS knows, `handles` those that were returned. `calls` are
the handlers that ran. `leaked` are the objects that a start left allocated though it
returned `NULL`. `fault` is set when a freed object or `NULL` is read, and nothing is said
of what follows. -/
structure World where
  heap : Heap
  timers : List TimerBlock
  handles : List TimerHandle
  calls : List (Nat × Nat)
  leaked : List Block
  fault : Bool
deriving DecidableEq, Repr

def World.init : World := ⟨Heap.empty, [], [], [], [], false⟩

def World.free (w : World) (b : Block) : World := { w with heap := w.heap.free b }

def World.failed (w : World) : World := { w with fault := true }

/-- `RPC__TIMER_PERIODIC` -/
def rpcTimerPeriodic : Int := 1

def retOk : Int := 0
def retFail : Int := -1

/-! ## FreeRTOS -/

/-- `xTimerDelete` -/
def xTimerDelete (w : World) (timerId : Block) : World :=
  { w.free timerId with timers := w.timers.filter fun t => decide (t.self ≠ timerId) }

/-- `xTimerStart` and the expiry of a one-shot timer, which ends it. -/
def World.setActive (w : World) (timerId : Block) (active : Bool) : World :=
  { w with timers := w.timers.map fun t =>
      if t.self = timerId then { t with active := active } else t }

/-! ## `hosted_timer_start` -/

/-- What surrounds a start: the addresses of the three objects, `none` for an allocation
that fails, and whether `xTimerStart` succeeds. -/
structure StartEnv where
  privateArg : Option Nat
  timerHandle : Option Nat
  xTimerCreate : Option Nat
  xTimerStart : Bool
deriving DecidableEq, Repr

/-- The label `free_timer`: the argument, and the handle with its timer, where they are. -/
def freeTimer (w : World) (privateArg : Option Block)
    (timerHandle : Option (Block × Option Block)) : World :=
  let w := match privateArg with
    | none => w
    | some b => w.free b
  match timerHandle with
  | none => w.failed -- `timer_handle->timer_id` with `timer_handle == NULL`
  | some (self, none) => w.free self
  | some (self, some timerId) =>
    -- `xTimerDelete`, then `HOSTED_FREE(timer_handle->timer_id)`
    ((xTimerDelete w timerId).free timerId).free self

/-- `hosted_timer_start` (os_wrapper.c:633–681) -/
def hostedTimerStart (w : World) (type : Int) (timeoutHandler : Option Nat) (arg : Nat)
    (env : StartEnv) : Option TimerHandle × World :=
  match env.privateArg with
  | none => (none, freeTimer w none none)
  | some a =>
    let (privateArg, heap) := w.heap.malloc a
    let w := { w with heap }
    match env.timerHandle with
    | none => (none, freeTimer w (some privateArg) none)
    | some a =>
      let (timerHandle, heap) := w.heap.malloc a
      let w := { w with heap }
      match env.xTimerCreate with
      | none => (none, freeTimer w (some privateArg) (some (timerHandle, none)))
      | some a =>
        let (timerId, heap) := w.heap.malloc a
        let periodic := decide (type = rpcTimerPeriodic)
        let w := { w with
          heap
          timers := ⟨timerId, ⟨privateArg, arg, periodic, timeoutHandler⟩, periodic, false⟩ ::
            w.timers }
        if env.xTimerStart then
          (some ⟨timerHandle, timerId⟩, w.setActive timerId true)
        else (none, freeTimer w (some privateArg) (some (timerHandle, some timerId)))

/-! ## Expiry and `hosted_timer_stop` -/

/-- `vTimerCallback` (os_wrapper.c:612–628) -/
def vTimerCallback (w : World) (xTimer : TimerBlock) : World :=
  let privateArg := xTimer.id
  if privateArg.self ∉ w.heap.live then w.failed
  else
    let w := match privateArg.timeoutHandler with
      | none => w
      | some handler => { w with calls := w.calls ++ [(handler, privateArg.arg)] }
    if privateArg.type then w else w.free privateArg.self

/-- `hosted_timer_stop` (os_wrapper.c:581–602). `xTimerStop` changes nothing that the
deletion of the timer leaves. -/
def hostedTimerStop (w : World) : Option TimerHandle → Int × World
  | none => (retFail, w)
  | some timerHandle =>
    if timerHandle.self ∉ w.heap.live ∨ timerHandle.timerId ∉ w.heap.live then
      (retFail, w.failed)
    else match w.timers.find? fun t => decide (t.self = timerHandle.timerId) with
      | none => (retFail, w.failed)
      | some t =>
        let w := w.free t.id.self
        let w := xTimerDelete w timerHandle.timerId
        let w := w.free timerHandle.timerId
        (retOk, w.free timerHandle.self)

/-! ## Runs -/

inductive Action where
  | start (type : Int) (timeoutHandler : Option Nat) (arg : Nat) (env : StartEnv)
  | expire (timerId : Block)
  | stop (timerHandle : Option TimerHandle)
deriving DecidableEq, Repr

/-- One action. Only an active timer expires, and only `NULL` or a handle that was returned
is stopped. -/
def World.step (w : World) (action : Action) : Option World :=
  if w.fault then none
  else match action with
    | .start type timeoutHandler arg env =>
      match hostedTimerStart w type timeoutHandler arg env with
      | (some timerHandle, w') => some { w' with handles := timerHandle :: w'.handles }
      | (none, w') =>
        let kept := w'.heap.live.filter fun b => decide (w.heap.serial ≤ b.serial)
        some { w' with leaked := kept ++ w'.leaked }
    | .expire timerId =>
      match w.timers.find? fun t => decide (t.self = timerId) with
      | none => none
      | some t =>
        if t.active then some (vTimerCallback (w.setActive timerId t.autoReload) t) else none
    | .stop timerHandle =>
      if timerHandle.all (· ∈ w.handles) then some (hostedTimerStop w timerHandle).2 else none

/-- Every object has been freed at most once and none read after it, `NULL` was not
dereferenced, and the starts that returned `NULL` have released what they allocated. -/
structure Safe (w : World) : Prop where
  freed : w.heap.freed.Nodup
  fault : w.fault = false
  leaked : w.leaked = []

instance (w : World) : Decidable (Safe w) :=
  decidable_of_iff (w.heap.freed.Nodup ∧ w.fault = false ∧ w.leaked = [])
    ⟨fun ⟨h, h', h''⟩ => ⟨h, h', h''⟩, fun ⟨h, h', h''⟩ => ⟨h, h', h''⟩⟩

/-- No allocation fails, and `xTimerStart` does not fail on a timer that was created. -/
def StartEnv.Succeeds (env : StartEnv) : Prop :=
  env.privateArg.isSome ∧ env.timerHandle.isSome ∧ (env.xTimerCreate.isSome → env.xTimerStart)

/-- The condition: every start succeeds or fails in `xTimerCreate` only, and no timer is
stopped. -/
def Meets : Action → Prop
  | .start _ _ _ env => env.Succeeds
  | .expire _ => True
  | .stop timerHandle => timerHandle = none

instance decidableMeets : ∀ action, Decidable (Meets action)
  | .start _ _ _ _ => inferInstanceAs (Decidable (_ ∧ _ ∧ (_ → _)))
  | .expire _ => .isTrue trivial
  | .stop _ => inferInstanceAs (Decidable (_ = _))

/-! ## Runs that meet the condition -/

/-- What the condition keeps: the argument of an active timer is allocated, and no two
timers share an object. -/
structure Kept (w : World) : Prop where
  ok : w.heap.Ok
  fault : w.fault = false
  leaked : w.leaked = []
  known : ∀ t ∈ w.timers, t.self.serial < w.heap.serial ∧ t.id.self.serial < w.heap.serial
  selfs : (w.timers.map fun t => t.self).Nodup
  arguments : (w.timers.map fun t => t.id.self).Nodup
  reload : ∀ t ∈ w.timers, t.autoReload = t.id.type
  active : ∀ t ∈ w.timers, t.active → t.id.self ∈ w.heap.live

/-- At the start there is no timer. -/
theorem kept_init : Kept World.init where
  ok := Heap.ok_empty
  fault := rfl
  leaked := rfl
  known := nofun
  selfs := List.nodup_nil
  arguments := List.nodup_nil
  reload := nofun
  active := nofun

/-- The invariant is what is asked of the timers. -/
theorem Kept.safe {w : World} (k : Kept w) : Safe w := ⟨k.ok.freed_nodup, k.fault, k.leaked⟩

section Kept

variable {w w' : World}

/-- `xTimerStart` on the timer that was just created. -/
theorem setActive_new {t : TimerBlock} {timers : List TimerBlock}
    (hw : w.timers = t :: timers) (hne : ∀ u ∈ timers, u.self ≠ t.self) :
    (w.setActive t.self true).timers = { t with active := true } :: timers := by
  show w.timers.map _ = _
  rw [hw, List.map_cons, if_pos rfl]
  refine congrArg (_ :: ·) ?_
  exact (List.map_congr_left fun u hu => if_neg (hne u hu)).trans (List.map_id _)

/-- A start that fails in `xTimerCreate` only has freed what it allocated. -/
theorem Kept.refused {a b : Nat} (k : Kept w) :
    let argument := w.heap.malloc a
    let handle := argument.2.malloc b
    let heap := (handle.2.free argument.1).free handle.1
    Kept { w with heap } ∧ heap.live = w.heap.live := by
  intro argument handle heap
  have hargument : argument.2.Ok := k.ok.malloc a
  have hhandle : handle.2.Ok := hargument.malloc b
  have hmem : argument.1 ∈ handle.2.live := List.mem_cons_of_mem _ (List.mem_cons_self ..)
  have hne : handle.1 ≠ argument.1 := fun heq =>
    hargument.malloc_notMem b (heq ▸ List.mem_cons_self ..)
  have hlive : heap.live = w.heap.live := by
    show ((handle.1 :: argument.1 :: w.heap.live).erase argument.1).erase handle.1 = _
    rw [List.erase_cons_tail (by simpa using hne), List.erase_cons_head, List.erase_cons_head]
  have hfree : handle.1 ∈ (handle.2.free argument.1).live :=
    hhandle.mem_free.mpr ⟨hne, List.mem_cons_self ..⟩
  refine ⟨⟨(hhandle.free hmem).free hfree, k.fault, k.leaked, ?_, k.selfs, k.arguments, k.reload,
    ?_⟩, hlive⟩
  · intro t ht
    obtain ⟨hself, hid⟩ := k.known t ht
    exact ⟨Nat.lt_succ_of_lt (Nat.lt_succ_of_lt hself), Nat.lt_succ_of_lt (Nat.lt_succ_of_lt hid)⟩
  · intro t ht hactive
    show t.id.self ∈ heap.live
    rw [hlive]
    exact k.active t ht hactive

/-- A start that succeeds. -/
theorem Kept.created {a b c : Nat} (k : Kept w) (arg : Nat) (type : Bool)
    (timeoutHandler : Option Nat) :
    let argument := w.heap.malloc a
    let handle := argument.2.malloc b
    let block := handle.2.malloc c
    let t : TimerBlock := ⟨block.1, ⟨argument.1, arg, type, timeoutHandler⟩, type, true⟩
    Kept { w with
      heap := block.2, timers := t :: w.timers, handles := ⟨handle.1, block.1⟩ :: w.handles } := by
  intro argument handle block t
  have hlt : ∀ {n : Nat}, n < w.heap.serial → n < block.2.serial := fun h => by
    show _ < w.heap.serial + 1 + 1 + 1
    omega
  have hlive : ∀ x ∈ w.heap.live, x ∈ block.2.live := fun x hx =>
    List.mem_cons_of_mem _ (List.mem_cons_of_mem _ (List.mem_cons_of_mem _ hx))
  constructor
  · exact ((k.ok.malloc a).malloc b).malloc c
  · exact k.fault
  · exact k.leaked
  · intro u hu
    rcases List.mem_cons.mp hu with rfl | hu
    · show w.heap.serial + 1 + 1 < w.heap.serial + 1 + 1 + 1 ∧
        w.heap.serial < w.heap.serial + 1 + 1 + 1
      omega
    · exact ⟨hlt (k.known u hu).1, hlt (k.known u hu).2⟩
  · -- the new block has a serial number of its own
    refine List.nodup_cons.mpr ⟨fun hmem => ?_, k.selfs⟩
    obtain ⟨u, hu, heq⟩ := List.mem_map.mp hmem
    have hself : u.self.serial = w.heap.serial + 1 + 1 := congrArg Block.serial heq
    have := (k.known u hu).1
    omega
  · refine List.nodup_cons.mpr ⟨fun hmem => ?_, k.arguments⟩
    obtain ⟨u, hu, heq⟩ := List.mem_map.mp hmem
    have hself : u.id.self.serial = w.heap.serial := congrArg Block.serial heq
    have := (k.known u hu).2
    omega
  · intro u hu
    rcases List.mem_cons.mp hu with rfl | hu
    · rfl
    · exact k.reload u hu
  · intro u hu hactive
    rcases List.mem_cons.mp hu with rfl | hu
    · exact List.mem_cons_of_mem _ (List.mem_cons_of_mem _ (List.mem_cons_self ..))
    · exact hlive _ (k.active u hu hactive)

/-- A new timer keeps the invariant. -/
theorem Kept.started {a b c : Nat} (k : Kept w) (arg : Nat) (type : Bool)
    (timeoutHandler : Option Nat) :
    let argument := w.heap.malloc a
    let handle := argument.2.malloc b
    let block := handle.2.malloc c
    let t : TimerBlock := ⟨block.1, ⟨argument.1, arg, type, timeoutHandler⟩, type, false⟩
    let created : World := { w with heap := block.2, timers := t :: w.timers }
    Kept { created.setActive block.1 true with handles := ⟨handle.1, block.1⟩ :: w.handles } := by
  intro argument handle block t created
  have hne : ∀ u ∈ w.timers, u.self ≠ t.self := by
    intro u hu heq
    have hself : u.self.serial = w.heap.serial + 1 + 1 := congrArg Block.serial heq
    have := (k.known u hu).1
    omega
  have htimers : (created.setActive block.1 true).timers = { t with active := true } :: w.timers :=
    setActive_new rfl hne
  show Kept ⟨block.2, (created.setActive block.1 true).timers, _, w.calls, w.leaked, w.fault⟩
  rw [htimers]
  exact k.created arg type timeoutHandler

/-- Whether a timer is active does not matter to the blocks. -/
theorem Kept.setActive {t : TimerBlock} (k : Kept w) (ht : t ∈ w.timers)
    (hlive : t.id.self ∈ w.heap.live) (active : Bool) : Kept (w.setActive t.self active) := by
  -- only `t` has changed, and of it only whether it is active
  have hfrom : ∀ u' ∈ (w.setActive t.self active).timers, ∃ u ∈ w.timers,
      u'.self = u.self ∧ u'.id = u.id ∧ u'.autoReload = u.autoReload ∧
        (u'.active → u.active ∨ u = t) := by
    intro u' hu'
    obtain ⟨u, hu, rfl⟩ := List.mem_map.mp hu'
    refine ⟨u, hu, ?_⟩
    split
    · rename_i hself
      exact ⟨rfl, rfl, rfl, fun _ => .inr (List.inj_on_of_nodup_map k.selfs hu ht hself)⟩
    · exact ⟨rfl, rfl, rfl, .inl⟩
  have hmap : ∀ {β : Type} (f : Block → TimerArgument → β),
      (w.setActive t.self active).timers.map (fun u => f u.self u.id) =
        w.timers.map fun u => f u.self u.id := by
    intro β f
    show (w.timers.map _).map _ = _
    rw [List.map_map]
    refine List.map_congr_left fun u _ => ?_
    dsimp only [Function.comp_apply]
    split <;> rfl
  constructor
  · exact k.ok
  · exact k.fault
  · exact k.leaked
  · intro u' hu'
    obtain ⟨u, hu, hself, hid, -⟩ := hfrom u' hu'
    rw [hself, hid]
    exact k.known u hu
  · rw [hmap fun self _ => self]
    exact k.selfs
  · rw [hmap fun _ id => id.self]
    exact k.arguments
  · intro u' hu'
    obtain ⟨u, hu, -, hid, hreload, -⟩ := hfrom u' hu'
    rw [hreload, hid]
    exact k.reload u hu
  · intro u' hu' hactive
    obtain ⟨u, hu, -, hid, -, hfrom⟩ := hfrom u' hu'
    rw [hid]
    rcases hfrom hactive with hactive | rfl
    · exact k.active u hu hactive
    · exact hlive

/-- The argument of a timer that is not active can go. -/
theorem Kept.free_argument {t : TimerBlock} (k : Kept w) (ht : t ∈ w.timers)
    (hlive : t.id.self ∈ w.heap.live) (hactive : t.active = false) :
    Kept (w.free t.id.self) where
  ok := k.ok.free hlive
  fault := k.fault
  leaked := k.leaked
  known := k.known
  selfs := k.selfs
  arguments := k.arguments
  reload := k.reload
  active u hu hu' := by
    -- the arguments are distinct, and `t` is not active
    refine k.ok.mem_free.mpr ⟨fun heq => ?_, k.active u hu hu'⟩
    cases List.inj_on_of_nodup_map k.arguments hu ht heq
    exact absurd hu' (by rw [hactive]; decide)

/-- The log of the calls does not matter to the blocks. -/
theorem Kept.calls (k : Kept w) (calls : List (Nat × Nat)) : Kept { w with calls } :=
  ⟨k.ok, k.fault, k.leaked, k.known, k.selfs, k.arguments, k.reload, k.active⟩

/-- The callback on an argument that is allocated. -/
theorem vTimerCallback_of_live {t : TimerBlock} (hlive : t.id.self ∈ w.heap.live) :
    ∃ calls, vTimerCallback w t =
      if t.id.type then { w with calls } else World.free { w with calls } t.id.self := by
  rw [vTimerCallback]
  rw [if_neg (not_not_intro hlive)]
  cases t.id.timeoutHandler with
  | none => exact ⟨w.calls, rfl⟩
  | some handler => exact ⟨w.calls ++ [(handler, t.id.arg)], rfl⟩

/-- The expiry of an active timer: a periodic one stays active, and a one-shot one has
no use for its argument any more. -/
theorem Kept.expired {t : TimerBlock} (k : Kept w) (ht : t ∈ w.timers) (hactive : t.active) :
    Kept (vTimerCallback (w.setActive t.self t.autoReload) t) := by
  have hlive : t.id.self ∈ w.heap.live := k.active t ht hactive
  have hset := k.setActive ht hlive t.autoReload
  have hreload := k.reload t ht
  have hmem : { t with active := t.autoReload } ∈ (w.setActive t.self t.autoReload).timers :=
    List.mem_map.mpr ⟨t, ht, if_pos rfl⟩
  obtain ⟨calls, heq⟩ := vTimerCallback_of_live (w := w.setActive t.self t.autoReload) hlive
  rw [heq]
  cases htype : t.id.type with
  | true =>
    rw [if_pos rfl]
    exact hset.calls calls
  | false =>
    rw [if_neg Bool.false_ne_true]
    have hfree := (hset.calls calls).free_argument hmem hlive (hreload.trans htype)
    exact hfree

/-- A start that succeeds keeps the invariant. -/
theorem Kept.start {type : Int} {timeoutHandler : Option Nat} {arg : Nat} {env : StartEnv}
    (k : Kept w) (hm : env.Succeeds)
    (h : w.step (.start type timeoutHandler arg env) = some w') : Kept w' := by
  obtain ⟨privateArg, timerHandle, create, start⟩ := env
  obtain ⟨hargument, hhandle, hstart⟩ := hm
  obtain ⟨a, rfl⟩ := Option.isSome_iff_exists.mp hargument
  obtain ⟨b, rfl⟩ := Option.isSome_iff_exists.mp hhandle
  rw [World.step] at h
  rw [if_neg (by rw [k.fault]; decide)] at h
  cases create with
  | none =>
    -- what was allocated is released again: nothing new is leaked
    obtain ⟨hkept, hlive⟩ := k.refused (a := a) (b := b)
    cases h
    refine ⟨hkept.ok, k.fault, ?_, hkept.known, k.selfs, k.arguments, k.reload, hkept.active⟩
    show List.filter _ _ ++ w.leaked = []
    rw [k.leaked, List.append_nil, List.filter_eq_nil_iff]
    intro x hx
    rw [decide_eq_true_eq, Nat.not_le]
    exact k.ok.lt x (List.mem_append_left _ (hlive ▸ hx))
  | some c =>
    cases hstart rfl
    have hkept := k.started (a := a) (b := b) (c := c) arg (decide (type = rpcTimerPeriodic))
      timeoutHandler
    cases h
    exact hkept

/-- Every step that meets the conditions keeps the invariant. -/
theorem Kept.step {a : Action} (k : Kept w) (hm : Meets a) (h : w.step a = some w') :
    Kept w' := by
  cases a with
  | start type timeoutHandler arg env => exact k.start hm h
  | expire timerId =>
    unfold World.step at h
    rw [if_neg (by rw [k.fault]; decide)] at h
    dsimp only at h
    split at h
    · cases h
    · rename_i t hfind
      have hself : t.self = timerId := by simpa using List.find?_some hfind
      cases hself
      split at h
      · rename_i hactive
        cases h
        exact k.expired (List.mem_of_find?_eq_some hfind) hactive
      · cases h
  | stop timerHandle =>
    cases hm
    rw [World.step] at h
    rw [if_neg (by rw [k.fault]; decide)] at h
    cases h
    exact k

end Kept

/-! ## Steps that do not meet the condition -/

section Unsafe

variable {w w' : World}

/-- No free is taken back. -/
theorem hostedTimerStart_freed (type : Int) (timeoutHandler : Option Nat) (arg : Nat)
    (env : StartEnv) :
    w.heap.freed <:+ (hostedTimerStart w type timeoutHandler arg env).2.heap.freed := by
  obtain ⟨privateArg, timerHandle, create, start⟩ := env
  cases privateArg with
  | none => exact List.suffix_rfl
  | some a =>
    cases timerHandle with
    | none => exact List.suffix_cons _ _
    | some b =>
      cases create with
      | none => exact (List.suffix_cons _ _).trans (List.suffix_cons _ _)
      | some c =>
        cases start with
        | true => exact List.suffix_rfl
        | false => exact ⟨[_, _, _, _], rfl⟩

/-- A callback frees blocks and takes none back. -/
theorem vTimerCallback_freed (t : TimerBlock) :
    w.heap.freed <:+ (vTimerCallback w t).heap.freed := by
  by_cases hlive : t.id.self ∈ w.heap.live
  · obtain ⟨calls, heq⟩ := vTimerCallback_of_live hlive
    rw [heq]
    split
    · exact List.suffix_rfl
    · exact List.suffix_cons _ _
  · rw [vTimerCallback]
    rw [if_pos hlive]
    exact List.suffix_rfl

/-- `hosted_timer_stop` frees blocks and takes none back. -/
theorem hostedTimerStop_freed (timerHandle : Option TimerHandle) :
    w.heap.freed <:+ (hostedTimerStop w timerHandle).2.heap.freed := by
  cases timerHandle with
  | none => exact List.suffix_rfl
  | some timerHandle =>
    rw [hostedTimerStop]
    dsimp only
    split
    · exact List.suffix_rfl
    · split
      · exact List.suffix_rfl
      · exact ⟨[_, _, _, _], rfl⟩

/-- What was freed stays freed. -/
theorem step_freed {a : Action} (h : w.step a = some w') :
    w.heap.freed <:+ w'.heap.freed := by
  unfold World.step at h
  split at h
  · cases h
  cases a with
  | start type timeoutHandler arg env =>
    have hfreed := hostedTimerStart_freed (w := w) type timeoutHandler arg env
    dsimp only at h
    split at h
    · rename_i timerHandle w'' heq
      rw [heq] at hfreed
      cases h
      exact hfreed
    · rename_i w'' heq
      rw [heq] at hfreed
      cases h
      exact hfreed
  | expire timerId =>
    dsimp only at h
    split at h
    · cases h
    · split at h
      · cases h
        exact vTimerCallback_freed (w := World.setActive ..) _
      · cases h
  | stop timerHandle =>
    dsimp only at h
    split at h
    · cases h
      exact hostedTimerStop_freed timerHandle
    · cases h

/-- An object freed twice stays freed twice, and nothing follows a fault. -/
theorem exec_broken {actions : List Action} (h : Machine.exec World.step w actions = some w')
    (hbad : ¬ w.heap.freed.Nodup ∨ w.fault = true) :
    ¬ w'.heap.freed.Nodup ∨ w'.fault = true := by
  refine Machine.exec_inv (P := fun w => ¬ w.heap.freed.Nodup ∨ w.fault = true) ?_ h hbad
  intro w a w' hstep hbad
  rcases hbad with hdup | hfault
  · exact .inl fun hnd => hdup (hnd.sublist (step_freed hstep).sublist)
  · unfold World.step at hstep
    rw [if_pos hfault] at hstep
    cases hstep

/-- A step outside the conditions frees a block twice or uses a freed one. -/
theorem broken_of_step {a : Action} (hm : ¬ Meets a) (h : w.step a = some w') :
    ¬ w'.heap.freed.Nodup ∨ w'.fault = true := by
  unfold World.step at h
  split at h
  · cases h
  cases a with
  | start type timeoutHandler arg env =>
    obtain ⟨privateArg, timerHandle, create, start⟩ := env
    cases privateArg with
    | none =>
      cases h
      exact .inr rfl
    | some a =>
      cases timerHandle with
      | none =>
        cases h
        exact .inr rfl
      | some b =>
        cases create with
        | none => exact absurd ⟨rfl, rfl, nofun⟩ hm
        | some c =>
          cases start with
          | true => exact absurd ⟨rfl, rfl, fun _ => rfl⟩ hm
          | false =>
            -- `xTimerDelete` and `HOSTED_FREE` of the same block
            cases h
            refine .inl fun hnd => ?_
            exact (List.nodup_cons.mp (List.nodup_cons.mp hnd).2).1 (List.mem_cons_self ..)
  | expire timerId => exact absurd trivial hm
  | stop timerHandle =>
    cases timerHandle with
    | none => exact absurd rfl hm
    | some timerHandle =>
      dsimp only at h
      split at h
      · cases h
        rw [hostedTimerStop]
        dsimp only
        split
        · exact .inr rfl
        · split
          · exact .inr rfl
          · refine .inl fun hnd => ?_
            exact (List.nodup_cons.mp (List.nodup_cons.mp hnd).2).1 (List.mem_cons_self ..)
      · cases h

end Unsafe

/-! ## Every run -/

/-- A run is safe exactly when every start in it succeeds or fails in `xTimerCreate`, and no
timer is stopped. -/
theorem safe_iff (actions : List Action) (w : World)
    (h : Machine.exec World.step World.init actions = some w) :
    Safe w ↔ ∀ a ∈ actions, Meets a := by
  constructor
  · intro hsafe a ha
    by_contra hm
    obtain ⟨before, rest, rfl⟩ := List.append_of_mem ha
    obtain ⟨u, -, h⟩ := Machine.exec_append_some.mp h
    obtain ⟨v, hstep, h⟩ := Machine.exec_cons_some.mp h
    rcases exec_broken h (broken_of_step hm hstep) with hdup | hfault
    · exact hdup hsafe.freed
    · exact absurd (hsafe.fault.symm.trans hfault) (by decide)
  · intro hm
    exact (Machine.exec_inv_of (P := Kept) (fun _ _ _ hm h k => k.step hm h) h hm kept_init).safe

/-- A one-shot timer that expires, and a periodic one. -/
def twoTimers : List Action :=
  [.start 0 (some 7) 1 ⟨some 16, some 32, some 48, true⟩,
    .start 1 (some 8) 2 ⟨some 64, some 80, some 96, true⟩,
    .expire ⟨48, 2⟩, .expire ⟨96, 5⟩, .expire ⟨96, 5⟩]

/-- The run of `twoTimers`, which are started and expire -/
theorem safe_iff_twoTimers : ∃ w, Machine.exec World.step World.init twoTimers = some w ∧
    (Safe w ↔ ∀ a ∈ twoTimers, Meets a) :=
  ⟨_, rfl, safe_iff twoTimers _ rfl⟩

/-- A timer is started and stopped: its block is freed by `xTimerDelete` and again by
`HOSTED_FREE`. -/
def startStop : List Action :=
  [.start 1 (some 7) 1 ⟨some 16, some 32, some 48, true⟩,
    .stop (some ⟨⟨32, 1⟩, ⟨48, 2⟩⟩)]

/-- A timer that is stopped is freed twice. -/
theorem startStop_not_safe : ∃ w, Machine.exec World.step World.init startStop = some w ∧
    ¬ Safe w :=
  ⟨_, rfl, by decide⟩

end PicoHost.Timer
