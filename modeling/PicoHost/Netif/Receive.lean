import PicoHost.Lib.Run

/-!
# Received frames and the driver that owns them

`wlanif_input` (wlanif.c:129–166) hands a frame to lwIP in a pbuf that refers to the driver's
l2 buffer, and `esp_pbuf_free` (esp_pbuf_ref.c:33–38) gives the buffer back when the stack drops
the pbuf. The pbuf keeps a pointer to the `esp_netif` only, and the callback is looked up in it
at that time. Meanwhile `disconnect_and_destroy` (wifi_default.c:316–323) may have cleared the
callback, and `esp_netif_destroy` may have freed the `esp_netif`.

Every buffer comes back exactly when the driver is disconnected at a moment when no frame is
under way, and delivers none afterwards (`freed_once_iff`).
-/

namespace PicoHost.Netif

/-! ## Frames -/

/-- Where a frame is: before the call of `esp_netif_free_rx_buffer`, of `esp_pbuf_allocate`, of
`netif->input` or, when that has failed, of `pbuf_free`; in the stack; or disposed of. -/
inductive FramePhase where
  | freeRxBuffer | allocate | input | pbufFree | stack | done
deriving DecidableEq, Repr

/-- A frame that the driver delivered: whether it came with an l2 buffer, where it is, and how
often the buffer was freed through the driver's `driver_free_rx_buffer`. -/
structure Frame where
  l2Buff : Bool
  phase : FramePhase
  freed : Nat
deriving DecidableEq, Repr

/-- The receiving interface with its frames. `attached`: `driver_free_rx_buffer` is the
driver's. `registered`: the driver delivers frames. `live`: the `esp_netif` has not been freed.
`fault`: a free went through `NULL` or a freed `esp_netif`. -/
structure Reception where
  attached : Bool
  registered : Bool
  live : Bool
  isUp : Bool
  frames : List Frame
  fault : Bool
deriving DecidableEq, Repr

/-- An attached interface, up or down. -/
def Reception.init (isUp : Bool) : Reception := ⟨true, true, true, isUp, [], false⟩

inductive ReceptionAction where
  | receive (buffer l2Buff : Bool)
  | advance (i : Nat) (ok : Bool)
  | setUp (isUp : Bool)
  | setDriverConfig
  | destroyIfDriver
  | destroy
deriving DecidableEq, Repr

section Step

variable (r : Reception)

/-- `esp_netif_free_rx_buffer` (esp_netif_lwip.c:1209–1213) for frame `i`. -/
def espNetifFreeRxBuffer (i : Nat) (f : Frame) : Reception :=
  if r.live ∧ r.attached then
    -- the driver ignores a `NULL` buffer
    { r with frames := r.frames.set i ⟨f.l2Buff, .done, if f.l2Buff then f.freed + 1 else f.freed⟩ }
  else { r with frames := r.frames.set i { f with phase := .done }, fault := true }

/-- The checks at the beginning of `wlanif_input`. -/
def wlanifInput (buffer l2Buff : Bool) : FramePhase :=
  if !buffer || !r.isUp then
    if l2Buff then .freeRxBuffer else .done
  else .allocate

/-- The next operation on frame `i`; `ok` says whether an allocation or the input function
succeeds. The stack holds a frame as long as it likes. -/
def Reception.advance (i : Nat) (ok : Bool) (f : Frame) : Reception :=
  match f.phase with
  | .freeRxBuffer => espNetifFreeRxBuffer r i f
  | .allocate =>
    let phase := if ok then .input else .freeRxBuffer
    { r with frames := r.frames.set i { f with phase } }
  | .input =>
    let phase := if ok then .stack else .pbufFree
    { r with frames := r.frames.set i { f with phase } }
  | .pbufFree | .stack => espNetifFreeRxBuffer r i f -- `esp_pbuf_free`
  | .done => r

/-- One action. Only a registered driver delivers, and the interface is destroyed after the
driver. -/
def Reception.step : ReceptionAction → Option Reception
  | .receive buffer l2Buff =>
    if r.registered then
      some { r with frames := r.frames ++ [⟨l2Buff, wlanifInput r buffer l2Buff, 0⟩] }
    else none
  | .advance i ok =>
    match r.frames[i]? with
    | none => none
    | some f => if f.phase = .done then none else some (r.advance i ok f)
  | .setUp isUp => if r.live then some { r with isUp } else none
  | .setDriverConfig => if r.attached then some { r with attached := false } else none
  | .destroyIfDriver =>
    if ¬ r.attached ∧ r.registered then some { r with registered := false } else none
  | .destroy => if ¬ r.registered ∧ r.live then some { r with live := false } else none

end Step

/-! ## The condition -/

/-- How often the buffer of the frame should have been freed by now. -/
def Frame.due (f : Frame) : Nat := if f.l2Buff ∧ f.phase = .done then 1 else 0

/-- Every l2 buffer that is due has been freed once through the driver's callback, the others
not yet, and no free went elsewhere. -/
structure Sound (r : Reception) : Prop where
  fault : r.fault = false
  freed : ∀ f ∈ r.frames, f.freed = f.due

/-- No frame is under way. -/
def Reception.Quiet (r : Reception) : Prop := ∀ f ∈ r.frames, f.phase = .done

instance (r : Reception) : Decidable r.Quiet :=
  inferInstanceAs (Decidable (∀ f ∈ r.frames, f.phase = .done))

/-- The driver is disconnected when no frame is under way, and a frame that comes later needs
no free. -/
def Meets (r : Reception) : ReceptionAction → Prop
  | .receive buffer l2Buff => r.attached ∨ wlanifInput r buffer l2Buff = .done
  | .setDriverConfig => r.Quiet
  | _ => True

instance decidableMeets (r : Reception) : ∀ action, Decidable (Meets r action)
  | .receive _ _ => inferInstanceAs (Decidable (_ ∨ _))
  | .setDriverConfig => inferInstanceAs (Decidable r.Quiet)
  | .advance _ _ | .setUp _ | .destroyIfDriver | .destroy => .isTrue trivial

/-- What the condition keeps. -/
structure Kept (r : Reception) : Prop where
  sound : Sound r
  live : r.attached → r.live
  registered : r.registered = false → r.attached = false
  quiet : r.attached = false → r.Quiet

section Kept

variable {r r' : Reception}

/-- At the start no frame is under way. -/
theorem kept_init (isUp : Bool) : Kept (Reception.init isUp) where
  sound := ⟨rfl, nofun⟩
  live _ := rfl
  registered := nofun
  quiet := nofun

/-- `wlanif_input` strands no frame. -/
theorem wlanifInput_due (r : Reception) (buffer l2Buff : Bool) :
    (⟨l2Buff, wlanifInput r buffer l2Buff, 0⟩ : Frame).due = 0 := by
  unfold Frame.due wlanifInput
  cases l2Buff <;> cases buffer <;> cases r.isUp <;> simp

/-- A frame under way moves on, and the driver is still attached. -/
theorem Kept.advance {i : Nat} {ok : Bool} {f : Frame} (k : Kept r) (hf : r.frames[i]? = some f)
    (hphase : f.phase ≠ .done) : Kept (r.advance i ok f) := by
  have hmem : f ∈ r.frames := List.mem_of_getElem? hf
  have hattached : r.attached = true := by
    cases ha : r.attached with
    | true => rfl
    | false => exact absurd (k.quiet ha f hmem) hphase
  have hdue : f.freed = 0 := by
    rw [k.sound.freed f hmem, Frame.due, if_neg fun h => hphase h.2]
  -- whatever replaces the frame must have been freed as often as is due
  have hset : ∀ g : Frame, g.freed = g.due → Kept { r with frames := r.frames.set i g } := by
    intro g hg
    refine ⟨⟨k.sound.fault, fun f' hf' => ?_⟩, k.live, k.registered, fun ha => ?_⟩
    · rcases List.mem_or_eq_of_mem_set hf' with hf' | rfl
      · exact k.sound.freed f' hf'
      · exact hg
    · exact absurd (hattached.symm.trans ha) (by decide)
  have hfree : Kept (espNetifFreeRxBuffer r i f) := by
    unfold espNetifFreeRxBuffer
    rw [if_pos ⟨k.live hattached, hattached⟩, hdue]
    refine hset _ ?_
    unfold Frame.due
    cases f.l2Buff <;> simp
  unfold Reception.advance
  cases hp : f.phase with
  | freeRxBuffer => exact hfree
  | pbufFree => exact hfree
  | stack => exact hfree
  | done => exact absurd hp hphase
  | allocate =>
    refine hset _ ?_
    cases ok <;> simp [Frame.due, hdue]
  | input =>
    refine hset _ ?_
    cases ok <;> simp [Frame.due, hdue]

/-- Every step that meets the condition keeps the invariant. -/
theorem Kept.step {a : ReceptionAction} (k : Kept r) (hm : Meets r a) (h : r.step a = some r') :
    Kept r' := by
  cases a with
  | receive buffer l2Buff =>
    simp only [Reception.step, Option.ite_none_right_eq_some, Option.some.injEq] at h
    obtain ⟨-, rfl⟩ := h
    have hframe : ∀ f ∈ r.frames ++ [⟨l2Buff, wlanifInput r buffer l2Buff, 0⟩],
        f ∈ r.frames ∨ f = ⟨l2Buff, wlanifInput r buffer l2Buff, 0⟩ := fun f hf =>
      (List.mem_append.mp hf).imp_right List.mem_singleton.mp
    refine ⟨⟨k.sound.fault, fun f hf => ?_⟩, k.live, k.registered, fun ha f hf => ?_⟩
    · rcases hframe f hf with hf | rfl
      · exact k.sound.freed f hf
      · exact (wlanifInput_due r buffer l2Buff).symm
    · rcases hframe f hf with hf | rfl
      · exact k.quiet ha f hf
      · -- after the disconnection only a frame that is done at once
        rcases hm with hm | hm
        · exact absurd (hm.symm.trans ha) (by decide)
        · exact hm
  | advance i ok =>
    unfold Reception.step at h
    dsimp only at h
    split at h
    · cases h
    · rename_i f hf
      split at h
      · cases h
      · rename_i hphase
        cases h
        exact k.advance hf hphase
  | setUp isUp =>
    simp only [Reception.step, Option.ite_none_right_eq_some, Option.some.injEq] at h
    obtain ⟨-, rfl⟩ := h
    exact ⟨⟨k.sound.fault, k.sound.freed⟩, k.live, k.registered, k.quiet⟩
  | setDriverConfig =>
    simp only [Reception.step, Option.ite_none_right_eq_some, Option.some.injEq] at h
    obtain ⟨-, rfl⟩ := h
    exact ⟨⟨k.sound.fault, k.sound.freed⟩, nofun, fun _ => rfl, fun _ => hm⟩
  | destroyIfDriver =>
    simp only [Reception.step, Option.ite_none_right_eq_some, Option.some.injEq] at h
    obtain ⟨⟨hattached, -⟩, rfl⟩ := h
    refine ⟨⟨k.sound.fault, k.sound.freed⟩, k.live, fun _ => ?_, k.quiet⟩
    exact Bool.eq_false_iff.mpr hattached
  | destroy =>
    simp only [Reception.step, Option.ite_none_right_eq_some, Option.some.injEq] at h
    obtain ⟨⟨hregistered, -⟩, rfl⟩ := h
    -- the driver is gone before the interface is
    have hattached := k.registered (Bool.eq_false_iff.mpr hregistered)
    refine ⟨⟨k.sound.fault, k.sound.freed⟩, fun ha => ?_, k.registered, k.quiet⟩
    exact absurd (hattached.symm.trans ha) (by decide)

end Kept

/-! ## Steps that do not meet the condition -/

section Stranded

variable {r r' : Reception}

/-- A frame is under way and its driver is gone, or it has already been freed through `NULL`. -/
def Stranded (r : Reception) : Prop := r.fault = true ∨ r.attached = false ∧ ¬ r.Quiet

/-- A step outside the condition strands a frame. -/
theorem stranded_of_not_meets {a : ReceptionAction} (hm : ¬ Meets r a)
    (h : r.step a = some r') : Stranded r' := by
  cases a with
  | receive buffer l2Buff =>
    simp only [Reception.step, Option.ite_none_right_eq_some, Option.some.injEq] at h
    obtain ⟨-, rfl⟩ := h
    simp only [Meets, not_or] at hm
    refine .inr ⟨Bool.eq_false_iff.mpr hm.1, fun hquiet => hm.2 ?_⟩
    exact hquiet _ (List.mem_append_right _ (List.mem_singleton_self _))
  | setDriverConfig =>
    simp only [Reception.step, Option.ite_none_right_eq_some, Option.some.injEq] at h
    obtain ⟨-, rfl⟩ := h
    exact .inr ⟨rfl, hm⟩
  | advance | setUp | destroyIfDriver | destroy => exact absurd trivial hm

/-- Once one frame has gone wrong, or another one is left to. -/
theorem stranded_set {i : Nat} {f g : Frame} (hf : r.frames[i]? = some f)
    (hattached : r.attached = false) (hg : g.phase ≠ .done) :
    Stranded { r with frames := r.frames.set i g } := by
  refine .inr ⟨hattached, fun h => hg (h g ?_)⟩
  obtain ⟨hi, -⟩ := List.getElem?_eq_some_iff.mp hf
  exact List.mem_set hi g

/-- A stranded frame stays so while another one advances. -/
theorem Stranded.advance {i : Nat} {ok : Bool} {f : Frame} (hs : Stranded r)
    (hf : r.frames[i]? = some f) (hphase : f.phase ≠ .done) : Stranded (r.advance i ok f) := by
  have hfree : Stranded (espNetifFreeRxBuffer r i f) := by
    unfold espNetifFreeRxBuffer
    split
    · rename_i hlive
      rcases hs with hfault | ⟨hattached, -⟩
      · exact .inl hfault
      · exact absurd (hlive.2.symm.trans hattached) (by decide)
    · exact .inl rfl
  have hset : ∀ g : Frame, g.phase ≠ .done → Stranded { r with frames := r.frames.set i g } := by
    intro g hg
    rcases hs with hfault | ⟨hattached, -⟩
    · exact .inl hfault
    · exact stranded_set hf hattached hg
  unfold Reception.advance
  -- a frame is freed, or it is still under way
  cases hp : f.phase with
  | freeRxBuffer => exact hfree
  | pbufFree => exact hfree
  | stack => exact hfree
  | done => exact absurd hp hphase
  | allocate =>
    refine hset _ ?_
    cases ok <;> exact nofun
  | input =>
    refine hset _ ?_
    cases ok <;> exact nofun

/-- A stranded frame stays so. -/
theorem Stranded.step {a : ReceptionAction} (hs : Stranded r) (h : r.step a = some r') :
    Stranded r' := by
  cases a with
  | receive buffer l2Buff =>
    simp only [Reception.step, Option.ite_none_right_eq_some, Option.some.injEq] at h
    obtain ⟨-, rfl⟩ := h
    refine hs.imp_right fun ⟨hattached, hquiet⟩ => ⟨hattached, fun hq => hquiet fun f hf => ?_⟩
    exact hq f (List.mem_append_left _ hf)
  | advance i ok =>
    unfold Reception.step at h
    dsimp only at h
    split at h
    · cases h
    · rename_i f hf
      split at h
      · cases h
      · rename_i hphase
        cases h
        exact hs.advance hf hphase
  | setDriverConfig =>
    simp only [Reception.step, Option.ite_none_right_eq_some, Option.some.injEq] at h
    obtain ⟨-, rfl⟩ := h
    exact hs.imp_right fun ⟨_, hquiet⟩ => ⟨rfl, hquiet⟩
  | setUp | destroyIfDriver | destroy =>
    simp only [Reception.step, Option.ite_none_right_eq_some, Option.some.injEq] at h
    obtain ⟨-, rfl⟩ := h
    exact hs

/-- A run to a state that is not stranded has met the condition. -/
theorem along_of_not_stranded {actions : List ReceptionAction}
    (h : Machine.exec Reception.step r actions = some r') (hs : ¬ Stranded r') :
    Machine.Along Reception.step Meets r actions := by
  induction actions generalizing r with
  | nil => trivial
  | cons a actions ih =>
    obtain ⟨u, hu, h⟩ := Machine.exec_cons_some.mp h
    refine ⟨?_, ?_⟩
    · by_contra hm
      exact hs (Machine.exec_inv (P := Stranded) (fun _ _ _ h hs => hs.step h) h
        (stranded_of_not_meets hm hu))
    · rw [hu]
      exact ih h

end Stranded

/-! ## Every run -/

/-- A run whose steps meet the condition is sound in every state; and a run in which the stack
has dropped every frame in the end is sound only if its steps have met it. -/
theorem freed_once_iff (isUp : Bool) (actions : List ReceptionAction) (r : Reception)
    (h : Machine.exec Reception.step (Reception.init isUp) actions = some r) :
    (Machine.Along Reception.step Meets (Reception.init isUp) actions → Sound r) ∧
      (r.Quiet → Sound r →
        Machine.Along Reception.step Meets (Reception.init isUp) actions) := by
  constructor
  · intro hm
    exact (Machine.exec_inv_along (I := Kept) (fun _ _ _ hm h k => k.step hm h) h hm
      (kept_init isUp)).sound
  · intro hquiet hsound
    refine along_of_not_stranded h fun hs => ?_
    rcases hs with hfault | ⟨-, hnot⟩
    · exact absurd (hsound.fault.symm.trans hfault) (by decide)
    · exact hnot hquiet

/-- A frame goes through the stack, one comes while the interface is down, and only then the
driver is disconnected and the interface destroyed. -/
def orderlyEnd : List ReceptionAction :=
  [.receive true true, .advance 0 true, .advance 0 true, .advance 0 true, .setUp false,
    .receive true true, .advance 1 true, .setDriverConfig, .destroyIfDriver, .destroy]

/-- The run of `orderlyEnd`, in which all frames are freed in time -/
theorem freed_once_iff_orderlyEnd : ∃ r,
    Machine.exec Reception.step (Reception.init true) orderlyEnd = some r ∧ Sound r :=
  ⟨_, rfl, (freed_once_iff true orderlyEnd _ rfl).1 (by decide)⟩

/-- The stack still holds a frame, in a socket's queue say, when the driver is disconnected
and the interface destroyed. -/
def lateFree : List ReceptionAction :=
  [.receive true true, .advance 0 true, .advance 0 true, .setDriverConfig, .destroyIfDriver,
    .destroy, .advance 0 true]

/-- In `lateFree` all is quiet, and a frame was not freed in time. -/
theorem lateFree_not_sound : ∃ r,
    Machine.exec Reception.step (Reception.init true) lateFree = some r ∧ r.Quiet ∧ ¬ Sound r :=
  ⟨_, rfl, by decide, fun h => absurd h.fault (by decide)⟩

end PicoHost.Netif
