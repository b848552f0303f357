import PicoHost.L2tap.Sockets
import PicoHost.Lib.Table

/-!
# Which sockets take a frame

Two open sockets of one driver may both take a frame if they have the same filter, or
if both filters are at most the maximal length of an IEEE 802.3 frame: such a socket
takes every IEEE 802.2 frame. `esp_vfs_l2tap_eth_filter` hands a frame to every socket
that takes it. So no frame is handed out twice exactly if no two sockets clash
(`delivers_iff`), and then a frame that is taken is in one queue or has been dropped
(`ethFilter_cases`).
-/

namespace PicoHost.L2tap

open Table

section Clash

variable (C : Config)

/-- Some frame passes both filters. -/
def Overlap (f g : UInt16) : Prop :=
  f = g ∨ f ≤ C.ethIeee8023MaxLen ∧ g ≤ C.ethIeee8023MaxLen

instance (f g : UInt16) : Decidable (Overlap C f g) := inferInstanceAs (Decidable (_ ∨ _))

/-- The socket is open and bound to this driver. -/
def L2tapContext.Bound (it : L2tapContext) (driverHandle : Option Handle) : Prop :=
  it.state = .opened ∧ it.driverHandle = driverHandle ∧ driverHandle ≠ none

instance (it : L2tapContext) (driverHandle : Option Handle) :
    Decidable (it.Bound driverHandle) := inferInstanceAs (Decidable (_ ∧ _))

/-- Two open sockets of one driver with overlapping filters. -/
structure Clash (a b : L2tapContext) : Prop where
  left : a.Bound a.driverHandle
  right : b.Bound a.driverHandle
  overlap : Overlap C a.ethtypeFilter b.ethtypeFilter

/-- No two sockets clash. -/
def Exclusive (sockets : List L2tapContext) : Prop := sockets.Pairwise fun a b => ¬ Clash C a b

variable {C} {a b : L2tapContext} {l pre post : List L2tapContext}

theorem Overlap.symm {f g : UInt16} (h : Overlap C f g) : Overlap C g f := by
  rcases h with rfl | ⟨hf, hg⟩
  · exact .inl rfl
  · exact .inr ⟨hg, hf⟩

theorem Clash.symm (h : Clash C a b) : Clash C b a := by
  obtain ⟨hopen, heq, hne⟩ := h.right
  have hleft := h.left
  rw [← heq] at hleft
  exact ⟨⟨hopen, rfl, heq ▸ hne⟩, hleft, h.overlap.symm⟩

/-- One socket among the others. -/
theorem exclusive_middle :
    Exclusive C (pre ++ a :: post) ↔
      (∀ b ∈ pre ++ post, ¬ Clash C a b) ∧ Exclusive C (pre ++ post) := by
  have hsymm : ∀ {x y : L2tapContext}, ¬ Clash C x y → ¬ Clash C y x := fun h h' => h h'.symm
  rw [Exclusive, List.pairwise_middle hsymm, List.pairwise_cons]
  rfl

end Clash

section Takes

variable {C : Config} {a b it : L2tapContext} {driverHandle : Handle} {ethType : UInt16}

theorem takes_iff : it.takes C driverHandle ethType = true ↔
    it.Bound (some driverHandle) ∧ Overlap C it.ethtypeFilter ethType := by
  simp [L2tapContext.takes, L2tapContext.Bound, Overlap]

/-- Two sockets clash if some frame is for both. -/
theorem clash_iff : Clash C a b ↔ ∃ driverHandle ethType,
    a.takes C driverHandle ethType = true ∧ b.takes C driverHandle ethType = true := by
  constructor
  · intro h
    obtain ⟨driverHandle, hdriver⟩ := Option.ne_none_iff_exists'.mp h.left.2.2
    have hleft := h.left
    have hright := h.right
    rw [hdriver] at hleft hright
    -- a frame whose type is the filter of one of them
    exact ⟨driverHandle, a.ethtypeFilter, takes_iff.mpr ⟨hleft, .inl rfl⟩,
      takes_iff.mpr ⟨hright, h.overlap.symm⟩⟩
  · rintro ⟨driverHandle, ethType, ha, hb⟩
    obtain ⟨hleft, ha⟩ := takes_iff.mp ha
    obtain ⟨hright, hb⟩ := takes_iff.mp hb
    refine ⟨hleft.2.1 ▸ hleft, hleft.2.1 ▸ hright, ?_⟩
    rcases ha with ha | ⟨ha, htype⟩
    · rw [ha]
      exact hb.symm
    · rcases hb with hb | ⟨hb, -⟩
      · exact .inr ⟨ha, hb ▸ htype⟩
      · exact .inr ⟨ha, hb⟩

end Takes

/-! ## The loop over the sockets -/

section Loop

variable {C : Config} {driverHandle : Handle} {ethType : UInt16} {buff : Buffer}
  {l pre post : List L2tapContext} {it : L2tapContext}

/-- Every socket that takes the frame is notified. -/
theorem notified_length (i size : Nat) :
    (ethFilterFrom C driverHandle ethType buff l i size).notified.length =
      (l.filter fun it => it.takes C driverHandle ethType).length := by
  induction l generalizing i size with
  | nil => rfl
  | cons it rest ih =>
    rw [ethFilterFrom]
    split
    next htakes =>
      simp only [List.filter_cons_of_pos, htakes, List.length_cons, ← ih (i + 1) 0]
      split <;> rfl
    next htakes =>
      simp only [List.filter_cons_of_neg, htakes, Bool.false_eq_true, not_false_eq_true]
      exact ih (i + 1) size

/-- A frame is never handed to two sockets, exactly if no two sockets clash. -/
theorem delivers_iff : (∀ (frame : EthFrame) (buff : Buffer),
    (ethFilter C l frame buff).notified.length ≤ 1) ↔ Exclusive C l := by
  have hlength : ∀ (frame : EthFrame) (buff : Buffer),
      (ethFilter C l frame buff).notified.length ≤ 1 ↔
        l.Pairwise fun a b => ¬ (a.takes C frame.driverHandle frame.ethType = true ∧
          b.takes C frame.driverHandle frame.ethType = true) := by
    intro frame buff
    rw [ethFilter, notified_length, filter_length_le_one]
  constructor
  -- for two sockets that clash there is a frame
  · intro h
    rw [Exclusive, List.pairwise_iff_getElem]
    intro i j hi hj hlt hclash
    obtain ⟨driverHandle, ethType, htakes⟩ := clash_iff.mp hclash
    have hframe := (hlength ⟨driverHandle, ethType, sizeofEthHdr, Nat.le_refl _⟩ 0).mp (h _ 0)
    exact List.pairwise_iff_getElem.mp hframe i j hi hj hlt htakes
  · intro h frame buff
    exact (hlength frame buff).mpr (h.imp fun hclash htakes => hclash (clash_iff.mpr ⟨_, _, htakes⟩))

/-- Nobody takes the frame: nothing changes. -/
theorem ethFilterFrom_none (h : ∀ it ∈ l, it.takes C driverHandle ethType = false)
    (i size : Nat) :
    ethFilterFrom C driverHandle ethType buff l i size = ⟨l, size, [], []⟩ := by
  induction l generalizing i with
  | nil => rfl
  | cons it rest ih =>
    have hnot : ¬ it.takes C driverHandle ethType = true :=
      Bool.eq_false_iff.mp (h it (List.mem_cons_self ..))
    rw [ethFilterFrom, if_neg hnot]
    dsimp only
    rw [ih fun other hother => h other (List.mem_cons_of_mem it hother)]

/-- What becomes of a frame that one socket takes: it is queued, or dropped if the queue
is full. -/
inductive Handed (C : Config) (e : FrameQueueEntry) (it : L2tapContext) :
    L2tapContext → List Buffer → Prop where
  | queued {it' : L2tapContext} (h : pushRxQueue C it e = some it') : Handed C e it it' []
  | dropped (h : pushRxQueue C it e = none) : Handed C e it it e.buff.toList

/-- One socket takes the frame. -/
theorem ethFilterFrom_one (hpre : ∀ it ∈ pre, it.takes C driverHandle ethType = false)
    (hit : it.takes C driverHandle ethType = true)
    (hpost : ∀ it ∈ post, it.takes C driverHandle ethType = false) (i size : Nat) :
    ∃ it' freed, Handed C ⟨some buff, size⟩ it it' freed ∧
      ethFilterFrom C driverHandle ethType buff (pre ++ it :: post) i size =
        ⟨pre ++ it' :: post, 0, freed, [i + pre.length]⟩ := by
  induction pre generalizing i with
  | nil =>
    rw [List.nil_append, ethFilterFrom, if_pos hit, ethFilterFrom_none hpost]
    cases hpush : pushRxQueue C it ⟨some buff, size⟩ with
    | some it' => exact ⟨it', [], .queued hpush, rfl⟩
    | none => exact ⟨it, [buff], .dropped hpush, rfl⟩
  | cons other rest ih =>
    have hnot : ¬ other.takes C driverHandle ethType = true :=
      Bool.eq_false_iff.mp (hpre other (List.mem_cons_self ..))
    obtain ⟨it', freed, hhanded, hrest⟩ :=
      ih (fun x hx => hpre x (List.mem_cons_of_mem other hx)) (i + 1)
    refine ⟨it', freed, hhanded, ?_⟩
    rw [List.cons_append, ethFilterFrom, if_neg hnot, hrest, List.length_cons]
    simp only [List.cons_append, Filtered.mk.injEq, List.cons.injEq, and_true, true_and]
    omega

/-- A frame that arrives while no two sockets clash. -/
theorem ethFilter_cases (h : Exclusive C l) (frame : EthFrame) (buff : Buffer) :
    ethFilter C l frame buff = ⟨l, frame.size, [], []⟩ ∨
      ∃ pre it post it' freed, l = pre ++ it :: post ∧
        it.takes C frame.driverHandle frame.ethType = true ∧
        Handed C ⟨some buff, frame.size⟩ it it' freed ∧
        ethFilter C l frame buff = ⟨pre ++ it' :: post, 0, freed, [pre.length]⟩ := by
  by_cases hnone : ∀ it ∈ l, it.takes C frame.driverHandle frame.ethType = false
  · exact .inl (ethFilterFrom_none hnone 0 frame.size)
  · refine .inr ?_
    simp only [not_forall, Bool.not_eq_false] at hnone
    obtain ⟨it, hmem, htakes⟩ := hnone
    obtain ⟨pre, post, rfl⟩ := List.append_of_mem hmem
    -- another one that takes it would clash
    have hothers : ∀ other ∈ pre ++ post,
        other.takes C frame.driverHandle frame.ethType = false := by
      intro other hother
      refine Bool.eq_false_iff.mpr fun hother' => ?_
      exact (exclusive_middle.mp h).1 other hother (clash_iff.mpr ⟨_, _, htakes, hother'⟩)
    obtain ⟨it', freed, hhanded, heq⟩ := @ethFilterFrom_one C frame.driverHandle frame.ethType
      buff pre post it (fun x hx => hothers x (List.mem_append_left _ hx)) htakes
      (fun x hx => hothers x (List.mem_append_right _ hx)) 0 frame.size
    refine ⟨pre, it, post, it', freed, rfl, htakes, hhanded, ?_⟩
    rw [ethFilter, heq, Nat.zero_add]

end Loop

end PicoHost.L2tap
