import PicoHost.L2tap.Filter

/-!
# What the sockets account for

As long as no two sockets clash, every buffer that was taken from a driver has been
freed once or waits in the queue of one socket, and an empty entry in a queue is the
marker of `l2tap_close`. The operations keep this invariant, one lemma for each;
`Inv.replace` has what they share.
-/

namespace PicoHost.L2tap

open Table

/-- `l2tap_close` has failed: nobody can read the socket or close it any more. -/
def L2tapContext.abandoned (it : L2tapContext) : Bool :=
  decide (it.state = .closing) && decide (it.cleanTask = none)

/-- The buffers in the queue of a socket that a read or the end of the socket frees. -/
def L2tapContext.waiting (it : L2tapContext) : List Buffer :=
  if it.abandoned then [] else flushRxQueue it

/-! ## The invariant -/

/-- An entry of a queue is a frame, or the marker if the socket is being closed. -/
def FrameQueueEntry.Ok (e : FrameQueueEntry) (state : SocketState) : Prop :=
  0 < e.len ∧ e.buff.isSome ∨ e = .marker ∧ state = .closing

structure L2tapContext.Ok (it : L2tapContext) : Prop where
  unused : it.state = .ready → it.rxQueue = none
  cleaned : it.cleanTask ≠ none → it.state = .closing
  empty : it.abandoned = true → it.rxQueue.getD [] = []
  entries : ∀ e ∈ it.rxQueue.getD [], e.Ok it.state

structure Inv (C : Config) (s : Tap) : Prop where
  exclusive : Exclusive C s.sockets
  ok : ∀ it ∈ s.sockets, it.Ok
  once : (s.freed ++ s.sockets.flatMap L2tapContext.waiting).Perm s.taken
  nodup : s.taken.Nodup
  fresh : ∀ b ∈ s.taken, b < s.received

section Sockets

variable {C : Config} {it : L2tapContext}

/-- The frames that wait are those of the queue. -/
theorem waiting_of_ok (h : it.Ok) : it.waiting = flushRxQueue it := by
  rw [L2tapContext.waiting]
  split
  next habandoned => rw [flushRxQueue, h.empty habandoned, List.flatMap_nil]
  next => rfl

/-- The socket with another queue. -/
theorem L2tapContext.Ok.withQueue {q : Option (List FrameQueueEntry)} (h : it.Ok)
    (hready : it.state ≠ .ready) (habandoned : it.abandoned = true → q.getD [] = [])
    (hq : ∀ e ∈ q.getD [], e.Ok it.state) : L2tapContext.Ok { it with rxQueue := q } where
  unused hstate := absurd hstate hready
  cleaned := h.cleaned
  empty := habandoned
  entries := hq

/-- A socket whose clean task is at work. -/
theorem ok_cleaning {q : Option (List FrameQueueEntry)} (hstate : it.state = .closing)
    (hq : ∀ e ∈ q.getD [], e.Ok it.state) (pc : CleanPc) :
    L2tapContext.Ok { it with rxQueue := q, cleanTask := some pc } where
  unused hready := nomatch hstate.symm.trans hready
  cleaned _ := hstate
  empty habandoned := by simp [L2tapContext.abandoned] at habandoned
  entries := hq

/-! ## The queue -/

/-- A push fails or appends its entry. -/
theorem push_cases (C : Config) (it : L2tapContext) (e : FrameQueueEntry) :
    pushRxQueue C it e = none ∨
      ∃ q, it.rxQueue = some q ∧
        pushRxQueue C it e = some { it with rxQueue := some (q ++ [e]) } := by
  rw [pushRxQueue]
  cases hq : it.rxQueue with
  | none => exact .inl rfl
  | some q =>
    dsimp only
    split
    · exact .inr ⟨q, rfl, rfl⟩
    · exact .inl rfl

/-- The marker is no frame. -/
theorem flushed_marker : FrameQueueEntry.marker.flushed = [] := rfl

/-- Pushing the marker changes the queue only. -/
theorem push_marker (C : Config) (it : L2tapContext) :
    ∃ q : Option (List FrameQueueEntry),
      (pushRxQueue C it .marker).getD it = { it with rxQueue := q } ∧
      (∀ e ∈ q.getD [], e ∈ it.rxQueue.getD [] ∨ e = .marker) ∧
      (q.getD []).flatMap FrameQueueEntry.flushed = flushRxQueue it := by
  rcases push_cases C it .marker with h | ⟨q, hq, h⟩
  · refine ⟨it.rxQueue, ?_, fun e he => .inl he, rfl⟩
    rw [h]
    rfl
  · refine ⟨some (q ++ [.marker]), ?_, ?_, ?_⟩
    · rw [h]
      rfl
    · intro e he
      rw [hq]
      rcases List.mem_append.mp he with he | he
      · exact .inl he
      · exact .inr (List.mem_singleton.mp he)
    · rw [flushRxQueue, hq, Option.getD_some, Option.getD_some, List.flatMap_append,
        List.flatMap_singleton, flushed_marker, List.append_nil]

/-- A pop takes an entry out of the queue and frees its buffer. -/
theorem pop_spec (h : it.Ok) {len : Nat} {r : Popped} (hpop : popRxQueue C it len = some r) :
    it.state ≠ .ready ∧ ∃ q : Option (List FrameQueueEntry),
      r.socket = { it with rxQueue := q } ∧ (it.abandoned = true → q.getD [] = []) ∧
      (∀ e ∈ q.getD [], e.Ok it.state) ∧
      r.freed ++ (q.getD []).flatMap FrameQueueEntry.flushed = flushRxQueue it := by
  rw [popRxQueue] at hpop
  cases hq : it.rxQueue with
  | none =>
    rw [hq] at hpop
    cases hpop
  | some queue =>
    have hready : it.state ≠ .ready := fun hready => nomatch hq.symm.trans (h.unused hready)
    refine ⟨hready, ?_⟩
    have hflush : flushRxQueue it = queue.flatMap FrameQueueEntry.flushed := by
      rw [flushRxQueue, hq]
      rfl
    have hempty := h.empty
    have hentries := h.entries
    rw [hq] at hpop hempty hentries
    rw [hflush]
    cases queue with
    | nil =>
      dsimp only at hpop
      split at hpop
      · cases hpop
        refine ⟨some [], ?_, fun _ => rfl, nofun, rfl⟩
        rw [← hq]
      · cases hpop
    | cons frameInfo rest =>
      -- nobody empties the queue of an abandoned socket
      have hused : ∀ {p : Prop}, it.abandoned = true → p :=
        fun habandoned => nomatch hempty habandoned
      have hrest : ∀ e ∈ rest, e.Ok it.state :=
        fun e he => hentries e (List.mem_cons_of_mem frameInfo he)
      dsimp only at hpop
      split at hpop
      next hlen =>
        -- the marker, which is pushed back
        cases hpop
        obtain ⟨rfl, hclosing⟩ : frameInfo = .marker ∧ it.state = .closing := by
          rcases hentries frameInfo (List.mem_cons_self ..) with ⟨hpos, -⟩ | hmarker
          · exact absurd hlen (Nat.pos_iff_ne_zero.mp hpos)
          · exact hmarker
        obtain ⟨q, hpush, hmem, hflushed⟩ := push_marker C { it with rxQueue := some rest }
        refine ⟨q, hpush, hused, fun e he => ?_, hflushed⟩
        rcases hmem e he with he | rfl
        · exact hrest e he
        · exact .inr ⟨rfl, hclosing⟩
      next hlen =>
        cases hpop
        refine ⟨some rest, rfl, hused, hrest, ?_⟩
        rw [List.flatMap_cons, FrameQueueEntry.flushed, if_pos (Nat.pos_of_ne_zero hlen)]
        rfl

end Sockets

/-! ## The steps -/

section Steps

variable {C : Config} {s s' : Tap} {fd : Nat} {it it' : L2tapContext}

/-- A free socket is not open. -/
theorem ready_ne_opened : SocketState.ready ≠ .opened := nofun

/-- A socket that is being closed is not open. -/
theorem closing_ne_opened : SocketState.closing ≠ .opened := nofun

/-- A socket does not clash with the others. -/
theorem Inv.not_clash (inv : Inv C s) (hfd : s.sockets[fd]? = some it) :
    ∀ other ∈ s.sockets.eraseIdx fd, ¬ Clash C it other := by
  obtain ⟨pre, post, hl, herase, -⟩ := exists_split hfd
  have hexclusive := inv.exclusive
  rw [hl] at hexclusive
  rw [herase]
  exact (exclusive_middle.mp hexclusive).1

/-- A socket is replaced by one that accounts for its buffers and clashes with no
other. -/
theorem Inv.replace (inv : Inv C s) (hfd : s.sockets[fd]? = some it) (hok : it'.Ok)
    {out : List Buffer} (hperm : out ++ it'.waiting = it.waiting)
    (hclash : ∀ other ∈ s.sockets.eraseIdx fd, ¬ Clash C it' other) :
    Inv C (s.replace fd it' out) := by
  obtain ⟨pre, post, hl, herase, hset⟩ := exists_split hfd
  have hexclusive := inv.exclusive
  have honce := inv.once
  have hoks := inv.ok
  rw [hl] at hexclusive honce hoks
  rw [herase] at hclash
  refine ⟨?_, ?_, ?_, inv.nodup, inv.fresh⟩
  · rw [Tap.replace, hset]
    exact exclusive_middle.mpr ⟨hclash, (exclusive_middle.mp hexclusive).2⟩
  · rw [Tap.replace, hset]
    intro x hx
    rcases List.mem_append.mp hx with hx | hx
    · exact hoks x (List.mem_append_left _ hx)
    · rcases List.mem_cons.mp hx with rfl | hx
      · exact hok
      · exact hoks x (List.mem_append_right _ (List.mem_cons_of_mem it hx))
  · rw [Tap.replace, hset]
    have hnew : (out ++ it'.waiting).Perm ([] ++ it.waiting) := List.Perm.of_eq hperm
    exact perm_replace honce hnew

/-- A read keeps the invariant. -/
theorem Inv.pop (inv : Inv C s) (hfd : s.sockets[fd]? = some it) {len : Nat}
    (h : s.pop C fd it len = some s') : Inv C s' := by
  obtain ⟨r, hpop, rfl⟩ := Option.map_eq_some_iff.mp h
  have hit := inv.ok it (List.mem_of_getElem? hfd)
  obtain ⟨hready, q, hsocket, habandoned, hq, hfreed⟩ := pop_spec hit hpop
  have hok := hit.withQueue hready habandoned hq
  rw [hsocket]
  refine inv.replace hfd hok ?_ ?_
  · rw [waiting_of_ok hok, waiting_of_ok hit]
    exact hfreed
  · intro other hother hclash
    exact inv.not_clash hfd other hother ⟨hclash.left, hclash.right, hclash.overlap⟩

/-- The cleaning task keeps the invariant. -/
theorem Inv.clean (inv : Inv C s) (hfd : s.sockets[fd]? = some it)
    (h : s.clean C fd it = some s') : Inv C s' := by
  have hit := inv.ok it (List.mem_of_getElem? hfd)
  rw [Tap.clean] at h
  cases hclean : it.cleanTask with
  | none =>
    rw [hclean] at h
    cases h
  | some pc =>
    rw [hclean] at h
    have hclosing : it.state = .closing := hit.cleaned (hclean ▸ Option.some_ne_none pc)
    have hclosed : it.state ≠ .opened := hclosing ▸ nofun
    cases pc with
    | push =>
      cases h
      obtain ⟨q, hpush, hmem, hflushed⟩ := push_marker C it
      rw [hpush]
      have hok : L2tapContext.Ok { it with rxQueue := q, cleanTask := some .pop } := by
        refine ok_cleaning hclosing (fun e he => ?_) .pop
        rcases hmem e he with he | rfl
        · exact hit.entries e he
        · exact .inr ⟨rfl, hclosing⟩
      refine inv.replace hfd hok ?_ fun other _ hclash => hclosed hclash.left.1
      rw [waiting_of_ok hok, waiting_of_ok hit]
      exact hflushed
    | pop =>
      obtain ⟨r, hpop, rfl⟩ := Option.map_eq_some_iff.mp h
      obtain ⟨-, q, hsocket, -, hq, hfreed⟩ := pop_spec hit hpop
      have hok := ok_cleaning hclosing hq .flush
      rw [hsocket]
      refine inv.replace hfd hok ?_ fun other _ hclash => hclosed hclash.left.1
      rw [waiting_of_ok hok, waiting_of_ok hit]
      exact hfreed
    | flush =>
      -- the only step that ends with a socket without a queue
      cases h
      have hok : L2tapContext.Ok { it with state := .ready, rxQueue := none, cleanTask := none } :=
        ⟨fun _ => rfl, fun h => absurd rfl h, fun _ => rfl, fun _ he => (List.not_mem_nil he).elim⟩
      refine inv.replace hfd hok ?_ fun other _ hclash => ready_ne_opened hclash.left.1
      rw [waiting_of_ok hok, waiting_of_ok hit]
      exact List.append_nil _

/-- `l2tap_close` finds its socket empty, or leaves it to the clean task. -/
theorem Inv.close (inv : Inv C s) (hfd : s.sockets[fd]? = some it) {sem task : Bool}
    (hallow : it.state = .opened → sem && task ∨ it.rxQueue.getD [] = []) :
    Inv C (s.replace fd (closeSocket it sem task) []) := by
  have hit := inv.ok it (List.mem_of_getElem? hfd)
  rw [closeSocket]
  split
  next => exact inv.replace hfd hit rfl (inv.not_clash hfd)
  next hstate =>
    have hopened : it.state = .opened := Decidable.not_not.mp hstate
    have hframes : ∀ e ∈ it.rxQueue.getD [], e.Ok .closing := by
      intro e he
      rcases hit.entries e he with hframe | ⟨-, hclosing⟩
      · exact .inl hframe
      · exact nomatch hopened.symm.trans hclosing
    split
    next =>
      have hok : L2tapContext.Ok { it with state := .closing, cleanTask := some .push } :=
        ⟨nofun, fun _ => rfl, nofun, hframes⟩
      refine inv.replace hfd hok ?_ fun other _ hclash => closing_ne_opened hclash.left.1
      rw [waiting_of_ok hok, waiting_of_ok hit]
      rfl
    next hfailed =>
      -- the socket is abandoned, with nothing in its queue
      have hempty : it.rxQueue.getD [] = [] := (hallow hopened).resolve_left hfailed
      have hok : L2tapContext.Ok { it with state := .closing } :=
        ⟨nofun, fun _ => rfl, fun _ => hempty, hframes⟩
      refine inv.replace hfd hok ?_ fun other _ hclash => closing_ne_opened hclash.left.1
      rw [waiting_of_ok hok, waiting_of_ok hit]
      rfl

/-- `l2tap_open` takes the first socket that is ready, or leaves the table as it is. -/
theorem l2tapOpen_cases (sockets : List L2tapContext) (nonBlocking queue : Bool) :
    (sockets.findIdx? fun it => decide (it.state = .ready)) = none ∧
      (l2tapOpen sockets nonBlocking queue).1 = sockets ∨
    ∃ fd it, (sockets.findIdx? fun it => decide (it.state = .ready)) = some fd ∧
      sockets[fd]? = some it ∧ it.state = .ready ∧
      (l2tapOpen sockets nonBlocking queue).1 =
        if queue then sockets.set fd { it with
          state := .opened, rxQueue := some [], ethtypeFilter := 0, driverHandle := none,
          nonBlocking }
        else sockets := by
  rw [l2tapOpen]
  cases hfind : sockets.findIdx? fun it => decide (it.state = .ready) with
  | none => exact .inl ⟨rfl, rfl⟩
  | some fd =>
    obtain ⟨hlt, hready, -⟩ := List.findIdx?_eq_some_iff_getElem.mp hfind
    have hfd : sockets[fd]? = some sockets[fd] := List.getElem?_eq_getElem hlt
    refine .inr ⟨fd, sockets[fd], rfl, hfd, of_decide_eq_true hready, ?_⟩
    dsimp only
    rw [hfd]
    cases queue with
    | false => rfl
    | true => rfl

/-- A new socket keeps the invariant. -/
theorem Inv.open_ (inv : Inv C s) (nonBlocking queue : Bool) :
    Inv C { s with sockets := (l2tapOpen s.sockets nonBlocking queue).1 } := by
  rcases l2tapOpen_cases s.sockets nonBlocking queue with
    ⟨-, hsame⟩ | ⟨fd, it, -, hfd, hready, hopened⟩
  · rw [hsame]
    exact inv
  · rw [hopened]
    cases queue with
    | false => exact inv
    | true =>
      have hit := inv.ok it (List.mem_of_getElem? hfd)
      have hclean : it.cleanTask = none := by
        by_contra hclean
        exact nomatch hready.symm.trans (hit.cleaned hclean)
      have hok : L2tapContext.Ok { it with
          state := .opened, rxQueue := some [], ethtypeFilter := 0, driverHandle := none,
          nonBlocking } :=
        ⟨nofun, fun h => absurd hclean h, fun _ => rfl, nofun⟩
      have hnothing : [] ++ L2tapContext.waiting { it with
          state := .opened, rxQueue := some [], ethtypeFilter := 0, driverHandle := none,
          nonBlocking } = it.waiting := by
        rw [waiting_of_ok hok, waiting_of_ok hit, flushRxQueue, flushRxQueue,
          hit.unused hready]
        rfl
      rw [if_pos rfl]
      exact inv.replace hfd hok hnothing fun other _ hclash => hclash.left.2.2 rfl

end Steps

section Receive

variable {C : Config} {s : Tap}

/-- A frame that a socket takes is accounted for there. -/
theorem handed_spec {it it' : L2tapContext} {frame : EthFrame} {buff : Buffer}
    {freed : List Buffer} (hit : it.Ok) (hopen : it.state = .opened)
    (h : Handed C ⟨some buff, frame.size⟩ it it' freed) :
    it'.Ok ∧ (freed ++ it'.waiting).Perm ([buff] ++ it.waiting) ∧
      ∀ other, Clash C it' other → Clash C it other := by
  have hsize : 0 < frame.size := Nat.lt_of_lt_of_le (by decide) frame.header
  cases h with
  | queued hpush =>
    rcases push_cases C it ⟨some buff, frame.size⟩ with hfull | ⟨q, hq, hsome⟩
    · exact nomatch hfull.symm.trans hpush
    · cases hsome.symm.trans hpush
      have hready : it.state ≠ .ready := hopen ▸ nofun
      have hok : L2tapContext.Ok { it with rxQueue := some (q ++ [⟨some buff, frame.size⟩]) } := by
        refine hit.withQueue hready (fun habandoned => ?_) fun e he => ?_
        · simp [L2tapContext.abandoned, hopen] at habandoned
        · rcases List.mem_append.mp he with he | he
          · exact hit.entries e (by rwa [hq])
          · rw [List.mem_singleton.mp he]
            exact .inl ⟨hsize, rfl⟩
      refine ⟨hok, ?_, fun other h => ⟨h.left, h.right, h.overlap⟩⟩
      rw [waiting_of_ok hok, waiting_of_ok hit, flushRxQueue, flushRxQueue, hq,
        Option.getD_some, Option.getD_some, List.flatMap_append, List.flatMap_singleton,
        FrameQueueEntry.flushed, if_pos hsize, List.nil_append]
      exact List.perm_append_comm
  | dropped hpush => exact ⟨hit, List.Perm.refl _, fun other h => h⟩

/-- A frame keeps the invariant. -/
theorem Inv.receive (inv : Inv C s) (frame : EthFrame) : Inv C (s.receive C frame) := by
  have hfresh : ∀ b ∈ s.taken, b < s.received + 1 :=
    fun b hb => Nat.lt_succ_of_lt (inv.fresh b hb)
  rcases ethFilter_cases inv.exclusive frame s.received with
    hnone | ⟨pre, it, post, it', freed, hl, htakes, hhanded, hone⟩
  -- the frame goes to the IP stack, which frees it
  · have hsize : frame.size ≠ 0 := by
      have hheader : 14 ≤ frame.size := frame.header
      omega
    have hreceive : s.receive C frame = { s with received := s.received + 1 } := by
      rw [Tap.receive, hnone]
      simp [hsize]
    rw [hreceive]
    exact ⟨inv.exclusive, inv.ok, inv.once, inv.nodup, hfresh⟩
  -- one socket takes it, and all others stay as they are
  · have hmem : it ∈ s.sockets := hl ▸ List.mem_append_right _ (List.mem_cons_self ..)
    obtain ⟨hok, hperm, hclash⟩ := handed_spec (inv.ok it hmem) (takes_iff.mp htakes).1.1 hhanded
    have hexclusive := inv.exclusive
    have honce := inv.once
    have hoks := inv.ok
    rw [hl] at hexclusive honce hoks
    obtain ⟨hothers, hexclusive⟩ := exclusive_middle.mp hexclusive
    rw [Tap.receive, hone]
    refine ⟨?_, ?_, perm_replace honce hperm, ?_, ?_⟩
    · exact exclusive_middle.mpr ⟨fun other hother h => hothers other hother (hclash other h),
        hexclusive⟩
    · intro x hx
      rcases List.mem_append.mp hx with hx | hx
      · exact hoks x (List.mem_append_left _ hx)
      · rcases List.mem_cons.mp hx with rfl | hx
        · exact hok
        · exact hoks x (List.mem_append_right _ (List.mem_cons_of_mem it hx))
    · exact List.nodup_cons.mpr
        ⟨fun hmem => Nat.lt_irrefl _ (inv.fresh s.received hmem), inv.nodup⟩
    · intro b hb
      rcases List.mem_cons.mp hb with rfl | hb
      · exact Nat.lt_succ_self _
      · exact hfresh b hb

end Receive

section Init

/-- At the start no frame waits. -/
theorem inv_init (C : Config) (maxFds : Nat) : Inv C (Tap.init maxFds) := by
  have hzero : ∀ it ∈ (Tap.init maxFds).sockets, it = .zero :=
    fun it hit => List.eq_of_mem_replicate hit
  refine ⟨?_, ?_, ?_, List.nodup_nil, nofun⟩
  · refine List.pairwise_of_forall_mem_list fun a ha b _ hclash => ?_
    rw [hzero a ha] at hclash
    exact ready_ne_opened hclash.left.1
  · intro it hit
    rw [hzero it hit]
    exact ⟨fun _ => rfl, fun h => absurd rfl h, fun _ => rfl, fun _ he => (List.not_mem_nil he).elim⟩
  · refine List.Perm.of_eq (List.flatMap_eq_nil_iff.mpr fun it hit => ?_)
    rw [hzero it hit]
    rfl

end Init

end PicoHost.L2tap
