import PicoHost.L2tap.Close

/-!
# Frames are read in the order of their arrival

What the readers of one socket get, whatever happens to the other ones: the frames that the filter
has put into its queue since it was opened, in this order and each once, with as many bytes as were
asked for (`frames_in_order`).
-/

namespace PicoHost.L2tap

open Table

/-! ## What is recorded of a socket -/

/-- A frame that a reader has got: its buffer, how many bytes were asked for, and how many have been
copied -/
structure Got where
  buff : Buffer
  len : Nat
  copied : Nat
deriving DecidableEq, Repr

/-- The frames that have been put into the queue of a socket since it was opened, with their sizes,
and those that have been read -/
structure Record where
  frames : List (Buffer × Nat)
  reads : List Got
deriving DecidableEq, Repr

section Recorded

variable (C : Config) (fd : Nat)

def Record.pop (r : Record) (it : L2tapContext) (len : Nat) : Record :=
  match popRxQueue C it len with
  | some ⟨_, [buff], some copied⟩ => { r with reads := r.reads ++ [⟨buff, len, copied⟩] }
  | _ => r

/-- What an action adds to the record of the socket `fd` -/
def Record.next (s : Tap) (r : Record) : Action → Record
  | .open_ nonBlocking queue =>
    if (l2tapOpen s.sockets nonBlocking queue).2 = some fd then ⟨[], []⟩ else r
  | .read fd' len =>
    match s.sockets[fd]? with
    | some it => if fd' ≠ fd ∨ it.state ≠ .opened ∨ len = 0 then r else r.pop C it len
    | none => r
  | .wake fd' len =>
    match s.sockets[fd]? with
    | some it => if fd' ≠ fd then r else r.pop C it len
    | none => r
  | .receive frame =>
    match s.sockets[fd]? with
    | some it =>
      if it.takes C frame.driverHandle frame.ethType ∧
          (pushRxQueue C it ⟨some s.received, frame.size⟩).isSome then
        { r with frames := r.frames ++ [(s.received, frame.size)] }
      else r
    | none => r
  | .ioctl .. | .fcntl .. | .close .. | .clean _ => r

/-- A step with its record -/
def recorded (x : Tap × Record) (a : Action) : Option (Tap × Record) :=
  (x.1.step C a).map fun s => (s, x.2.next C fd x.1 a)

end Recorded

/-- The frames of the record have been read, each with its bytes, or wait in the queue. -/
def InOrder (it : L2tapContext) (r : Record) : Prop :=
  ∃ got waiting, r.frames = got ++ waiting ∧
    List.Forall₂ (fun f x => x.buff = f.1 ∧ x.copied = min x.len f.2) got r.reads ∧
    it.rxQueue = some (waiting.map fun f => ⟨some f.1, f.2⟩)

/-! ## One step -/

section Steps

variable {C : Config} {fd : Nat} {s s' : Tap} {it it' : L2tapContext} {r : Record}

/-- Only the queue of the socket matters to the order. -/
theorem inOrder_congr (h : InOrder it r) (hqueue : it'.rxQueue = it.rxQueue) : InOrder it' r := by
  obtain ⟨got, waiting, hframes, hreads, hq⟩ := h
  exact ⟨got, waiting, hframes, hreads, hqueue.trans hq⟩

/-- A read of an empty queue returns nothing, or waits. -/
theorem pop_empty (hq : it.rxQueue = some []) (len : Nat) :
    popRxQueue C it len = if it.nonBlocking then some ⟨it, [], none⟩ else none := by
  rw [popRxQueue, hq]

/-- A read takes the first frame of the queue. -/
theorem pop_frame {b : Buffer} {n : Nat} {rest : List FrameQueueEntry}
    (hq : it.rxQueue = some (⟨some b, n⟩ :: rest)) (hn : n ≠ 0) (len : Nat) :
    popRxQueue C it len = some ⟨{ it with rxQueue := some rest }, [b], some (min len n)⟩ := by
  rw [popRxQueue, hq]
  exact if_neg hn

/-- Of an open socket a pop takes the next frame. -/
theorem InOrder.pop (h : InOrder it r) (hit : it.Ok) (hopen : it.state = .opened) {len : Nat}
    {p : Popped} (hpop : popRxQueue C it len = some p) : InOrder p.socket (r.pop C it len) := by
  obtain ⟨got, waiting, hframes, hreads, hq⟩ := h
  cases waiting with
  | nil =>
    rw [Record.pop, hpop]
    rw [pop_empty hq] at hpop
    split at hpop
    · cases hpop
      exact ⟨got, [], hframes, hreads, hq⟩
    · cases hpop
  | cons f waiting =>
    have hsize : f.2 ≠ 0 := by
      have hmem : ⟨some f.1, f.2⟩ ∈ it.rxQueue.getD [] := by
        rw [hq]
        exact List.mem_cons_self ..
      rcases hit.entries _ hmem with ⟨hpos, -⟩ | ⟨-, hclosing⟩
      · exact Nat.pos_iff_ne_zero.mp hpos
      · exact absurd (hclosing.symm.trans hopen) closing_ne_opened
    rw [Record.pop, hpop]
    rw [pop_frame hq hsize] at hpop
    cases hpop
    refine ⟨got ++ [f], waiting, ?_, ?_, rfl⟩
    · rw [List.append_assoc]
      exact hframes
    · exact List.rel_append hreads (.cons ⟨rfl, rfl⟩ .nil)

/-- A frame goes to the end of the queue, if there is room. -/
theorem InOrder.push (h : InOrder it r) (b : Buffer) (n : Nat) :
    InOrder ((pushRxQueue C it ⟨some b, n⟩).getD it)
      (if (pushRxQueue C it ⟨some b, n⟩).isSome then { r with frames := r.frames ++ [(b, n)] }
        else r) := by
  rcases push_cases C it ⟨some b, n⟩ with hfull | ⟨q, hq, hpush⟩
  · rw [hfull]
    exact h
  · obtain ⟨got, waiting, hframes, hreads, hqueue⟩ := h
    cases hq.symm.trans hqueue
    rw [hpush]
    refine ⟨got, waiting ++ [(b, n)], ?_, hreads, ?_⟩
    · show r.frames ++ [(b, n)] = _
      rw [hframes, List.append_assoc]
    · show some _ = _
      rw [List.map_append]
      rfl

/-- What the filter does to one socket, if none of those before it takes the frame -/
theorem ethFilterFrom_at {driverHandle : Handle} {ethType : UInt16} {buff : Buffer}
    {l : List L2tapContext} (hfd : l[fd]? = some it)
    (hpre : ∀ j < fd, ∀ x, l[j]? = some x → x.takes C driverHandle ethType = false)
    (i size : Nat) :
    (ethFilterFrom C driverHandle ethType buff l i size).sockets[fd]? =
      some (if it.takes C driverHandle ethType then
        (pushRxQueue C it ⟨some buff, size⟩).getD it else it) := by
  induction l generalizing fd i size with
  | nil => cases hfd
  | cons x rest ih =>
    rw [ethFilterFrom]
    cases fd with
    | zero =>
      cases hfd
      split
      · cases pushRxQueue C it ⟨some buff, size⟩ <;> rfl
      · rfl
    | succ fd =>
      have hx : x.takes C driverHandle ethType = false := hpre 0 (Nat.succ_pos fd) x rfl
      rw [if_neg (by simp [hx])]
      exact ih hfd (fun j hj y hy => hpre (j + 1) (Nat.succ_lt_succ hj) y hy) (i + 1) size

/-- Another socket takes the frame. -/
theorem ethFilterFrom_other {driverHandle : Handle} {ethType : UInt16} {buff : Buffer}
    {l : List L2tapContext} (hfd : l[fd]? = some it)
    (hit : it.takes C driverHandle ethType = false) (i size : Nat) :
    (ethFilterFrom C driverHandle ethType buff l i size).sockets[fd]? = some it := by
  induction l generalizing fd i size with
  | nil => cases hfd
  | cons x rest ih =>
    rw [ethFilterFrom]
    cases fd with
    | zero =>
      cases hfd
      rw [if_neg (by simp [hit])]
      rfl
    | succ fd =>
      split
      · cases pushRxQueue C x ⟨some buff, size⟩ <;> exact ih hfd (i + 1) 0
      · exact ih hfd (i + 1) size

/-- The next frame, for one of the sockets -/
theorem receive_at (hexclusive : Exclusive C s.sockets) (hfd : s.sockets[fd]? = some it)
    (frame : EthFrame) : (s.receive C frame).sockets[fd]? =
      some (if it.takes C frame.driverHandle frame.ethType then
        (pushRxQueue C it ⟨some s.received, frame.size⟩).getD it else it) := by
  show (ethFilter C s.sockets frame s.received).sockets[fd]? = _
  rw [ethFilter]
  cases htakes : it.takes C frame.driverHandle frame.ethType with
  | false => exact ethFilterFrom_other hfd htakes 0 frame.size
  | true =>
    rw [ethFilterFrom_at hfd ?_ 0 frame.size, htakes]
    intro j hj x hx
    -- one before it would clash
    refine Bool.eq_false_iff.mpr fun hxtakes => ?_
    obtain ⟨hjlt, rfl⟩ := List.getElem?_eq_some_iff.mp hx
    obtain ⟨hfdlt, rfl⟩ := List.getElem?_eq_some_iff.mp hfd
    exact List.pairwise_iff_getElem.mp hexclusive j fd hjlt hfdlt hj
      (clash_iff.mpr ⟨_, _, hxtakes, htakes⟩)

/-- A step leaves the other sockets alone. -/
theorem replace_other {fd' : Nat} (hne : fd' ≠ fd) (it' : L2tapContext) (freed : List Buffer) :
    (s.replace fd' it' freed).sockets[fd]? = s.sockets[fd]? :=
  List.getElem?_set_ne hne

/-- What is opened has an empty queue, and the other sockets stay. -/
theorem l2tapOpen_opened (sockets : List L2tapContext) (nonBlocking queue : Bool) :
    l2tapOpen sockets nonBlocking queue = (sockets, none) ∨
      ∃ fd it, sockets[fd]? = some it ∧
        l2tapOpen sockets nonBlocking queue =
          (sockets.set fd { it with
            state := .opened, rxQueue := some [], ethtypeFilter := 0, driverHandle := none,
            nonBlocking }, some fd) := by
  rw [l2tapOpen]
  split
  · exact .inl rfl
  · split
    · exact .inl rfl
    · rename_i fd _ _ it hit
      cases queue with
      | false => exact .inl rfl
      | true => exact .inr ⟨fd, it, hit, rfl⟩

/-- The clean task does not open its socket again. -/
theorem clean_not_opened (hit : it.Ok) (h : s.clean C fd it = some s') :
    ∃ it' freed, s' = s.replace fd it' freed ∧ it'.state ≠ .opened := by
  rw [Tap.clean] at h
  cases hclean : it.cleanTask with
  | none =>
    rw [hclean] at h
    cases h
  | some pc =>
    rw [hclean] at h
    have hclosing : it.state ≠ .opened :=
      hit.cleaned (hclean ▸ Option.some_ne_none pc) ▸ closing_ne_opened
    cases pc with
    | push =>
      cases h
      obtain ⟨q, hpush, -⟩ := push_marker C it
      refine ⟨_, [], rfl, ?_⟩
      rw [hpush]
      exact hclosing
    | pop =>
      obtain ⟨p, hpop, rfl⟩ := Option.map_eq_some_iff.mp h
      obtain ⟨q, hsocket⟩ := pop_socket hpop
      refine ⟨_, p.freed, rfl, ?_⟩
      rw [hsocket]
      exact hclosing
    | flush =>
      cases h
      exact ⟨_, _, rfl, ready_ne_opened⟩

/-- A socket that is closed is not open. -/
theorem closeSocket_opened {sem task : Bool} (h : (closeSocket it sem task).state = .opened) :
    False := by
  rw [closeSocket] at h
  split at h
  · rename_i hclosed
    exact hclosed h
  · split at h <;> exact closing_ne_opened h

/-- A frame opens no socket. -/
theorem receive_length (frame : EthFrame) :
    (s.receive C frame).sockets.length = s.sockets.length :=
  (ethFilterFrom_sockets s.sockets 0 frame.size).length_eq.symm

/-- What is open is in order. -/
structure FifoInv (C : Config) (fd : Nat) (x : Tap × Record) : Prop where
  inv : Inv C x.1
  order : ∀ it, x.1.sockets[fd]? = some it → it.state = .opened → InOrder it x.2

/-- A socket that is open after a step on a descriptor, which leaves the other ones alone -/
theorem order_replace {fd' : Nat} {it₀ : L2tapContext} {freed : List Buffer} {r' : Record}
    (hfd' : s.sockets[fd']? = some it₀)
    (horder : ∀ it, s.sockets[fd]? = some it → it.state = .opened → InOrder it r)
    (hsame : fd' = fd → it'.state = .opened → InOrder it' r') (hother : fd' ≠ fd → r' = r) :
    ∀ it, (s.replace fd' it' freed).sockets[fd]? = some it → it.state = .opened →
      InOrder it r' := by
  intro it hit hopen
  by_cases hfd : fd' = fd
  · subst hfd
    rw [replace_getElem? hfd'] at hit
    cases hit
    exact hsame rfl hopen
  · rw [replace_other hfd] at hit
    rw [hother hfd]
    exact horder it hit hopen

/-- Every allowed step keeps the order. -/
theorem FifoInv.step {x x' : Tap × Record} {a : Action} (h : FifoInv C fd x)
    (hallow : x.1.Allows C a) (hstep : recorded C fd x a = some x') : FifoInv C fd x' := by
  obtain ⟨s, r⟩ := x
  obtain ⟨s', hs, rfl⟩ := Option.map_eq_some_iff.mp hstep
  refine ⟨h.inv.step hallow hs, ?_⟩
  show ∀ it', s'.sockets[fd]? = some it' → it'.state = .opened → InOrder it' (r.next C fd s a)
  have hok : ∀ it, s.sockets[fd]? = some it → it.Ok :=
    fun it hfd => h.inv.ok it (List.mem_of_getElem? hfd)
  have horder : ∀ it, s.sockets[fd]? = some it → it.state = .opened → InOrder it r := h.order
  cases a with
  | open_ nonBlocking queue =>
    cases hs
    rcases l2tapOpen_opened s.sockets nonBlocking queue with hsame | ⟨fd', it, hfd', hopened⟩
    · intro it' hfd hopen
      rw [Record.next, hsame, if_neg (by simp)]
      have hfd : (l2tapOpen s.sockets nonBlocking queue).1[fd]? = some it' := hfd
      rw [hsame] at hfd
      exact horder it' hfd hopen
    · rw [hopened, Record.next, hopened]
      show ∀ it', (s.replace fd' _ []).sockets[fd]? = some it' → _
      refine order_replace hfd' horder ?_ ?_
      · rintro rfl -
        rw [if_pos rfl]
        exact ⟨[], [], rfl, .nil, rfl⟩
      · intro hne
        exact if_neg fun heq => hne (Option.some.inj heq)
  | ioctl fd' cmd =>
    cases hs
    rcases l2tapIoctl_cases s.sockets fd' cmd with
      hsame | ⟨it, driverHandle, ethtypeFilter, hfd', -, hset⟩
    · rw [hsame]
      exact horder
    · rw [hset]
      show ∀ it', (s.replace fd' _ []).sockets[fd]? = some it' → _
      exact order_replace hfd' horder
        (fun heq hopen => inOrder_congr (horder it (heq ▸ hfd') hopen) rfl) fun _ => rfl
  | read fd' len =>
    obtain ⟨it, hfd', hs⟩ := Option.bind_eq_some_iff.mp hs
    split at hs
    · rename_i hrefused
      cases hs
      intro it' hfd hopen
      have hnext : r.next C fd s (.read fd' len) = r := by
        rw [Record.next, hfd]
        refine if_pos ?_
        by_cases hne : fd' = fd
        · subst hne
          cases hfd.symm.trans hfd'
          exact .inr hrefused
        · exact .inl hne
      rw [hnext]
      exact horder it' hfd hopen
    · rename_i hopened
      obtain ⟨hopened, hlen⟩ := not_or.mp hopened
      obtain ⟨p, hpop, rfl⟩ := Option.map_eq_some_iff.mp hs
      refine order_replace hfd' horder ?_ ?_
      · rintro rfl -
        rw [Record.next, hfd']
        dsimp only
        rw [if_neg (by simp [hopened, hlen])]
        exact (horder it hfd' (not_not.mp hopened)).pop (hok it hfd') (not_not.mp hopened) hpop
      · intro hne
        rw [Record.next]
        split
        · exact if_pos (.inl hne)
        · rfl
  | wake fd' len =>
    obtain ⟨it, hfd', hs⟩ := Option.bind_eq_some_iff.mp hs
    obtain ⟨p, hpop, rfl⟩ := Option.map_eq_some_iff.mp hs
    refine order_replace hfd' horder ?_ ?_
    · rintro rfl hopen
      obtain ⟨q, hsocket⟩ := pop_socket hpop
      have hopened : it.state = .opened := by
        rw [hsocket] at hopen
        exact hopen
      rw [Record.next, hfd']
      dsimp only
      rw [if_neg (not_not_intro rfl)]
      exact (horder it hfd' hopened).pop (hok it hfd') hopened hpop
    · intro hne
      rw [Record.next]
      split
      · exact if_pos hne
      · rfl
  | fcntl fd' nonBlocking =>
    obtain ⟨it, hfd', rfl⟩ := Option.map_eq_some_iff.mp hs
    exact order_replace hfd' horder
      (fun heq hopen => inOrder_congr (horder it (heq ▸ hfd') hopen) rfl) fun _ => rfl
  | close fd' sem task =>
    obtain ⟨it, hfd', rfl⟩ := Option.map_eq_some_iff.mp hs
    exact order_replace hfd' horder (fun _ hopen => (closeSocket_opened hopen).elim) fun _ => rfl
  | clean fd' =>
    obtain ⟨it, hfd', hs⟩ := Option.bind_eq_some_iff.mp hs
    have hit : it.Ok := h.inv.ok it (List.mem_of_getElem? hfd')
    obtain ⟨it', freed, rfl, hclosed⟩ := clean_not_opened hit hs
    exact order_replace hfd' horder (fun _ hopen => absurd hopen hclosed) fun _ => rfl
  | receive frame =>
    cases hs
    intro it' hfd' hopen
    cases hfd : s.sockets[fd]? with
    | none =>
      have hlt : fd < s.sockets.length := by
        rw [← receive_length frame]
        exact (List.getElem?_eq_some_iff.mp hfd').1
      exact absurd (List.getElem?_eq_none_iff.mp hfd) (Nat.not_le_of_lt hlt)
    | some it =>
      cases (receive_at h.inv.exclusive hfd frame).symm.trans hfd'
      rw [Record.next, hfd]
      dsimp only
      cases htakes : it.takes C frame.driverHandle frame.ethType with
      | false =>
        rw [htakes] at hopen
        simp only [Bool.false_eq_true, false_and, if_false] at hopen ⊢
        exact horder it hfd hopen
      | true =>
        simp only [true_and, if_true]
        have hopened : it.state = .opened := (takes_iff.mp htakes).1.1
        exact (horder it hfd hopened).push s.received frame.size

end Steps

/-! ## Every run -/

section Run

variable (C : Config) (fd : Nat)

/-- As long as no command makes two sockets clash and no close loses frames, the reads of an open
socket get the frames that were put into its queue since it was opened, in this order and each with
the bytes asked for; those that are left wait in its queue. -/
theorem frames_in_order (maxFds : Nat) (actions : List Action) (t : Tap) (r : Record)
    (h : Machine.exec (recorded C fd) (Tap.init maxFds, ⟨[], []⟩) actions = some (t, r))
    (hallow : Machine.Along (recorded C fd) (fun x a => x.1.Allows C a)
      (Tap.init maxFds, ⟨[], []⟩) actions) :
    ∀ it, t.sockets[fd]? = some it → it.state = .opened → InOrder it r := by
  have hinit : FifoInv C fd (Tap.init maxFds, ⟨[], []⟩) := by
    refine ⟨inv_init C maxFds, fun it hfd hopen => ?_⟩
    rw [List.eq_of_mem_replicate (List.mem_of_getElem? hfd)] at hopen
    exact (ready_ne_opened hopen).elim
  have hstep : ∀ x a x', Tap.Allows C x.1 a → recorded C fd x a = some x' → FifoInv C fd x →
      FifoInv C fd x' := fun x a x' hallow hstep inv => inv.step hallow hstep
  exact (Machine.exec_inv_along hstep h hallow hinit).order

end Run

/-- Three frames for a socket of two entries, of which the second one is read only in part, and a
second socket that is opened meanwhile -/
def threeFrames : List Action :=
  [.open_ false true, .ioctl 0 (.sDeviceDrvHndl (some 7)), .ioctl 0 (.sRcvFilter 0x22F0),
    .receive ⟨7, 0x22F0, 70, by decide⟩, .open_ true true, .receive ⟨7, 0x88F7, 66, by decide⟩,
    .receive ⟨7, 0x22F0, 80, by decide⟩, .receive ⟨7, 0x22F0, 64, by decide⟩, .read 0 100,
    .read 0 20, .receive ⟨7, 0x22F0, 90, by decide⟩]

/-- The run of `threeFrames`, whose frames are read in their order -/
theorem frames_in_order_threeFrames : ∃ t r it,
    Machine.exec (recorded ⟨2, 1500⟩ 0) (Tap.init 2, ⟨[], []⟩) threeFrames = some (t, r) ∧
      t.sockets[0]? = some it ∧ it.state = .opened ∧
      r.reads = [⟨0, 100, 70⟩, ⟨2, 20, 20⟩] ∧ InOrder it r := by
  obtain ⟨⟨t, r⟩, h⟩ := Option.isSome_iff_exists.mp
    (show (Machine.exec (recorded ⟨2, 1500⟩ 0) (Tap.init 2, ⟨[], []⟩) threeFrames).isSome by
      decide +kernel)
  have hreads : (Machine.exec (recorded ⟨2, 1500⟩ 0) (Tap.init 2, ⟨[], []⟩) threeFrames).map
      (fun x => (x.1.sockets[0]?.map fun it => it.state, x.2.reads)) =
      some (some .opened, [⟨0, 100, 70⟩, ⟨2, 20, 20⟩]) := by
    decide +kernel
  rw [h] at hreads
  obtain ⟨hstate, hreads⟩ := Prod.mk.inj (Option.some.inj hreads)
  obtain ⟨it, hit, hopen⟩ := Option.map_eq_some_iff.mp hstate
  exact ⟨t, r, it, h, hit, hopen, hreads,
    frames_in_order ⟨2, 1500⟩ 0 2 threeFrames t r h (by decide +kernel) it hit hopen⟩

end PicoHost.L2tap
