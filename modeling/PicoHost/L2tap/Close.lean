import PicoHost.L2tap.Objects

/-!
# Closes that fail

`l2tap_close` sets `L2TAP_SOCK_STATE_CLOSING` before it creates the semaphore and the
task, and returns their errors without taking that back. No operation takes a descriptor
out of this state but the clean task, which was not created: the queue of the descriptor,
its frames and the semaphore stay there for ever.

There is another way to lose a descriptor. A clean task that finds the queue full does
not put its marker there. If readers that have waited since before the close take all
frames, it waits for an entry that nobody sends any more.

So every descriptor can be closed or opened again sooner or later exactly if no close of
an open descriptor fails, and nobody takes the entry that a clean task waits for
(`recovers_iff_completes`).
-/

namespace PicoHost.L2tap

open Table

/-! ## What is promised -/

section Sound

variable (C : Config) (s : Vfs)

/-- The descriptor is open and has its queue and nothing else, or it is ready and has
nothing. -/
def Vfs.Usable (fd : Nat) : Prop :=
  ∃ it ∈ s.tap.sockets[fd]?, ∃ o ∈ s.objects[fd]?,
    (it.state = .opened ∧ it.rxQueue.isSome ∧ ∃ queue, o = ⟨some queue, none, none⟩) ∨
    (it.state = .ready ∧ o = .zero)

/-- If the descriptor is not usable, its clean task makes it so. -/
def Vfs.Recovers (fd : Nat) : Prop :=
  ∃ n t, Machine.exec (Vfs.step C) s (List.replicate n (.clean fd)) = some t ∧ t.Usable fd

/-- Every descriptor can be closed or opened again sooner or later, and no object is
lost. -/
structure Vfs.Sound : Prop where
  recovers : ∀ fd < s.tap.sockets.length, s.Recovers C fd
  accounted : s.Accounted

/-- If the close returns an error it leaves the descriptor usable, and no object is lost. -/
def Vfs.CloseKeeps (fd : Nat) (sem task : Bool) (s' : Vfs) : Prop :=
  ∀ it ∈ s.tap.sockets[fd]?, closeReturns it sem task = -1 → s'.Usable fd ∧ s'.Accounted

end Sound

/-! ## What is asked of the calls -/

/-- One entry is left in the queue, and it is a frame. -/
def L2tapContext.lastFrame (it : L2tapContext) : Bool :=
  match it.rxQueue with
  | some [e] => decide (e.len ≠ 0)
  | _ => false

/-- The close of an open descriptor gets its semaphore and its task. While the clean task
of a blocking descriptor waits for an entry, no reader takes the last one unless it is the
marker, and an empty queue is not made blocking. -/
def Vfs.Completes (s : Vfs) : Action → Prop
  | .close fd sem task => ∀ it ∈ s.tap.sockets[fd]?, it.state = .opened → sem && task
  | .wake fd _ => ∀ it ∈ s.tap.sockets[fd]?, it.cleanTask = some .pop →
    it.nonBlocking = true ∨ it.lastFrame = false
  | .fcntl fd nonBlocking => ∀ it ∈ s.tap.sockets[fd]?, it.cleanTask = some .pop →
    nonBlocking = true ∨ it.rxQueue.getD [] ≠ []
  | .open_ .. | .ioctl .. | .read .. | .clean _ | .receive _ => True

instance decidableCompletes (s : Vfs) : ∀ action, Decidable (s.Completes action)
  | .close fd sem task => inferInstanceAs (Decidable (∀ it ∈ s.tap.sockets[fd]?,
      it.state = .opened → sem && task))
  | .wake fd _ => inferInstanceAs (Decidable (∀ it ∈ s.tap.sockets[fd]?,
      it.cleanTask = some .pop → it.nonBlocking = true ∨ it.lastFrame = false))
  | .fcntl fd nonBlocking => inferInstanceAs (Decidable (∀ it ∈ s.tap.sockets[fd]?,
      it.cleanTask = some .pop → nonBlocking = true ∨ it.rxQueue.getD [] ≠ []))
  | .open_ .. | .ioctl .. | .read .. | .clean _ | .receive _ => .isTrue trivial

/-! ## Descriptors that are being closed -/

/-- If the socket is being closed, there is a clean task, and it does not wait in vain. -/
structure L2tapContext.Finishes (it : L2tapContext) : Prop where
  begun : it.state = .closing → it.cleanTask ≠ none
  awake : it.cleanTask = some .pop → it.nonBlocking = true ∨ it.rxQueue.getD [] ≠ []

section Clean

variable {C : Config} {s s' : Vfs} {fd len : Nat} {it it' : L2tapContext} {o : Objects}

/-- A socket that is not being closed has nothing to finish. -/
theorem Tied.finishes (htied : Tied it o) (hstate : it.state ≠ .closing) : it.Finishes where
  begun hclosing := absurd hclosing hstate
  awake hpop := absurd (htied.cleaned (hpop ▸ Option.some_ne_none _)) hstate

/-- The socket of a step is the new one. -/
theorem replace_getElem? {tap : Tap} (hfd : tap.sockets[fd]? = some it) (freed : List Buffer) :
    (tap.replace fd it' freed).sockets[fd]? = some it' := by
  obtain ⟨hlt, -⟩ := List.getElem?_eq_some_iff.mp hfd
  exact List.getElem?_set_self hlt

/-- A descriptor is usable if it is not being closed. -/
theorem Held.usable_iff (held : Held s) (hfd : s.tap.sockets[fd]? = some it) :
    s.Usable fd ↔ it.state ≠ .closing := by
  constructor
  · rintro ⟨it', hfd', o, -, ⟨hopened, -, -⟩ | ⟨hready, -⟩⟩
    · cases hfd.symm.trans hfd'
      exact hopened ▸ nofun
    · cases hfd.symm.trans hfd'
      exact hready ▸ nofun
  · intro hstate
    obtain ⟨o, ho, htied⟩ := forall₂_getElem? held.tied hfd
    refine ⟨it, hfd, o, ho, ?_⟩
    cases hit : it.state with
    | ready => exact .inr ⟨rfl, htied.ready hit⟩
    | opened => exact .inl ⟨rfl, htied.queue (hit ▸ nofun), htied.opened hit⟩
    | closing => exact absurd hit hstate

/-- The step of the task that cleans a socket up -/
theorem step_clean (hfd : s.tap.sockets[fd]? = some it) :
    s.step C (.clean fd) =
      (s.tap.clean C fd it).map fun tap => { s.account (.clean fd) with tap } := by
  rw [Vfs.step, Tap.step, hfd, Option.bind_some]

/-- What holds after a step of the clean task holds before it. -/
theorem Vfs.Recovers.of_step (h : s.step C (.clean fd) = some s') (hrec : s'.Recovers C fd) :
    s.Recovers C fd := by
  obtain ⟨n, t, hrun, husable⟩ := hrec
  exact ⟨n + 1, t, Machine.exec_cons_some.mpr ⟨s', h, hrun⟩, husable⟩

/-! The clean task from its last step to its first one. -/

/-- A task that flushes the queue comes to its end. -/
theorem recovers_of_flush (held : Held s) (hfd : s.tap.sockets[fd]? = some it)
    (hflush : it.cleanTask = some .flush) : s.Recovers C fd := by
  have hstep := step_clean (C := C) hfd
  rw [Tap.clean, hflush, Option.map_some] at hstep
  refine .of_step hstep ⟨0, _, rfl, ?_⟩
  exact ((held.step hstep).usable_iff (replace_getElem? hfd _)).mpr (by simp)

/-- A read returns if there is a frame or if it need not wait. -/
theorem pop_isSome (hqueue : it.rxQueue.isSome)
    (hawake : it.nonBlocking = true ∨ it.rxQueue.getD [] ≠ []) :
    ∃ r, popRxQueue C it len = some r := by
  obtain ⟨queue, hq⟩ := Option.isSome_iff_exists.mp hqueue
  rw [popRxQueue, hq]
  cases queue with
  | nil =>
    rcases hawake with hnonBlocking | hne
    · exact ⟨⟨it, [], none⟩, if_pos hnonBlocking⟩
    · exact absurd (by rw [hq]; rfl) hne
  | cons frameInfo rest =>
    dsimp only
    split
    · exact ⟨_, rfl⟩
    · exact ⟨_, rfl⟩

/-- A closing socket with a frame to pop, or one that need not wait, comes to its end. -/
theorem recovers_of_pop (held : Held s) (hfd : s.tap.sockets[fd]? = some it)
    (hpop : it.cleanTask = some .pop)
    (hawake : it.nonBlocking = true ∨ it.rxQueue.getD [] ≠ []) : s.Recovers C fd := by
  obtain ⟨o, -, htied⟩ := forall₂_getElem? held.tied hfd
  have hclosing : it.state = .closing := htied.cleaned (hpop ▸ Option.some_ne_none _)
  obtain ⟨r, hr⟩ : ∃ r, popRxQueue C it 0 = some r :=
    pop_isSome (htied.queue_of_closing hclosing) hawake
  have hstep := step_clean (C := C) hfd
  rw [Tap.clean, hpop, hr, Option.map_some, Option.map_some] at hstep
  exact .of_step hstep (recovers_of_flush (held.step hstep) (replace_getElem? hfd _) rfl)

/-- The marker is in the queue, or the queue is full. -/
theorem push_ne_nil (hsize : 0 < C.rxQueueMaxSize) (hqueue : it.rxQueue.isSome)
    (e : FrameQueueEntry) : ((pushRxQueue C it e).getD it).rxQueue.getD [] ≠ [] := by
  obtain ⟨queue, hq⟩ := Option.isSome_iff_exists.mp hqueue
  rw [pushRxQueue, hq]
  dsimp only
  split
  next => simp
  next hfull =>
    intro hnil
    rw [Option.getD_none, hq, Option.getD_some] at hnil
    rw [hnil] at hfull
    exact hfull hsize

/-- A task that first pushes its marker comes to its end. -/
theorem recovers_of_push (hsize : 0 < C.rxQueueMaxSize) (held : Held s)
    (hfd : s.tap.sockets[fd]? = some it) (hpush : it.cleanTask = some .push) :
    s.Recovers C fd := by
  obtain ⟨o, -, htied⟩ := forall₂_getElem? held.tied hfd
  have hclosing : it.state = .closing := htied.cleaned (hpush ▸ Option.some_ne_none _)
  have hqueue := htied.queue_of_closing hclosing
  have hstep := step_clean (C := C) hfd
  rw [Tap.clean, hpush, Option.map_some] at hstep
  exact .of_step hstep (recovers_of_pop (held.step hstep) (replace_getElem? hfd _) rfl
    (.inr (push_ne_nil hsize hqueue .marker)))

/-- A clean task that waits in vain, or that does not exist. -/
theorem clean_refused (htied : Tied it o) (hnot : ¬ it.Finishes) :
    it.state = .closing ∧ ∀ tap : Tap, tap.clean C fd it = none := by
  have hclosing : it.state = .closing := by
    by_contra hstate
    exact hnot (htied.finishes hstate)
  refine ⟨hclosing, fun tap => ?_⟩
  rw [Tap.clean]
  cases hclean : it.cleanTask with
  | none => rfl
  | some pc =>
    have hbegun : it.state = .closing → it.cleanTask ≠ none := by simp [hclean]
    cases pc with
    | push => exact absurd ⟨hbegun, fun hpop => by cases hclean.symm.trans hpop⟩ hnot
    | flush => exact absurd ⟨hbegun, fun hpop => by cases hclean.symm.trans hpop⟩ hnot
    | pop =>
      have hvain : ¬ (it.nonBlocking = true ∨ it.rxQueue.getD [] ≠ []) :=
        fun hawake => hnot ⟨hbegun, fun _ => hawake⟩
      obtain ⟨hblocking, hnil⟩ := not_or.mp hvain
      obtain ⟨queue, hq⟩ := Option.isSome_iff_exists.mp (htied.queue_of_closing hclosing)
      rw [hq, Option.getD_some, not_not] at hnil
      show (popRxQueue C it 0).map _ = none
      rw [popRxQueue, hq, hnil]
      dsimp only
      rw [if_neg hblocking, Option.map_none]

/-- A socket is recovered exactly if its closing finishes. -/
theorem Held.recovers_iff (held : Held s) (hsize : 0 < C.rxQueueMaxSize)
    (hfd : s.tap.sockets[fd]? = some it) : s.Recovers C fd ↔ it.Finishes := by
  obtain ⟨o, -, htied⟩ := forall₂_getElem? held.tied hfd
  constructor
  · rintro ⟨n, t, hrun, husable⟩
    by_contra hnot
    obtain ⟨hclosing, hrefused⟩ : it.state = .closing ∧ ∀ tap : Tap, tap.clean C fd it = none :=
      clean_refused htied hnot
    cases n with
    | zero =>
      cases hrun
      exact (held.usable_iff hfd).mp husable hclosing
    | succ n =>
      obtain ⟨s', hstep, -⟩ := Machine.exec_cons_some.mp hrun
      rw [step_clean hfd, hrefused, Option.map_none] at hstep
      cases hstep
  · intro hfinishes
    by_cases hclosing : it.state = .closing
    · obtain ⟨pc, hpc⟩ := Option.ne_none_iff_exists'.mp (hfinishes.begun hclosing)
      cases pc with
      | push => exact recovers_of_push hsize held hfd hpc
      | pop => exact recovers_of_pop held hfd hpc (hfinishes.awake hpc)
      | flush => exact recovers_of_flush held hfd hpc
    · exact ⟨0, s, rfl, (held.usable_iff hfd).mpr hclosing⟩

end Clean

/-! ## Every run -/

section Run

variable {C : Config} {s s' : Vfs} {action : Action} {fd len : Nat} {it it' : L2tapContext}

/-- A pop that does not take the last frame does not leave the clean task alone. -/
theorem pop_awake (hsize : 0 < C.rxQueueMaxSize) {r : Popped}
    (hpop : popRxQueue C it len = some r)
    (hlast : it.nonBlocking = true ∨ it.lastFrame = false) :
    r.socket.nonBlocking = true ∨ r.socket.rxQueue.getD [] ≠ [] := by
  obtain ⟨q, hsocket⟩ := pop_socket hpop
  rcases hlast with hnonBlocking | hlast
  · rw [hsocket]
    exact .inl hnonBlocking
  rw [popRxQueue] at hpop
  rw [L2tapContext.lastFrame] at hlast
  cases hq : it.rxQueue with
  | none =>
    rw [hq] at hpop
    cases hpop
  | some queue =>
    rw [hq] at hpop hlast
    cases queue with
    | nil =>
      dsimp only at hpop
      split at hpop
      next hnonBlocking =>
        cases hpop
        exact .inl hnonBlocking
      next => cases hpop
    | cons frameInfo rest =>
      dsimp only at hpop
      split at hpop
      next =>
        -- the marker goes back into the queue, which has room for it
        cases hpop
        exact .inr (push_ne_nil hsize rfl .marker)
      next hlen =>
        cases hpop
        refine .inr fun hnil => ?_
        cases rest with
        | nil => exact of_decide_eq_false hlast hlen
        | cons e rest => exact List.cons_ne_nil e rest hnil

/-- A pop that takes the last frame. -/
theorem pop_last {r : Popped} (hpop : popRxQueue C it len = some r)
    (hlast : it.lastFrame = true) : r.socket = { it with rxQueue := some [] } := by
  rw [L2tapContext.lastFrame] at hlast
  split at hlast
  next e hq =>
    rw [popRxQueue, hq] at hpop
    dsimp only at hpop
    rw [if_neg (of_decide_eq_true hlast)] at hpop
    cases hpop
    rfl
  next => cases hlast

/-- Every descriptor is usable or on its way to be. -/
structure Live (s : Vfs) : Prop where
  held : Held s
  finishes : ∀ it ∈ s.tap.sockets, it.Finishes

/-- Only sockets that are being closed are to be looked at. -/
theorem Held.live (held : Held s) (h : ∀ it ∈ s.tap.sockets, it.state = .closing → it.Finishes) :
    Live s := by
  refine ⟨held, fun it hit => ?_⟩
  by_cases hclosing : it.state = .closing
  · exact h it hit hclosing
  · obtain ⟨fd, hfd⟩ := List.mem_iff_getElem?.mp hit
    obtain ⟨o, -, htied⟩ := forall₂_getElem? held.tied hfd
    exact htied.finishes hclosing

/-- One socket changes. -/
theorem Live.replace (live : Live s) (h : it'.state = .closing → it'.Finishes) :
    ∀ x ∈ s.tap.sockets.set fd it', x.state = .closing → x.Finishes := by
  intro x hx hclosing
  rcases List.mem_or_eq_of_mem_set hx with hx | rfl
  · exact live.finishes x hx
  · exact h hclosing

/-- A read keeps closing sockets finishing. -/
theorem Live.pop (hsize : 0 < C.rxQueueMaxSize) (live : Live s) (hfd : s.tap.sockets[fd]? = some it)
    (hlast : it.cleanTask = some .pop → it.nonBlocking = true ∨ it.lastFrame = false) {tap : Tap}
    (h : s.tap.pop C fd it len = some tap) :
    ∀ x ∈ tap.sockets, x.state = .closing → x.Finishes := by
  obtain ⟨r, hpop, rfl⟩ := Option.map_eq_some_iff.mp h
  obtain ⟨q, hsocket⟩ := pop_socket hpop
  have hit := live.finishes it (List.mem_of_getElem? hfd)
  refine live.replace fun hclosing => ⟨fun _ => ?_, fun hwait => ?_⟩
  · rw [hsocket] at hclosing ⊢
    exact hit.begun hclosing
  · refine pop_awake hsize hpop (hlast ?_)
    rwa [hsocket] at hwait

/-- A new socket keeps closing sockets finishing. -/
theorem Live.open_ (live : Live s) (nonBlocking queue : Bool) :
    ∀ x ∈ (l2tapOpen s.tap.sockets nonBlocking queue).1, x.state = .closing → x.Finishes := by
  rcases l2tapOpen_cases s.tap.sockets nonBlocking queue with
    ⟨-, hsame⟩ | ⟨fd, it, -, -, -, hopened⟩
  · rw [hsame]
    exact fun x hx _ => live.finishes x hx
  · rw [hopened]
    split
    · exact live.replace nofun
    · exact fun x hx _ => live.finishes x hx

/-- A command keeps closing sockets finishing. -/
theorem Live.ioctl (live : Live s) (cmd : IoctlCmd) :
    ∀ x ∈ (l2tapIoctl s.tap.sockets fd cmd).1, x.state = .closing → x.Finishes := by
  rcases l2tapIoctl_cases s.tap.sockets fd cmd with
    hsame | ⟨it, driverHandle, ethtypeFilter, hfd, -, hset⟩
  · rw [hsame]
    exact fun x hx _ => live.finishes x hx
  · rw [hset]
    have hit := live.finishes it (List.mem_of_getElem? hfd)
    exact live.replace fun _ => ⟨hit.begun, hit.awake⟩

/-- A close that completes keeps closing sockets finishing. -/
theorem Live.close (live : Live s) (hfd : s.tap.sockets[fd]? = some it) {sem task : Bool}
    (hcompletes : it.state = .opened → sem && task) :
    ∀ x ∈ s.tap.sockets.set fd (closeSocket it sem task), x.state = .closing → x.Finishes := by
  refine live.replace fun _ => ?_
  rw [closeSocket]
  split
  next => exact live.finishes it (List.mem_of_getElem? hfd)
  next hstate =>
    rw [if_pos (hcompletes (Decidable.not_not.mp hstate))]
    exact ⟨fun _ => Option.some_ne_none _, fun hwait => by cases hwait⟩

/-- The cleaning task keeps closing sockets finishing. -/
theorem Live.clean (hsize : 0 < C.rxQueueMaxSize) (live : Live s)
    (hfd : s.tap.sockets[fd]? = some it) {tap : Tap} (h : s.tap.clean C fd it = some tap) :
    ∀ x ∈ tap.sockets, x.state = .closing → x.Finishes := by
  rw [Tap.clean] at h
  cases hclean : it.cleanTask with
  | none =>
    rw [hclean] at h
    cases h
  | some pc =>
    rw [hclean] at h
    cases pc with
    | push =>
      cases h
      obtain ⟨o, -, htied⟩ := forall₂_getElem? live.held.tied hfd
      have hclosing : it.state = .closing := htied.cleaned (hclean ▸ Option.some_ne_none _)
      have hne := push_ne_nil hsize (htied.queue_of_closing hclosing) .marker
      exact live.replace fun _ => ⟨fun _ => Option.some_ne_none _, fun _ => .inr hne⟩
    | pop =>
      obtain ⟨r, -, rfl⟩ := Option.map_eq_some_iff.mp h
      exact live.replace fun _ => ⟨fun _ => Option.some_ne_none _, fun hwait => by cases hwait⟩
    | flush =>
      cases h
      exact live.replace fun hclosing => by cases hclosing

/-- A frame goes to open sockets only. -/
theorem Live.receive (live : Live s) (frame : EthFrame) :
    ∀ x ∈ (s.tap.receive C frame).sockets, x.state = .closing → x.Finishes := by
  intro x hx hclosing
  obtain ⟨i, hi⟩ := List.mem_iff_getElem?.mp hx
  have hsockets : List.Forall₂ (fun it it' => Keeps it it' ∧ (it' = it ∨ it.state = .opened))
      s.tap.sockets (s.tap.receive C frame).sockets := ethFilterFrom_sockets _ 0 frame.size
  obtain ⟨it, hit, hkeeps, hsame⟩ := forall₂_getElem? hsockets.flip hi
  rcases hsame with rfl | hopened
  · exact live.finishes x (List.mem_of_getElem? hit)
  · exact nomatch hclosing.symm.trans (hkeeps.state.trans hopened)

/-- A step keeps the invariant if its close completes. -/
theorem Live.step (hsize : 0 < C.rxQueueMaxSize) (live : Live s) (hcompletes : s.Completes action)
    (h : s.step C action = some s') : Live s' := by
  refine (live.held.step h).live ?_
  obtain ⟨tap, htap, rfl⟩ := Option.map_eq_some_iff.mp h
  show ∀ it ∈ tap.sockets, it.state = .closing → it.Finishes
  cases action with
  | open_ nonBlocking queue =>
    cases htap
    exact live.open_ nonBlocking queue
  | ioctl fd cmd =>
    cases htap
    exact live.ioctl cmd
  | read fd len =>
    obtain ⟨it, hfd, htap⟩ := Option.bind_eq_some_iff.mp htap
    split at htap
    next =>
      cases htap
      exact fun x hx _ => live.finishes x hx
    next hread =>
      -- only an open socket is read, and it has no clean task
      have hopened : it.state = .opened := Decidable.not_not.mp (not_or.mp hread).1
      obtain ⟨o, -, htied⟩ := forall₂_getElem? live.held.tied hfd
      refine live.pop hsize hfd (fun hwait => ?_) htap
      exact nomatch hopened.symm.trans (htied.cleaned (hwait ▸ Option.some_ne_none _))
  | wake fd len =>
    obtain ⟨it, hfd, htap⟩ := Option.bind_eq_some_iff.mp htap
    exact live.pop hsize hfd (hcompletes it hfd) htap
  | fcntl fd nonBlocking =>
    obtain ⟨it, hfd, rfl⟩ := Option.map_eq_some_iff.mp htap
    have hit := live.finishes it (List.mem_of_getElem? hfd)
    exact live.replace fun _ => ⟨hit.begun, hcompletes it hfd⟩
  | close fd sem task =>
    obtain ⟨it, hfd, rfl⟩ := Option.map_eq_some_iff.mp htap
    exact live.close hfd (hcompletes it hfd)
  | clean fd =>
    obtain ⟨it, hfd, htap⟩ := Option.bind_eq_some_iff.mp htap
    exact live.clean hsize hfd htap
  | receive frame =>
    cases htap
    exact live.receive frame

/-- The invariant is what is asked of the sockets. -/
theorem Live.sound (hsize : 0 < C.rxQueueMaxSize) (live : Live s) : s.Sound C where
  recovers fd hlt :=
    have hfd : s.tap.sockets[fd]? = some s.tap.sockets[fd] := List.getElem?_eq_getElem hlt
    (live.held.recovers_iff hsize hfd).mpr (live.finishes _ (List.mem_of_getElem? hfd))
  accounted := live.held.accounted

/-- A descriptor that does not finish does not recover. -/
theorem Held.not_sound (held : Held s) (hsize : 0 < C.rxQueueMaxSize)
    (hfd : s.tap.sockets[fd]? = some it) (hnot : ¬ it.Finishes) : ¬ s.Sound C := by
  intro hsound
  obtain ⟨hlt, -⟩ := List.getElem?_eq_some_iff.mp hfd
  exact hnot ((held.recovers_iff hsize hfd).mp (hsound.recovers fd hlt))

/-- A close that does not complete leaves a descriptor that nobody recovers. -/
theorem Live.not_sound (hsize : 0 < C.rxQueueMaxSize) (live : Live s)
    (hnot : ¬ s.Completes action) (h : s.step C action = some s') : ¬ s'.Sound C := by
  have held := live.held.step h
  obtain ⟨tap, htap, rfl⟩ := Option.map_eq_some_iff.mp h
  cases action with
  | close fd sem task =>
    simp only [Vfs.Completes, not_forall] at hnot
    obtain ⟨it, hfd, hopened, hfailed⟩ := hnot
    obtain ⟨it', hfd', rfl⟩ := Option.map_eq_some_iff.mp htap
    cases hfd.symm.trans hfd'
    -- the descriptor is being closed, by nobody
    refine held.not_sound hsize (replace_getElem? hfd _) fun hfinishes => ?_
    obtain ⟨o, -, htied⟩ := forall₂_getElem? live.held.tied hfd
    rw [closeSocket, if_neg (not_not_intro hopened), if_neg hfailed] at hfinishes
    cases hopened.symm.trans (htied.cleaned (hfinishes.begun rfl))
  | wake fd len =>
    simp only [Vfs.Completes, not_forall, not_or] at hnot
    obtain ⟨it, hfd, hwait, hblocking, hlast⟩ := hnot
    obtain ⟨it', hfd', htap⟩ := Option.bind_eq_some_iff.mp htap
    cases hfd.symm.trans hfd'
    obtain ⟨r, hpop, rfl⟩ := Option.map_eq_some_iff.mp htap
    refine held.not_sound hsize (replace_getElem? hfd _) fun hfinishes => ?_
    rw [pop_last hpop (Bool.not_eq_false _ ▸ hlast)] at hfinishes
    rcases hfinishes.awake hwait with hnonBlocking | hne
    · exact hblocking hnonBlocking
    · exact hne rfl
  | fcntl fd nonBlocking =>
    simp only [Vfs.Completes, not_forall, not_or] at hnot
    obtain ⟨it, hfd, hwait, hblocking, hnil⟩ := hnot
    obtain ⟨it', hfd', rfl⟩ := Option.map_eq_some_iff.mp htap
    cases hfd.symm.trans hfd'
    refine held.not_sound hsize (replace_getElem? hfd _) fun hfinishes => ?_
    rcases hfinishes.awake hwait with hnonBlocking | hne
    · exact hblocking hnonBlocking
    · exact hnil hne
  | open_ | ioctl | read | clean | receive => exact absurd trivial hnot

/-- At the start no socket is open. -/
theorem live_init (maxFds : Nat) : Live (Vfs.init maxFds) := by
  refine (held_init maxFds).live fun it hit hclosing => ?_
  rw [List.eq_of_mem_replicate hit] at hclosing
  cases hclosing

/-- A close that returns an error, in any state of the table. -/
theorem Held.closeKeeps_iff (held : Held s) {sem task : Bool}
    (h : s.step C (.close fd sem task) = some s') :
    s.CloseKeeps fd sem task s' ↔ ∀ it ∈ s.tap.sockets[fd]?,
      it.state ≠ .closing ∧ (it.state = .opened → sem && task) := by
  have held' := held.step h
  obtain ⟨tap, htap, rfl⟩ := Option.map_eq_some_iff.mp h
  obtain ⟨it, hfd, rfl⟩ := Option.map_eq_some_iff.mp htap
  have husable := held'.usable_iff (replace_getElem? hfd [])
  have hone : ∀ {p : L2tapContext → Prop}, (∀ x ∈ s.tap.sockets[fd]?, p x) ↔ p it := by
    intro p
    rw [hfd]
    exact ⟨fun h => h it rfl, fun h x hx => Option.some.inj hx ▸ h⟩
  rw [Vfs.CloseKeeps, hone, hone, husable, and_iff_left held'.accounted]
  unfold closeReturns closeSocket
  cases hstate : it.state with
  | ready => simp [hstate]
  | closing => simp [hstate]
  | opened => cases sem <;> cases task <;> simp

/-- In every state that a run reaches, a close that returns an error keeps its descriptor usable
exactly if the descriptor was not being closed and, if it was open, the semaphore and the task
could be created. And after each step of a run every descriptor can be closed or opened again
sooner or later, with no object lost, exactly if every close of an open descriptor gets both and
nobody takes the entry that a clean task waits for. The size of a queue is at least 1. -/
theorem recovers_iff_completes (C : Config) (hsize : 0 < C.rxQueueMaxSize) (maxFds : Nat)
    (actions : List Action) (s : Vfs)
    (h : Machine.exec (Vfs.step C) (Vfs.init maxFds) actions = some s) :
    (∀ fd sem task s', s.step C (.close fd sem task) = some s' →
      (s.CloseKeeps fd sem task s' ↔ ∀ it ∈ s.tap.sockets[fd]?,
        it.state ≠ .closing ∧ (it.state = .opened → sem && task))) ∧
    (Machine.Each (Vfs.step C) (fun _ _ s => s.Sound C) (Vfs.init maxFds) actions ↔
      Machine.Along (Vfs.step C) Vfs.Completes (Vfs.init maxFds) actions) := by
  have held : Held s := (held_init maxFds).exec h
  refine ⟨fun fd sem task s' hclose => held.closeKeeps_iff hclose, ?_⟩
  refine Machine.each_iff_along (fun s action s' hcompletes hstep live => ?_)
    (fun s action s' hnot hstep live => Live.not_sound hsize live hnot hstep) h (live_init maxFds)
  have live' := Live.step hsize live hcompletes hstep
  exact ⟨live', live'.sound hsize⟩

end Run

/-- A descriptor is closed while a reader waits for a frame, and opened again. -/
def reopened : List Action :=
  [.open_ false true, .close 0 true true, .clean 0, .wake 0 100, .clean 0, .clean 0,
    .open_ true true]

/-- The run of `reopened`, in which the only descriptor is used twice -/
theorem recovers_iff_completes_reopened : ∃ s,
    Machine.exec (Vfs.step ⟨20, 1500⟩) (Vfs.init 1) reopened = some s ∧
      Machine.Each (Vfs.step ⟨20, 1500⟩) (fun _ _ s => s.Sound ⟨20, 1500⟩) (Vfs.init 1)
        reopened := by
  obtain ⟨s, hs⟩ := Option.isSome_iff_exists.mp
    (show (Machine.exec (Vfs.step ⟨20, 1500⟩) (Vfs.init 1) reopened).isSome by decide +kernel)
  exact ⟨s, hs, (recovers_iff_completes ⟨20, 1500⟩ (by decide) 1 reopened s hs).2.mpr
    (by decide +kernel)⟩

/-- The task cannot be created: the close returns an error, and the only descriptor keeps its
queue and the semaphore in a state in which it can be neither closed nor opened. -/
theorem failed_not_closeKeeps : ∃ s s' it,
    Machine.exec (Vfs.step ⟨20, 1500⟩) (Vfs.init 1) [.open_ false true] = some s ∧
      s.step ⟨20, 1500⟩ (.close 0 true false) = some s' ∧ s'.tap.sockets = [it] ∧
      s'.objects = [⟨some 0, some 1, none⟩] ∧ closeReturns it true true = -1 ∧
      (l2tapOpen [it] false true).2 = none ∧
      ¬ s.CloseKeeps 0 true false s' ∧ ¬ s'.Sound ⟨20, 1500⟩ := by
  let opened : Vfs :=
    ⟨⟨[⟨.opened, false, none, 0, some [], none⟩], 0, [], []⟩, [⟨some 0, none, none⟩], 1, []⟩
  let closing : Vfs :=
    ⟨⟨[⟨.closing, false, none, 0, some [], none⟩], 0, [], []⟩, [⟨some 0, some 1, none⟩], 2, []⟩
  have hclose : opened.step ⟨20, 1500⟩ (.close 0 true false) = some closing := rfl
  have hopen : Machine.exec (Vfs.step ⟨20, 1500⟩) (Vfs.init 1) [.open_ false true] = some opened :=
    rfl
  have held : Held opened := (held_init 1).exec hopen
  refine ⟨opened, closing, _, hopen, hclose, rfl, rfl, rfl, rfl, fun hkeeps => ?_, ?_⟩
  · have hgranted := (held.closeKeeps_iff hclose).mp hkeeps _ rfl
    exact Bool.false_ne_true (hgranted.2 rfl)
  · have hfd : closing.tap.sockets[0]? = some ⟨.closing, false, none, 0, some [], none⟩ := rfl
    exact (held.step hclose).not_sound (by decide) hfd fun hfinishes => hfinishes.begun rfl rfl

end PicoHost.L2tap
