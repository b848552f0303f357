import PicoHost.L2tap.Delivery

/-!
# What a descriptor has of the kernel

`l2tap_open` creates the queue of a socket, `l2tap_close` a semaphore and the task that
cleans the socket up. Here the table keeps account of them: the objects are numbered in
the order in which the kernel creates them, each descriptor has those that its socket
points to, and the number of a deleted object is written down.

Whatever happens to the sockets, an object has been deleted once or belongs to one
descriptor, an open descriptor has its queue and nothing else, and one that is ready has
nothing (`Held.step`). What it says about a descriptor in between is only that it has a
queue: that is where a close that fails leaves it.
-/

namespace PicoHost.L2tap

open Table

/-! ## Data -/

/-- The objects of the kernel that a descriptor has: `rx_queue`, `close_done_sem`, and the
task that `l2tap_close` creates. -/
structure Objects where
  rxQueue : Option Nat
  closeDoneSem : Option Nat
  cleanTask : Option Nat
deriving DecidableEq, Repr

def Objects.zero : Objects := ⟨none, none, none⟩

def Objects.list (o : Objects) : List Nat :=
  o.rxQueue.toList ++ o.closeDoneSem.toList ++ o.cleanTask.toList

/-- What a call makes of the objects of a descriptor, the number of the next object after
it, and the objects that it deletes. -/
structure Change where
  objects : Objects
  created : Nat
  deleted : List Nat

/-- `init_rx_queue` in `l2tap_open` (esp_vfs_l2tap.c:85–90). -/
def openObjects (o : Objects) (created : Nat) (queue : Bool) : Change :=
  if queue then ⟨{ o with rxQueue := some created }, created + 1, []⟩ else ⟨o, created, []⟩

/-- `l2tap_close` up to the wait for the clean task (esp_vfs_l2tap.c:302–323). -/
def closeObjects (it : L2tapContext) (o : Objects) (created : Nat) (sem task : Bool) : Change :=
  if it.state ≠ .opened then ⟨o, created, []⟩
  else match sem, task with
    | false, _ => ⟨{ o with closeDoneSem := none }, created, []⟩
    | true, false => ⟨{ o with closeDoneSem := some created }, created + 1, []⟩
    | true, true =>
      ⟨{ o with closeDoneSem := some created, cleanTask := some (created + 1) }, created + 2, []⟩

/-- What `l2tap_close` returns. -/
def closeReturns (it : L2tapContext) (sem task : Bool) : Int :=
  if it.state ≠ .opened then -1
  else match sem, task with
    | false, _ => -1
    | true, false => -1
    | true, true => 0

/-- The end of `l2tap_clean_task`, which deletes the queue and itself, and of `l2tap_close`,
which deletes the semaphore (esp_vfs_l2tap.c:292–299, 325–327). -/
def cleanObjects (it : L2tapContext) (o : Objects) (created : Nat) : Change :=
  if it.cleanTask = some .flush then ⟨.zero, created, o.list⟩ else ⟨o, created, []⟩

/-- The table, the objects of its descriptors, the number of objects created so far, and
those that were deleted. -/
structure Vfs where
  tap : Tap
  objects : List Objects
  created : Nat
  deleted : List Nat
deriving DecidableEq, Repr

def Vfs.init (maxFds : Nat) : Vfs := ⟨Tap.init maxFds, List.replicate maxFds .zero, 0, []⟩

section Step

variable (C : Config) (s : Vfs)

def Vfs.change (fd : Nat) (f : L2tapContext → Objects → Change) : Vfs :=
  match s.tap.sockets[fd]?, s.objects[fd]? with
  | some it, some o =>
    { s with
      objects := s.objects.set fd (f it o).objects
      created := (f it o).created
      deleted := (f it o).deleted ++ s.deleted }
  | _, _ => s

/-- What a step does to the objects. -/
def Vfs.account : Action → Vfs
  | .open_ _ queue =>
    match s.tap.sockets.findIdx? fun it => decide (it.state = .ready) with
    | none => s
    | some fd => s.change fd fun _ o => openObjects o s.created queue
  | .close fd sem task => s.change fd fun it o => closeObjects it o s.created sem task
  | .clean fd => s.change fd fun it o => cleanObjects it o s.created
  | .ioctl .. | .read .. | .wake .. | .fcntl .. | .receive _ => s

def Vfs.step (action : Action) : Option Vfs :=
  (s.tap.step C action).map fun tap => { s.account action with tap }

end Step

/-! ## The accounts -/

/-- Every object that was created has been deleted once or belongs to one descriptor. -/
def Vfs.Accounted (s : Vfs) : Prop :=
  (s.deleted ++ s.objects.flatMap Objects.list).Perm (List.range s.created)

/-- A socket and the objects that belong to it. -/
structure Tied (it : L2tapContext) (o : Objects) : Prop where
  ready : it.state = .ready → o = .zero
  opened : it.state = .opened → ∃ queue, o = ⟨some queue, none, none⟩
  queue : it.state ≠ .ready → it.rxQueue.isSome
  cleaned : it.cleanTask ≠ none → it.state = .closing

structure Held (s : Vfs) : Prop where
  tied : List.Forall₂ Tied s.tap.sockets s.objects
  accounted : s.Accounted

/-- The change accounts for the objects it makes and deletes. -/
def Change.Accounts (c : Change) (o : Objects) (created : Nat) : Prop :=
  ∃ n, c.created = created + n ∧
    (c.deleted ++ c.objects.list).Perm (List.range' created n ++ o.list)

section Changes

variable {it : L2tapContext} {o : Objects} {created : Nat}

/-- Nothing happens. -/
theorem Change.accounts_refl (o : Objects) (created : Nat) :
    Change.Accounts ⟨o, created, []⟩ o created := ⟨0, rfl, List.Perm.refl _⟩

/-- Opening a socket creates its queue and semaphores, or gives them back. -/
theorem openObjects_accounts (queue : Bool) (ho : o = .zero) :
    (openObjects o created queue).Accounts o created := by
  cases queue with
  | false => exact Change.accounts_refl o created
  | true =>
    subst ho
    exact ⟨1, rfl, List.Perm.refl _⟩

/-- A semaphore or a task is created for a descriptor that has only its queue. -/
theorem closeObjects_accounts (htied : Tied it o) (sem task : Bool) :
    (closeObjects it o created sem task).Accounts o created := by
  unfold closeObjects
  split
  next => exact Change.accounts_refl o created
  next hstate =>
    obtain ⟨queue, rfl⟩ := htied.opened (Decidable.not_not.mp hstate)
    split
    next => exact Change.accounts_refl _ created
    next => exact ⟨1, rfl, List.Perm.swap ..⟩
    next =>
      refine ⟨2, rfl, ?_⟩
      show ([queue] ++ [created, created + 1]).Perm ([created, created + 1] ++ [queue])
      exact List.perm_append_comm

/-- Cleaning a socket gives its objects back. -/
theorem cleanObjects_accounts : (cleanObjects it o created).Accounts o created := by
  rw [cleanObjects]
  split
  · exact ⟨0, rfl, List.Perm.of_eq (List.append_nil _)⟩
  · exact Change.accounts_refl o created

end Changes

/-! ## The steps -/

/-- What a step that creates and deletes nothing does to a socket. -/
structure Keeps (it it' : L2tapContext) : Prop where
  state : it'.state = it.state
  cleanTask : it'.cleanTask = it.cleanTask
  rxQueue : it.rxQueue.isSome → it'.rxQueue.isSome

section Keeps

variable {C : Config} {it it' : L2tapContext} {o : Objects}

/-- A socket keeps what it is. -/
theorem Keeps.refl (it : L2tapContext) : Keeps it it := ⟨rfl, rfl, id⟩

/-- A step that keeps a socket's objects keeps them tied to it. -/
theorem Tied.keep (htied : Tied it o) (hkeeps : Keeps it it') : Tied it' o where
  ready hstate := htied.ready (hkeeps.state ▸ hstate)
  opened hstate := htied.opened (hkeeps.state ▸ hstate)
  queue hstate := hkeeps.rxQueue (htied.queue (hkeeps.state ▸ hstate))
  cleaned htask := hkeeps.state.trans (htied.cleaned (hkeeps.cleanTask ▸ htask))

/-- A socket that is being closed still has its queue. -/
theorem Tied.queue_of_closing (htied : Tied it o) (hclosing : it.state = .closing) :
    it.rxQueue.isSome := htied.queue (by simp [hclosing])

/-- A socket that is not in use has no objects. -/
theorem tied_ready (hstate : it.state = .ready) (hclean : it.cleanTask = none) :
    Tied it .zero where
  ready _ := rfl
  opened hopened := nomatch hstate.symm.trans hopened
  queue hnot := absurd hstate hnot
  cleaned htask := absurd hclean htask

/-- All that is known of a descriptor on its way from one state to the other. -/
theorem tied_closing (hstate : it.state = .closing) (hqueue : it.rxQueue.isSome) : Tied it o where
  ready hready := nomatch hstate.symm.trans hready
  opened hopened := nomatch hstate.symm.trans hopened
  queue _ := hqueue
  cleaned _ := hstate

/-- A pop leaves a queue behind. -/
theorem pop_socket {len : Nat} {r : Popped} (hpop : popRxQueue C it len = some r) :
    ∃ q, r.socket = { it with rxQueue := some q } := by
  rw [popRxQueue] at hpop
  cases hq : it.rxQueue with
  | none =>
    rw [hq] at hpop
    cases hpop
  | some queue =>
    rw [hq] at hpop
    cases queue with
    | nil =>
      dsimp only at hpop
      split at hpop
      · cases hpop
        exact ⟨[], by rw [← hq]⟩
      · cases hpop
    | cons frameInfo rest =>
      dsimp only at hpop
      split at hpop
      · cases hpop
        rcases push_cases C { it with rxQueue := some rest } .marker with h | ⟨q, -, h⟩
        · exact ⟨rest, by rw [h]; rfl⟩
        · exact ⟨q ++ [.marker], by rw [h]; rfl⟩
      · cases hpop
        exact ⟨rest, rfl⟩

/-- A push changes the queue only. -/
theorem push_getD (C : Config) (it : L2tapContext) (e : FrameQueueEntry) :
    Keeps it ((pushRxQueue C it e).getD it) := by
  rcases push_cases C it e with h | ⟨q, hq, h⟩
  · rw [h]
    exact .refl it
  · rw [h]
    exact ⟨rfl, rfl, fun _ => rfl⟩

/-- A frame goes to open sockets. -/
theorem ethFilterFrom_sockets {driverHandle : Handle} {ethType : UInt16} {buff : Buffer}
    (l : List L2tapContext) (i size : Nat) :
    List.Forall₂ (fun it it' => Keeps it it' ∧ (it' = it ∨ it.state = .opened)) l
      (ethFilterFrom C driverHandle ethType buff l i size).sockets := by
  induction l generalizing i size with
  | nil => exact .nil
  | cons it rest ih =>
    rw [ethFilterFrom]
    split
    next htakes =>
      have hopened : it.state = .opened := (takes_iff.mp htakes).1.1
      rcases push_cases C it ⟨some buff, size⟩ with hpush | ⟨q, -, hpush⟩
      · rw [hpush]
        exact .cons ⟨.refl it, .inl rfl⟩ (ih _ _)
      · rw [hpush]
        exact .cons ⟨⟨rfl, rfl, fun _ => rfl⟩, .inr hopened⟩ (ih _ _)
    next => exact .cons ⟨.refl it, .inl rfl⟩ (ih _ _)

end Keeps

section Steps

variable {C : Config} {s s' : Vfs} {tap : Tap} {fd : Nat} {it it' : L2tapContext} {o : Objects}

/-- The objects of one descriptor change with its socket. -/
theorem Held.change (held : Held s) (hfd : s.tap.sockets[fd]? = some it)
    (ho : s.objects[fd]? = some o) {f : L2tapContext → Objects → Change}
    (hc : (f it o).Accounts o s.created) (htied : Tied it' (f it o).objects)
    (htap : tap.sockets = s.tap.sockets.set fd it') : Held { s.change fd f with tap } := by
  obtain ⟨n, hn, hperm⟩ := hc
  rw [Vfs.change, hfd, ho]
  refine ⟨?_, ?_⟩
  · show List.Forall₂ Tied tap.sockets (s.objects.set fd (f it o).objects)
    rw [htap]
    exact forall₂_set held.tied fd htied
  · obtain ⟨pre, post, hl, -, hset⟩ := exists_split ho
    have haccounted := held.accounted
    rw [Vfs.Accounted, hl] at haccounted
    show (((f it o).deleted ++ s.deleted) ++
      (s.objects.set fd (f it o).objects).flatMap Objects.list).Perm (List.range (f it o).created)
    rw [hset, hn]
    have hrange : (List.range (s.created + n)).Perm
        (List.range' s.created n ++ List.range s.created) := by
      rw [List.range_eq_range', List.range_eq_range', ← List.range'_append_1, Nat.zero_add]
      exact List.perm_append_comm
    exact (perm_replace haccounted hperm).trans hrange.symm

/-- The sockets keep what the objects belong to. -/
theorem Held.keep (held : Held s) (hkeeps : List.Forall₂ Keeps s.tap.sockets tap.sockets) :
    Held { s with tap } :=
  ⟨forall₂_change held.tied hkeeps fun _ _ _ htied hkeeps => htied.keep hkeeps, held.accounted⟩

/-- The same where one socket changes. -/
theorem Held.keep_one (held : Held s) (hfd : s.tap.sockets[fd]? = some it)
    (hkeeps : Keeps it it') (freed : List Buffer) :
    Held { s with tap := s.tap.replace fd it' freed } := by
  obtain ⟨o, ho, htied⟩ := forall₂_getElem? held.tied hfd
  exact ⟨forall₂_set_left held.tied ho (htied.keep hkeeps), held.accounted⟩

/-- A read keeps the objects. -/
theorem Held.pop (held : Held s) (hfd : s.tap.sockets[fd]? = some it) {len : Nat}
    (h : s.tap.pop C fd it len = some tap) : Held { s with tap } := by
  obtain ⟨r, hpop, rfl⟩ := Option.map_eq_some_iff.mp h
  obtain ⟨q, hsocket⟩ := pop_socket hpop
  have hkeeps : Keeps it { it with rxQueue := some q } := ⟨rfl, rfl, fun _ => rfl⟩
  rw [hsocket]
  exact held.keep_one hfd hkeeps r.freed

/-- Opening a socket keeps the objects of the others. -/
theorem Held.open_ (held : Held s) (nonBlocking queue : Bool) :
    Held { s.account (.open_ nonBlocking queue) with
      tap := { s.tap with sockets := (l2tapOpen s.tap.sockets nonBlocking queue).1 } } := by
  rw [Vfs.account]
  rcases l2tapOpen_cases s.tap.sockets nonBlocking queue with
    ⟨hnone, hsame⟩ | ⟨fd, it, hfind, hfd, hready, hopened⟩
  · rw [hnone, hsame]
    exact held
  · rw [hfind, hopened]
    obtain ⟨o, ho, htied⟩ := forall₂_getElem? held.tied hfd
    have hzero : o = .zero := htied.ready hready
    have haccounts : (openObjects o s.created queue).Accounts o s.created :=
      openObjects_accounts queue hzero
    cases queue with
    | false =>
      obtain ⟨hlt, rfl⟩ := List.getElem?_eq_some_iff.mp hfd
      exact held.change hfd ho haccounts htied (List.set_getElem_self hlt).symm
    | true =>
      have hclean : it.cleanTask = none := by
        by_contra hclean
        exact nomatch hready.symm.trans (htied.cleaned hclean)
      refine held.change hfd ho haccounts ?_ rfl
      subst hzero
      exact ⟨nofun, fun _ => ⟨s.created, rfl⟩, fun _ => rfl, fun htask => absurd hclean htask⟩

/-- Closing a socket keeps the objects of the others. -/
theorem Held.close (held : Held s) (hfd : s.tap.sockets[fd]? = some it) (sem task : Bool) :
    Held { s.account (.close fd sem task) with
      tap := s.tap.replace fd (closeSocket it sem task) [] } := by
  obtain ⟨o, ho, htied⟩ := forall₂_getElem? held.tied hfd
  refine held.change hfd ho (closeObjects_accounts htied sem task) ?_ rfl
  unfold closeSocket closeObjects
  split
  next => exact htied
  next hstate =>
    have hopened : it.state = .opened := Decidable.not_not.mp hstate
    have hqueue : it.rxQueue.isSome := htied.queue (hopened ▸ nofun)
    cases sem with
    | false => exact tied_closing rfl hqueue
    | true =>
      cases task with
      | false => exact tied_closing rfl hqueue
      | true => exact tied_closing rfl hqueue

/-- The clean task keeps the objects until its last step, which leaves the descriptor ready
with nothing. -/
theorem Held.clean (held : Held s) (hfd : s.tap.sockets[fd]? = some it)
    (h : s.tap.clean C fd it = some tap) : Held { s.account (.clean fd) with tap } := by
  obtain ⟨o, ho, htied⟩ := forall₂_getElem? held.tied hfd
  rw [Tap.clean] at h
  cases hclean : it.cleanTask with
  | none =>
    rw [hclean] at h
    cases h
  | some pc =>
    have hclosing : it.state = .closing := htied.cleaned (hclean ▸ Option.some_ne_none pc)
    have hkeep : ∀ {it' : L2tapContext} {freed : List Buffer}, pc ≠ .flush → Tied it' o →
        Held { s.account (.clean fd) with tap := s.tap.replace fd it' freed } := by
      intro it' freed hpc htied'
      have hnot : it.cleanTask ≠ some .flush := by simpa [hclean] using hpc
      refine held.change hfd ho cleanObjects_accounts ?_ rfl
      rwa [cleanObjects, if_neg hnot]
    rw [hclean] at h
    cases pc with
    | push =>
      cases h
      have hkeeps := push_getD C it .marker
      have hqueue := hkeeps.rxQueue (htied.queue_of_closing hclosing)
      exact hkeep (by simp) (tied_closing (hkeeps.state.trans hclosing) hqueue)
    | pop =>
      obtain ⟨r, hpop, rfl⟩ := Option.map_eq_some_iff.mp h
      obtain ⟨q, hsocket⟩ := pop_socket hpop
      rw [hsocket]
      exact hkeep (by simp) (tied_closing hclosing rfl)
    | flush =>
      cases h
      refine held.change hfd ho cleanObjects_accounts ?_ rfl
      rw [cleanObjects, if_pos hclean]
      exact tied_ready rfl rfl

/-- Whatever happens to the sockets, every object is accounted for. -/
theorem Held.step (held : Held s) {action : Action} (h : s.step C action = some s') : Held s' := by
  obtain ⟨tap, htap, rfl⟩ := Option.map_eq_some_iff.mp h
  cases action with
  | open_ nonBlocking queue =>
    cases htap
    exact held.open_ nonBlocking queue
  | ioctl fd cmd =>
    cases htap
    rcases l2tapIoctl_cases s.tap.sockets fd cmd with
      hsame | ⟨it, driverHandle, ethtypeFilter, hfd, -, hset⟩
    · rw [hsame]
      exact held
    · have hkeeps : Keeps it { it with driverHandle, ethtypeFilter } := ⟨rfl, rfl, id⟩
      rw [hset]
      exact held.keep_one hfd hkeeps []
  | read fd len =>
    obtain ⟨it, hfd, htap⟩ := Option.bind_eq_some_iff.mp htap
    split at htap
    · cases htap
      exact held
    · exact held.pop hfd htap
  | wake fd len =>
    obtain ⟨it, hfd, htap⟩ := Option.bind_eq_some_iff.mp htap
    exact held.pop hfd htap
  | fcntl fd nonBlocking =>
    obtain ⟨it, hfd, rfl⟩ := Option.map_eq_some_iff.mp htap
    have hkeeps : Keeps it { it with nonBlocking } := ⟨rfl, rfl, id⟩
    exact held.keep_one hfd hkeeps []
  | close fd sem task =>
    obtain ⟨it, hfd, rfl⟩ := Option.map_eq_some_iff.mp htap
    exact held.close hfd sem task
  | clean fd =>
    obtain ⟨it, hfd, htap⟩ := Option.bind_eq_some_iff.mp htap
    exact held.clean hfd htap
  | receive frame =>
    cases htap
    exact held.keep ((ethFilterFrom_sockets _ _ _).imp fun _ _ h => h.1)

/-- At the start no socket has objects. -/
theorem held_init (maxFds : Nat) : Held (Vfs.init maxFds) where
  tied := by
    show List.Forall₂ Tied (List.replicate maxFds .zero) (List.replicate maxFds .zero)
    induction maxFds with
    | zero => exact .nil
    | succ n ih =>
      rw [List.replicate_succ, List.replicate_succ]
      exact .cons (tied_ready rfl rfl) ih
  accounted := by
    have hnone : (List.replicate maxFds Objects.zero).flatMap Objects.list = [] := by
      simp [Objects.list, Objects.zero]
    rw [Vfs.Accounted, Vfs.init, hnone]
    exact List.Perm.refl _

/-- Every run keeps the objects tied to their sockets. -/
theorem Held.exec (held : Held s) {actions : List Action}
    (h : Machine.exec (Vfs.step C) s actions = some s') : Held s' :=
  Machine.exec_inv (fun _ _ _ hstep held => held.step hstep) h held

end Steps

end PicoHost.L2tap
