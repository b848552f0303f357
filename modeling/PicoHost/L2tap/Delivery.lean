import PicoHost.L2tap.Invariant

/-!
# Every frame goes to one socket

`l2tap_ioctl` does not let a socket take a filter that another socket of the driver
has. It checks nothing when a socket is bound to a driver, and not that a filter of
IEEE 802.2 frames overlaps with every other such filter; a socket that has just been
opened has the filter 0. If two sockets take a frame, the second one gets it as an
empty entry, which its reader takes for the marker of `l2tap_close`.

So the frames are delivered exactly if no command makes two sockets clash, and no
`l2tap_close` fails for a socket with frames in its queue, which nobody can read or
close any more (`delivers_iff_allowed`).
-/

namespace PicoHost.L2tap

open Table

/-! ## Delivery -/

/-- The next frame goes to one socket at most, whichever it is; of the buffers that were
taken so far each has been freed once or waits in one socket; and an empty entry is the
marker of a close. -/
structure Tap.Delivers (C : Config) (s : Tap) : Prop where
  exclusive : ∀ (frame : EthFrame) (buff : Buffer),
    (ethFilter C s.sockets frame buff).notified.length ≤ 1
  once : (s.freed ++ s.sockets.flatMap L2tapContext.waiting).Perm s.taken ∧ s.taken.Nodup
  marked : ∀ it ∈ s.sockets, ∀ e ∈ it.rxQueue.getD [], e.len = 0 →
    e = .marker ∧ it.state = .closing

/-! ## What is asked of the calls -/

section Allows

variable (C : Config)

/-- The command makes the socket `it` clash with one of the others: an accepted filter
for IEEE 802.2 frames while another socket of the driver has one, or a driver of which
another socket has an overlapping filter. -/
def SetsClash (others : List L2tapContext) (it : L2tapContext) : IoctlCmd → Prop
  | .sRcvFilter v => it.ethtypeFilter ≠ v ∧ v ≤ C.ethIeee8023MaxLen ∧
    (∃ other ∈ others, other.Bound it.driverHandle ∧
      other.ethtypeFilter ≤ C.ethIeee8023MaxLen) ∧
    ∀ other ∈ others, other.Bound it.driverHandle → other.ethtypeFilter ≠ v
  | .sIntfDevice (some driverHandle) | .sDeviceDrvHndl driverHandle =>
    ∃ other ∈ others, other.Bound driverHandle ∧
      Overlap C it.ethtypeFilter other.ethtypeFilter
  | .sIntfDevice none | .unsupported => False

instance decidableSetsClash (others : List L2tapContext) (it : L2tapContext) :
    ∀ cmd, Decidable (SetsClash C others it cmd)
  | .sRcvFilter _ => inferInstanceAs (Decidable (_ ∧ _ ∧ _ ∧ _))
  | .sIntfDevice (some _) | .sDeviceDrvHndl _ => inferInstanceAs (Decidable (∃ other ∈ _, _))
  | .sIntfDevice none | .unsupported => .isFalse id

/-- No command on an open socket makes it clash with another one, and no close fails for
a socket with frames. -/
def Tap.Allows (s : Tap) : Action → Prop
  | .ioctl fd cmd => ∀ it ∈ s.sockets[fd]?, it.state = .opened →
    ¬ SetsClash C (s.sockets.eraseIdx fd) it cmd
  | .close fd sem task => ∀ it ∈ s.sockets[fd]?, it.state = .opened →
    sem && task ∨ it.rxQueue.getD [] = []
  | .open_ .. | .read .. | .wake .. | .fcntl .. | .clean _ | .receive _ => True

instance decidableAllows (s : Tap) : ∀ action, Decidable (s.Allows C action)
  | .ioctl fd cmd => inferInstanceAs (Decidable (∀ it ∈ s.sockets[fd]?, it.state = .opened →
      ¬ SetsClash C (s.sockets.eraseIdx fd) it cmd))
  | .close fd sem task => inferInstanceAs (Decidable (∀ it ∈ s.sockets[fd]?,
      it.state = .opened → sem && task ∨ it.rxQueue.getD [] = []))
  | .open_ .. | .read .. | .wake .. | .fcntl .. | .clean _ | .receive _ => .isTrue trivial

end Allows

/-! ## Commands -/

section Ioctl

variable {C : Config} {s : Tap} {fd : Nat} {sockets others : List L2tapContext}
  {it it' : L2tapContext} {cmd : IoctlCmd}

/-- A command changes the driver or the filter. -/
theorem ioctlSocket_ok (h : ioctlSocket sockets it cmd = .ok it') :
    ∃ driverHandle ethtypeFilter, it' = { it with driverHandle, ethtypeFilter } := by
  cases cmd with
  | sRcvFilter v =>
    rw [ioctlSocket] at h
    split at h
    · cases h
    · split at h
      · split at h
        · cases h
        · cases h
          exact ⟨_, _, rfl⟩
      · cases h
        exact ⟨_, _, rfl⟩
  | sIntfDevice netif =>
    cases netif with
    | none => cases h
    | some driverHandle =>
      cases h
      exact ⟨_, _, rfl⟩
  | sDeviceDrvHndl setDriverHdl =>
    cases setDriverHdl with
    | none => cases h
    | some driverHandle =>
      cases h
      exact ⟨_, _, rfl⟩
  | unsupported => cases h

/-- No other socket of the driver has the filter: it is accepted. -/
theorem any_eq_false_iff (v : UInt16) (hdriver : it.driverHandle ≠ none) :
    (sockets.any fun other => decide (other.state = .opened) &&
      decide (other.driverHandle = it.driverHandle) && decide (other.ethtypeFilter = v)) = false ↔
    ∀ other ∈ sockets, other.Bound it.driverHandle → other.ethtypeFilter ≠ v := by
  simp only [List.any_eq_false, Bool.and_eq_true, decide_eq_true_eq, L2tapContext.Bound]
  constructor
  · exact fun h other hother hbound heq => h other hother ⟨⟨hbound.1, hbound.2.1⟩, heq⟩
  · exact fun h other hother hand => h other hother ⟨hand.1.1, hand.1.2, hdriver⟩ hand.2

/-- A command that sets a clashing protocol makes two sockets clash. -/
theorem clash_of_setsClash (hopen : it.state = .opened)
    (hsockets : ∀ other ∈ sockets, other = it ∨ other ∈ others)
    (h : SetsClash C others it cmd) :
    ∃ it', ioctlSocket sockets it cmd = .ok it' ∧ ∃ other ∈ others, Clash C it' other := by
  cases cmd with
  | sRcvFilter v =>
    obtain ⟨hne, hv, ⟨other, hother, hbound, hfilter⟩, hothers⟩ := h
    have hunused : ∀ x ∈ sockets, x.Bound it.driverHandle → x.ethtypeFilter ≠ v := by
      intro x hx hbound
      rcases hsockets x hx with rfl | hx
      · exact hne
      · exact hothers x hx hbound
    refine ⟨{ it with ethtypeFilter := v }, ?_, other, hother, ?_⟩
    · rw [ioctlSocket, if_neg hbound.2.2, if_pos hne, if_neg]
      rw [(any_eq_false_iff v hbound.2.2).mpr hunused]
      exact Bool.false_ne_true
    · exact ⟨⟨hopen, rfl, hbound.2.2⟩, hbound, .inr ⟨hv, hfilter⟩⟩
  | sIntfDevice netif =>
    cases netif with
    | none => exact h.elim
    | some driverHandle =>
      obtain ⟨other, hother, hbound, hoverlap⟩ := h
      exact ⟨_, rfl, other, hother, ⟨hopen, rfl, hbound.2.2⟩, hbound, hoverlap⟩
  | sDeviceDrvHndl setDriverHdl =>
    obtain ⟨other, hother, hbound, hoverlap⟩ := h
    cases setDriverHdl with
    | none => exact absurd rfl hbound.2.2
    | some driverHandle =>
      exact ⟨_, rfl, other, hother, ⟨hopen, rfl, hbound.2.2⟩, hbound, hoverlap⟩
  | unsupported => exact h.elim

/-- Any other command leaves the sockets apart. -/
theorem not_clash_of_not_setsClash (hsockets : ∀ other ∈ others, other ∈ sockets)
    (hbefore : ∀ other ∈ others, ¬ Clash C it other) (h : ¬ SetsClash C others it cmd)
    (hok : ioctlSocket sockets it cmd = .ok it') : ∀ other ∈ others, ¬ Clash C it' other := by
  intro other hother hclash
  cases cmd with
  | sRcvFilter v =>
    rw [ioctlSocket] at hok
    split at hok
    next => cases hok
    next hdriver =>
      split at hok
      next hne =>
        split at hok
        next => cases hok
        next hany =>
          cases hok
          -- the filter is new, so it can only overlap as one of IEEE 802.2 frames
          have hunused := (any_eq_false_iff v hdriver).mp (Bool.eq_false_iff.mpr hany)
          rcases hclash.overlap with heq | ⟨hv, hfilter⟩
          · exact hunused other (hsockets other hother) hclash.right heq.symm
          · exact h ⟨hne, hv, ⟨other, hother, hclash.right, hfilter⟩,
              fun x hx => hunused x (hsockets x hx)⟩
      next =>
        cases hok
        exact hbefore other hother hclash
  | sIntfDevice netif =>
    cases netif with
    | none => cases hok
    | some driverHandle =>
      cases hok
      exact h ⟨other, hother, hclash.right, hclash.overlap⟩
  | sDeviceDrvHndl setDriverHdl =>
    cases setDriverHdl with
    | none => cases hok
    | some driverHandle =>
      cases hok
      exact h ⟨other, hother, hclash.right, hclash.overlap⟩
  | unsupported => cases hok

/-- An accepted command changes one socket, the others none. -/
theorem l2tapIoctl_cases (sockets : List L2tapContext) (fd : Nat) (cmd : IoctlCmd) :
    (l2tapIoctl sockets fd cmd).1 = sockets ∨ ∃ it driverHandle ethtypeFilter,
      sockets[fd]? = some it ∧
      ioctlSocket sockets it cmd = .ok { it with driverHandle, ethtypeFilter } ∧
      (l2tapIoctl sockets fd cmd).1 = sockets.set fd { it with driverHandle, ethtypeFilter } := by
  rw [l2tapIoctl]
  split
  next => exact .inl rfl
  next it hfd =>
    split
    next => exact .inl rfl
    next it' hok =>
      obtain ⟨driverHandle, ethtypeFilter, rfl⟩ := ioctlSocket_ok hok
      exact .inr ⟨it, driverHandle, ethtypeFilter, hfd, hok, rfl⟩

/-- An allowed command keeps the invariant. -/
theorem Inv.ioctl (inv : Inv C s)
    (hallow : s.Allows C (.ioctl fd cmd)) :
    Inv C { s with sockets := (l2tapIoctl s.sockets fd cmd).1 } := by
  rcases l2tapIoctl_cases s.sockets fd cmd with
    hsame | ⟨it, driverHandle, ethtypeFilter, hfd, hok, hset⟩
  · rw [hsame]
    exact inv
  · rw [hset]
    have hit := inv.ok it (List.mem_of_getElem? hfd)
    have hclash : ∀ other ∈ s.sockets.eraseIdx fd,
        ¬ Clash C { it with driverHandle, ethtypeFilter } other := by
      by_cases hopen : it.state = .opened
      · refine not_clash_of_not_setsClash (fun other hother => ?_) (inv.not_clash hfd)
          (hallow it hfd hopen) hok
        exact List.mem_of_mem_eraseIdx hother
      · exact fun other _ hclash => hopen hclash.left.1
    have hok : L2tapContext.Ok { it with driverHandle, ethtypeFilter } :=
      ⟨hit.unused, hit.cleaned, hit.empty, hit.entries⟩
    have hnothing : [] ++ L2tapContext.waiting { it with driverHandle, ethtypeFilter } =
        it.waiting := rfl
    exact inv.replace hfd hok hnothing hclash

end Ioctl

/-! ## Every run -/

section Run

variable {C : Config} {s s' : Tap} {action : Action}

/-- Every allowed step keeps the invariant. -/
theorem Inv.step (inv : Inv C s) (hallow : s.Allows C action)
    (h : s.step C action = some s') : Inv C s' := by
  cases action with
  | open_ nonBlocking queue =>
    cases h
    exact inv.open_ nonBlocking queue
  | ioctl fd cmd =>
    cases h
    exact inv.ioctl hallow
  | read fd len =>
    obtain ⟨it, hfd, h⟩ := Option.bind_eq_some_iff.mp h
    split at h
    · cases h
      exact inv
    · exact inv.pop hfd h
  | wake fd len =>
    obtain ⟨it, hfd, h⟩ := Option.bind_eq_some_iff.mp h
    exact inv.pop hfd h
  | fcntl fd nonBlocking =>
    obtain ⟨it, hfd, rfl⟩ := Option.map_eq_some_iff.mp h
    have hit := inv.ok it (List.mem_of_getElem? hfd)
    have hok : L2tapContext.Ok { it with nonBlocking } :=
      ⟨hit.unused, hit.cleaned, hit.empty, hit.entries⟩
    refine inv.replace hfd hok rfl fun other hother hclash => ?_
    exact inv.not_clash hfd other hother ⟨hclash.left, hclash.right, hclash.overlap⟩
  | close fd sem task =>
    obtain ⟨it, hfd, rfl⟩ := Option.map_eq_some_iff.mp h
    exact inv.close hfd (hallow it hfd)
  | clean fd =>
    obtain ⟨it, hfd, h⟩ := Option.bind_eq_some_iff.mp h
    exact inv.clean hfd h
  | receive frame =>
    cases h
    exact inv.receive frame

/-- The invariant is what is asked of the delivery. -/
theorem Inv.delivers (inv : Inv C s) : s.Delivers C where
  exclusive := delivers_iff.mpr inv.exclusive
  once := ⟨inv.once, inv.nodup⟩
  marked it hit e he hlen := by
    rcases (inv.ok it hit).entries e he with ⟨hpos, -⟩ | hmarker
    · exact absurd hlen (Nat.pos_iff_ne_zero.mp hpos)
    · exact hmarker

/-- After such a command some frame would go to two sockets. -/
theorem not_delivers_of_setsClash {fd : Nat} {cmd : IoctlCmd} {it : L2tapContext}
    (hfd : s.sockets[fd]? = some it) (hopen : it.state = .opened)
    (h : SetsClash C (s.sockets.eraseIdx fd) it cmd) :
    ¬ Tap.Delivers C { s with sockets := (l2tapIoctl s.sockets fd cmd).1 } := by
  intro hdelivers
  obtain ⟨pre, post, hl, herase, hset⟩ := exists_split hfd
  have hsockets : ∀ other ∈ s.sockets, other = it ∨ other ∈ s.sockets.eraseIdx fd := by
    rw [herase, hl]
    intro other hother
    simp only [List.mem_append, List.mem_cons] at hother ⊢
    tauto
  obtain ⟨it', hok, other, hother, hclash⟩ := clash_of_setsClash hopen hsockets h
  have hexclusive := delivers_iff.mp hdelivers.exclusive
  rw [l2tapIoctl, hfd] at hexclusive
  dsimp only at hexclusive
  rw [hok] at hexclusive
  dsimp only at hexclusive
  rw [hset] at hexclusive
  rw [herase] at hother
  exact (exclusive_middle.mp hexclusive).1 other hother hclash

/-- The frames in the queue of a socket whose close fails are neither freed nor
waiting. -/
theorem Inv.not_delivers_of_close (inv : Inv C s) {fd : Nat} {it : L2tapContext}
    (hfd : s.sockets[fd]? = some it) (hopen : it.state = .opened) {sem task : Bool}
    (hfailed : ¬ (sem && task) = true) (hframes : it.rxQueue.getD [] ≠ []) :
    ¬ (s.replace fd (closeSocket it sem task) []).Delivers C := by
  intro hdelivers
  obtain ⟨pre, post, hl, -, hset⟩ := exists_split hfd
  have hit := inv.ok it (List.mem_of_getElem? hfd)
  have hclean : it.cleanTask = none := by
    by_contra hclean
    exact nomatch hopen.symm.trans (hit.cleaned hclean)
  have hlost : (closeSocket it sem task).waiting = [] := by
    rw [closeSocket, if_neg (not_not_intro hopen), if_neg hfailed, L2tapContext.waiting, if_pos]
    simp [L2tapContext.abandoned, hclean]
  -- there are fewer buffers freed or waiting than taken
  have hbefore := inv.once.length_eq
  have hafter := hdelivers.once.1.length_eq
  rw [Tap.replace, hset] at hafter
  rw [hl] at hbefore
  simp only [List.length_append, List.flatMap_append, List.flatMap_cons, hlost,
    List.nil_append] at hbefore hafter
  have hnone : it.waiting = [] := by
    refine List.eq_nil_of_length_eq_zero ?_
    have htaken : (s.replace fd (closeSocket it sem task) []).taken = s.taken := rfl
    omega
  -- but an entry of an open socket is a frame
  obtain ⟨e, rest, hq⟩ := List.exists_cons_of_ne_nil hframes
  have he : e.flushed = [] := by
    rw [waiting_of_ok hit, flushRxQueue, hq, List.flatMap_cons] at hnone
    exact (List.append_eq_nil_iff.mp hnone).1
  rcases hit.entries e (hq ▸ List.mem_cons_self ..) with ⟨hpos, hbuff⟩ | ⟨-, hclosing⟩
  · rw [FrameQueueEntry.flushed, if_pos hpos] at he
    obtain ⟨b, hb⟩ := Option.isSome_iff_exists.mp hbuff
    rw [hb] at he
    cases he
  · exact nomatch hopen.symm.trans hclosing

/-- A step that is not allowed breaks the delivery. -/
theorem Inv.not_delivers (inv : Inv C s) (hnot : ¬ s.Allows C action)
    (h : s.step C action = some s') : ¬ s'.Delivers C := by
  cases action with
  | ioctl fd cmd =>
    cases h
    simp only [Tap.Allows, not_forall, not_not] at hnot
    obtain ⟨it, hfd, hopen, hsets⟩ := hnot
    exact not_delivers_of_setsClash hfd hopen hsets
  | close fd sem task =>
    obtain ⟨it, hfd, rfl⟩ := Option.map_eq_some_iff.mp h
    simp only [Tap.Allows, not_forall, not_or] at hnot
    obtain ⟨it', hfd', hopen, hfailed, hframes⟩ := hnot
    cases hfd.symm.trans hfd'
    exact inv.not_delivers_of_close hfd hopen hfailed hframes
  | open_ | read | wake | fcntl | clean | receive => exact absurd trivial hnot

/-- Whatever happens to the sockets, every frame is delivered to one of them at most and
its buffer is freed once, and no empty entry is made for a frame, exactly if no command
makes two open sockets clash and no close fails for a socket with frames. -/
theorem delivers_iff_allowed (C : Config) (maxFds : Nat) (actions : List Action) (s : Tap)
    (h : Machine.exec (Tap.step C) (Tap.init maxFds) actions = some s) :
    Machine.Each (Tap.step C) (fun _ _ s => s.Delivers C) (Tap.init maxFds) actions ↔
      Machine.Along (Tap.step C) (Tap.Allows C) (Tap.init maxFds) actions :=
  Machine.each_iff_along
    (fun _ _ _ hallow h (inv : Inv C _) => ⟨inv.step hallow h, (inv.step hallow h).delivers⟩)
    (fun _ _ _ hnot h inv => inv.not_delivers hnot h) h (inv_init C maxFds)

end Run

/-- Two sockets of one driver with filters of Ethernet II. A frame for the first one is
read, one for the second waits until the socket is closed. -/
def twoSockets : List Action :=
  [.open_ false true, .ioctl 0 (.sDeviceDrvHndl (some 7)), .ioctl 0 (.sRcvFilter 0x22F0),
    .open_ true true, .ioctl 1 (.sIntfDevice (some (some 7))), .ioctl 1 (.sRcvFilter 0x88F7),
    .receive ⟨7, 0x22F0, 60, by decide⟩, .receive ⟨7, 0x88F7, 60, by decide⟩, .read 0 100,
    .close 1 true true, .clean 1, .clean 1, .clean 1]

/-- The run of `twoSockets`, with a protocol each -/
theorem delivers_iff_allowed_twoSockets : ∃ s,
    Machine.exec (Tap.step ⟨20, 1500⟩) (Tap.init 5) twoSockets = some s ∧
      Machine.Each (Tap.step ⟨20, 1500⟩) (fun _ _ s => s.Delivers ⟨20, 1500⟩) (Tap.init 5)
        twoSockets := by
  obtain ⟨s, hs⟩ := Option.isSome_iff_exists.mp
    (show (Machine.exec (Tap.step ⟨20, 1500⟩) (Tap.init 5) twoSockets).isSome by decide +kernel)
  exact ⟨s, hs, (delivers_iff_allowed ⟨20, 1500⟩ 5 twoSockets s hs).mpr (by decide +kernel)⟩

/-- Two sockets are bound to one driver, and two IEEE 802.2 frames arrive while there is
room for one entry in a queue. The first frame is in both queues, in the second one as an
empty entry; the second frame is freed twice. -/
theorem sameDriver_not_delivers : ∃ s,
    Machine.exec (Tap.step ⟨1, 1500⟩) (Tap.init 2)
      [.open_ false true, .ioctl 0 (.sDeviceDrvHndl (some 7)), .open_ false true,
        .ioctl 1 (.sDeviceDrvHndl (some 7)), .receive ⟨7, 46, 60, by decide⟩,
        .receive ⟨7, 46, 60, by decide⟩] = some s ∧
      s.sockets.map L2tapContext.rxQueue = [some [⟨some 0, 60⟩], some [⟨some 0, 0⟩]] ∧
      s.freed = [1, 1] ∧ ¬ s.Delivers ⟨1, 1500⟩ :=
  ⟨_, rfl, rfl, rfl, fun h => absurd h.once.1.length_eq (by decide)⟩

end PicoHost.L2tap
