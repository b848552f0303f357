import PicoHost.Event.Loop

/-!
# How long `esp_event_loop_run` takes

A schedule says when each event arrives at the queue and how long its dispatch
takes, the wait for the mutex included. `loopRun` follows one call through it in
ticks. Events are served in order: `begins` and `ends` are the times of a dispatch,
which depend on the schedule alone.

The call subtracts from `remaining_ticks` what each round has taken, but every wait
for the queue may take the full `ticks_to_run` again. So the last dispatch may begin
after the time is over, and a queue that stays empty costs the whole time once more.
-/

namespace PicoHost.Event

/-! ## The call -/

/-- An event of the schedule: the tick at which it arrives at the queue, and the
ticks that its dispatch takes. -/
structure Arrival where
  arrives : Nat
  lasts : Nat
deriving DecidableEq, Repr

/-- The tick at which the call returns, and the ticks that the dispatch of the last
event that it dequeued has taken. -/
structure Returned where
  at_ : Nat
  lastDispatch : Option Nat
deriving DecidableEq, Repr

/-- `xTaskGetTickCount` -/
def tickCount (now : Nat) : Ticks := UInt32.ofNat now

/-- The loop of `esp_event_loop_run` (esp_event.c:574–655) at tick `now`; the last
argument is what has not been dequeued yet. The events wait in the queue from their
arrival on; `none` if the call waits forever. -/
def runLoop (ticksToRun : Ticks) (now : Nat) (marker : Ticks) (remainingTicks : Int)
    (lastDispatch : Option Nat) : List Arrival → Option Returned
  | [] => if ticksToRun = maxDelay then none else some ⟨now + ticksToRun.toNat, lastDispatch⟩
  | event :: later =>
    if ticksToRun = maxDelay then
      let end_ := max now event.arrives + event.lasts
      runLoop ticksToRun end_ marker remainingTicks (some event.lasts) later
    else if event.arrives ≤ now + ticksToRun.toNat then
      let end_ := max now event.arrives + event.lasts
      let remainingTicks := remainingTicks - (tickCount end_ - marker).toNat
      if remainingTicks ≤ 0 then some ⟨end_, some event.lasts⟩
      else runLoop ticksToRun end_ (tickCount end_) remainingTicks (some event.lasts) later
    else some ⟨now + ticksToRun.toNat, lastDispatch⟩

/-- `esp_event_loop_run` (esp_event.c:561–658), called at tick `start`. -/
def loopRun (ticksToRun : Ticks) (start : Nat) (schedule : List Arrival) : Option Returned :=
  runLoop ticksToRun start (tickCount start) ticksToRun.toNat none schedule

/-! ## The times of a schedule -/

/-- The dispatch of an event begins when the one before is over and it has arrived. -/
def Arrival.begins (now : Nat) (event : Arrival) : Nat := max now event.arrives

def Arrival.ends (now : Nat) (event : Arrival) : Nat := event.begins now + event.lasts

/-- When the dispatches of several events are over. -/
def endsAll (now : Nat) (events : List Arrival) : Nat := events.foldl Arrival.ends now

/-- The ticks that several rounds take on the tick counter, which wraps around. -/
def counted (now : Nat) : List Arrival → Nat
  | [] => 0
  | event :: later =>
    (event.ends now - now) % UInt32.size + counted (event.ends now) later

/-- The queue is never empty for more than `T` ticks before one of the events. -/
def Steady (T now : Nat) : List Arrival → Prop
  | [] => True
  | event :: later => event.arrives ≤ now + T ∧ Steady T (event.ends now) later

/-- A call with `T` ticks at `start` dequeues `event` after the events `before`. -/
structure Dequeues (T start : Nat) (before : List Arrival) (event : Arrival) : Prop where
  steady : Steady T start (before ++ [event])
  inTime : before = [] ∨ counted start before < T

/-- Nothing arrives for `T` ticks. -/
def StaysEmpty (T now : Nat) (later : List Arrival) : Prop :=
  ∀ event ∈ later.head?, now + T < event.arrives

section Times

/-- The difference of two tick counts, modulo their width -/
theorem tickCount_sub {a b : Nat} (h : a ≤ b) :
    (tickCount b - tickCount a).toNat = (b - a) % UInt32.size := by
  have hsize : UInt32.size = 2 ^ 32 := rfl
  rw [tickCount, tickCount, UInt32.toNat_sub, UInt32.toNat_ofNat', UInt32.toNat_ofNat', hsize]
  omega

/-- An event ends after it was received. -/
theorem le_ends (now : Nat) (event : Arrival) : now ≤ event.ends now :=
  Nat.le_trans (Nat.le_max_left ..) (Nat.le_add_right ..)

/-- One event more ends after the others. -/
theorem endsAll_concat (now : Nat) (events : List Arrival) (event : Arrival) :
    endsAll now (events ++ [event]) = event.ends (endsAll now events) :=
  List.foldl_concat ..

/-- Events end after the start of the run. -/
theorem le_endsAll (now : Nat) (events : List Arrival) : now ≤ endsAll now events := by
  induction events generalizing now with
  | nil => exact Nat.le_refl _
  | cons event later ih => exact Nat.le_trans (le_ends now event) (ih (event.ends now))

end Times

/-! ## What the call does with a schedule -/

section RunLoop

variable {T : Ticks} {now : Nat} {last : Option Nat}

/-- A queue that stays empty for `ticks_to_run` ends the call. -/
theorem runLoop_staysEmpty (hT : T ≠ maxDelay) (marker : Ticks) (remaining : Int)
    {later : List Arrival} (h : StaysEmpty T.toNat now later) :
    runLoop T now marker remaining last later = some ⟨now + T.toNat, last⟩ := by
  cases later with
  | nil => rw [runLoop, if_neg hT]
  | cons event later =>
    have hlate : ¬ event.arrives ≤ now + T.toNat := Nat.not_le.mpr (h event rfl)
    rw [runLoop, if_neg hT, if_neg hlate]

/-- One round: the event comes in time, and the call goes on if there are ticks left. -/
theorem runLoop_cons (hT : T ≠ maxDelay) (remaining : Int) {event : Arrival}
    (later : List Arrival) (h : event.arrives ≤ now + T.toNat) :
    runLoop T now (tickCount now) remaining last (event :: later) =
      if remaining ≤ ((event.ends now - now) % UInt32.size : Nat)
      then some ⟨event.ends now, some event.lasts⟩
      else runLoop T (event.ends now) (tickCount (event.ends now))
        (remaining - ((event.ends now - now) % UInt32.size : Nat)) (some event.lasts) later := by
  have hends : max now event.arrives + event.lasts = event.ends now := rfl
  rw [runLoop, if_neg hT, if_pos h, hends]
  dsimp only
  rw [tickCount_sub (le_ends now event)]
  have hsub : ∀ a b : Int, a - b ≤ 0 ↔ a ≤ b := fun a b => by omega
  simp only [hsub]

/-- The call goes through the events that come in time, as long as there are ticks. -/
theorem runLoop_dequeues (hT : T ≠ maxDelay) (remaining : Int) {before : List Arrival}
    {event : Arrival} (later : List Arrival) (hsteady : Steady T.toNat now (before ++ [event]))
    (htime : before = [] ∨ (counted now before : Int) < remaining) :
    runLoop T now (tickCount now) remaining last (before ++ event :: later) =
      if remaining ≤ counted now (before ++ [event])
      then some ⟨endsAll now (before ++ [event]), some event.lasts⟩
      else runLoop T (endsAll now (before ++ [event])) (tickCount (endsAll now (before ++ [event])))
        (remaining - counted now (before ++ [event])) (some event.lasts) later := by
  induction before generalizing now remaining last with
  | nil => exact runLoop_cons hT remaining later hsteady.1
  | cons first before ih =>
    have hcounted : ∀ events, counted now (first :: events) =
        (first.ends now - now) % UInt32.size + counted (first.ends now) events := fun _ => rfl
    have hfirst := htime.resolve_left nofun
    rw [hcounted] at hfirst
    have hrest : before = [] ∨ (counted (first.ends now) before : Int) <
        remaining - ((first.ends now - now) % UInt32.size : Nat) := by
      right
      omega
    have hgo : ¬ remaining ≤ ((first.ends now - now) % UInt32.size : Nat) := by omega
    rw [List.cons_append, runLoop_cons hT remaining _ hsteady.1, if_neg hgo,
      ih (remaining - ((first.ends now - now) % UInt32.size : Nat)) hsteady.2 hrest,
      List.cons_append, hcounted]
    have hle : ∀ a b c : Int, a - b ≤ c ↔ a ≤ b + c := fun a b c => by omega
    have hsub : ∀ a b c : Int, a - b - c = a - (b + c) := fun a b c => by omega
    simp only [hle, hsub, Int.natCast_add]
    rfl

/-- There is a last event that the call dequeues, unless it dequeues none. -/
theorem exists_last (T : Nat) (now : Nat) (remaining : Int) (schedule : List Arrival) :
    StaysEmpty T now schedule ∨ ∃ before event later, schedule = before ++ event :: later ∧
      Steady T now (before ++ [event]) ∧ (before = [] ∨ (counted now before : Int) < remaining) ∧
      (remaining ≤ counted now (before ++ [event]) ∨
        StaysEmpty T (endsAll now (before ++ [event])) later) := by
  induction schedule generalizing now remaining with
  | nil => exact .inl nofun
  | cons first later ih =>
    by_cases hfirst : first.arrives ≤ now + T
    · right
      by_cases htime : remaining ≤ ((first.ends now - now) % UInt32.size : Nat)
      · exact ⟨[], first, later, rfl, ⟨hfirst, trivial⟩, .inl rfl, .inl htime⟩
      -- the call goes on behind the first event
      rcases ih (first.ends now) (remaining - ((first.ends now - now) % UInt32.size : Nat)) with
        hempty | ⟨before, event, later, rfl, hsteady, hbefore, hlast⟩
      · exact ⟨[], first, later, rfl, ⟨hfirst, trivial⟩, .inl rfl, .inr hempty⟩
      · refine ⟨first :: before, event, later, rfl, ⟨hfirst, hsteady⟩, .inr ?_, ?_⟩
        · -- the ticks of the first round and of those behind it
          show (((first.ends now - now) % UInt32.size + counted (first.ends now) before : Nat)
            : Int) < remaining
          rcases hbefore with rfl | hbefore
          · show ((_ + 0 : Nat) : Int) < remaining
            omega
          · omega
        · rcases hlast with hlast | hempty
          · refine .inl ?_
            show remaining ≤ (((first.ends now - now) % UInt32.size +
              counted (first.ends now) (before ++ [event]) : Nat) : Int)
            omega
          · exact .inr hempty
    · left
      rintro event heq
      cases heq
      exact Nat.not_le.mp hfirst

end RunLoop

/-- A call with a finite `ticks_to_run` returns in time, that is, no later than
`ticks_to_run` and the last dispatch behind its entry, exactly if the last event that it
dequeues begins to be dispatched within this time of the entry, where the call goes out
behind the dispatch, and at the entry, where it goes out at the empty queue. -/
theorem loopRun_inTime_iff {T : Ticks} (hT : T ≠ maxDelay) (start : Nat)
    (schedule : List Arrival) :
    (∃ r, loopRun T start schedule = some r ∧
      r.at_ ≤ start + T.toNat + r.lastDispatch.getD 0) ↔
    ∀ before event later, schedule = before ++ event :: later →
      Dequeues T.toNat start before event →
      (T.toNat ≤ counted start (before ++ [event]) →
        event.begins (endsAll start before) ≤ start + T.toNat) ∧
      (counted start (before ++ [event]) < T.toNat →
        StaysEmpty T.toNat (endsAll start (before ++ [event])) later →
        event.begins (endsAll start before) = start) := by
  have hends : ∀ before (event : Arrival), endsAll start (before ++ [event]) =
      event.begins (endsAll start before) + event.lasts := endsAll_concat start
  constructor
  -- both ways out of the loop return behind `event`
  · rintro ⟨r, hr, hin⟩ before event later rfl hdeq
    have htime : before = [] ∨ (counted start before : Int) < (T.toNat : Int) :=
      hdeq.inTime.imp_right Int.ofNat_lt.mpr
    rw [loopRun, runLoop_dequeues hT _ later hdeq.steady htime] at hr
    constructor
    · intro hover
      rw [if_pos (Int.ofNat_le.mpr hover)] at hr
      cases hr
      rw [hends] at hin
      exact Nat.le_of_add_le_add_right hin
    · intro hleft hempty
      -- the wait for the empty queue takes the whole time again
      have hle : start ≤ event.begins (endsAll start before) :=
        Nat.le_trans (le_endsAll start before) (Nat.le_max_left ..)
      rw [if_neg (by omega), runLoop_staysEmpty hT _ _ hempty] at hr
      cases hr
      rw [hends] at hin
      simp only [Option.getD_some] at hin
      omega
  -- the call dequeues nothing, or there is a last event, which the condition is about
  · intro h
    rcases exists_last T.toNat start T.toNat schedule with
      hempty | ⟨before, event, later, rfl, hsteady, htime, hlast⟩
    · exact ⟨_, runLoop_staysEmpty hT _ _ hempty, Nat.le_refl _⟩
    · obtain ⟨hover, hleft⟩ := h before event later rfl
        ⟨hsteady, htime.imp_right Int.ofNat_lt.mp⟩
      rw [loopRun, runLoop_dequeues hT _ later hsteady htime]
      by_cases hexpired : T.toNat ≤ counted start (before ++ [event])
      · rw [if_pos (Int.ofNat_le.mpr hexpired)]
        refine ⟨_, rfl, ?_⟩
        rw [hends]
        exact Nat.add_le_add_right (hover hexpired) _
      · have hempty := hlast.resolve_left (by omega)
        rw [if_neg (by omega), runLoop_staysEmpty hT _ _ hempty]
        refine ⟨_, rfl, ?_⟩
        have hbegins := hleft (by omega) hempty
        rw [hends, hbegins]
        simp only [Option.getD_some]
        omega

/-- Two events are there at the entry; behind the second the time is over. -/
theorem loopRun_inTime_two : (10 : Ticks) ≠ maxDelay ∧ ∀ before event later,
    [⟨95, 4⟩, ⟨98, 8⟩] = before ++ event :: later →
      Dequeues (10 : Ticks).toNat 100 before event →
      ((10 : Ticks).toNat ≤ counted 100 (before ++ [event]) →
        event.begins (endsAll 100 before) ≤ 100 + (10 : Ticks).toNat) ∧
      (counted 100 (before ++ [event]) < (10 : Ticks).toNat →
        StaysEmpty (10 : Ticks).toNat (endsAll 100 (before ++ [event])) later →
        event.begins (endsAll 100 before) = 100) :=
  ⟨by decide, (loopRun_inTime_iff (by decide) 100 [⟨95, 4⟩, ⟨98, 8⟩]).mp
    ⟨⟨112, some 8⟩, by decide, by decide⟩⟩

/-- An event comes nine ticks after the entry and is dispatched at once, and then the
queue stays empty: the call with ten ticks takes nineteen. -/
theorem loopRun_late : loopRun 10 100 [⟨109, 0⟩] = some ⟨119, some 0⟩ ∧
    ¬ 119 ≤ 100 + (10 : Ticks).toNat + 0 := by
  decide

end PicoHost.Event
