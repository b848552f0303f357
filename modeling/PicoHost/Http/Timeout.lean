import PicoHost.Http.Life

/-!
# The time-out of a request

The count of `timeout_ticks` against what it is for: a request is given up with the thirtieth poll
since it was started or since `recv_fn` last got data, and with no earlier one. Pieces of the
headers do not prolong it.
-/

namespace PicoHost.Http

open Ota (Chunk HttpcResult)

def Act.isRecv : Act → Bool
  | .recv _ => true
  | _ => false

/-- How often `recv_fn` has been called -/
def recvCalls (acts : List Act) : Nat := acts.countP Act.isRecv

@[simp] theorem recvCalls_append (acts acts' : List Act) :
    recvCalls (acts ++ acts') = recvCalls acts + recvCalls acts' := List.countP_append

/-- What a callback does to the count: it is reset with a call of `recv_fn`, counted down by a poll
and left alone otherwise. -/
inductive Counts (e : Event) (req req' : HttpcState) (acts : List Act) : Prop where
  | reset (hcall : 0 < recvCalls acts) (hpoll : e ≠ .poll)
      (hticks : req'.timeoutTicks = httpcPollTimeout)
  | down (hcall : recvCalls acts = 0) (hpoll : e = .poll)
      (hticks : req'.timeoutTicks = req.timeoutTicks - 1) (hleft : req'.timeoutTicks ≠ 0)
  | same (hcall : recvCalls acts = 0) (hpoll : e ≠ .poll)
      (hticks : req'.timeoutTicks = req.timeoutTicks)

section Callbacks

variable {L : Pbufs} {c : Settings} {req req' : HttpcState} {a : Answers} {p : Chain}

/-- A piece of the body restarts the count of polls. -/
theorem rxData_counts (hc : c.recvFn) {q : Chain} (h : (rxData c req q a).req = some req') :
    Counts (.recv p) req req' (rxData c req q a).acts := by
  rw [rxData] at h ⊢
  by_cases hq : q = []
  · rw [if_neg (not_not_intro hq)] at h ⊢
    cases h
    exact .same rfl Event.noConfusion rfl
  · rw [if_pos hq, if_pos hc] at h ⊢
    cases h
    exact .reset Nat.one_pos Event.noConfusion rfl

/-- Calls before it that are not calls of `recv_fn` -/
theorem Counts.after {e : Event} {req₀ : HttpcState} {acts pre : List Act}
    (h : Counts e req req' acts) (hticks : req.timeoutTicks = req₀.timeoutTicks)
    (hpre : recvCalls pre = 0) : Counts e req₀ req' (pre ++ acts) := by
  have hsame : recvCalls (pre ++ acts) = recvCalls acts := by
    rw [recvCalls_append, hpre, Nat.zero_add]
  cases h with
  | reset hcall hpoll h => exact .reset (hsame ▸ hcall) hpoll h
  | down hcall hpoll h hleft => exact .down (hsame.trans hcall) hpoll (hticks ▸ h) hleft
  | same hcall hpoll h => exact .same (hsame.trans hcall) hpoll (h.trans hticks)

/-- Received headers restart the count of polls. -/
theorem headers_counts (p : Chain) (hc : c.recvFn) (h : (headers L c req a).req = some req') :
    Counts (.recv p) req req' (headers L c req a).acts := by
  rw [headers] at h ⊢
  cases hwait : httpWaitHeaders L req.rxHdrs with
  | none =>
    rw [hwait] at h
    cases h
    exact .same rfl Event.noConfusion rfl
  | some found =>
    obtain ⟨contentLen, totalHeaderLen⟩ := found
    rw [hwait] at h
    dsimp only at h ⊢
    split at h
    · rw [Outcome.after, (httpcClose_closes _ _ _ _ _ _).freed] at h
      cases h
    · rename_i hrefused
      rw [if_neg hrefused]
      refine (rxData_counts hc h).after rfl ?_
      cases c.headersDoneFn <;> rfl

/-- The counter of the request follows every callback. -/
theorem callback_counts (hc : c.recvFn) {e : Event} {o : Outcome}
    (h : callback L c req e a = some o) (ho : o.req = some req') : Counts e req req' o.acts := by
  have hclosed : ∀ (result : HttpcResult) (n : Nat) (err : Err) (req : HttpcState),
      (httpcClose c req result n err a).req = none :=
    fun result n err req => (httpcClose_closes c req result n err a).freed
  cases e with
  | recv p =>
    cases h
    by_cases hp : p = []
    · rw [hp, httpcTcpRecv, if_pos rfl] at ho
      dsimp only at ho
      rw [hclosed] at ho
      cases ho
    rcases httpcTcpRecv_cases L c req a hp with
      ⟨-, heq⟩ | ⟨-, ⟨-, heq⟩ | ⟨-, heq⟩⟩
    · rw [heq] at ho ⊢
      exact rxData_counts hc ho
    · rw [heq] at ho ⊢
      have hticks := (gather_reads L req p).timeoutTicks
      have hcounts : Counts (.recv p) req req' ([] ++ (headers L c (gather L req p) a).acts) :=
        (headers_counts p hc ho).after hticks rfl
      exact hcounts
    · rw [heq] at ho ⊢
      cases ho
      exact .same rfl Event.noConfusion (gather_reads L req p).timeoutTicks
  | err err =>
    cases h
    rw [httpcTcpErr, hclosed] at ho
    cases ho
  | poll =>
    cases h
    rw [httpcTcpPoll] at ho ⊢
    split at ho
    · rw [hclosed] at ho
      cases ho
    · rename_i hleft
      cases ho
      rw [if_neg hleft]
      exact .down rfl rfl rfl hleft
  | sent len =>
    cases h
    cases ho
    exact .same rfl Event.noConfusion rfl
  | connected err =>
    obtain ⟨payload, -, rfl⟩ := Option.map_eq_some_iff.mp h
    rw [httpcTcpConnected] at ho ⊢
    split at ho
    · rw [Outcome.after, hclosed] at ho
      cases ho
    · rename_i hwrite
      cases ho
      rw [if_neg hwrite]
      exact .same rfl Event.noConfusion rfl

end Callbacks

/-! ## Runs -/

/-- A request, and how many polls there have been since `recv_fn` was last called -/
structure Watched where
  conn : Conn
  polls : Nat

section Runs

variable (L : Pbufs) (c : Settings)

def Watched.step (s : Watched) (i : Event × Answers) : Option Watched :=
  (Conn.step L c s.conn i).map fun conn => ⟨conn,
    if recvCalls s.conn.acts < recvCalls conn.acts then 0
    else if i.1 = .poll then s.polls + 1
    else s.polls⟩

/-- The polls and the ticks that are left make up the time-out. -/
def Watched.Counted (s : Watched) : Prop :=
  ∀ req, s.conn.req = some req → s.polls + req.timeoutTicks = httpcPollTimeout ∧
    0 < req.timeoutTicks

variable {L c}

/-- The counter follows every event. -/
theorem counted_step (hc : c.recvFn) (s : Watched) (i : Event × Answers) (s' : Watched)
    (h : s.step L c i = some s') (hs : s.Counted) : s'.Counted := by
  obtain ⟨conn, hstep, rfl⟩ := Option.map_eq_some_iff.mp h
  obtain ⟨req, o, hreq, ho, rfl⟩ := step_eq hstep
  obtain ⟨hsum, hpos⟩ := hs req hreq
  intro req' hreq'
  have hthirty : httpcPollTimeout = 30 := rfl
  dsimp only at hreq' ⊢
  rw [recvCalls_append]
  cases callback_counts hc ho hreq' with
  | reset hcall hpoll hticks =>
    rw [if_pos (by omega), hticks]
    omega
  | down hcall hpoll hticks hleft =>
    rw [if_neg (by omega), if_pos hpoll, hticks]
    omega
  | same hcall hpoll hticks =>
    rw [if_neg (by omega), if_neg hpoll, hticks]
    exact ⟨hsum, hpos⟩

/-- A request under way has seen less than thirty polls since it was started or since `recv_fn`
last got data, and a poll ends it, with the result that says so, exactly if it is the thirtieth. -/
theorem poll_ends_iff (hc : c.recvFn) {request : List UInt8} {is : List (Event × Answers)}
    {s : Watched} (h : Machine.exec (Watched.step L c) ⟨.started request, 0⟩ is = some s)
    {req : HttpcState} (hreq : s.conn.req = some req) (a : Answers) :
    s.polls < 30 ∧ ∃ conn, Conn.step L c s.conn (.poll, a) = some conn ∧
      (conn.req = none ↔ s.polls = 29) ∧
      (s.polls = 29 → results conn.acts = results s.conn.acts ++
        if c.resultFn then [(.errTimeout, req.rxContentLen, 0, .ok)] else []) := by
  have hstart : Watched.Counted ⟨.started request, 0⟩ := by
    intro req hreq
    cases hreq
    exact ⟨rfl, Nat.succ_pos _⟩
  obtain ⟨hsum, hpos⟩ := Machine.exec_inv (counted_step hc) h hstart req hreq
  have hthirty : httpcPollTimeout = 30 := rfl
  refine ⟨by omega, ?_⟩
  have hclose := httpcClose_closes c
    { req with timeoutTicks := req.timeoutTicks - 1 } .errTimeout 0 .ok a
  refine ⟨⟨(httpcTcpPoll c req a).req, (httpcTcpPoll c req a).ret,
    s.conn.acts ++ (httpcTcpPoll c req a).acts⟩, ?_, ?_, ?_⟩
  · rw [Conn.step, hreq]
    rfl
  · rw [httpcTcpPoll]
    dsimp only
    split
    · rw [hclose.freed]
      exact ⟨fun _ => by omega, fun _ => rfl⟩
    · exact ⟨fun hnone => absurd hnone (Option.some_ne_none _), fun _ => by omega⟩
  · intro hpolls
    have hzero : req.timeoutTicks - 1 = 0 := by omega
    rw [httpcTcpPoll]
    dsimp only
    rw [if_pos hzero, results_append, hclose.results]

/-- A server that sends its status line, a piece of a field with every tenth poll and never the end
of the headers -/
def tricklingRun : List (Event × Answers) :=
  let polls := List.replicate 10 (Event.poll, allOk)
  polls ++ [(.recv [text ['H', 'T', 'T', 'P', '/', '1', '.', '1', ' ', '2', '0', '0', '\r', '\n']],
    allOk)] ++ polls ++ [(.recv [text ['A', ':']], allOk)] ++ polls.dropLast

/-- The run of `tricklingRun`, in which each piece comes before the thirtieth poll -/
theorem poll_ends_iff_trickling :
    ∃ s, Machine.exec (Watched.step .simple allSet) ⟨.started [71, 0], 0⟩ tricklingRun = some s ∧
      ∃ req, s.conn.req = some req ∧ s.polls < 30 ∧
        ∃ conn, Conn.step .simple allSet s.conn (.poll, allOk) = some conn ∧
        (conn.req = none ↔ s.polls = 29) ∧
        (s.polls = 29 → results conn.acts = results s.conn.acts ++
          [(.errTimeout, req.rxContentLen, 0, .ok)]) := by
  obtain ⟨s, hs⟩ := Option.isSome_iff_exists.mp (show (Machine.exec
    (Watched.step .simple allSet) ⟨.started [71, 0], 0⟩ tricklingRun).isSome by decide +kernel)
  have halive : ((Machine.exec (Watched.step .simple allSet) ⟨.started [71, 0], 0⟩
    tricklingRun).bind fun s => s.conn.req).isSome := by decide +kernel
  rw [hs] at halive
  obtain ⟨req, hreq⟩ := Option.isSome_iff_exists.mp halive
  exact ⟨s, hs, req, hreq, poll_ends_iff rfl hs hreq allOk⟩

end Runs

end PicoHost.Http
