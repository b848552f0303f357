import PicoHost.Ota.Http

/-!
# The order of the OTA RPCs

Any number of calls of `esp_hosted_ota_http`, one after the other, and the callbacks of the
HTTP client in lwIP's task, interleaved at every access to the globals and every RPC. A
callback may come long after the call that started its request has timed out.

The RPCs should be sessions: `rpc_ota_begin`, any `rpc_ota_write`, `rpc_ota_end`. The callbacks
ask `ota_state` only, which leaves `OTA_STATE_STARTED` when the next call begins and not when
the session ends, and which is set before `rpc_ota_begin` has returned. So the order is kept
when the callbacks come in time: `Meets` tells what that is, from where the call is, from
`ota_state` and from what `rpc_ota_begin` has returned (`session_of_meets`).
-/

namespace PicoHost.Ota

/-! ## Sessions -/

/-- Where a sequence of RPCs stands: outside a session, or after a begin that succeeded or
not. -/
inductive Session where
  | closed
  | begun (succeeded : Bool)
deriving DecidableEq, Repr

/-- The next RPC of a session, `none` when it is out of order. -/
def Session.issue : Session → RpcCall → Option Session
  | .closed, ⟨.otaBegin, ret⟩ => some (.begun (ret = success))
  | .begun true, ⟨.otaWrite _, _⟩ => some (.begun true)
  | .begun _, ⟨.otaEnd, _⟩ => some .closed
  | _, _ => none

/-- Where the RPCs issued so far stand, `none` when they are out of order. -/
def session (rpcs : List RpcCall) : Option Session := Machine.exec Session.issue .closed rpcs

/-- A request more is issued in the session so far. -/
theorem session_snoc {rpcs : List RpcCall} {session' : Session} {call : RpcCall}
    (h : session rpcs = some session') : session (rpcs ++ [call]) = session'.issue call := by
  show Machine.exec Session.issue .closed (rpcs ++ [call]) = _
  cases hissue : session'.issue call with
  | none =>
    rw [Option.eq_none_iff_forall_not_mem]
    intro t ht
    obtain ⟨u, hu, hcall⟩ := Machine.exec_append_some.mp ht
    cases hu.symm.trans h
    obtain ⟨v, hv, -⟩ := Machine.exec_cons_some.mp hcall
    cases hv.symm.trans hissue
  | some t =>
    exact Machine.exec_append_some.mpr
      ⟨session', h, Machine.exec_cons_some.mpr ⟨t, hissue, Machine.exec_nil t⟩⟩

/-! ## The machine -/

/-- Where `esp_hosted_ota_http` is: before the operation of this name. -/
inductive CallPc where
  | reset | httpcGetFile | wait | destroySemaphore | check | otaEnd
deriving DecidableEq, Repr

/-- Where lwIP's task is in a callback: before `rpc_ota_begin`, before the write of
`payload`, or in no callback. -/
inductive CallbackPc where
  | none
  | otaBegin
  | otaWrite (payload : Chunk) (next : List Chunk)
deriving DecidableEq, Repr

/-- The globals, the call in progress and the callback in progress. `beginRet` is what the
last `rpc_ota_begin` has returned, which the code keeps nowhere. -/
structure System where
  globals : Globals
  call : Option CallPc
  callback : CallbackPc
  beginRet : Int
deriving DecidableEq, Repr

def System.init : System := ⟨⟨.idle, none, []⟩, none, .none, success⟩

/-- The operations of the two tasks. What they do not decide themselves is part of the
action: failures, the end of the wait, what the RPCs return. -/
inductive Action where
  | call (created : Bool)
  | reset
  | httpcGetFile (res : Int)
  | wait (timedOut : Bool)
  | destroySemaphore
  | check
  | otaEnd (ret : Int)
  | headersDone
  | otaBegin (ret : Int)
  | recv (p : List Chunk)
  | otaWrite (res : Int)
  | result (httpcResult : HttpcResult)
deriving DecidableEq, Repr

/-- An RPC has been issued. -/
def Globals.issue (g : Globals) (rpc : Rpc) (ret : Int) : Globals :=
  { g with rpcs := g.rpcs ++ [⟨rpc, ret⟩] }

def System.step (s : System) : Action → Option System
  | .call created =>
    -- `hosted_create_semaphore`, and `hosted_get_semaphore` takes its token
    if s.call ≠ none then none
    else if created then
      some { s with globals := { s.globals with otaSem := some false }, call := some .reset }
    else some { s with globals := { s.globals with otaSem := none } }
  | .reset =>
    if s.call = some .reset then
      some { s with
        globals := { s.globals with otaState := .idle }, call := some .httpcGetFile }
    else none
  | .httpcGetFile res =>
    if s.call = some .httpcGetFile then
      some { s with call := if res ≠ errOk then none else some .wait }
    else none
  | .wait timedOut =>
    -- the token or the time-out
    if s.call = some .wait ∧ (timedOut ∨ s.globals.otaSem = some true) then
      some { s with globals := getSemaphore s.globals, call := some .destroySemaphore }
    else none
  | .destroySemaphore =>
    if s.call = some .destroySemaphore then
      some { s with globals := { s.globals with otaSem := none }, call := some .check }
    else none
  | .check =>
    if s.call = some .check then
      some { s with call := if s.globals.otaState ≠ .idle then some .otaEnd else none }
    else none
  | .otaEnd ret =>
    if s.call = some .otaEnd then
      some { s with globals := s.globals.issue .otaEnd ret, call := none }
    else none
  | .headersDone =>
    if s.callback = .none then
      some { s with globals := { s.globals with otaState := .started }, callback := .otaBegin }
    else none
  | .otaBegin ret =>
    if s.callback = .otaBegin then
      some { s with
        globals := s.globals.issue .otaBegin ret, callback := .none, beginRet := ret }
    else none
  | .recv p =>
    if s.callback ≠ .none then none
    else match p with
      | [] => some s
      | payload :: next =>
        if s.globals.otaState = .started then
          some { s with callback := .otaWrite payload next }
        else some s
  | .otaWrite res =>
    match s.callback with
    | .otaWrite payload next =>
      some { s with
        globals := s.globals.issue (.otaWrite payload) res
        callback := if res ≠ success then .none else match next with
          | [] => .none
          | payload :: next => .otaWrite payload next }
    | _ => none
  | .result httpcResult =>
    if s.callback = .none then
      some { s with globals := resultFn httpcResult s.globals }
    else none

/-! ## The condition -/

/-- The call has reset `ota_state`, and has not looked at it again. -/
def CallPc.waits : CallPc → Bool
  | .httpcGetFile | .wait | .destroySemaphore | .check => true
  | .reset | .otaEnd => false

/-- The call has reset `ota_state`, and has not ended. -/
def CallPc.underWay : CallPc → Bool
  | .reset => false
  | .httpcGetFile | .wait | .destroySemaphore | .check | .otaEnd => true

/-- The callbacks come in time. The headers come once in a call, between its reset and its
look at `ota_state`; data that will be written come before the end of such a call and behind
an `rpc_ota_begin` that succeeded; a request that could not be started has no headers; and
the call does not end while a callback is in progress. -/
def Meets (s : System) : Action → Prop
  | .headersDone => s.call.any CallPc.waits ∧ s.globals.otaState = .idle
  | .recv p => p ≠ [] → s.globals.otaState = .started →
      s.call.any CallPc.underWay ∧ s.beginRet = success
  | .httpcGetFile res => res ≠ errOk → s.globals.otaState = .idle
  | .otaEnd _ => s.callback = .none
  | _ => True

instance decidableMeets (s : System) : ∀ action, Decidable (Meets s action)
  | .headersDone => inferInstanceAs (Decidable (_ ∧ _ = _))
  | .recv p => inferInstanceAs (Decidable (p ≠ [] → _ = _ → _ ∧ _ = _))
  | .httpcGetFile res => inferInstanceAs (Decidable (res ≠ errOk → _ = _))
  | .otaEnd _ => inferInstanceAs (Decidable (_ = _))
  | .call _ | .reset | .wait _ | .destroySemaphore | .check
  | .otaBegin _ | .otaWrite _ | .result _ => .isTrue trivial

/-- The headers of the call in progress have come. -/
def System.headers (s : System) : Bool :=
  s.call.any CallPc.underWay && decide (s.globals.otaState = .started)

/-- Where the RPCs should stand, told from the rest of the state. -/
def System.expected (s : System) : Session :=
  if s.headers && decide (s.callback ≠ .otaBegin) then .begun (s.beginRet = success)
  else .closed

/-- What the condition keeps. -/
structure Kept (s : System) : Prop where
  session_eq : session s.globals.rpcs = some s.expected
  callback : s.callback ≠ .none → s.headers = true
  otaWrite : ∀ payload next, s.callback = .otaWrite payload next → s.beginRet = success
  otaEnd : s.call = some .otaEnd → s.globals.otaState = .started

/-- At the start no request was issued. -/
theorem kept_init : Kept System.init where
  session_eq := rfl
  callback h := absurd rfl h
  otaWrite := nofun
  otaEnd := nofun

/-! ## One step -/

section Step

variable {s s' : System}

/-- After the end of the headers, the session has begun as the request returned. -/
theorem System.expected_begun (h : s.headers = true) (hcallback : s.callback ≠ .otaBegin) :
    s.expected = .begun (s.beginRet = success) := by
  rw [System.expected, h, decide_eq_true hcallback]
  rfl

/-- While the update is being begun, no session is open. -/
theorem System.expected_of_begin (h : s.callback = .otaBegin) : s.expected = .closed := by
  rw [System.expected, h]
  exact if_neg (by simp)

/-- Before the end of the headers, no session is open. -/
theorem System.expected_of_no_headers (h : s.headers = false) : s.expected = .closed := by
  rw [System.expected, h]
  rfl

/-- The call moves on, no RPC is issued, and it has its headers as before. -/
theorem Kept.of_call (k : Kept s) (hrpcs : s'.globals.rpcs = s.globals.rpcs)
    (hcallback : s'.callback = s.callback) (hret : s'.beginRet = s.beginRet)
    (hheaders : s'.headers = s.headers)
    (hend : s'.call = some .otaEnd → s'.globals.otaState = .started) : Kept s' := by
  constructor
  · rw [hrpcs, System.expected, hheaders, hcallback, hret]
    exact k.session_eq
  · rw [hcallback, hheaders]
    exact k.callback
  · rw [hcallback, hret]
    exact k.otaWrite
  · exact hend

/-- The call is over, or begins, and there are no headers. -/
theorem headers_of_not_underWay (h : s.call.any CallPc.underWay = false) : s.headers = false := by
  rw [System.headers, h, Bool.false_and]

/-- An idle update has not seen the headers. -/
theorem headers_of_idle (h : s.globals.otaState = .idle) : s.headers = false := by
  rw [System.headers, h]
  exact Bool.and_false _

/-- Every step that meets the conditions keeps the invariant. -/
theorem Kept.step {a : Action} (k : Kept s) (hm : Meets s a) (h : s.step a = some s') :
    Kept s' := by
  cases a with
  | call created =>
    simp only [System.step, Option.ite_none_left_eq_some, ne_eq, not_not] at h
    obtain ⟨hcall, h⟩ := h
    have hno : s.headers = false := headers_of_not_underWay (by rw [hcall]; rfl)
    split at h
    · cases h
      exact k.of_call rfl rfl rfl ((headers_of_not_underWay rfl).trans hno.symm) nofun
    · cases h
      exact k.of_call rfl rfl rfl rfl fun hend => nomatch hcall.symm.trans hend
  | reset =>
    simp only [System.step, Option.ite_none_right_eq_some, Option.some.injEq] at h
    obtain ⟨hpc, rfl⟩ := h
    have hno : s.headers = false := headers_of_not_underWay (by rw [hpc]; rfl)
    exact k.of_call rfl rfl rfl ((headers_of_idle rfl).trans hno.symm) nofun
  | httpcGetFile res =>
    simp only [System.step, Option.ite_none_right_eq_some, Option.some.injEq] at h
    obtain ⟨hpc, rfl⟩ := h
    by_cases hres : res ≠ errOk
    · have hidle := hm hres
      rw [if_pos hres]
      refine k.of_call rfl rfl rfl ?_ nofun
      exact (headers_of_not_underWay rfl).trans (headers_of_idle hidle).symm
    · rw [if_neg hres]
      refine k.of_call rfl rfl rfl ?_ nofun
      rw [System.headers, System.headers, hpc]
      rfl
  | wait timedOut =>
    simp only [System.step, Option.ite_none_right_eq_some, Option.some.injEq] at h
    obtain ⟨⟨hpc, -⟩, rfl⟩ := h
    refine k.of_call rfl rfl rfl ?_ nofun
    rw [System.headers, System.headers, hpc]
    rfl
  | destroySemaphore =>
    simp only [System.step, Option.ite_none_right_eq_some, Option.some.injEq] at h
    obtain ⟨hpc, rfl⟩ := h
    refine k.of_call rfl rfl rfl ?_ nofun
    rw [System.headers, System.headers, hpc]
    rfl
  | check =>
    simp only [System.step, Option.ite_none_right_eq_some, Option.some.injEq] at h
    obtain ⟨hpc, rfl⟩ := h
    cases hstate : s.globals.otaState with
    | idle =>
      -- no headers in time: the call returns
      refine k.of_call rfl rfl rfl ?_ nofun
      exact (headers_of_not_underWay rfl).trans (headers_of_idle hstate).symm
    | started =>
      refine k.of_call rfl rfl rfl ?_ fun _ => hstate
      rw [System.headers, System.headers, hpc]
      rfl
  | otaEnd ret =>
    simp only [System.step, Option.ite_none_right_eq_some, Option.some.injEq] at h
    obtain ⟨hpc, rfl⟩ := h
    have hcallback : s.callback = .none := hm
    have hheaders : s.headers = true := by
      rw [System.headers, hpc, k.otaEnd hpc]
      rfl
    constructor
    · rw [Globals.issue, session_snoc k.session_eq,
        System.expected_begun hheaders (by rw [hcallback]; exact nofun)]
      cases decide (s.beginRet = success) <;> rfl
    · exact fun hne => absurd hcallback hne
    · exact fun payload next hwrite => nomatch hcallback.symm.trans hwrite
    · exact nofun
  | headersDone =>
    simp only [System.step, Option.ite_none_right_eq_some, Option.some.injEq] at h
    obtain ⟨-, rfl⟩ := h
    obtain ⟨hwaits, hidle⟩ := hm
    obtain ⟨pc, hpc, hwaits⟩ := (Option.any_eq_true ..).mp hwaits
    have hopen : pc.underWay = true := by cases pc <;> first | rfl | cases hwaits
    constructor
    · rw [System.expected_of_begin rfl]
      rw [← System.expected_of_no_headers (headers_of_idle hidle)]
      exact k.session_eq
    · intro _
      rw [System.headers, hpc]
      exact Bool.and_eq_true_iff.mpr ⟨hopen, rfl⟩
    · exact nofun
    · exact fun _ => rfl
  | otaBegin ret =>
    simp only [System.step, Option.ite_none_right_eq_some, Option.some.injEq] at h
    obtain ⟨hbegin, rfl⟩ := h
    have hheaders : s.headers = true := k.callback (by rw [hbegin]; exact nofun)
    constructor
    · rw [Globals.issue, session_snoc k.session_eq, System.expected_of_begin hbegin]
      exact congrArg some (System.expected_begun (s := { s with
        globals := s.globals.issue .otaBegin ret, callback := .none, beginRet := ret })
        hheaders nofun).symm
    · exact fun hne => absurd rfl hne
    · exact nofun
    · exact k.otaEnd
  | recv p =>
    simp only [System.step, Option.ite_none_left_eq_some, ne_eq, not_not] at h
    obtain ⟨hnone, h⟩ := h
    cases p with
    | nil =>
      cases h
      exact k
    | cons payload next =>
      dsimp only at h
      split at h
      next hstate =>
        cases h
        obtain ⟨hopen, hret⟩ := hm (List.cons_ne_nil _ _) hstate
        have hheaders : s.headers = true := by
          rw [System.headers, hopen, hstate]
          rfl
        have hbegun := System.expected_begun hheaders (by rw [hnone]; exact nofun)
        constructor
        · rw [k.session_eq, hbegun]
          exact congrArg some (System.expected_begun (s := { s with
            callback := .otaWrite payload next }) hheaders nofun).symm
        · exact fun _ => hheaders
        · exact fun _ _ _ => hret
        · exact k.otaEnd
      next =>
        cases h
        exact k
  | otaWrite res =>
    unfold System.step at h
    dsimp only at h
    split at h
    next payload next hwrite =>
      cases h
      have hheaders : s.headers = true := k.callback (by rw [hwrite]; exact nofun)
      have hret := k.otaWrite payload next hwrite
      have hbegun := System.expected_begun hheaders (by rw [hwrite]; exact nofun)
      have hnext : ∀ next' : CallbackPc, next' ≠ .otaBegin → Kept { s with
          globals := s.globals.issue (.otaWrite payload) res, callback := next' } := by
        intro next' hnext
        constructor
        · rw [Globals.issue, session_snoc k.session_eq, hbegun]
          refine Eq.trans ?_ (congrArg some (System.expected_begun (s := { s with
            globals := s.globals.issue (.otaWrite payload) res, callback := next' })
            hheaders hnext).symm)
          rw [decide_eq_true hret]
          rfl
        · exact fun _ => hheaders
        · exact fun _ _ _ => hret
        · exact k.otaEnd
      refine hnext _ ?_
      split
      · exact nofun
      · split <;> exact nofun
    next => cases h
  | result httpcResult =>
    simp only [System.step, Option.ite_none_right_eq_some, Option.some.injEq] at h
    obtain ⟨-, rfl⟩ := h
    exact k.of_call rfl rfl rfl rfl k.otaEnd

end Step

/-! ## Runs -/

/-- In every run whose steps all meet the condition, the RPCs issued are sessions in
order. -/
theorem session_of_meets (actions : List Action) (s : System)
    (h : Machine.exec System.step System.init actions = some s)
    (hm : Machine.Along System.step Meets System.init actions) :
    (session s.globals.rpcs).isSome := by
  have k := Machine.exec_inv_along (I := Kept) (fun _ _ _ hm h k => k.step hm h) h hm kept_init
  rw [k.session_eq]
  rfl

/-- A call, with the headers and two chunks of data in time. -/
def orderly : List Action :=
  [.call true, .reset, .httpcGetFile errOk, .headersDone, .otaBegin success,
    .recv [[0xE9], [0x05]], .otaWrite success, .otaWrite success, .result .ok, .wait false,
    .destroySemaphore, .check, .otaEnd success]

/-- The run of `orderly`: headers, data, end -/
theorem session_of_meets_orderly : ∃ s, Machine.exec System.step System.init orderly = some s ∧
    (session s.globals.rpcs).isSome := by
  obtain ⟨s, hs⟩ := Option.isSome_iff_exists.mp
    (show (Machine.exec System.step System.init orderly).isSome by decide)
  exact ⟨s, hs, session_of_meets orderly s hs (by decide)⟩

/-- The wait times out after the headers, the call ends the session, and then the body comes:
its write is issued in no session. -/
def lateData : List Action :=
  [.call true, .reset, .httpcGetFile errOk, .headersDone, .otaBegin success, .wait true,
    .destroySemaphore, .check, .otaEnd success, .recv [[0xE9]], .otaWrite success]

/-- Data after the time-out is written to a session that is over. -/
theorem lateData_outOfOrder : ∃ s, Machine.exec System.step System.init lateData = some s ∧
    session s.globals.rpcs = none :=
  ⟨_, rfl, rfl⟩

section Unordered

variable {s s' : System}

/-- A write by the callback in progress, in no session whose begin succeeded. -/
theorem unordered_otaWrite {payload : Chunk} {next : List Chunk} {sess : Session}
    (hwrite : s.callback = .otaWrite payload next)
    (hsession : session s.globals.rpcs = some sess) (hne : sess ≠ .begun true) :
    ∃ s', Machine.exec System.step s [.otaWrite success] = some s' ∧
      session s'.globals.rpcs = none := by
  obtain ⟨g, call, callback, ret⟩ := s
  cases hwrite
  refine ⟨_, rfl, ?_⟩
  show session (g.rpcs ++ [⟨.otaWrite payload, success⟩]) = none
  rw [session_snoc hsession]
  match sess, hne with
  | .closed, _ => rfl
  | .begun false, _ => rfl

/-- More headers, while a session waits for its end. -/
theorem unordered_otaBegin {succeeded : Bool} (hcallback : s.callback = .none)
    (hsession : session s.globals.rpcs = some (.begun succeeded)) :
    ∃ s', Machine.exec System.step s [.headersDone, .otaBegin success] = some s' ∧
      session s'.globals.rpcs = none := by
  obtain ⟨g, call, callback, ret⟩ := s
  cases hcallback
  refine ⟨_, rfl, ?_⟩
  show session (g.rpcs ++ [⟨.otaBegin, success⟩]) = none
  rw [session_snoc hsession]
  cases succeeded <;> rfl

/-- A call that has left its session open. -/
theorem unordered_of_left (k : Kept s) (hheaders : s.headers = true)
    (hs' : s'.callback = s.callback) (hrpcs : s'.globals.rpcs = s.globals.rpcs) :
    ∃ more s'', Machine.exec System.step s' more = some s'' ∧
      session s''.globals.rpcs = none := by
  have hsession := k.session_eq
  rw [← hrpcs] at hsession
  obtain ⟨g, call, callback, ret⟩ := s'
  cases hcallback : s.callback with
  | none =>
    rw [System.expected_begun hheaders (by rw [hcallback]; exact nofun)] at hsession
    exact ⟨_, unordered_otaBegin (hs'.trans hcallback) hsession⟩
  | otaBegin =>
    -- the begin that is still to come, and another
    rw [System.expected_of_begin hcallback] at hsession
    cases hs'.trans hcallback
    obtain ⟨s'', hexec, hnone⟩ := unordered_otaBegin
      (s := ⟨g.issue .otaBegin success, call, .none, success⟩) rfl
      ((session_snoc hsession).trans rfl)
    exact ⟨[.otaBegin success, .headersDone, .otaBegin success], s'', hexec, hnone⟩
  | otaWrite payload next =>
    -- the write that is in progress fails, and the headers come again
    rw [System.expected_begun hheaders (by rw [hcallback]; exact nofun),
      decide_eq_true (k.otaWrite payload next hcallback)] at hsession
    cases hs'.trans hcallback
    obtain ⟨s'', hexec, hnone⟩ := unordered_otaBegin
      (s := ⟨g.issue (.otaWrite payload) (-1), call, .none, ret⟩) rfl
      ((session_snoc hsession).trans rfl)
    refine ⟨.otaWrite (-1) :: [.headersDone, .otaBegin success], s'', ?_, hnone⟩
    refine Machine.exec_cons_some.mpr ⟨_, ?_, hexec⟩
    exact congrArg (fun callback => some (System.mk _ call callback ret)) (if_pos (by decide))

/-- A step that does not meet the condition can be continued to an RPC out of order. -/
theorem unordered_of_not_meets {a : Action} (k : Kept s) (hm : ¬ Meets s a)
    (h : s.step a = some s') :
    ∃ more s'', Machine.exec System.step s' more = some s'' ∧
      session s''.globals.rpcs = none := by
  cases a with
  | headersDone =>
    simp only [System.step, Option.ite_none_right_eq_some, Option.some.injEq] at h
    obtain ⟨hcallback, rfl⟩ := h
    cases hheaders : s.headers with
    | true =>
      -- a second begin in the session of the call
      have hsession := k.session_eq
      rw [System.expected_begun hheaders (by rw [hcallback]; exact nofun)] at hsession
      obtain ⟨s'', hexec, hnone⟩ := unordered_otaBegin hcallback hsession
      obtain ⟨s₁, hs₁, hexec⟩ := Machine.exec_cons_some.mp hexec
      cases (if_pos hcallback).symm.trans hs₁
      exact ⟨_, s'', hexec, hnone⟩
    | false =>
      -- a session that no call will end, and another
      have hsession := k.session_eq
      rw [System.expected_of_no_headers hheaders] at hsession
      obtain ⟨s'', hexec, hnone⟩ := unordered_otaBegin (s := ⟨({ s.globals with
        otaState := .started } : Globals).issue .otaBegin success, s.call, .none, success⟩) rfl
        ((session_snoc hsession).trans rfl)
      exact ⟨[.otaBegin success, .headersDone, .otaBegin success], s'', hexec, hnone⟩
  | recv p =>
    simp only [System.step, Option.ite_none_left_eq_some, ne_eq, not_not] at h
    obtain ⟨hnone, h⟩ := h
    cases p with
    | nil => exact absurd (fun hp => absurd rfl hp) hm
    | cons payload next =>
      dsimp only at h
      split at h
      next hstate =>
        cases h
        refine ⟨_, unordered_otaWrite rfl k.session_eq ?_⟩
        cases hheaders : s.headers with
        | true =>
          have hopen := (Bool.and_eq_true_iff.mp hheaders).1
          have hret : s.beginRet ≠ success := fun hret => hm fun _ _ => ⟨hopen, hret⟩
          rw [System.expected_begun hheaders (by rw [hnone]; exact nofun), decide_eq_false hret]
          exact nofun
        | false =>
          rw [System.expected_of_no_headers hheaders]
          exact nofun
      next hstate => exact absurd (fun _ hs => absurd hs hstate) hm
  | httpcGetFile res =>
    simp only [System.step, Option.ite_none_right_eq_some, Option.some.injEq] at h
    obtain ⟨hpc, rfl⟩ := h
    have hstate : s.globals.otaState = .started := by
      cases hstate : s.globals.otaState with
      | idle => exact absurd (fun _ => hstate) hm
      | started => rfl
    have hheaders : s.headers = true := by
      rw [System.headers, hpc, hstate]
      rfl
    exact unordered_of_left k hheaders rfl rfl
  | otaEnd ret =>
    simp only [System.step, Option.ite_none_right_eq_some, Option.some.injEq] at h
    obtain ⟨hpc, rfl⟩ := h
    have hsession := k.session_eq
    cases hcallback : s.callback with
    | none => exact absurd hcallback hm
    | otaBegin =>
      -- `ota_state` is started and `rpc_ota_begin` has not been issued yet
      rw [System.expected_of_begin hcallback] at hsession
      exact ⟨[], _, rfl, (session_snoc hsession).trans rfl⟩
    | otaWrite payload next =>
      have hheaders : s.headers = true := k.callback (by rw [hcallback]; exact nofun)
      rw [System.expected_begun hheaders (by rw [hcallback]; exact nofun),
        decide_eq_true (k.otaWrite payload next hcallback)] at hsession
      exact ⟨_, unordered_otaWrite
        (s := ⟨s.globals.issue .otaEnd ret, none, .otaWrite payload next, s.beginRet⟩) rfl
        ((session_snoc hsession).trans rfl) nofun⟩
  | call | reset | wait | destroySemaphore | check | otaBegin | otaWrite | result =>
    exact absurd trivial hm

end Unordered

/-! ## The calls of the model above -/

section Calls

variable (results : RpcResults)

/-- One that starts with the action that tells its kind, and leads from `s` to `s'`. It meets
the condition if its first step does. -/
def Runs (s : System) (a : Action) (s' : System) : Prop :=
  ∃ more, Machine.exec System.step s (a :: more) = some s' ∧
    (Meets s a → Machine.Along System.step Meets s (a :: more))

/-- The action that a callback begins with. -/
def Callback.action : Callback → Action
  | .headersDone => .headersDone
  | .recv p => .recv p
  | .result httpcResult => .result httpcResult

/-- What the last `rpc_ota_begin` has returned behind a callback. -/
def Callback.beginRet (g : Globals) (ret : Int) : Callback → Int
  | .headersDone => results.otaBegin (begins g.rpcs)
  | .recv _ | .result _ => ret

/-- Without interruption the writes of a chain are those of `writeChain`. -/
theorem exec_writeChain (payload : Chunk) (next : List Chunk) (g : Globals)
    (call : Option CallPc) (ret : Int) :
    ∃ actions, Machine.exec System.step ⟨g, call, .otaWrite payload next, ret⟩ actions =
      some ⟨(writeChain results (payload :: next) g).2, call, .none, ret⟩ ∧
      Machine.Along System.step Meets ⟨g, call, .otaWrite payload next, ret⟩ actions := by
  have hfail : ∀ (payload : Chunk) (next : List Chunk) (g : Globals),
      results.otaWrite (writes g.rpcs) ≠ success →
      Machine.exec System.step ⟨g, call, .otaWrite payload next, ret⟩
        [.otaWrite (results.otaWrite (writes g.rpcs))] =
          some ⟨(writeChain results (payload :: next) g).2, call, .none, ret⟩ := by
    intro payload next g h
    rw [writeChain_cons_fail results h]
    exact congrArg (fun callback => some (System.mk _ call callback ret)) (if_pos h)
  have halong : ∀ (payload : Chunk) (next : List Chunk) (g : Globals) (res : Int),
      Machine.Along System.step Meets ⟨g, call, .otaWrite payload next, ret⟩ [.otaWrite res] :=
    fun _ _ _ _ => ⟨trivial, trivial⟩
  induction next generalizing payload g with
  | nil =>
    refine ⟨[.otaWrite (results.otaWrite (writes g.rpcs))], ?_, halong ..⟩
    by_cases h : results.otaWrite (writes g.rpcs) = success
    · rw [writeChain_cons_ok results h, h]
      rfl
    · exact hfail payload [] g h
  | cons payload' next ih =>
    by_cases h : results.otaWrite (writes g.rpcs) = success
    · obtain ⟨actions, hactions, hmeets⟩ := ih payload' (g.issue (.otaWrite payload) success)
      refine ⟨.otaWrite success :: actions, ?_, trivial, hmeets⟩
      rw [writeChain_cons_ok results h]
      exact hactions
    · exact ⟨_, hfail payload _ g h, halong ..⟩

/-- Without interruption a callback is the function of `Http`. -/
theorem runs_deliver (c : Callback) (g : Globals) (call : Option CallPc) (ret : Int) :
    Runs ⟨g, call, .none, ret⟩ c.action
      ⟨c.deliver results g, call, .none, c.beginRet results g ret⟩ := by
  cases c with
  | headersDone =>
    refine ⟨[.otaBegin (results.otaBegin (begins g.rpcs))], ?_, fun hm => ⟨hm, trivial, trivial⟩⟩
    show _ = some (System.mk (headersDoneFn results g).2 call .none _)
    rw [headersDoneFn_snd]
    rfl
  | recv p =>
    cases p with
    | nil => exact ⟨[], rfl, fun hm => ⟨hm, trivial⟩⟩
    | cons payload next =>
      by_cases h : g.otaState = .started
      · obtain ⟨actions, hactions, hmeets⟩ := exec_writeChain results payload next g call ret
        have hfirst : System.step ⟨g, call, .none, ret⟩
            (Callback.recv (payload :: next)).action = some
              ⟨g, call, .otaWrite payload next, ret⟩ := if_pos h
        refine ⟨actions, ?_, fun hm => ⟨hm, ?_⟩⟩
        · rw [deliver_recv_started results h]
          exact Machine.exec_cons_some.mpr ⟨_, hfirst, hactions⟩
        · rw [hfirst]
          exact hmeets
      · have hfirst : System.step ⟨g, call, .none, ret⟩
            (Callback.recv (payload :: next)).action = some
              ⟨g, call, .none, ret⟩ := if_neg h
        have hsame : Callback.deliver results g (.recv (payload :: next)) = g :=
          congrArg Prod.snd (if_neg fun hp => h hp.2)
        refine ⟨[], ?_, fun hm => ⟨hm, ?_⟩⟩
        · rw [hsame]
          exact Machine.exec_cons_some.mpr ⟨_, hfirst, rfl⟩
        · rw [hfirst]
          trivial
  | result r => exact ⟨[], rfl, fun hm => ⟨hm, trivial⟩⟩

/-- The callbacks of a call come in time, one after the other. -/
def InTime (call : Option CallPc) : List Callback → Globals → Int → Prop
  | [], _, _ => True
  | c :: rest, g, ret => Meets ⟨g, call, .none, ret⟩ c.action ∧
      InTime call rest (c.deliver results g) (c.beginRet results g ret)

/-- The callbacks of a call that waits can be taken one by one. -/
theorem exec_waitEnd (callbacks : List Callback) (g : Globals) (call : Option CallPc) (ret : Int) :
    ∃ actions ret', Machine.exec System.step ⟨g, call, .none, ret⟩ actions =
        some ⟨waitEnd results callbacks g, call, .none, ret'⟩ ∧
      (InTime results call callbacks g ret →
        Machine.Along System.step Meets ⟨g, call, .none, ret⟩ actions) := by
  induction callbacks generalizing g ret with
  | nil => exact ⟨[], ret, rfl, fun _ => trivial⟩
  | cons c rest ih =>
    obtain ⟨actions, hactions, hmeets⟩ := runs_deliver results c g call ret
    obtain ⟨more, ret', hmore, hrest⟩ := ih (c.deliver results g) (c.beginRet results g ret)
    refine ⟨c.action :: actions ++ more, ret', Machine.exec_append_some.mpr ⟨_, hactions, hmore⟩,
      fun h => ?_⟩
    exact (hmeets h.1).append hactions (hrest h.2)

/-- The calls of `Http` are runs of this machine, and what comes in time there comes in time
here. -/
theorem exec_espHostedOtaHttp (env : Environment) (state : OtaState) (sem : Option Bool)
    (ret : Int) :
    ∃ actions ret', Machine.exec System.step ⟨⟨state, sem, []⟩, none, .none, ret⟩ actions =
        some ⟨(espHostedOtaHttp env ⟨state, sem, []⟩).2, none, .none, ret'⟩ ∧
      (InTime env.rpc (some .wait) env.callbacks ⟨.idle, some false, []⟩ ret →
        Machine.Along System.step Meets ⟨⟨state, sem, []⟩, none, .none, ret⟩ actions) := by
  cases hsem : env.semaphore with
  | false =>
    refine ⟨[.call false], ret, ?_, fun _ => ⟨trivial, trivial⟩⟩
    rw [espHostedOtaHttp, if_pos hsem]
    rfl
  | true =>
    by_cases hget : env.httpcGetFile = errOk
    · obtain ⟨actions, ret', hactions, hmeets⟩ :=
        exec_waitEnd env.rpc env.callbacks ⟨.idle, some false, []⟩ (some .wait) ret
      have hbefore : Machine.exec System.step ⟨⟨state, sem, []⟩, none, .none, ret⟩
          [.call true, .reset, .httpcGetFile errOk] =
            some ⟨⟨.idle, some false, []⟩, some .wait, .none, ret⟩ := rfl
      have hwait := Machine.exec_append_some.mpr ⟨_, hbefore, hactions⟩
      have hinit : InTime env.rpc (some .wait) env.callbacks ⟨.idle, some false, []⟩ ret →
          Machine.Along System.step Meets ⟨⟨state, sem, []⟩, none, .none, ret⟩
            ([.call true, .reset, .httpcGetFile errOk] ++ actions) := fun h =>
        Machine.Along.append hbefore ⟨trivial, trivial, fun h => absurd rfl h, trivial⟩ (hmeets h)
      rw [espHostedOtaHttp_eq hsem hget]
      generalize waitEnd env.rpc env.callbacks ⟨.idle, some false, []⟩ = g at hwait
      obtain ⟨state', sem', rpcs⟩ := g
      cases state' with
      | idle =>
        have hend : Machine.exec System.step ⟨⟨.idle, sem', rpcs⟩, some .wait, .none, ret'⟩
            [.wait true, .destroySemaphore, .check] =
              some ⟨⟨.idle, none, rpcs⟩, none, .none, ret'⟩ := rfl
        exact ⟨_, ret', Machine.exec_append_some.mpr ⟨_, hwait, hend⟩, fun h =>
          (hinit h).append hwait ⟨trivial, trivial, trivial, trivial⟩⟩
      | started =>
        have hend : Machine.exec System.step ⟨⟨.started, sem', rpcs⟩, some .wait, .none, ret'⟩
            [.wait true, .destroySemaphore, .check, .otaEnd env.rpc.otaEnd] =
              some ⟨⟨.started, none, rpcs ++ [⟨.otaEnd, env.rpc.otaEnd⟩]⟩, none, .none, ret'⟩ := rfl
        refine ⟨_, ret', Machine.exec_append_some.mpr ⟨_, hwait, hend.trans ?_⟩, fun h =>
          (hinit h).append hwait ⟨trivial, trivial, trivial, rfl, trivial⟩⟩
        dsimp only
        rw [if_pos (by decide)]
        split <;> rfl
    · have hstep : Machine.exec System.step ⟨⟨state, sem, []⟩, none, .none, ret⟩
          [.call true, .reset, .httpcGetFile env.httpcGetFile] =
            some ⟨⟨.idle, some false, []⟩, none, .none, ret⟩ :=
        congrArg (fun call => some (System.mk _ call .none ret)) (if_pos hget)
      have hfail : (espHostedOtaHttp env ⟨state, sem, []⟩).2 = ⟨.idle, some false, []⟩ := by
        unfold espHostedOtaHttp
        rw [if_neg (by rw [hsem]; decide)]
        exact congrArg Prod.snd (if_pos hget)
      rw [hfail]
      exact ⟨_, ret, hstep, fun _ => ⟨trivial, trivial, fun _ => rfl, trivial⟩⟩

/-- Behind the headers: no others, and data only if their begin succeeded. -/
theorem inTime_started {callbacks : List Callback} {g : Globals} {ret : Int}
    (hstarted : g.otaState = .started) (hno : callbacks.countP Callback.isHeadersDone = 0)
    (hret : received callbacks ≠ [] → ret = success) :
    InTime results (some .wait) callbacks g ret := by
  induction callbacks generalizing g with
  | nil => trivial
  | cons c rest ih =>
    have hstarted' := deliver_started results hstarted c
    cases c with
    | headersDone =>
      rw [List.countP_cons_of_pos rfl] at hno
      cases hno
    | recv p =>
      have happend : received (.recv p :: rest) = p ++ received rest := rfl
      rw [happend] at hret
      refine ⟨fun hp _ => ⟨rfl, hret ?_⟩, ih hstarted' hno fun h => hret ?_⟩
      · simp [hp]
      · simp [h]
    | result r => exact ⟨trivial, ih hstarted' hno hret⟩

/-- Callbacks with the headers once, and data behind them only if their begin succeeded. -/
theorem inTime_of_once {callbacks : List Callback} {g : Globals} {ret : Int}
    (hidle : g.otaState = .idle) (hrpcs : g.rpcs = [])
    (honce : callbacks.countP Callback.isHeadersDone ≤ 1)
    (hbegin : received (fromHeaders callbacks) ≠ [] → results.otaBegin 0 = success) :
    InTime results (some .wait) callbacks g ret := by
  induction callbacks generalizing g with
  | nil => trivial
  | cons c rest ih =>
    cases c with
    | headersDone =>
      rw [List.countP_cons_of_pos rfl] at honce
      refine ⟨⟨rfl, hidle⟩, inTime_started results ?_ (by omega) ?_⟩
      · exact congrArg Globals.otaState (headersDoneFn_snd results g)
      · intro h
        show results.otaBegin (begins g.rpcs) = success
        rw [hrpcs]
        exact hbegin h
    | recv p =>
      -- before the headers nothing is written
      have hsame : Callback.deliver results g (.recv p) = g :=
        congrArg Prod.snd (if_neg fun hp => absurd (hidle.symm.trans hp.2) (by decide))
      refine ⟨fun _ h => absurd (hidle.symm.trans h) (by decide), ?_⟩
      rw [hsame]
      exact ih hidle hrpcs honce hbegin
    | result r => exact ⟨trivial, ih (g := resultFn r g) hidle hrpcs honce hbegin⟩

/-- A call that nobody disturbs issues its RPCs in order, when its headers come once and data
behind them only if their begin succeeded. -/
theorem espHostedOtaHttp_session (env : Environment) (state : OtaState) (sem : Option Bool)
    (honce : env.callbacks.countP Callback.isHeadersDone ≤ 1)
    (hbegin : received (fromHeaders env.callbacks) ≠ [] → env.rpc.otaBegin 0 = success) :
    (session (espHostedOtaHttp env ⟨state, sem, []⟩).2.rpcs).isSome := by
  obtain ⟨actions, ret', hexec, hmeets⟩ := exec_espHostedOtaHttp env state sem success
  have kept : Kept ⟨⟨state, sem, []⟩, none, .none, success⟩ :=
    ⟨rfl, fun h => absurd rfl h, nofun, nofun⟩
  have k := Machine.exec_inv_along (I := Kept) (fun _ _ _ hm h k => k.step hm h) hexec
    (hmeets (inTime_of_once env.rpc rfl rfl honce hbegin)) kept
  exact Option.isSome_iff_exists.mpr ⟨_, k.session_eq⟩

end Calls

end PicoHost.Ota
