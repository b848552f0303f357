import PicoHost.Lib.Run

/-!
# OTA update of the co-processor over HTTP

One call of `esp_hosted_ota_http` (esp_hosted_ota.c). The HTTP client calls back with the
headers, with the body in chains of buffers, and with the result; every OTA RPC is kept in
`rpcs` with what it returned.

The call returns `ESP_OK` as soon as `ota_state` has left `OTA_STATE_IDLE` and
`rpc_ota_end` succeeds. What `rpc_ota_begin` and `rpc_ota_write` returned, the result of the
request and the time-out do not reach it, so it reports an image as flashed that was not
(`ok_complete_iff`).
-/

namespace PicoHost.Ota

/-! ## The RPCs -/

/-- The bytes of one `struct pbuf`. -/
abbrev Chunk := List UInt8

/-- The RPCs of the OTA procedure (esp_hosted_ota.c:10–14). -/
inductive Rpc where
  | otaBegin
  | otaWrite (payload : Chunk)
  | otaEnd
deriving DecidableEq, Repr

/-- An RPC that was issued, and what it returned. -/
structure RpcCall where
  rpc : Rpc
  ret : Int
deriving DecidableEq, Repr

/-- `SUCCESS`, which is also the `ESP_OK` that `rpc_ota_write` is tested for. -/
def success : Int := 0

/-- What the RPCs return, by kind: the `k`-th `rpc_ota_begin`, the `k`-th `rpc_ota_write`,
and the one `rpc_ota_end` of the call. -/
structure RpcResults where
  otaBegin : Nat → Int
  otaWrite : Nat → Int
  otaEnd : Int

def Rpc.isBegin : Rpc → Bool
  | .otaBegin => true
  | _ => false

def Rpc.isWrite : Rpc → Bool
  | .otaWrite _ => true
  | _ => false

/-! ## The globals and the callbacks -/

/-- `ota_state_t` -/
inductive OtaState where
  | idle | started
deriving DecidableEq, Repr

/-- `err_t`, as the callbacks return it. -/
inductive Err where
  | ok | abrt
deriving DecidableEq, Repr

/-- `httpc_result_t` -/
inductive HttpcResult where
  | ok | errUnknown | errConnect | errHostname | errClosed | errTimeout | errSvrResp | errMem
  | localAbort | errContentLen
deriving DecidableEq, Repr

/-- The static variables of the file, and the RPCs issued so far. The semaphore is `NULL`
or holds a token or not. -/
structure Globals where
  otaState : OtaState
  otaSem : Option Bool
  rpcs : List RpcCall
deriving DecidableEq, Repr

section Callbacks

variable (results : RpcResults)

def rpcOtaBegin (g : Globals) : Int × Globals :=
  let ret := results.otaBegin (g.rpcs.countP fun call => call.rpc.isBegin)
  (ret, { g with rpcs := g.rpcs ++ [⟨.otaBegin, ret⟩] })

def rpcOtaWrite (payload : Chunk) (g : Globals) : Int × Globals :=
  let ret := results.otaWrite (g.rpcs.countP fun call => call.rpc.isWrite)
  (ret, { g with rpcs := g.rpcs ++ [⟨.otaWrite payload, ret⟩] })

def rpcOtaEnd (g : Globals) : Int × Globals :=
  (results.otaEnd, { g with rpcs := g.rpcs ++ [⟨.otaEnd, results.otaEnd⟩] })

/-- `hosted_post_semaphore`: a `NULL` semaphore is refused. -/
def postSemaphore (g : Globals) : Globals := { g with otaSem := g.otaSem.map fun _ => true }

/-- `hosted_get_semaphore`, whose return value is not used: the token is gone afterwards,
whether it came in time or not. -/
def getSemaphore (g : Globals) : Globals := { g with otaSem := g.otaSem.map fun _ => false }

/-- `result_fn` (esp_hosted_ota.c:41–47) -/
def resultFn (_httpcResult : HttpcResult) (g : Globals) : Globals := postSemaphore g

/-- `headers_done_fn` (esp_hosted_ota.c:52–66) -/
def headersDoneFn (g : Globals) : Err × Globals :=
  let g := { g with otaState := .started }
  let (ret, g) := rpcOtaBegin results g
  if ret ≠ success then (.abrt, g) else (.ok, g)

/-- The writes of `recv_fn` for `p`, `p->next`, and so on up to `NULL`
(esp_hosted_ota.c:81–102). -/
def writeChain : List Chunk → Globals → Err × Globals
  | [], g => (.ok, g)
  | payload :: next, g =>
    let (res, g) := rpcOtaWrite results payload g
    if res ≠ success then (.abrt, g) else writeChain next g

/-- `recv_fn` (esp_hosted_ota.c:71–116). A chain of buffers is the list of their bytes, and
`NULL` the empty list. -/
def recvFn (p : List Chunk) (g : Globals) : Err × Globals :=
  if p ≠ [] ∧ g.otaState = .started then writeChain results p g else (.ok, g)

/-- A call back from the HTTP client. -/
inductive Callback where
  | headersDone
  | recv (p : List Chunk)
  | result (httpcResult : HttpcResult)
deriving DecidableEq, Repr

def Callback.deliver (g : Globals) : Callback → Globals
  | .headersDone => (headersDoneFn results g).2
  | .recv p => (recvFn results p g).2
  | .result httpcResult => resultFn httpcResult g

end Callbacks

/-! ## One call -/

/-- `esp_err_t`, as the call returns it. -/
inductive EspErr where
  | ok | fail
deriving DecidableEq, Repr

/-- What surrounds one call: whether the semaphore is created, what `httpc_get_file`
returns, the callbacks until the wait is over, and what the RPCs return. The wait times out
when none of the callbacks is a result. -/
structure Environment where
  semaphore : Bool
  httpcGetFile : Int
  callbacks : List Callback
  rpc : RpcResults

/-- `ERR_OK` of lwIP. -/
def errOk : Int := 0

/-- `esp_hosted_ota_http` (esp_hosted_ota.c:125–170) -/
def espHostedOtaHttp (env : Environment) (g : Globals) : EspErr × Globals :=
  if env.semaphore = false then (.fail, { g with otaSem := none })
  else
    let g := getSemaphore { g with otaSem := some true }
    let g := { g with otaState := .idle }
    if env.httpcGetFile ≠ errOk then (.fail, g)
    else
      -- the wait: the callbacks run in lwIP's task
      let g := env.callbacks.foldl (Callback.deliver env.rpc) g
      let g := getSemaphore g
      let g := { g with otaSem := none }
      if g.otaState ≠ .idle then
        let (ret, g) := rpcOtaEnd env.rpc g
        if ret ≠ success then (.fail, g) else (.ok, g)
      else (.fail, g)

/-! ## What success should mean -/

/-- The body that the HTTP client delivered. -/
def received (callbacks : List Callback) : List Chunk :=
  callbacks.flatMap fun
    | .recv p => p
    | _ => []

/-- The chunks that were written. -/
def written (rpcs : List RpcCall) : List Chunk :=
  rpcs.filterMap fun call => match call.rpc with
    | .otaWrite payload => some payload
    | _ => none

/-- The result that ended the request. -/
def firstResult (callbacks : List Callback) : Option HttpcResult :=
  callbacks.findSome? fun
    | .result httpcResult => some httpcResult
    | _ => none

/-- The image has reached the co-processor: the update was begun, every begin and write
succeeded, the request ended well, and what was written is the body. -/
structure Complete (callbacks : List Callback) (rpcs : List RpcCall) : Prop where
  begun : ∃ call ∈ rpcs, call.rpc.isBegin
  begins : ∀ call ∈ rpcs, call.rpc.isBegin → call.ret = success
  writes : ∀ call ∈ rpcs, call.rpc.isWrite → call.ret = success
  finished : firstResult callbacks = some .ok
  body : (written rpcs).flatten = (received callbacks).flatten

def Callback.isHeadersDone : Callback → Bool
  | .headersDone => true
  | _ => false

/-- The callbacks before the first `headers_done_fn`. -/
def beforeHeaders (callbacks : List Callback) : List Callback :=
  callbacks.takeWhile fun c => !c.isHeadersDone

/-- The first `headers_done_fn` and the callbacks after it. -/
def fromHeaders (callbacks : List Callback) : List Callback :=
  callbacks.dropWhile fun c => !c.isHeadersDone

/-- The environment lets the whole update succeed: `rpc_ota_begin` does so for every
`headers_done_fn`, `rpc_ota_write` for every chunk after the first one, the result is
`HTTPC_RESULT_OK`, and no byte came before the headers. -/
structure Delivered (env : Environment) : Prop where
  begins : ∀ k < env.callbacks.countP Callback.isHeadersDone, env.rpc.otaBegin k = success
  writes : ∀ k < (received (fromHeaders env.callbacks)).length, env.rpc.otaWrite k = success
  finished : firstResult env.callbacks = some .ok
  before : (received (beforeHeaders env.callbacks)).flatten = []

/-- `espHostedOtaHttp` gets to its `return ESP_OK`. -/
structure Ends (env : Environment) : Prop where
  semaphore : env.semaphore = true
  httpcGetFile : env.httpcGetFile = errOk
  headers : .headersDone ∈ env.callbacks
  otaEnd : env.rpc.otaEnd = success

/-! ## What the callbacks issue -/

section Issued

variable (results : RpcResults)

/-- How many begins and how many writes have been issued. -/
def begins (rpcs : List RpcCall) : Nat := rpcs.countP fun call => call.rpc.isBegin

def writes (rpcs : List RpcCall) : Nat := rpcs.countP fun call => call.rpc.isWrite

@[simp] theorem begins_append (l l' : List RpcCall) :
    begins (l ++ l') = begins l + begins l' := List.countP_append

@[simp] theorem writes_append (l l' : List RpcCall) :
    writes (l ++ l') = writes l + writes l' := List.countP_append

/-- A call and its return value, after the ones before it. -/
theorem headersDoneFn_snd (g : Globals) :
    (headersDoneFn results g).2 =
      ⟨.started, g.otaSem, g.rpcs ++ [⟨.otaBegin, results.otaBegin (begins g.rpcs)⟩]⟩ := by
  by_cases h : results.otaBegin (begins g.rpcs) = success
  · exact congrArg Prod.snd (if_neg (not_not_intro h))
  · exact congrArg Prod.snd (if_pos h)

/-- A write that succeeds is followed by the rest of the chain. -/
theorem writeChain_cons_ok {payload : Chunk} {next : List Chunk} {g : Globals}
    (h : results.otaWrite (writes g.rpcs) = success) :
    writeChain results (payload :: next) g =
      writeChain results next { g with rpcs := g.rpcs ++ [⟨.otaWrite payload, success⟩] } := by
  rw [← h]
  exact if_neg (not_not_intro h)

/-- A write that fails is the last one of the chain. -/
theorem writeChain_cons_fail {payload : Chunk} {next : List Chunk} {g : Globals}
    (h : results.otaWrite (writes g.rpcs) ≠ success) :
    writeChain results (payload :: next) g = (.abrt, { g with
      rpcs := g.rpcs ++ [⟨.otaWrite payload, results.otaWrite (writes g.rpcs)⟩] }) :=
  if_pos h

@[simp] theorem writeChain_otaState (p : List Chunk) (g : Globals) :
    (writeChain results p g).2.otaState = g.otaState := by
  induction p generalizing g with
  | nil => rfl
  | cons payload next ih =>
    by_cases h : results.otaWrite (writes g.rpcs) = success
    · rw [writeChain_cons_ok results h, ih]
    · rw [writeChain_cons_fail results h]

/-- The chain issues writes only, after the RPCs so far. -/
theorem writeChain_rpcs (p : List Chunk) (g : Globals) :
    ∃ new, (writeChain results p g).2.rpcs = g.rpcs ++ new ∧ ∀ call ∈ new, call.rpc.isWrite := by
  induction p generalizing g with
  | nil => exact ⟨[], (List.append_nil _).symm, fun _ h => nomatch h⟩
  | cons payload next ih =>
    by_cases h : results.otaWrite (writes g.rpcs) = success
    · rw [writeChain_cons_ok results h]
      obtain ⟨new, heq, hnew⟩ := ih { g with rpcs := g.rpcs ++ [⟨.otaWrite payload, success⟩] }
      refine ⟨⟨.otaWrite payload, success⟩ :: new, ?_, ?_⟩
      · rw [heq, List.append_assoc]
        rfl
      · intro call hcall
        rcases List.mem_cons.mp hcall with rfl | hcall
        · rfl
        · exact hnew call hcall
    · rw [writeChain_cons_fail results h]
      exact ⟨_, rfl, fun call hcall => List.mem_singleton.mp hcall ▸ rfl⟩

/-- The chain when every write of it succeeds. -/
theorem writeChain_ok {p : List Chunk} {g : Globals}
    (h : ∀ k < p.length, results.otaWrite (writes g.rpcs + k) = success) :
    (writeChain results p g).2.rpcs = g.rpcs ++ p.map fun payload => ⟨.otaWrite payload, success⟩ := by
  induction p generalizing g with
  | nil => exact (List.append_nil _).symm
  | cons payload next ih =>
    have hfirst : results.otaWrite (writes g.rpcs) = success := h 0 (Nat.succ_pos _)
    rw [writeChain_cons_ok results hfirst, ih, List.append_assoc]
    · rfl
    · intro k hk
      have hnext := h (k + 1) (Nat.succ_lt_succ hk)
      rw [← hnext]
      simp only [writes_append]
      show results.otaWrite (writes g.rpcs + 1 + k) = _
      rw [Nat.add_assoc, Nat.add_comm 1 k]

/-- The chain when one of its writes fails: the first that does has been issued. -/
theorem writeChain_fail {p : List Chunk} {g : Globals} {k : Nat} (hk : k < p.length)
    (h : results.otaWrite (writes g.rpcs + k) ≠ success) :
    ∃ call ∈ (writeChain results p g).2.rpcs, call.rpc.isWrite ∧ call.ret ≠ success := by
  induction p generalizing g k with
  | nil => cases hk
  | cons payload next ih =>
    by_cases hfirst : results.otaWrite (writes g.rpcs) = success
    · rw [writeChain_cons_ok results hfirst]
      cases k with
      | zero => exact absurd hfirst h
      | succ k =>
        refine ih (k := k) (Nat.lt_of_succ_lt_succ hk) ?_
        simp only [writes_append]
        show results.otaWrite (writes g.rpcs + 1 + k) ≠ _
        rwa [Nat.add_assoc, Nat.add_comm 1 k]
    · rw [writeChain_cons_fail results hfirst]
      exact ⟨_, List.mem_append_right _ (List.mem_singleton_self _), rfl, hfirst⟩

end Issued

/-! ## The callbacks of a call -/

section Wait

variable (results : RpcResults)

/-- The globals when the wait is over. -/
def waitEnd (callbacks : List Callback) (g : Globals) : Globals :=
  callbacks.foldl (Callback.deliver results) g

/-- A piece of the image goes to the co-processor once the update has started. -/
theorem deliver_recv_started {p : List Chunk} {g : Globals} (h : g.otaState = .started) :
    Callback.deliver results g (.recv p) = (writeChain results p g).2 := by
  cases p with
  | nil => rfl
  | cons payload next => exact congrArg Prod.snd (if_pos ⟨List.cons_ne_nil _ _, h⟩)

/-- An update that has started stays so. -/
theorem deliver_started {g : Globals} (h : g.otaState = .started) (c : Callback) :
    (c.deliver results g).otaState = .started := by
  cases c with
  | headersDone => exact congrArg Globals.otaState (headersDoneFn_snd results g)
  | recv p => rw [deliver_recv_started results h, writeChain_otaState, h]
  | result r => exact h

/-- A callback adds requests to the log and takes none away. -/
theorem deliver_rpcs {g : Globals} (h : g.otaState = .started) (c : Callback) :
    ∃ new, (c.deliver results g).rpcs = g.rpcs ++ new := by
  cases c with
  | headersDone => exact ⟨_, congrArg Globals.rpcs (headersDoneFn_snd results g)⟩
  | recv p =>
    obtain ⟨new, heq, -⟩ := writeChain_rpcs results p g
    rw [deliver_recv_started results h]
    exact ⟨new, heq⟩
  | result r => exact ⟨[], (List.append_nil _).symm⟩

/-- An update that has started stays so until the wait ends. -/
theorem waitEnd_started {g : Globals} (h : g.otaState = .started) (callbacks : List Callback) :
    (waitEnd results callbacks g).otaState = .started := by
  induction callbacks generalizing g with
  | nil => exact h
  | cons c rest ih => exact ih (deliver_started results h c)

/-- No RPC is forgotten. -/
theorem mem_waitEnd {g : Globals} (h : g.otaState = .started) (callbacks : List Callback)
    {call : RpcCall} (hc : call ∈ g.rpcs) : call ∈ (waitEnd results callbacks g).rpcs := by
  induction callbacks generalizing g with
  | nil => exact hc
  | cons c rest ih =>
    obtain ⟨new, heq⟩ := deliver_rpcs results h c
    refine ih (deliver_started results h c) ?_
    rw [heq]
    exact List.mem_append_left _ hc

/-- Before the headers nothing happens. -/
theorem waitEnd_idle {g : Globals} (h : g.otaState = .idle) {callbacks : List Callback}
    (hno : ∀ c ∈ callbacks, c.isHeadersDone = false) :
    (waitEnd results callbacks g).otaState = .idle ∧
      (waitEnd results callbacks g).rpcs = g.rpcs := by
  induction callbacks generalizing g with
  | nil => exact ⟨h, rfl⟩
  | cons c rest ih =>
    have hrest : ∀ c ∈ rest, c.isHeadersDone = false :=
      fun c hc => hno c (List.mem_cons_of_mem _ hc)
    cases c with
    | headersDone => exact absurd (hno .headersDone (List.mem_cons_self ..)) (by decide)
    | recv p =>
      have hsame : Callback.deliver results g (.recv p) = g := by
        refine congrArg Prod.snd (if_neg fun hp => ?_)
        rw [h] at hp
        exact absurd hp.2 (by decide)
      rw [waitEnd, List.foldl_cons, hsame]
      exact ih h hrest
    | result r => exact ih (g := resultFn r g) h hrest

/-- The RPCs of a callback when every one of them succeeds. -/
def Callback.issued : Callback → List RpcCall
  | .headersDone => [⟨.otaBegin, success⟩]
  | .recv p => p.map fun payload => ⟨.otaWrite payload, success⟩
  | .result _ => []

/-- Writes do not begin an update. -/
theorem begins_of_writes {l : List RpcCall} (h : ∀ call ∈ l, call.rpc.isWrite) : begins l = 0 := by
  refine List.countP_eq_zero.mpr fun call hcall => ?_
  obtain ⟨rpc, ret⟩ := call
  have hw := h _ hcall
  cases rpc with
  | otaWrite payload => exact Bool.false_ne_true
  | otaBegin => cases hw
  | otaEnd => cases hw

/-- A write for each chunk -/
theorem writes_map (p : List Chunk) :
    writes (p.map fun payload => ⟨.otaWrite payload, success⟩) = p.length := by
  induction p with
  | nil => rfl
  | cons payload next ih =>
    rw [List.map_cons, writes, List.countP_cons_of_pos rfl, ← writes, ih, List.length_cons]

/-- Writing a chain begins no update. -/
theorem begins_writeChain (p : List Chunk) (g : Globals) :
    begins (writeChain results p g).2.rpcs = begins g.rpcs := by
  obtain ⟨new, heq, hnew⟩ := writeChain_rpcs results p g
  rw [heq, begins_append, begins_of_writes hnew, Nat.add_zero]

/-- Everything succeeds: the RPCs are those of the callbacks, in order. -/
theorem waitEnd_ok {g : Globals} (h : g.otaState = .started) {callbacks : List Callback}
    (hbegin : ∀ k < callbacks.countP Callback.isHeadersDone,
      results.otaBegin (begins g.rpcs + k) = success)
    (hwrite : ∀ k < (received callbacks).length, results.otaWrite (writes g.rpcs + k) = success) :
    (waitEnd results callbacks g).rpcs = g.rpcs ++ callbacks.flatMap Callback.issued := by
  -- the results are numbered by the begins and the writes issued so far
  induction callbacks generalizing g with
  | nil => exact (List.append_nil _).symm
  | cons c rest ih =>
    have hstarted := deliver_started results h c
    rw [waitEnd, List.foldl_cons, List.flatMap_cons, ← List.append_assoc]
    cases c with
    | headersDone =>
      have hfirst := hbegin 0 (by rw [List.countP_cons_of_pos rfl]; exact Nat.succ_pos _)
      have heq : (Callback.deliver results g .headersDone).rpcs =
          g.rpcs ++ Callback.headersDone.issued := by
        show (headersDoneFn results g).2.rpcs = _
        rw [headersDoneFn_snd, ← Nat.add_zero (begins g.rpcs), hfirst]
        rfl
      rw [← heq]
      refine ih hstarted ?_ ?_
      · intro k hk
        rw [heq, begins_append, Nat.add_assoc]
        refine hbegin _ ?_
        rw [List.countP_cons_of_pos rfl, Nat.add_comm]
        exact Nat.add_lt_add_right hk 1
      · intro k hk
        rw [heq, writes_append]
        exact hwrite k hk
    | recv p =>
      have hlen : (received (.recv p :: rest)).length = p.length + (received rest).length :=
        List.length_append
      have heq : (Callback.deliver results g (.recv p)).rpcs = g.rpcs ++ (Callback.recv p).issued := by
        rw [deliver_recv_started results h]
        exact writeChain_ok results fun k hk => hwrite k (by omega)
      rw [← heq]
      refine ih hstarted ?_ ?_
      · intro k hk
        rw [deliver_recv_started results h, begins_writeChain]
        exact hbegin k hk
      · intro k hk
        rw [heq, writes_append, Callback.issued, writes_map, Nat.add_assoc]
        exact hwrite _ (by omega)
    | result r =>
      rw [Callback.issued, List.append_nil]
      exact ih h hbegin hwrite

/-- Every `headers_done_fn` has issued a begin. -/
theorem waitEnd_begins {g : Globals} (h : g.otaState = .started) {callbacks : List Callback}
    {k : Nat} (hk : k < callbacks.countP Callback.isHeadersDone) :
    ∃ call ∈ (waitEnd results callbacks g).rpcs,
      call.rpc.isBegin ∧ call.ret = results.otaBegin (begins g.rpcs + k) := by
  induction callbacks generalizing g k with
  | nil => cases hk
  | cons c rest ih =>
    have hstarted := deliver_started results h c
    cases c with
    | headersDone =>
      have heq : (Callback.deliver results g .headersDone).rpcs =
          g.rpcs ++ [⟨.otaBegin, results.otaBegin (begins g.rpcs)⟩] :=
        congrArg Globals.rpcs (headersDoneFn_snd results g)
      cases k with
      | zero =>
        -- this one, and no RPC is taken back
        refine ⟨⟨.otaBegin, results.otaBegin (begins g.rpcs)⟩, ?_, rfl, rfl⟩
        refine mem_waitEnd results hstarted rest ?_
        rw [heq]
        exact List.mem_append_right _ (List.mem_singleton_self _)
      | succ k =>
        rw [List.countP_cons_of_pos rfl] at hk
        have hrest := ih hstarted (Nat.lt_of_succ_lt_succ hk)
        rw [heq, begins_append] at hrest
        rwa [Nat.add_comm k 1, ← Nat.add_assoc]
    | recv p =>
      have hrest := ih hstarted (k := k) hk
      rw [deliver_recv_started results h, begins_writeChain] at hrest
      rwa [waitEnd, List.foldl_cons, deliver_recv_started results h]
    | result r => exact ih (g := resultFn r g) h hk

/-- A write that fails has been issued, or one before it. -/
theorem waitEnd_write_fail {g : Globals} (h : g.otaState = .started) {callbacks : List Callback}
    {k : Nat} (hk : k < (received callbacks).length)
    (hfail : results.otaWrite (writes g.rpcs + k) ≠ success) :
    ∃ call ∈ (waitEnd results callbacks g).rpcs, call.rpc.isWrite ∧ call.ret ≠ success := by
  induction callbacks generalizing g k with
  | nil => cases hk
  | cons c rest ih =>
    have hstarted := deliver_started results h c
    cases c with
    | headersDone =>
      refine ih (k := k) hstarted hk ?_
      show results.otaWrite (writes (headersDoneFn results g).2.rpcs + k) ≠ _
      rw [headersDoneFn_snd, writes_append]
      exact hfail
    | recv p =>
      have hlen : (received (.recv p :: rest)).length = p.length + (received rest).length :=
        List.length_append
      have hdeliver := deliver_recv_started results (p := p) h
      by_cases hall : ∀ j < p.length, results.otaWrite (writes g.rpcs + j) = success
      · -- the chain goes through, and the failing write comes later
        have hge : p.length ≤ k := Nat.le_of_not_lt fun hlt => hfail (hall k hlt)
        refine ih (k := k - p.length) hstarted (by omega) ?_
        rw [hdeliver, writeChain_ok results hall, writes_append, writes_map, Nat.add_assoc,
          Nat.add_sub_cancel' hge]
        exact hfail
      · -- a write of this chain fails
        simp only [not_forall] at hall
        obtain ⟨j, hj, hne⟩ := hall
        obtain ⟨call, hmem, hcall⟩ := writeChain_fail results hj hne
        refine ⟨call, mem_waitEnd results hstarted rest ?_, hcall⟩
        rwa [hdeliver]
    | result r => exact ih (g := resultFn r g) h hk hfail

/-- The callbacks up to the first `headers_done_fn`, and from it on. -/
theorem headers_split {callbacks : List Callback} (hmem : .headersDone ∈ callbacks) :
    ∃ rest, fromHeaders callbacks = .headersDone :: rest ∧
      callbacks = beforeHeaders callbacks ++ .headersDone :: rest ∧
      ∀ c ∈ beforeHeaders callbacks, c.isHeadersDone = false := by
  induction callbacks with
  | nil => cases hmem
  | cons c callbacks ih =>
    cases hc : c.isHeadersDone with
    | true =>
      cases c with
      | headersDone => exact ⟨callbacks, rfl, rfl, fun _ h => nomatch h⟩
      | recv p => cases hc
      | result r => cases hc
    | false =>
      have htail : .headersDone ∈ callbacks := by
        rcases List.mem_cons.mp hmem with rfl | htail
        · cases hc
        · exact htail
      obtain ⟨rest, hfrom, hsplit, hno⟩ := ih htail
      have hbefore : beforeHeaders (c :: callbacks) = c :: beforeHeaders callbacks :=
        List.takeWhile_cons_of_pos (by rw [hc]; rfl)
      refine ⟨rest, ?_, ?_, ?_⟩
      · exact (List.dropWhile_cons_of_pos (by rw [hc]; rfl)).trans hfrom
      · rw [hbefore, List.cons_append, ← hsplit]
      · rw [hbefore]
        intro d hd
        rcases List.mem_cons.mp hd with rfl | hd
        · exact hc
        · exact hno d hd

/-- The first `headers_done_fn` starts the update; what came before has left no trace. -/
theorem waitEnd_fromHeaders {callbacks : List Callback} (hmem : .headersDone ∈ callbacks)
    (sem : Option Bool) :
    ∃ sem', waitEnd results callbacks ⟨.idle, sem, []⟩ =
      waitEnd results (fromHeaders callbacks) ⟨.started, sem', []⟩ := by
  obtain ⟨rest, hfrom, hsplit, hno⟩ := headers_split hmem
  obtain ⟨hidle, hrpcs⟩ := waitEnd_idle results (g := ⟨.idle, sem, []⟩) rfl hno
  refine ⟨(waitEnd results (beforeHeaders callbacks) ⟨.idle, sem, []⟩).otaSem, ?_⟩
  have hstart : waitEnd results callbacks ⟨.idle, sem, []⟩ = waitEnd results (.headersDone :: rest)
      (waitEnd results (beforeHeaders callbacks) ⟨.idle, sem, []⟩) := by
    conv_lhs => rw [hsplit]
    exact List.foldl_append
  rw [hstart, hfrom]
  generalize waitEnd results (beforeHeaders callbacks) ⟨.idle, sem, []⟩ = g at hidle hrpcs
  obtain ⟨state, sem', rpcs⟩ := g
  cases hidle
  cases hrpcs
  rfl

end Wait

/-! ## The return value -/

/-- What the call does once the request is under way. -/
theorem espHostedOtaHttp_eq {env : Environment} (hsem : env.semaphore = true)
    (hget : env.httpcGetFile = errOk) (state : OtaState) (sem : Option Bool) :
    espHostedOtaHttp env ⟨state, sem, []⟩ =
      let g := waitEnd env.rpc env.callbacks ⟨.idle, some false, []⟩
      if g.otaState ≠ .idle then
        if env.rpc.otaEnd ≠ success then
          (.fail, ⟨g.otaState, none, g.rpcs ++ [⟨.otaEnd, env.rpc.otaEnd⟩]⟩)
        else (.ok, ⟨g.otaState, none, g.rpcs ++ [⟨.otaEnd, env.rpc.otaEnd⟩]⟩)
      else (.fail, ⟨g.otaState, none, g.rpcs⟩) := by
  unfold espHostedOtaHttp
  rw [if_neg (by rw [hsem]; decide)]
  exact if_neg (not_not_intro hget)

/-- The call returns `ESP_OK` exactly when it gets that far: no return value of a begin or a
write matters, nor does the result. -/
theorem espHostedOtaHttp_ok_iff (env : Environment) (state : OtaState) (sem : Option Bool) :
    (espHostedOtaHttp env ⟨state, sem, []⟩).1 = .ok ↔ Ends env := by
  cases hsem : env.semaphore with
  | false =>
    rw [espHostedOtaHttp, if_pos hsem]
    exact ⟨nofun, fun h => absurd (hsem.symm.trans h.semaphore) (by decide)⟩
  | true =>
    by_cases hget : env.httpcGetFile = errOk
    · rw [espHostedOtaHttp_eq hsem hget]
      by_cases hmem : .headersDone ∈ env.callbacks
      · obtain ⟨sem', heq⟩ := waitEnd_fromHeaders env.rpc hmem (some false)
        have hstarted : (waitEnd env.rpc env.callbacks ⟨.idle, some false, []⟩).otaState =
            .started := by
          rw [heq]
          exact waitEnd_started env.rpc rfl _
        dsimp only
        rw [if_pos (by rw [hstarted]; decide)]
        by_cases hend : env.rpc.otaEnd = success
        · rw [if_neg (not_not_intro hend)]
          exact ⟨fun _ => ⟨hsem, hget, hmem, hend⟩, fun _ => rfl⟩
        · rw [if_pos hend]
          exact ⟨nofun, fun h => absurd h.otaEnd hend⟩
      · -- no headers, and `ota_state` is idle at the end
        have hno : ∀ c ∈ env.callbacks, c.isHeadersDone = false := by
          intro c hc
          cases c with
          | headersDone => exact absurd hc hmem
          | recv p => rfl
          | result r => rfl
        have hidle := (waitEnd_idle env.rpc (g := ⟨.idle, some false, []⟩) rfl hno).1
        dsimp only
        rw [if_neg (not_not_intro hidle)]
        exact ⟨nofun, fun h => absurd h.headers hmem⟩
    · unfold espHostedOtaHttp
      rw [if_neg (by rw [hsem]; decide)]
      refine ⟨fun h => ?_, fun h => absurd h.httpcGetFile hget⟩
      dsimp only at h
      rw [if_pos hget] at h
      cases h

/-- The RPCs of a call that returns `ESP_OK`. -/
theorem Ends.rpcs {env : Environment} (h : Ends env) (state : OtaState) (sem : Option Bool) :
    ∃ sem', (espHostedOtaHttp env ⟨state, sem, []⟩).2.rpcs =
      (waitEnd env.rpc (fromHeaders env.callbacks) ⟨.started, sem', []⟩).rpcs ++
        [⟨.otaEnd, success⟩] := by
  obtain ⟨sem', heq⟩ := waitEnd_fromHeaders env.rpc h.headers (some false)
  refine ⟨sem', ?_⟩
  have hstarted := waitEnd_started env.rpc (g := ⟨.started, sem', []⟩) rfl
    (fromHeaders env.callbacks)
  rw [espHostedOtaHttp_eq h.semaphore h.httpcGetFile, heq]
  dsimp only
  rw [if_pos (by rw [hstarted]; decide), if_neg (not_not_intro h.otaEnd), h.otaEnd]

/-- What is written, list by list -/
theorem written_append (l l' : List RpcCall) : written (l ++ l') = written l ++ written l' :=
  List.filterMap_append

/-- What is received, list by list -/
theorem received_append (l l' : List Callback) :
    received (l ++ l') = received l ++ received l' :=
  List.flatMap_append

/-- Callbacks that succeed write what they receive. -/
theorem written_issued (callbacks : List Callback) :
    written (callbacks.flatMap Callback.issued) = received callbacks := by
  induction callbacks with
  | nil => rfl
  | cons c rest ih =>
    rw [List.flatMap_cons, written_append, ih]
    cases c with
    | headersDone => rfl
    | recv p =>
      refine congrArg (· ++ received rest) ?_
      show written (p.map fun payload => ⟨.otaWrite payload, success⟩) = p
      rw [written, List.filterMap_map]
      exact List.filterMap_some
    | result r => rfl

/-- The requests of callbacks that succeed have succeeded. -/
theorem ret_of_issued {callbacks : List Callback} {call : RpcCall}
    (h : call ∈ callbacks.flatMap Callback.issued) : call.ret = success := by
  obtain ⟨c, -, hc⟩ := List.mem_flatMap.mp h
  cases c with
  | headersDone =>
    rw [List.mem_singleton.mp hc]
  | recv p =>
    obtain ⟨payload, -, rfl⟩ := List.mem_map.mp hc
    rfl
  | result r => cases hc

/-- All callbacks at the end of the headers come from the first of them on. -/
theorem countP_fromHeaders {callbacks : List Callback} (hmem : .headersDone ∈ callbacks) :
    (fromHeaders callbacks).countP Callback.isHeadersDone =
      callbacks.countP Callback.isHeadersDone := by
  obtain ⟨rest, hfrom, hsplit, hno⟩ := headers_split hmem
  have hzero : (beforeHeaders callbacks).countP Callback.isHeadersDone = 0 :=
    List.countP_eq_zero.mpr fun c hc => by rw [hno c hc]; exact Bool.false_ne_true
  conv_rhs => rw [hsplit]
  rw [List.countP_append, hzero, Nat.zero_add, hfrom]

/-- What is received before the end of the headers, and after it -/
theorem received_split {callbacks : List Callback} (hmem : .headersDone ∈ callbacks) :
    received callbacks =
      received (beforeHeaders callbacks) ++ received (fromHeaders callbacks) := by
  obtain ⟨rest, hfrom, hsplit, -⟩ := headers_split hmem
  conv_lhs => rw [hsplit]
  rw [received_append, hfrom]

/-- What the call has issued when no begin and no write failed. -/
theorem Ends.rpcs_issued {env : Environment} (h : Ends env) (state : OtaState)
    (sem : Option Bool)
    (hbegin : ∀ k < env.callbacks.countP Callback.isHeadersDone, env.rpc.otaBegin k = success)
    (hwrite : ∀ k < (received (fromHeaders env.callbacks)).length,
      env.rpc.otaWrite k = success) :
    (espHostedOtaHttp env ⟨state, sem, []⟩).2.rpcs =
      (fromHeaders env.callbacks).flatMap Callback.issued ++ [⟨.otaEnd, success⟩] := by
  obtain ⟨sem', hrpcs⟩ := h.rpcs state sem
  rw [hrpcs, waitEnd_ok env.rpc rfl]
  · rfl
  · intro k hk
    rw [countP_fromHeaders h.headers] at hk
    exact (congrArg env.rpc.otaBegin (Nat.zero_add k)).trans (hbegin k hk)
  · intro k hk
    exact (congrArg env.rpc.otaWrite (Nat.zero_add k)).trans (hwrite k hk)

/-- The end of the update writes nothing. -/
theorem written_rpcs_issued (callbacks : List Callback) :
    written (callbacks.flatMap Callback.issued ++ [⟨.otaEnd, success⟩]) = received callbacks := by
  rw [written_append, written_issued]
  exact List.append_nil _

/-- A complete image has come from an environment in which everything succeeded. -/
theorem Ends.delivered_of_complete {env : Environment} (h : Ends env) (state : OtaState)
    (sem : Option Bool)
    (hcomplete : Complete env.callbacks (espHostedOtaHttp env ⟨state, sem, []⟩).2.rpcs) :
    Delivered env := by
  obtain ⟨sem', hrpcs⟩ := h.rpcs state sem
  have hbegin : ∀ k < env.callbacks.countP Callback.isHeadersDone,
      env.rpc.otaBegin k = success := by
    intro k hk
    rw [← countP_fromHeaders h.headers] at hk
    obtain ⟨call, hmem, hcall, hret⟩ := waitEnd_begins env.rpc (g := ⟨.started, sem', []⟩) rfl hk
    rw [← Nat.zero_add k]
    refine hret.symm.trans (hcomplete.begins call ?_ hcall)
    rw [hrpcs]
    exact List.mem_append_left _ hmem
  have hwrite : ∀ k < (received (fromHeaders env.callbacks)).length,
      env.rpc.otaWrite k = success := by
    intro k hk
    by_contra hne
    rw [← Nat.zero_add k] at hne
    obtain ⟨call, hmem, hcall, hret⟩ :=
      waitEnd_write_fail env.rpc (g := ⟨.started, sem', []⟩) rfl hk hne
    refine hret (hcomplete.writes call ?_ hcall)
    rw [hrpcs]
    exact List.mem_append_left _ hmem
  refine ⟨hbegin, hwrite, hcomplete.finished, ?_⟩
  -- the bytes before the headers are received and not written
  have hbody := hcomplete.body
  rw [h.rpcs_issued state sem hbegin hwrite, written_rpcs_issued, received_split h.headers,
    List.flatten_append] at hbody
  exact List.self_eq_append_left.mp hbody

/-- An environment in which everything succeeds gets a complete image. -/
theorem Ends.complete_of_delivered {env : Environment} (h : Ends env) (state : OtaState)
    (sem : Option Bool) (hdelivered : Delivered env) :
    Complete env.callbacks (espHostedOtaHttp env ⟨state, sem, []⟩).2.rpcs := by
  obtain ⟨rest, hfrom, -, -⟩ := headers_split h.headers
  have heq := h.rpcs_issued state sem hdelivered.begins hdelivered.writes
  have hret : ∀ call ∈ (espHostedOtaHttp env ⟨state, sem, []⟩).2.rpcs, call.ret = success := by
    intro call hcall
    rw [heq] at hcall
    rcases List.mem_append.mp hcall with hcall | hcall
    · exact ret_of_issued hcall
    · rw [List.mem_singleton.mp hcall]
  constructor
  · refine ⟨⟨.otaBegin, success⟩, ?_, rfl⟩
    rw [heq, hfrom]
    exact List.mem_cons_self ..
  · exact fun call hcall _ => hret call hcall
  · exact fun call hcall _ => hret call hcall
  · exact hdelivered.finished
  · rw [heq, written_rpcs_issued, received_split h.headers, List.flatten_append,
      hdelivered.before, List.nil_append]

/-- `ESP_OK` means that the image is complete, exactly when an environment that lets the call
end well also lets everything before it succeed. -/
theorem ok_complete_iff (env : Environment) (state : OtaState) (sem : Option Bool) :
    ((espHostedOtaHttp env ⟨state, sem, []⟩).1 = .ok →
        Complete env.callbacks (espHostedOtaHttp env ⟨state, sem, []⟩).2.rpcs) ↔
      (Ends env → Delivered env) := by
  rw [espHostedOtaHttp_ok_iff]
  exact forall_congr' fun h =>
    ⟨h.delivered_of_complete state sem, h.complete_of_delivered state sem⟩

/-- The first write fails, the request ends with a time-out of the connection, and the call
returns `ESP_OK`. -/
def truncated : Environment where
  semaphore := true
  httpcGetFile := errOk
  callbacks := [.headersDone, .recv [[0xE9, 0x05], [0x02]], .result .errTimeout]
  rpc := ⟨fun _ => success, fun _ => -1, success⟩

/-- The download of `truncated` reports success, and its image is not complete. -/
theorem truncated_ok : (espHostedOtaHttp truncated ⟨.idle, none, []⟩).1 = .ok ∧
    ¬ Complete truncated.callbacks (espHostedOtaHttp truncated ⟨.idle, none, []⟩).2.rpcs := by
  refine ⟨rfl, fun h => ?_⟩
  exact absurd h.finished (by decide)

end PicoHost.Ota
