import PicoHost.Http.Parse

/-!
# What a callback of the HTTP client calls

The calls of `httpc_close`, of the data path and of the end of the headers, each said once: what is
handed over, acknowledged, reported and disposed of.
-/

namespace PicoHost.Http

open Ota (Chunk HttpcResult)
open Find (At find)

/-! ## What has been called -/

/-- The bytes that were handed to `recv_fn` -/
def handed (acts : List Act) : List UInt8 :=
  acts.flatMap fun
    | .recv p => p.flatten
    | _ => []

/-- The results that were reported: the result, the length of the content, the status and the
error -/
def results (acts : List Act) : List (HttpcResult × Nat × Nat × Err) :=
  acts.filterMap fun
    | .result httpcResult rxContentLen srvRes err => some (httpcResult, rxContentLen, srvRes, err)
    | _ => none

/-- The headers that were reported: their length and the length of the content -/
def headerCalls (acts : List Act) : List (Nat × Nat) :=
  acts.filterMap fun
    | .headersDone _ hdrLen contentLen => some (hdrLen, contentLen)
    | _ => none

def Act.acknowledges : Act → Nat
  | .recved len => len
  | _ => 0

/-- The bytes of pbufs that it disposes of, or gives to the application -/
def Act.disposes : Act → List UInt8
  | .recv p => p.flatten
  | .pbufFree p => p.flatten
  | .pbufFreeHeader p size => p.flatten.take size
  | _ => []

/-- The bytes that a list of calls disposes of, one call after the other -/
def disposed (acts : List Act) : List UInt8 := acts.flatMap Act.disposes

/-- How much of something a list of calls does -/
def total (weight : Act → Nat) : List Act → Nat
  | [] => 0
  | act :: acts => weight act + total weight acts

section Called

variable (acts acts' : List Act)

@[simp] theorem handed_append : handed (acts ++ acts') = handed acts ++ handed acts' :=
  List.flatMap_append

@[simp] theorem results_append : results (acts ++ acts') = results acts ++ results acts' :=
  List.filterMap_append

@[simp] theorem headerCalls_append :
    headerCalls (acts ++ acts') = headerCalls acts ++ headerCalls acts' :=
  List.filterMap_append

@[simp] theorem disposed_append : disposed (acts ++ acts') = disposed acts ++ disposed acts' :=
  List.flatMap_append

@[simp] theorem total_append (weight : Act → Nat) :
    total weight (acts ++ acts') = total weight acts + total weight acts' := by
  induction acts with
  | nil => rw [List.nil_append, total, Nat.zero_add]
  | cons act acts ih => rw [List.cons_append, total, total, ih, Nat.add_assoc]

end Called

/-- Nothing has been reported or disposed of for good yet. -/
structure Pending (acts : List Act) : Prop where
  results : results acts = []
  memFree : acts.count .memFree = 0
  close : acts.count .close = 0
  abort : .abort ∉ acts

/-- It neither reports a result nor disposes of the state or the connection. -/
def Act.quiet : Act → Bool
  | .result .. | .memFree | .close | .abort => false
  | _ => true

/-- Quiet acts leave the request pending. -/
theorem pending_of_quiet {acts : List Act} (h : ∀ act ∈ acts, act.quiet) : Pending acts where
  results := by
    refine List.filterMap_eq_nil_iff.mpr fun act hact => ?_
    have := h act hact
    cases act <;> first | rfl | cases this
  memFree := List.count_eq_zero.mpr fun hmem => by cases h _ hmem
  close := List.count_eq_zero.mpr fun hmem => by cases h _ hmem
  abort := fun hmem => by cases h _ hmem

/-- A request without acts is pending. -/
theorem Pending.nil : Pending [] := pending_of_quiet (by simp)

/-- Two lists of acts that leave the request pending -/
theorem Pending.append {acts acts' : List Act} (h : Pending acts) (h' : Pending acts') :
    Pending (acts ++ acts') where
  results := by rw [results_append, h.results, h'.results]; rfl
  memFree := by rw [List.count_append, h.memFree, h'.memFree]
  close := by rw [List.count_append, h.close, h'.close]
  abort := by
    rw [List.mem_append]
    rintro (hmem | hmem)
    · exact h.abort hmem
    · exact h'.abort hmem

/-! ## Disposing of a request -/

/-- The bytes of the pbufs that the state holds -/
def HttpcState.held (req : HttpcState) : List UInt8 := req.request.getD [] ++ req.rxHdrs.flatten

/-- What `httpc_close` calls: `result_fn` once if it is set, and what disposes of all that the
state holds. -/
structure Closes (c : Settings) (req : HttpcState) (result : HttpcResult) (srvRes : Nat) (err : Err)
    (o : Outcome) : Prop where
  freed : o.req = none
  handed : handed o.acts = []
  headerCalls : headerCalls o.acts = []
  results : results o.acts =
    if c.resultFn then [(result, req.rxContentLen, srvRes, err)] else []
  acknowledges : total Act.acknowledges o.acts = 0
  disposes : disposed o.acts = req.held
  memFree : o.acts.count .memFree = 1
  close : o.acts.count .close = if req.pcb then 1 else 0
  abort : o.ret = .abrt ↔ .abort ∈ o.acts

section Close

variable {c : Settings} {req : HttpcState}

/-- The pbufs that `httpc_free_state` frees -/
def HttpcState.pbufs (req : HttpcState) : List Act :=
  (req.request.toList.map fun payload => Act.pbufFree [payload]) ++
    if req.rxHdrs ≠ [] then [Act.pbufFree req.rxHdrs] else []

/-- What a request holds is freed by `pbuf_free`. -/
theorem mem_pbufs (req : HttpcState) {act : Act} (h : act ∈ req.pbufs) : ∃ p, act = .pbufFree p := by
  rcases List.mem_append.mp h with h | h
  · obtain ⟨payload, -, rfl⟩ := List.mem_map.mp h
    exact ⟨_, rfl⟩
  · split at h
    · exact ⟨_, List.mem_singleton.mp h⟩
    · cases h

/-- Freeing the pbufs of a request disposes of what it holds. -/
theorem disposed_pbufs (req : HttpcState) : disposed req.pbufs = req.held := by
  rw [HttpcState.pbufs, HttpcState.held, disposed_append]
  congr 1
  · cases req.request with
    | none => rfl
    | some payload => simp [disposed, Act.disposes]
  · by_cases h : req.rxHdrs = []
    · rw [if_neg (not_not_intro h), h]
      rfl
    · rw [if_pos h]
      exact List.append_nil _

/-- Freeing pbufs delivers, acknowledges and reports nothing. -/
structure OnlyFrees (acts : List Act) : Prop where
  pending : Pending acts
  handed : handed acts = []
  headerCalls : headerCalls acts = []
  acknowledges : total Act.acknowledges acts = 0

/-- Acts that free pbufs do nothing else. -/
theorem onlyFrees_of {acts : List Act} (h : ∀ act ∈ acts, ∃ p, act = .pbufFree p) :
    OnlyFrees acts := by
  induction acts with
  | nil => exact ⟨.nil, rfl, rfl, rfl⟩
  | cons act acts ih =>
    obtain ⟨p, rfl⟩ := h act (List.mem_cons_self ..)
    have hrest := ih fun act hact => h act (List.mem_cons_of_mem _ hact)
    have hfirst : Pending [.pbufFree p] := pending_of_quiet (by simp [Act.quiet])
    refine ⟨hfirst.append hrest.pending, hrest.handed, hrest.headerCalls, ?_⟩
    rw [total, hrest.acknowledges]
    rfl

/-- What is called last: the state is freed, and then the connection disposed of. -/
structure Disposes (pcb : Bool) (ret : Err) (acts : List Act) : Prop where
  handed : handed acts = []
  headerCalls : headerCalls acts = []
  results : results acts = []
  acknowledges : total Act.acknowledges acts = 0
  disposes : disposed acts = []
  memFree : acts.count .memFree = 1
  close : acts.count .close = if pcb then 1 else 0
  abort : ret = .abrt ↔ .abort ∈ acts

/-- `httpc_free_state` frees the pbufs, the state and the connection. -/
theorem httpcFreeState_eq (req : HttpcState) (a : Answers) :
    ∃ ret acts, httpcFreeState req a = ⟨none, ret, req.pbufs ++ acts⟩ ∧
      Disposes req.pcb ret acts := by
  rw [httpcFreeState]
  cases req.pcb with
  | false => exact ⟨.ok, [.memFree], rfl, rfl, rfl, rfl, rfl, rfl, rfl, rfl, by decide⟩
  | true =>
    by_cases hclose : a.close = .ok
    · refine ⟨.ok, [.memFree, .close], ?_, rfl, rfl, rfl, rfl, rfl, rfl, rfl, by decide⟩
      rw [if_pos rfl, if_neg (not_not_intro hclose), List.append_assoc]
      rfl
    · refine ⟨.abrt, [.memFree, .close, .abort], ?_, rfl, rfl, rfl, rfl, rfl, rfl, rfl, by decide⟩
      rw [if_pos rfl, if_pos hclose, List.append_assoc]
      rfl

/-- `httpc_close` reports its result once and frees everything. -/
theorem httpcClose_closes (c : Settings) (req : HttpcState) (result : HttpcResult) (srvRes : Nat)
    (err : Err) (a : Answers) :
    Closes c req result srvRes err (httpcClose c req result srvRes err a) := by
  have hfrees := onlyFrees_of fun _ => mem_pbufs req
  obtain ⟨ret, acts, heq, hacts⟩ := httpcFreeState_eq req a
  rw [httpcClose, heq, Outcome.after]
  generalize hcalled : (if c.resultFn then [Act.result result req.rxContentLen srvRes err]
    else []) = called
  have hhanded : handed called = [] := by rw [← hcalled]; cases c.resultFn <;> rfl
  have hheaders : headerCalls called = [] := by rw [← hcalled]; cases c.resultFn <;> rfl
  have hack : total Act.acknowledges called = 0 := by rw [← hcalled]; cases c.resultFn <;> rfl
  have hdisp : disposed called = [] := by rw [← hcalled]; cases c.resultFn <;> rfl
  have hfree : called.count .memFree = 0 := by rw [← hcalled]; cases c.resultFn <;> rfl
  have hclose : called.count .close = 0 := by rw [← hcalled]; cases c.resultFn <;> rfl
  have habort : .abort ∉ called := by rw [← hcalled]; cases c.resultFn <;> simp
  constructor
  · rfl
  · rw [handed_append, handed_append, hhanded, hfrees.handed, hacts.handed]
    rfl
  · rw [headerCalls_append, headerCalls_append, hheaders, hfrees.headerCalls, hacts.headerCalls]
    rfl
  · rw [results_append, results_append, hfrees.pending.results, hacts.results, ← hcalled]
    cases c.resultFn <;> rfl
  · rw [total_append, total_append, hack, hfrees.acknowledges, hacts.acknowledges]
  · rw [disposed_append, disposed_append, hdisp, disposed_pbufs, hacts.disposes,
      List.nil_append, List.append_nil]
  · rw [List.count_append, List.count_append, hfree, hfrees.pending.memFree, hacts.memFree]
  · rw [List.count_append, List.count_append, hclose, hfrees.pending.close, hacts.close,
      Nat.zero_add, Nat.zero_add]
  · rw [hacts.abort, List.mem_append, List.mem_append]
    exact ⟨fun h => .inr (.inr h), fun h => (h.resolve_left habort).resolve_left
      hfrees.pending.abort⟩

end Close

/-! ## Receiving -/

/-- What the last part of `httpc_tcp_recv` does with data: they are counted and handed over. -/
structure Receives (req : HttpcState) (p : Chain) (o : Outcome) : Prop where
  state : ∃ ticks, o.req = some { req with
    rxContentLen := (req.rxContentLen + p.totLen) % 2 ^ 32, timeoutTicks := ticks }
  pending : Pending o.acts
  handed : handed o.acts = p.flatten
  headerCalls : headerCalls o.acts = []
  acknowledges : total Act.acknowledges o.acts = 0
  disposes : disposed o.acts = p.flatten

section Receive

variable {L : Pbufs} {c : Settings} {req : HttpcState} {p : Chain} {a : Answers}

/-- A piece of the body goes to the callback. -/
theorem rxData_receives (req : HttpcState) (p : Chain) (a : Answers) (hc : c.recvFn)
    (hlen : req.rxContentLen < 2 ^ 32) :
    Receives req p (rxData c req p a) := by
  rw [rxData]
  by_cases hp : p = []
  · subst hp
    rw [if_neg (not_not_intro rfl)]
    refine ⟨⟨req.timeoutTicks, ?_⟩, .nil, rfl, rfl, rfl, rfl⟩
    show some req = some { req with rxContentLen := (req.rxContentLen + 0) % 2 ^ 32 }
    rw [Nat.add_zero, Nat.mod_eq_of_lt hlen]
  · rw [if_pos hp, if_pos hc]
    exact ⟨⟨_, rfl⟩, pending_of_quiet (by simp [Act.quiet]), List.append_nil _, rfl, rfl,
      List.append_nil _⟩

/-- The first line changes what has been read of it, and may end the wait for it. -/
structure ReadsLine (req req' : HttpcState) : Prop where
  pcb : req'.pcb = req.pcb
  request : req'.request = req.request
  rxHdrs : req'.rxHdrs = req.rxHdrs
  rxContentLen : req'.rxContentLen = req.rxContentLen
  timeoutTicks : req'.timeoutTicks = req.timeoutTicks
  waiting : req.parseState ≠ .rxData → req'.parseState ≠ .rxData

/-- Looking for the status line reads and consumes nothing else. -/
theorem firstLine_reads (L : Pbufs) (req : HttpcState) : ReadsLine req (firstLine L req) := by
  rw [firstLine]
  cases (httpParseResponseStatus L req.rxHdrs).status with
  | none => exact ⟨rfl, rfl, rfl, rfl, rfl, id⟩
  | some status => exact ⟨rfl, rfl, rfl, rfl, rfl, fun _ => ParseState.noConfusion⟩

/-- The state with the pieces of the headers so far, and with what the first line says -/
def gather (L : Pbufs) (req : HttpcState) (p : Chain) : HttpcState :=
  let req := { req with rxHdrs := if req.rxHdrs = [] then p else L.cat req.rxHdrs p }
  if req.parseState = .waitFirstLine then firstLine L req else req

/-- The chain is added behind what is held. -/
theorem gather_rxHdrs (hL : L.Documented) (req : HttpcState) (p : Chain) :
    (gather L req p).rxHdrs.flatten = req.rxHdrs.flatten ++ p.flatten := by
  have hcat : (if req.rxHdrs = [] then p else L.cat req.rxHdrs p).flatten =
      req.rxHdrs.flatten ++ p.flatten := by
    by_cases h : req.rxHdrs = []
    · rw [if_pos h, h]
      rfl
    · rw [if_neg h, hL.cat_eq, List.flatten_append]
  rw [gather, ← hcat]
  dsimp only
  split
  · rw [(firstLine_reads L _).rxHdrs]
  · rfl

/-- Looking for the end of the headers reads what is held and the new chain. -/
theorem gather_reads (L : Pbufs) (req : HttpcState) (p : Chain) :
    ReadsLine { req with rxHdrs := (gather L req p).rxHdrs } (gather L req p) := by
  rw [gather]
  dsimp only
  split
  · have h := firstLine_reads L
      { req with rxHdrs := if req.rxHdrs = [] then p else L.cat req.rxHdrs p }
    exact ⟨h.pcb, h.request, rfl, h.rxContentLen, h.timeoutTicks, h.waiting⟩
  · exact ⟨rfl, rfl, rfl, rfl, rfl, id⟩

/-- The state from which the body is received -/
def HttpcState.body (req : HttpcState) : HttpcState :=
  { req with
    hdrContentLen := (declared req.rxHdrs.flatten).getD httpcContentLenInvalid
    rxHdrs := []
    parseState := .rxData }

/-- The end of the headers: not there yet, or refused by the application, or the beginning of the
body. -/
theorem headers_cases (hL : L.Documented) (hp : req.rxHdrs.totLen ≤ 0xFFFF) :
    (find crlfCrlf req.rxHdrs.flatten 0 = none ∧ headers L c req a = ⟨some req, .ok, []⟩) ∨
    ∃ e, find crlfCrlf req.rxHdrs.flatten 0 = some e ∧
      let len := (declared req.rxHdrs.flatten).getD httpcContentLenInvalid
      let called := if c.headersDoneFn then [.headersDone req.rxHdrs (e + 4) len] else []
      ((c.headersDoneFn ∧ a.headersDone ≠ .ok) ∧ headers L c req a =
          (httpcClose c { req with hdrContentLen := len } .localAbort req.rxStatus
            a.headersDone a).after ([.recved (e + 4)] ++ called) ∨
        ¬ (c.headersDoneFn ∧ a.headersDone ≠ .ok) ∧ headers L c req a =
          (rxData c req.body (L.freeHeader req.rxHdrs (e + 4)) a).after
            ([.recved (e + 4)] ++ called ++ [.pbufFreeHeader req.rxHdrs (e + 4)])) := by
  cases hfind : find crlfCrlf req.rxHdrs.flatten 0 with
  | none =>
    refine .inl ⟨rfl, ?_⟩
    rw [headers, httpWaitHeaders_none hL hp hfind]
  | some e =>
    refine .inr ⟨e, rfl, ?_⟩
    rw [headers, httpWaitHeaders_some hL hp hfind]
    by_cases hrefused : c.headersDoneFn ∧ a.headersDone ≠ .ok
    · exact .inl ⟨hrefused, if_pos hrefused⟩
    · exact .inr ⟨hrefused, if_neg hrefused⟩

/-- What `httpc_tcp_recv` does with received bytes -/
theorem httpcTcpRecv_cases (L : Pbufs) (c : Settings) (req : HttpcState) (a : Answers)
    (hp : p ≠ []) :
    req.parseState = .rxData ∧ httpcTcpRecv L c req p a = rxData c req p a ∨
    req.parseState ≠ .rxData ∧
      ((gather L req p).parseState = .waitHeaders ∧
          httpcTcpRecv L c req p a = headers L c (gather L req p) a ∨
        (gather L req p).parseState ≠ .waitHeaders ∧
          httpcTcpRecv L c req p a = ⟨some (gather L req p), .ok, []⟩) := by
  rw [httpcTcpRecv, if_neg hp]
  by_cases hdata : req.parseState = .rxData
  · rw [if_neg (not_not_intro hdata)]
    exact .inl ⟨hdata, rfl⟩
  · rw [if_pos hdata]
    refine .inr ⟨hdata, ?_⟩
    by_cases hwait : (gather L req p).parseState = .waitHeaders
    · exact .inl ⟨hwait, if_pos hwait⟩
    · exact .inr ⟨hwait, if_neg hwait⟩

end Receive

end PicoHost.Http
