import PicoHost.Http.Calls

/-!
# The life of a request

What every callback keeps, whatever the server sends and in whatever pieces: the bytes that are
received are held for the headers, or acknowledged as headers, or handed to `recv_fn`; and the
state, its pbufs and the connection are disposed of once, together with the one call of
`result_fn`.
-/

namespace PicoHost.Http

open Ota (Chunk HttpcResult)
open Find (At find)

/-! ## The invariant -/

/-- What has been received so far, and whether TCP has reported an error -/
structure History where
  received : List UInt8
  lost : Bool

def Event.received : Event → List UInt8
  | .recv p => p.flatten
  | _ => []

def Event.isErr : Event → Bool
  | .err _ => true
  | _ => false

def History.next (h : History) (i : Event × Answers) : History :=
  ⟨h.received ++ i.1.received, h.lost || i.1.isErr⟩

def history (is : List (Event × Answers)) : History := is.foldl History.next ⟨[], false⟩

/-- Before the end of the headers: all that has been received is held. -/
structure Waiting (u : List UInt8) (req : HttpcState) (acts : List Act) : Prop where
  rxHdrs : req.rxHdrs.flatten = u
  handed : handed acts = []
  rxContentLen : req.rxContentLen = 0
  headerCalls : headerCalls acts = []
  acknowledges : total Act.acknowledges acts = 0

/-- After the headers, which end with the first empty line, at `e`: what follows it has been
handed over. -/
structure InBody (u : List UInt8) (req : HttpcState) (acts : List Act) (e : Nat) : Prop where
  found : find crlfCrlf u 0 = some e
  rxHdrs : req.rxHdrs = []
  handed : handed acts = u.drop (e + 4)
  rxContentLen : req.rxContentLen = (u.length - (e + 4)) % 2 ^ 32
  acknowledges : total Act.acknowledges acts = e + 4

/-- A request under way. What was disposed of and what is held are the bytes of the request and
those received, each once. -/
structure Alive (request : List UInt8) (h : History) (req : HttpcState) (acts : List Act) : Prop where
  pending : Pending acts
  pcb : req.pcb = true
  lost : h.lost = false
  disposes : (disposed acts ++ req.held).Perm (request ++ h.received)
  waiting : req.parseState ≠ .rxData → Waiting h.received req acts
  body : req.parseState = .rxData → ∃ e, InBody h.received req acts e

/-- Nothing has been handed over, or all that follows the first empty line. -/
def HandedBody (u : List UInt8) (acts : List Act) : Prop :=
  handed acts = [] ∨ ∃ e, find crlfCrlf u 0 = some e ∧ handed acts = u.drop (e + 4)

/-- A request that is over -/
structure Over (c : Settings) (request : List UInt8) (h : History) (ret : Err) (acts : List Act) :
    Prop where
  handed : HandedBody h.received acts
  results : (results acts).length = if c.resultFn then 1 else 0
  memFree : acts.count .memFree = 1
  close : acts.count .close = if h.lost then 0 else 1
  abort : ret = .abrt ↔ .abort ∈ acts
  disposes : (disposed acts).Perm (request ++ h.received)

def Inv (c : Settings) (request : List UInt8) (h : History) (s : Conn) : Prop :=
  match s.req with
  | some req => Alive request h req s.acts
  | none => Over c request h s.ret s.acts

section Steps

variable {L : Pbufs} {c : Settings} {request : List UInt8} {h : History} {req : HttpcState}
  {acts : List Act} {a : Answers}

/-- Bytes that are disposed of behind others that are held -/
theorem moved_perm {l held moved : List UInt8} :
    (l ++ moved ++ held).Perm (l ++ held ++ moved) := by
  rw [List.append_assoc, List.append_assoc]
  exact List.perm_append_comm.append_left l

/-- The end of a request, after what has been called before -/
theorem Closes.over {result : HttpcResult} {srvRes : Nat} {err : Err} {o : Outcome}
    (ho : Closes c req result srvRes err o) (hacts : Pending acts) (hlost : req.pcb = !h.lost)
    (hbody : HandedBody h.received acts)
    (hdisposes : (disposed acts ++ req.held).Perm (request ++ h.received)) :
    Over c request h o.ret (acts ++ o.acts) where
  handed := by
    rw [HandedBody, handed_append, ho.handed, List.append_nil]
    exact hbody
  results := by
    rw [results_append, hacts.results, ho.results]
    cases c.resultFn <;> rfl
  memFree := by rw [List.count_append, hacts.memFree, ho.memFree]
  close := by
    rw [List.count_append, hacts.close, ho.close, hlost]
    cases h.lost <;> rfl
  abort := by
    rw [ho.abort, List.mem_append]
    exact ⟨.inr, fun hmem => hmem.resolve_left hacts.abort⟩
  disposes := by
    rw [disposed_append, ho.disposes]
    exact hdisposes

/-- While the request lives, what was handed over is the body so far. -/
theorem Alive.handedBody (hreq : Alive request h req acts) : HandedBody h.received acts := by
  by_cases hstate : req.parseState = .rxData
  · obtain ⟨e, he⟩ := hreq.body hstate
    exact .inr ⟨e, he.found, he.handed⟩
  · exact .inl (hreq.waiting hstate).handed

/-- More of the body -/
theorem InBody.receives {u : List UInt8} {e : Nat} {p : Chain} {o : Outcome}
    (hbody : InBody u req acts e) (ho : Receives req p o) :
    ∃ req', o.req = some req' ∧ req'.parseState = req.parseState ∧
      req'.hdrContentLen = req.hdrContentLen ∧ req'.rxStatus = req.rxStatus ∧
      req'.pcb = req.pcb ∧ req'.held = req.held ∧
      InBody (u ++ p.flatten) req' (acts ++ o.acts) e := by
  obtain ⟨ticks, hstate⟩ := ho.state
  have hle := Find.find_le_length crlfCrlf_ne_nil hbody.found
  have hfour : crlfCrlf.length = 4 := rfl
  refine ⟨_, hstate, rfl, rfl, rfl, rfl, rfl, ?_⟩
  constructor
  · exact Find.find_append_of_some crlfCrlf_ne_nil hbody.found _
  · exact hbody.rxHdrs
  · rw [handed_append, hbody.handed, ho.handed, List.drop_append_of_le_length (by omega)]
  · show (req.rxContentLen + p.totLen) % 2 ^ 32 = _
    rw [hbody.rxContentLen, Nat.mod_add_mod, List.length_append, Chain.totLen]
    congr 1
    omega
  · rw [total_append, hbody.acknowledges, ho.acknowledges]

/-- Pieces of the headers -/
theorem Waiting.gather {u : List UInt8} {p : Chain} (hL : L.Documented)
    (hwait : Waiting u req acts) : Waiting (u ++ p.flatten) (gather L req p) acts where
  rxHdrs := by rw [gather_rxHdrs hL, hwait.rxHdrs]
  handed := hwait.handed
  rxContentLen := (gather_reads L req p).rxContentLen.trans hwait.rxContentLen
  headerCalls := hwait.headerCalls
  acknowledges := hwait.acknowledges

/-- A chain that is added to the headers is held. -/
theorem gather_held (hL : L.Documented) (p : Chain) :
    (gather L req p).held = req.held ++ p.flatten := by
  have hrequest : (gather L req p).request = req.request := (gather_reads L req p).request
  rw [HttpcState.held, HttpcState.held, hrequest, gather_rxHdrs hL, List.append_assoc]

/-- The calls at the end of the headers -/
theorem pending_headers (b : Bool) (hdr : Chain) (n len : Nat) :
    Pending ([.recved n] ++ if b then [.headersDone hdr n len] else []) := by
  cases b <;> exact pending_of_quiet (by simp [Act.quiet])

/-- Headers that are complete, or not yet, keep the invariant. -/
theorem headers_inv (hL : L.Documented) (hc : c.recvFn) (hp : req.rxHdrs.totLen ≤ 0xFFFF)
    (hstate : req.parseState ≠ .rxData) (hreq : Alive request h req acts) :
    Inv c request h ⟨(headers L c req a).req, (headers L c req a).ret,
      acts ++ (headers L c req a).acts⟩ := by
  have hwait := hreq.waiting hstate
  rcases headers_cases (c := c) (a := a) hL hp with
    ⟨-, heq⟩ | ⟨e, hfound, ⟨-, heq⟩ | ⟨-, heq⟩⟩
  · -- not there yet
    rw [heq]
    show Alive request h req (acts ++ [])
    rw [List.append_nil]
    exact hreq
  · -- refused by the application
    rw [heq]
    have hclose := httpcClose_closes c { req with
      hdrContentLen := (declared req.rxHdrs.flatten).getD httpcContentLenInvalid }
      .localAbort req.rxStatus a.headersDone a
    have hpre := pending_headers c.headersDoneFn req.rxHdrs (e + 4)
      ((declared req.rxHdrs.flatten).getD httpcContentLenInvalid)
    have hnone := hclose.freed
    rw [Inv, Outcome.after, ← List.append_assoc, hnone]
    refine hclose.over (hreq.pending.append hpre) ?_ (.inl ?_) ?_
    · rw [hreq.lost]
      exact hreq.pcb
    · rw [handed_append, hwait.handed]
      cases c.headersDoneFn <;> rfl
    · have hnone : disposed ([.recved (e + 4)] ++
          if c.headersDoneFn then [.headersDone req.rxHdrs (e + 4)
            ((declared req.rxHdrs.flatten).getD httpcContentLenInvalid)] else []) = [] := by
        cases c.headersDoneFn <;> rfl
      rw [disposed_append, hnone, List.append_nil]
      exact hreq.disposes
  · -- the beginning of the body
    rw [heq]
    generalize hpre : ([.recved (e + 4)] ++ (if c.headersDoneFn then [.headersDone req.rxHdrs (e + 4)
        ((declared req.rxHdrs.flatten).getD httpcContentLenInvalid)] else []) ++
        [.pbufFreeHeader req.rxHdrs (e + 4)] : List Act) = pre
    have hpending : Pending pre := by
      rw [← hpre]
      exact (pending_headers _ _ _ _).append (pending_of_quiet (by simp [Act.quiet]))
    have hhanded : handed pre = [] := by
      rw [← hpre]
      cases c.headersDoneFn <;> rfl
    have hack : total Act.acknowledges pre = e + 4 := by
      rw [← hpre]
      cases c.headersDoneFn <;> rfl
    have hdisp : disposed pre = req.rxHdrs.flatten.take (e + 4) := by
      rw [← hpre]
      cases c.headersDoneFn <;> exact List.append_nil _
    have hrx := rxData_receives req.body (L.freeHeader req.rxHdrs (e + 4)) a hc (by
        show req.rxContentLen < 2 ^ 32
        rw [hwait.rxContentLen]
        decide)
    have hle := Find.find_le_length crlfCrlf_ne_nil hfound
    have hfour : crlfCrlf.length = 4 := rfl
    rw [hwait.rxHdrs] at hfound hle
    have hbody : InBody (h.received.take (e + 4)) req.body (acts ++ pre) e := by
      constructor
      · refine Find.find_of_append (m := h.received.drop (e + 4)) crlfCrlf_ne_nil ?_ ?_
        · rwa [List.take_append_drop]
        · rw [List.length_take]
          omega
      · rfl
      · rw [handed_append, hwait.handed, hhanded, List.drop_take, Nat.sub_self]
        rfl
      · show req.rxContentLen = _
        rw [hwait.rxContentLen, List.length_take]
        omega
      · rw [total_append, hwait.acknowledges, hack, Nat.zero_add]
    obtain ⟨req', hreq', hstate', -, -, hpcb, hheld, hbody'⟩ := hbody.receives hrx
    rw [hL.freeHeader_eq, hwait.rxHdrs, List.take_append_drop] at hbody'
    rw [Inv, Outcome.after, ← List.append_assoc, hreq']
    refine ⟨(hreq.pending.append hpending).append hrx.pending, ?_, hreq.lost, ?_, ?_, ?_⟩
    · rw [hpcb]
      exact hreq.pcb
    · -- the header bytes are freed, what follows them is handed over
      have hnone : req.body.held = req.request.getD [] := List.append_nil _
      have hdone : disposed (acts ++ pre ++
          (rxData c req.body (L.freeHeader req.rxHdrs (e + 4)) a).acts) =
          disposed acts ++ req.rxHdrs.flatten := by
        rw [disposed_append, disposed_append, hdisp, hrx.disposes, hL.freeHeader_eq,
          List.append_assoc, List.take_append_drop]
      rw [hdone, hheld, hnone]
      have hsame := hreq.disposes
      rw [HttpcState.held, ← List.append_assoc] at hsame
      exact moved_perm.trans hsame
    · intro hne
      exact absurd hstate' hne
    · exact fun _ => ⟨e, hbody'⟩

/-- What `httpc_tcp_recv` keeps when there is something to receive -/
theorem recv_inv (hL : L.Documented) (hc : c.recvFn) {p : Chain} (hp : p ≠ [])
    (hfits : req.rxHdrs.totLen + p.totLen ≤ 0xFFFF) (hreq : Alive request h req acts) :
    Inv c request ⟨h.received ++ p.flatten, h.lost⟩
      ⟨(httpcTcpRecv L c req p a).req, (httpcTcpRecv L c req p a).ret,
        acts ++ (httpcTcpRecv L c req p a).acts⟩ := by
  have hdisposes := hreq.disposes
  rcases httpcTcpRecv_cases L c req a hp with
    ⟨hstate, heq⟩ | ⟨hstate, hcases⟩
  · -- data
    obtain ⟨e, hbody⟩ := hreq.body hstate
    have hrx := rxData_receives req p a hc (by
      rw [hbody.rxContentLen]
      exact Nat.mod_lt _ (by decide))
    obtain ⟨req', hreq', hstate', -, -, hpcb, hheld, hbody'⟩ := hbody.receives hrx
    rw [heq, Inv, hreq']
    refine ⟨hreq.pending.append hrx.pending, ?_, hreq.lost, ?_, ?_, fun _ => ⟨e, hbody'⟩⟩
    · rw [hpcb]
      exact hreq.pcb
    · show List.Perm _ (request ++ (h.received ++ p.flatten))
      rw [disposed_append, hrx.disposes, hheld, ← List.append_assoc request]
      exact moved_perm.trans (hdisposes.append_right _)
    · intro hne
      exact absurd (hstate'.trans hstate) hne
  · -- headers
    have hreads := gather_reads L req p
    have hstate' : (gather L req p).parseState ≠ .rxData := hreads.waiting hstate
    have hgather : Alive request ⟨h.received ++ p.flatten, h.lost⟩ (gather L req p) acts := by
      refine ⟨hreq.pending, hreads.pcb.trans hreq.pcb, hreq.lost, ?_, ?_, ?_⟩
      · show List.Perm _ (request ++ (h.received ++ p.flatten))
        rw [gather_held hL, ← List.append_assoc, ← List.append_assoc request]
        exact hdisposes.append_right _
      · exact fun _ => (hreq.waiting hstate).gather hL
      · exact fun hdata => absurd hdata hstate'
    rcases hcases with ⟨-, heq⟩ | ⟨-, heq⟩
    · rw [heq]
      refine headers_inv hL hc ?_ hstate' hgather
      rw [Chain.totLen, gather_rxHdrs hL, List.length_append]
      exact hfits
    · rw [heq]
      show Alive request _ (gather L req p) (acts ++ [])
      rw [List.append_nil]
      exact hgather

/-- Closing a request under way -/
theorem close_inv {result : HttpcResult} {srvRes : Nat} {err : Err} {req' : HttpcState}
    {lost : Bool} (hreq : Alive request h req acts) (hheld : req'.held = req.held)
    (hlost : req'.pcb = !lost) :
    Inv c request ⟨h.received, lost⟩ ⟨(httpcClose c req' result srvRes err a).req,
      (httpcClose c req' result srvRes err a).ret,
      acts ++ (httpcClose c req' result srvRes err a).acts⟩ := by
  have hclose := httpcClose_closes c req' result srvRes err a
  rw [Inv, hclose.freed]
  refine hclose.over hreq.pending hlost hreq.handedBody ?_
  rw [hheld]
  exact hreq.disposes

/-- Calls that neither deliver nor acknowledge anything leave the request under way. -/
theorem Alive.keeps {req' : HttpcState} {acts' : List Act} (hreq : Alive request h req acts)
    (hacts : Pending acts') (hhanded : handed acts' = []) (hcalls : headerCalls acts' = [])
    (hack : total Act.acknowledges acts' = 0)
    (hdisposes : disposed acts' ++ req'.held = req.held)
    (hpcb : req'.pcb = req.pcb) (hhdrs : req'.rxHdrs = req.rxHdrs)
    (hlen : req'.rxContentLen = req.rxContentLen) (hstate : req'.parseState = req.parseState) :
    Alive request h req' (acts ++ acts') where
  pending := hreq.pending.append hacts
  pcb := hpcb.trans hreq.pcb
  lost := hreq.lost
  disposes := by
    rw [disposed_append, List.append_assoc, hdisposes]
    exact hreq.disposes
  waiting hne := by
    have hwait := hreq.waiting (hstate ▸ hne)
    refine ⟨?_, ?_, hlen.trans hwait.rxContentLen, ?_, ?_⟩
    · rw [hhdrs, hwait.rxHdrs]
    · rw [handed_append, hwait.handed, hhanded]
      rfl
    · rw [headerCalls_append, hwait.headerCalls, hcalls]
      rfl
    · rw [total_append, hwait.acknowledges, hack]
  body hdata := by
    obtain ⟨e, hbody⟩ := hreq.body (hstate ▸ hdata)
    refine ⟨e, hbody.found, hhdrs.trans hbody.rxHdrs, ?_, hlen.trans hbody.rxContentLen, ?_⟩
    · rw [handed_append, hhanded, List.append_nil, hbody.handed]
    · rw [total_append, hack, Nat.add_zero, hbody.acknowledges]

end Steps

/-! ## Runs -/

/-- The pbufs of the headers that a request holds -/
def Conn.heldHdrs (s : Conn) : Nat := (s.req.map fun req => req.rxHdrs.totLen).getD 0

/-- What is held unacknowledged, with what is received now, fits in `tot_len`, as it does in the
receive window. -/
def Conn.Fits (s : Conn) (i : Event × Answers) : Prop :=
  s.heldHdrs + i.1.received.length ≤ 0xFFFF

instance (s : Conn) (i : Event × Answers) : Decidable (s.Fits i) :=
  inferInstanceAs (Decidable (_ ≤ _))

section Runs

variable {L : Pbufs} {c : Settings} {request : List UInt8}

/-- A step is the callback of its event. -/
theorem step_eq {s s' : Conn} {i : Event × Answers} (h : Conn.step L c s i = some s') :
    ∃ req o, s.req = some req ∧ callback L c req i.1 i.2 = some o ∧
      s' = ⟨o.req, o.ret, s.acts ++ o.acts⟩ := by
  obtain ⟨req, hreq, h⟩ := Option.bind_eq_some_iff.mp h
  obtain ⟨o, ho, rfl⟩ := Option.map_eq_some_iff.mp h
  exact ⟨req, o, hreq, ho, rfl⟩

/-- Every event keeps the invariant. -/
theorem step_inv (hL : L.Documented) (hc : c.recvFn) (h : History) (s : Conn)
    (i : Event × Answers) (s' : Conn) (hfits : s.Fits i) (hstep : Conn.step L c s i = some s')
    (hs : Inv c request h s) : Inv c request (h.next i) s' := by
  obtain ⟨req, o, hreq, ho, rfl⟩ := step_eq hstep
  rw [Inv, hreq] at hs
  rw [Conn.Fits, Conn.heldHdrs, hreq] at hfits
  obtain ⟨e, a⟩ := i
  rw [History.next]
  have hsame : h.received ++ [] = h.received := List.append_nil _
  cases e with
  | recv p =>
    cases ho
    rw [show (h.lost || Event.isErr (.recv p)) = h.lost from Bool.or_false _]
    by_cases hp : p = []
    · subst hp
      show Inv c request ⟨h.received ++ [], h.lost⟩ _
      rw [hsame, httpcTcpRecv, if_pos rfl]
      refine close_inv hs rfl ?_
      rw [hs.lost]
      exact hs.pcb
    · exact recv_inv hL hc hp hfits hs
  | err err =>
    cases ho
    show Inv c request ⟨h.received ++ [], h.lost || true⟩ _
    rw [hsame, Bool.or_true]
    exact close_inv hs rfl rfl
  | poll =>
    cases ho
    show Inv c request ⟨h.received ++ [], h.lost || false⟩ _
    rw [hsame, Bool.or_false]
    dsimp only
    rw [httpcTcpPoll]
    split
    · refine close_inv hs rfl ?_
      rw [hs.lost]
      exact hs.pcb
    · exact hs.keeps .nil rfl rfl rfl rfl rfl rfl rfl rfl
  | sent len =>
    cases ho
    show Inv c request ⟨h.received ++ [], h.lost || false⟩ _
    rw [hsame, Bool.or_false]
    exact hs.keeps .nil rfl rfl rfl rfl rfl rfl rfl rfl
  | connected err =>
    obtain ⟨payload, hpayload, rfl⟩ := Option.map_eq_some_iff.mp ho
    show Inv c request ⟨h.received ++ [], h.lost || false⟩ _
    rw [hsame, Bool.or_false]
    dsimp only
    rw [httpcTcpConnected]
    split
    · -- the request could not be written
      have hwritten : Alive request h req (s.acts ++ [.write payload.dropLast]) :=
        hs.keeps (pending_of_quiet (by simp [Act.quiet])) rfl rfl rfl rfl rfl rfl
          rfl rfl
      rw [Outcome.after, ← List.append_assoc]
      refine close_inv hwritten rfl ?_
      rw [hs.lost]
      exact hs.pcb
    · refine hs.keeps (pending_of_quiet (by simp [Act.quiet])) rfl rfl rfl ?_ rfl rfl rfl rfl
      simp [disposed, Act.disposes, HttpcState.held, hpayload]

/-- A started request satisfies the invariant. -/
theorem started_inv (request : List UInt8) :
    Inv c request ⟨[], false⟩ (.started request) where
  pending := .nil
  pcb := rfl
  lost := rfl
  disposes := .refl _
  waiting _ := ⟨rfl, rfl, rfl, rfl, rfl⟩
  body h := by cases h

/-- Every run keeps the invariant. -/
theorem run_inv (hL : L.Documented) (hc : c.recvFn) {request : List UInt8}
    {is : List (Event × Answers)} {s : Conn}
    (h : Machine.exec (Conn.step L c) (.started request) is = some s)
    (hfits : Machine.Along (Conn.step L c) Conn.Fits (.started request) is) :
    Inv c request (history is) s :=
  Machine.exec_fold_along (step_inv hL hc) h hfits (started_inv request)

/-- Whatever the server sends, in whatever pieces: `recv_fn` gets what follows the first empty
line, in order, each byte once, or nothing. Until the headers are complete all bytes are held and
none is acknowledged; from then on the headers are acknowledged and none is held. -/
theorem handed_after_headers (hL : L.Documented) (hc : c.recvFn) {request : List UInt8}
    {is : List (Event × Answers)} {s : Conn}
    (h : Machine.exec (Conn.step L c) (.started request) is = some s)
    (hfits : Machine.Along (Conn.step L c) Conn.Fits (.started request) is) :
    HandedBody (history is).received s.acts ∧ ∀ req, s.req = some req →
      (req.rxHdrs.flatten = (history is).received ∧ handed s.acts = [] ∧
        total Act.acknowledges s.acts = 0) ∨
      ∃ e, find crlfCrlf (history is).received 0 = some e ∧ req.rxHdrs = [] ∧
        handed s.acts = (history is).received.drop (e + 4) ∧
        total Act.acknowledges s.acts = e + 4 := by
  have hinv := run_inv hL hc h hfits
  rw [Inv] at hinv
  constructor
  · cases hreq : s.req with
    | none =>
      rw [hreq] at hinv
      exact hinv.handed
    | some req =>
      rw [hreq] at hinv
      exact hinv.handedBody
  · intro req hreq
    rw [hreq] at hinv
    by_cases hstate : req.parseState = .rxData
    · obtain ⟨e, hbody⟩ := hinv.body hstate
      exact .inr ⟨e, hbody.found, hbody.rxHdrs, hbody.handed, hbody.acknowledges⟩
    · have hwait := hinv.waiting hstate
      exact .inl ⟨hwait.rxHdrs, hwait.handed, hwait.acknowledges⟩

/-- All functions are set, and all that is called succeeds. -/
def allSet : Settings := ⟨true, true, true⟩

def allOk : Answers := ⟨.ok, .ok, .ok, .ok⟩

/-- Three pieces, the second of which has the end of the headers, with a poll in between, and the
end of the connection -/
def piecesRun : List (Event × Answers) :=
  [(.connected .ok, allOk),
    (.recv [text ['H', 'T', 'T', 'P', '/', '1', '.', '1', ' ', '2', '0', '0', ' ', 'O']], allOk),
    (.poll, allOk),
    (.recv [text ['K', '\r', '\n'], text ['\r', '\n', 'h', 'e']], allOk),
    (.recv [text ['y']], allOk)]

/-- The run of `piecesRun`, in which the headers arrive in pieces -/
theorem handed_after_headers_pieces :
    ∃ s, Machine.exec (Conn.step .simple allSet) (.started [71, 0]) piecesRun = some s ∧
      HandedBody (history piecesRun).received s.acts ∧ ∀ req, s.req = some req →
        (req.rxHdrs.flatten = (history piecesRun).received ∧ handed s.acts = [] ∧
          total Act.acknowledges s.acts = 0) ∨
        ∃ e, find crlfCrlf (history piecesRun).received 0 = some e ∧ req.rxHdrs = [] ∧
          handed s.acts = (history piecesRun).received.drop (e + 4) ∧
          total Act.acknowledges s.acts = e + 4 := by
  obtain ⟨s, hs⟩ := Option.isSome_iff_exists.mp (show
    (Machine.exec (Conn.step .simple allSet) (.started [71, 0]) piecesRun).isSome by
      decide +kernel)
  exact ⟨s, hs, handed_after_headers Pbufs.simple_documented rfl hs (by decide +kernel)⟩

/-- A request reports its result and gives up its state when it is over and not before: once, with
the connection closed unless TCP has lost it. The bytes of its pbufs, the request's own and the
received ones, are then freed or given to the application, each once; while it lives, they are
that or still held. -/
theorem disposed_once (hL : L.Documented) (hc : c.recvFn) {request : List UInt8}
    {is : List (Event × Answers)} {s : Conn}
    (h : Machine.exec (Conn.step L c) (.started request) is = some s)
    (hfits : Machine.Along (Conn.step L c) Conn.Fits (.started request) is) :
    match s.req with
    | some req =>
      results s.acts = [] ∧ s.acts.count .memFree = 0 ∧ s.acts.count .close = 0 ∧
        (disposed s.acts ++ req.held).Perm (request ++ (history is).received)
    | none =>
      (results s.acts).length = (if c.resultFn then 1 else 0) ∧ s.acts.count .memFree = 1 ∧
        s.acts.count .close = (if (history is).lost then 0 else 1) ∧
        (s.ret = .abrt ↔ .abort ∈ s.acts) ∧
        (disposed s.acts).Perm (request ++ (history is).received) := by
  have hinv := run_inv hL hc h hfits
  rw [Inv] at hinv
  cases hreq : s.req with
  | none =>
    rw [hreq] at hinv
    exact ⟨hinv.results, hinv.memFree, hinv.close, hinv.abort, hinv.disposes⟩
  | some req =>
    rw [hreq] at hinv
    exact ⟨hinv.pending.results, hinv.pending.memFree, hinv.pending.close, hinv.disposes⟩

/-- The same, closed by the server -/
def closedRun : List (Event × Answers) := piecesRun ++ [(.recv [], allOk)]

/-- The run of `closedRun`, which the server closes -/
theorem disposed_once_closed :
    ∃ s, Machine.exec (Conn.step .simple allSet) (.started [71, 0]) closedRun = some s ∧
      s.req = none ∧ (results s.acts).length = 1 ∧ s.acts.count .memFree = 1 ∧
        s.acts.count .close = 1 ∧ (s.ret = .abrt ↔ .abort ∈ s.acts) ∧
        (disposed s.acts).Perm ([71, 0] ++ (history closedRun).received) := by
  obtain ⟨s, hs⟩ := Option.isSome_iff_exists.mp (show
    (Machine.exec (Conn.step .simple allSet) (.started [71, 0]) closedRun).isSome by
      decide +kernel)
  have hover : (Machine.exec (Conn.step .simple allSet) (.started [71, 0]) closedRun).map
    (fun s => s.req.isNone) = some true := by decide +kernel
  rw [hs] at hover
  have hreq : s.req = none := Option.isNone_iff_eq_none.mp (Option.some.inj hover)
  have honce := disposed_once Pbufs.simple_documented rfl hs (by decide +kernel)
  rw [hreq] at honce
  exact ⟨s, hs, hreq, honce⟩

end Runs

end PicoHost.Http
