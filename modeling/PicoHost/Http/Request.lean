import PicoHost.Http.Start

/-!
# A request from its start to its end

Whatever fails at the start, and whatever the server does: what a request acquires it gives back
once, and its result is reported once if its start has succeeded (`life_balanced`). What it sends
is one request, of which the server sees the end (`request_sent`).
-/

namespace PicoHost.Http

open Ota (Chunk HttpcResult)
open Find (At find)
open Response (lines)

/-! ## What is sent -/

/-- What has been written to the connection -/
def sent (acts : List Act) : List (List UInt8) :=
  acts.filterMap fun
    | .write dataptr => some dataptr
    | _ => none

@[simp] theorem sent_append (acts acts' : List Act) : sent (acts ++ acts') = sent acts ++ sent acts' :=
  List.filterMap_append

/-- Nothing is sent, and the request stays where it is. -/
structure Mute (req : HttpcState) (o : Outcome) : Prop where
  sent : sent o.acts = []
  request : ∀ req', o.req = some req' → req'.request = req.request

section Sending

variable {L : Pbufs} {c : Settings} {req : HttpcState} {a : Answers}

/-- Acts that send nothing may come before a mute outcome. -/
theorem Mute.after {acts : List Act} {o : Outcome} (h : Mute req o) (hacts : Http.sent acts = []) :
    Mute req (o.after acts) where
  sent := by
    show Http.sent (acts ++ o.acts) = []
    rw [sent_append, hacts, h.sent]
    rfl
  request := h.request

/-- Freeing pbufs sends nothing. -/
theorem sent_of_onlyFrees {acts : List Act} (h : ∀ act ∈ acts, ∃ p, act = .pbufFree p) :
    sent acts = [] := by
  refine List.filterMap_eq_nil_iff.mpr fun act hact => ?_
  obtain ⟨p, rfl⟩ := h act hact
  rfl

/-- `httpc_free_state` sends nothing. -/
theorem httpcFreeState_mute (req req' : HttpcState) (a : Answers) :
    Mute req' (httpcFreeState req a) := by
  have hsent : ∀ acts, sent (req.pbufs ++ acts) = sent acts := by
    intro acts
    rw [sent_append, sent_of_onlyFrees fun _ => mem_pbufs req]
    rfl
  rw [httpcFreeState]
  simp only [List.append_assoc]
  split
  · split
    · refine ⟨?_, fun _ h => by cases h⟩
      rw [← List.append_assoc]
      exact hsent [.memFree, .close, .abort]
    · refine ⟨?_, fun _ h => by cases h⟩
      rw [← List.append_assoc]
      exact hsent [.memFree, .close]
  · refine ⟨?_, fun _ h => by cases h⟩
    rw [← List.append_assoc]
    exact hsent [.memFree]

/-- `httpc_close` sends nothing. -/
theorem httpcClose_mute (c : Settings) (req req' : HttpcState) (result : HttpcResult) (srvRes : Nat)
    (err : Err) (a : Answers) : Mute req' (httpcClose c req result srvRes err a) :=
  (httpcFreeState_mute req req' a).after (by cases c.resultFn <;> rfl)

/-- Data are handed over or thrown away. -/
theorem rxData_mute (req : HttpcState) (p : Chain) (a : Answers) :
    Mute req (rxData c req p a) := by
  have hkeep : ∀ {req' : HttpcState}, req'.request = req.request →
      ∀ req'', some req' = some req'' → req''.request = req.request := by
    intro req' h req'' heq
    cases heq
    exact h
  rw [rxData]
  split
  · split <;> exact ⟨rfl, hkeep rfl⟩
  · exact ⟨rfl, hkeep rfl⟩

/-- What lwIP calls back with once the connection is there is answered without a word. -/
theorem httpcTcpRecv_mute (hL : L.Documented) (p : Chain)
    (hp : req.rxHdrs.totLen + p.totLen ≤ 0xFFFF) :
    Mute req (httpcTcpRecv L c req p a) := by
  by_cases hempty : p = []
  · rw [httpcTcpRecv, if_pos hempty]
    exact httpcClose_mute ..
  rcases httpcTcpRecv_cases L c req a hempty with ⟨-, heq⟩ | ⟨-, hcases⟩
  · rw [heq]
    exact rxData_mute ..
  · have hrequest : (gather L req p).request = req.request := (gather_reads L req p).request
    rcases hcases with ⟨-, heq⟩ | ⟨-, heq⟩
    · have hlen : (gather L req p).rxHdrs.totLen ≤ 0xFFFF := by
        rw [Chain.totLen, gather_rxHdrs hL, List.length_append]
        exact hp
      rw [heq]
      rcases headers_cases (c := c) (a := a) hL hlen with
        ⟨-, hheaders⟩ | ⟨e, -, ⟨-, hheaders⟩ | ⟨-, hheaders⟩⟩
      · rw [hheaders]
        refine ⟨rfl, ?_⟩
        rintro _ ⟨⟩
        exact hrequest
      · rw [hheaders]
        refine (httpcClose_mute ..).after ?_
        cases c.headersDoneFn <;> rfl
      · rw [hheaders]
        have hmute := rxData_mute (c := c) (gather L req p).body
          (L.freeHeader (gather L req p).rxHdrs (e + 4)) a
        refine Mute.after ⟨hmute.sent, fun req' h => (hmute.request req' h).trans hrequest⟩ ?_
        cases c.headersDoneFn <;> rfl
    · rw [heq]
      refine ⟨rfl, ?_⟩
      rintro _ ⟨⟩
      exact hrequest

/-- The request waits, or it has been sent, all but the byte at its end. -/
def Sends (payload : List UInt8) (s : Conn) : Prop :=
  match s.req with
  | some req => req.request = some payload ∧ sent s.acts = [] ∨
    req.request = none ∧ sent s.acts = [payload.dropLast]
  | none => sent s.acts = [] ∨ sent s.acts = [payload.dropLast]

/-- A mute callback keeps the request where it is: waiting, or sent. -/
theorem Mute.sends {payload : List UInt8} {s : Conn} {o : Outcome} (hreq : s.req = some req)
    (h : Mute req o) (hs : Sends payload s) : Sends payload ⟨o.req, o.ret, s.acts ++ o.acts⟩ := by
  have hsent : Http.sent (s.acts ++ o.acts) = Http.sent s.acts := by
    rw [sent_append, h.sent, List.append_nil]
  rw [Sends, hreq] at hs
  rw [Sends]
  dsimp only
  rw [hsent]
  cases hafter : o.req with
  | none => exact hs.imp And.right And.right
  | some req' =>
    dsimp only
    rw [h.request req' hafter]
    exact hs

/-- Each step keeps the request waiting, or sends it once. -/
theorem step_sends (hL : L.Documented) {payload : List UInt8} {s s' : Conn} {i : Event × Answers}
    (hfits : s.Fits i) (hstep : Conn.step L c s i = some s') (hs : Sends payload s) :
    Sends payload s' := by
  obtain ⟨req, o, hreq, ho, rfl⟩ := step_eq hstep
  rw [Conn.Fits, Conn.heldHdrs, hreq] at hfits
  obtain ⟨e, a⟩ := i
  cases e with
  | recv p =>
    cases ho
    exact (httpcTcpRecv_mute hL p hfits).sends hreq hs
  | err err =>
    cases ho
    exact (httpcClose_mute ..).sends hreq hs
  | poll =>
    cases ho
    dsimp only
    rw [httpcTcpPoll]
    split
    · exact (httpcClose_mute ..).sends hreq hs
    · refine Mute.sends hreq ⟨rfl, ?_⟩ hs
      rintro _ ⟨⟩
      rfl
  | sent len =>
    cases ho
    refine Mute.sends hreq ⟨rfl, ?_⟩ hs
    rintro _ ⟨⟩
    rfl
  | connected err =>
    -- the one callback that writes
    obtain ⟨payload', hpayload, rfl⟩ := Option.map_eq_some_iff.mp ho
    rw [Sends, hreq] at hs
    rcases hs with ⟨hrequest, hsent⟩ | ⟨hrequest, -⟩
    · rw [hpayload] at hrequest
      cases hrequest
      rw [httpcTcpConnected]
      split
      · have hmute : Mute req (httpcClose c req .errMem 0 a.write a) := httpcClose_mute ..
        have hnone : ((httpcClose c req .errMem 0 a.write a).after [.write payload.dropLast]).req =
            none :=
          (httpcClose_closes c req .errMem 0 a.write a).freed
        rw [Sends, hnone]
        refine .inr ?_
        show sent (s.acts ++ ([.write payload.dropLast] ++ _)) = _
        rw [sent_append, sent_append, hsent, hmute.sent]
        rfl
      · refine .inr ⟨rfl, ?_⟩
        rw [sent_append, hsent]
        rfl
    · rw [hpayload] at hrequest
      cases hrequest

end Sending

/-! ## What has been acquired and given back -/

section Ledger

variable {α : Type}

/-- The calls of the client's callbacks, and those on the way out -/
def calls (acts : List (LifeAct α)) : List Act :=
  acts.filterMap fun
    | .call act => some act
    | _ => none

/-- How many states have been allocated -/
def mallocs (acts : List (LifeAct α)) : Nat :=
  acts.countP fun
    | .memMalloc => true
    | _ => false

/-- How many connections -/
def opens (acts : List (LifeAct α)) : Nat :=
  acts.countP fun
    | .altcpNew => true
    | _ => false

/-- How many bytes of pbufs -/
def allocated : List (LifeAct α) → Nat
  | [] => 0
  | .pbufAlloc length :: acts => length + allocated acts
  | _ :: acts => allocated acts

variable (acts acts' : List (LifeAct α))

@[simp] theorem calls_append : calls (acts ++ acts') = calls acts ++ calls acts' :=
  List.filterMap_append

@[simp] theorem mallocs_append : mallocs (acts ++ acts') = mallocs acts + mallocs acts' :=
  List.countP_append ..

@[simp] theorem opens_append : opens (acts ++ acts') = opens acts + opens acts' :=
  List.countP_append ..

@[simp] theorem allocated_append :
    allocated (acts ++ acts') = allocated acts + allocated acts' := by
  induction acts with
  | nil => rw [List.nil_append, allocated, Nat.zero_add]
  | cons act acts ih =>
    rw [List.cons_append]
    cases act with
    | pbufAlloc length => rw [allocated, allocated, ih, Nat.add_assoc]
    | _ => exact ih

@[simp] theorem calls_map (called : List Act) :
    calls (called.map (LifeAct.call (α := α))) = called := by
  induction called with
  | nil => rfl
  | cons act called ih => exact congrArg (act :: ·) ih

@[simp] theorem mallocs_map (called : List Act) :
    mallocs (called.map (LifeAct.call (α := α))) = 0 := by
  induction called with
  | nil => rfl
  | cons act called ih => exact ih

@[simp] theorem opens_map (called : List Act) :
    opens (called.map (LifeAct.call (α := α))) = 0 := by
  induction called with
  | nil => rfl
  | cons act called ih => exact ih

@[simp] theorem allocated_map (called : List Act) :
    allocated (called.map (LifeAct.call (α := α))) = 0 := by
  induction called with
  | nil => rfl
  | cons act called ih => exact ih

/-- Nothing of what was acquired is left, no result was reported and nothing sent. -/
structure Released (acts : List (LifeAct α)) : Prop where
  results : results (calls acts) = []
  sent : sent (calls acts) = []
  state : mallocs acts = (calls acts).count .memFree
  connection : opens acts = (calls acts).count .close
  pbufs : allocated acts = (disposed (calls acts)).length

/-- What neither acquires nor gives back -/
structure Costless (acts : List (LifeAct α)) : Prop where
  calls : calls acts = []
  state : mallocs acts = 0
  connection : opens acts = 0
  pbufs : allocated acts = 0

/-- A request has acquired its state, a pbuf and a connection, and given nothing back. -/
structure Acquired (size : Nat) (acts : List (LifeAct α)) : Prop where
  calls : calls acts = []
  state : mallocs acts = 1
  connection : opens acts = 1
  pbufs : allocated acts = size

/-- Where nothing was acquired, nothing is left. -/
theorem Released.nil : Released ([] : List (LifeAct α)) := ⟨rfl, rfl, rfl, rfl, rfl⟩

variable {acts acts'}

/-- Costless acts leave what was acquired. -/
theorem Acquired.append {size : Nat} (h : Acquired size acts) (h' : Costless acts') :
    Acquired size (acts ++ acts') where
  calls := by rw [calls_append, h.calls, h'.calls]; rfl
  state := by rw [mallocs_append, h.state, h'.state]
  connection := by rw [opens_append, h.connection, h'.connection]
  pbufs := by rw [allocated_append, h.pbufs, h'.pbufs]; rfl

/-- `httpc_free_state` gives back what the state holds. -/
theorem giveUp_released {err : Err} {req : HttpcState} (a : StartAnswers α)
    (hcalls : calls acts = []) (hstate : mallocs acts = 1)
    (hconn : opens acts = if req.pcb then 1 else 0) (hpbufs : allocated acts = req.held.length) :
    Released (giveUp err req a acts).acts := by
  have hfrees := onlyFrees_of fun _ => mem_pbufs req
  obtain ⟨ret, called, heq, hcalled⟩ := httpcFreeState_eq req a.answers
  have hmute : Mute req (httpcFreeState req a.answers) := httpcFreeState_mute ..
  rw [heq] at hmute
  rw [giveUp, heq]
  constructor
  · rw [calls_append, hcalls, calls_map, List.nil_append, results_append, hfrees.pending.results,
      hcalled.results]
    rfl
  · rw [calls_append, hcalls, calls_map, List.nil_append]
    exact hmute.sent
  · rw [mallocs_append, mallocs_map, hstate, calls_append, hcalls, calls_map, List.nil_append,
      List.count_append, hfrees.pending.memFree, hcalled.memFree]
  · rw [opens_append, opens_map, hconn, calls_append, hcalls, calls_map, List.nil_append,
      List.count_append, hfrees.pending.close, hcalled.close, Nat.zero_add, Nat.add_zero]
  · rw [allocated_append, allocated_map, hpbufs, calls_append, hcalls, calls_map, List.nil_append,
      disposed_append, disposed_pbufs, hcalled.disposes, List.append_nil]
    rfl

end Ledger

/-! ## The start -/

section Start

variable {α : Type} {m : Macros}

/-- What `snprintf` leaves in a buffer that is large enough -/
theorem snprintf_eq {s : List UInt8} (h : s.length < 2 ^ 31) :
    snprintf (s.length + 1) s = ((s.length : Int), s ++ [0]) := by
  rw [snprintf, if_pos h, if_neg (Nat.succ_ne_zero _), Nat.add_sub_cancel, List.take_length]

/-- The initialization fails and leaves nothing behind, or the request is written and all that it
needs is there. -/
theorem init_cases (settings : Option (HttpcConnection α)) (name : List UInt8) (port : UInt16)
    (uri : List UInt8) (useHost : Bool) (a : StartAnswers α) :
    let i := httpcInitConnectionCommon m settings name port uri useHost a
    let request := requestString m settings name port uri useHost
    (i.err ≠ .ok ∧ i.req = none ∧ Released i.acts) ∨
      ∃ s, settings = some s ∧ request.length < 0xFFFF ∧
        i = ⟨.ok, some (.started (request ++ [0]), if s.useProxy then s.proxyPort else port),
          [.memMalloc, .pbufAlloc (request ++ [0]).length, .altcpNew]⟩ := by
  intro i request
  show (i.err ≠ .ok ∧ _) ∨ _
  cases settings with
  | none => exact .inl ⟨Err.noConfusion, rfl, .nil⟩
  | some s =>
    by_cases hlong : 0xFFFF ≤ request.length
    · -- the text is too long
      have hval : i = ⟨.val, none, []⟩ := by
        show httpcInitConnectionCommon m (some s) name port uri useHost a = _
        have hfst : (httpcCreateRequestString m (some s) name port uri useHost 0).1 =
            if request.length < 2 ^ 31 then (request.length : Int) else -1 := rfl
        rw [httpcInitConnectionCommon]
        dsimp only
        rw [hfst]
        by_cases hint : request.length < 2 ^ 31
        · rw [if_pos hint]
          split
          · rfl
          · rw [if_pos (by omega)]
        · rw [if_neg hint]
          rfl
      rw [hval]
      exact .inl ⟨Err.noConfusion, rfl, .nil⟩
    have hlt := Nat.lt_of_not_le hlong
    have hint : request.length < 2 ^ 31 := Nat.lt_trans hlt (by decide)
    have hfst : (httpcCreateRequestString m (some s) name port uri useHost 0).1 =
        (request.length : Int) := if_pos hint
    have hsize : ((request.length : Int) + 1).toNat = request.length + 1 := by omega
    have hwritten : httpcCreateRequestString m (some s) name port uri useHost (request.length + 1) =
        ((request.length : Int), request ++ [0]) := snprintf_eq hint
    have heq : i = httpcInitConnectionCommon m (some s) name port uri useHost a := rfl
    rw [httpcInitConnectionCommon] at heq
    dsimp only at heq
    rw [hfst, if_neg (by omega), if_neg (by omega), hsize, hwritten] at heq
    dsimp only at heq
    rw [if_neg (not_not_intro (Eq.refl (request.length : Int)))] at heq
    cases hmalloc : a.memMalloc with
    | false =>
      rw [hmalloc] at heq
      rw [heq]
      exact .inl ⟨Err.noConfusion, rfl, .nil⟩
    | true =>
      rw [hmalloc] at heq
      cases hpbuf : a.pbufAlloc with
      | none =>
        rw [hpbuf] at heq
        rw [heq]
        exact .inl ⟨Err.noConfusion, rfl, giveUp_released a rfl rfl rfl rfl⟩
      | some onePiece =>
        rw [hpbuf] at heq
        cases honePiece : onePiece with
        | false =>
          rw [honePiece] at heq
          rw [heq]
          refine .inl ⟨Err.noConfusion, rfl, giveUp_released a rfl rfl rfl ?_⟩
          simp [allocated, HttpcState.held, HttpcState.zero]
        | true =>
          rw [honePiece] at heq
          cases haltcp : a.altcpNew with
          | false =>
            rw [haltcp] at heq
            rw [heq]
            refine .inl ⟨Err.noConfusion, rfl, giveUp_released a rfl rfl rfl ?_⟩
            simp [allocated, HttpcState.held, HttpcState.zero]
          | true =>
            rw [haltcp] at heq
            rw [heq]
            refine .inr ⟨s, rfl, hlt, ?_⟩
            rw [List.length_append]
            rfl

/-- The functions that are set when the request runs -/
def Ask.calls (q : Ask α) : Settings where
  resultFn := (q.settings.map fun s => s.resultFn).getD false
  headersDoneFn := (q.settings.map fun s => s.headersDoneFn).getD false
  recvFn := q.recvFn

/-- The text of the request that is asked for -/
def Ask.request (m : Macros) (ntoa : α → Option (List UInt8)) (q : Ask α) : List UInt8 :=
  requestString m q.settings ((q.server.bind (serverName ntoa)).getD []) q.port (q.uri.getD []) true

/-- Looking the server up and connecting to it acquires nothing. -/
theorem openConnection_costless (settings : HttpcConnection α) (server : α ⊕ List UInt8)
    (port : UInt16) (a : StartAnswers α) :
    Costless (openConnection settings server port a).2.2 := by
  rw [openConnection.eq_def]
  split
  · exact ⟨rfl, rfl, rfl, rfl⟩
  · cases server with
    | inl addr => exact ⟨rfl, rfl, rfl, rfl⟩
    | inr name =>
      show Costless (httpcGetInternalDns port name a).2.2
      rw [httpcGetInternalDns]
      split
      · exact ⟨rfl, rfl, rfl, rfl⟩
      · split <;> exact ⟨rfl, rfl, rfl, rfl⟩

/-- What is left of a start: nothing, or a request whose name is being resolved, or one whose
connection has been opened -/
inductive Begun (payload : List UInt8) : Err × Life α → Prop
  | failed {err : Err} {before : List (LifeAct α)} (herr : err ≠ .ok) (h : Released before) :
    Begun payload (err, ⟨none, before⟩)
  | resolving {port : UInt16} {before : List (LifeAct α)} (h : Acquired payload.length before) :
    Begun payload (.ok, ⟨some (.resolving (.started payload) port), before⟩)
  | opened {before : List (LifeAct α)} (h : Acquired payload.length before) :
    Begun payload (.ok, ⟨some (.opened (.started payload)), before⟩)

/-- Whether the connection opens or not, the request has begun or all of it is given back. -/
theorem finishStart_begun {i : Started α} {payload : List UInt8} (port : UInt16)
    (a : StartAnswers α) {opening : Err × Bool × List (LifeAct α)}
    (hi : Acquired payload.length i.acts) (ho : Costless opening.2.2) :
    Begun payload (finishStart i (.started payload) port a opening) := by
  have hboth := hi.append ho
  obtain ⟨err, pending, acts⟩ := opening
  rw [finishStart]
  by_cases herr : err = .ok
  · rw [if_neg (not_not_intro herr)]
    cases pending with
    | true => exact .resolving hboth
    | false => exact .opened hboth
  · rw [if_pos herr]
    refine .failed herr (giveUp_released a hboth.calls hboth.state hboth.connection ?_)
    rw [hboth.pbufs]
    exact congrArg List.length (List.append_nil payload).symm

/-- What a start leaves, and that a request which has been started has a `recv_fn` -/
theorem start_begun (ntoa : α → Option (List UInt8)) (q : Ask α) (a : StartAnswers α) :
    Begun (q.request m ntoa ++ [0]) (httpcGetFile m ntoa q a) ∧
      ((httpcGetFile m ntoa q a).1 = .ok → q.recvFn ∧ (q.request m ntoa).length < 0xFFFF) := by
  rw [httpcGetFile, Ask.request]
  cases q.server with
  | none => exact ⟨.failed Err.noConfusion .nil, Err.noConfusion⟩
  | some server =>
    cases q.uri with
    | none => exact ⟨.failed Err.noConfusion .nil, Err.noConfusion⟩
    | some uri =>
      cases hrecv : q.recvFn with
      | false => exact ⟨.failed Err.noConfusion .nil, Err.noConfusion⟩
      | true =>
        dsimp only [Option.bind_some, Option.getD_some]
        rw [if_neg (by decide)]
        cases serverName ntoa server with
        | none => exact ⟨.failed Err.noConfusion .nil, Err.noConfusion⟩
        | some name =>
          dsimp only [Option.getD_some]
          rcases init_cases (m := m) q.settings name q.port uri true a with
            ⟨herr, hnone, hreleased⟩ | ⟨s, hsettings, hlt, heq⟩
          · rw [hnone]
            exact ⟨.failed herr hreleased, fun h => absurd h herr⟩
          · rw [heq, hsettings]
            refine ⟨finishStart_begun _ a ⟨rfl, rfl, rfl, rfl⟩ (openConnection_costless ..), ?_⟩
            rw [← hsettings]
            exact fun _ => ⟨rfl, hlt⟩

end Start

/-! ## Runs -/

section Lives

variable {α : Type} {L : Pbufs} {c : Settings} {m : Macros}

def History.nextLife (h : History) : LifeEvent α → History
  | .dnsFound .. => h
  | .called e a => h.next (e, a)

def lifeHistory (is : List (LifeEvent α)) : History := is.foldl History.nextLife ⟨[], false⟩

/-- The state of a request that is under way -/
def Life.req (s : Life α) : Option HttpcState :=
  match s.phase with
  | some (.resolving req _) => some req
  | some (.opened conn) => conn.req
  | none => none

def LifeEvent.received : LifeEvent α → List UInt8
  | .dnsFound .. => []
  | .called e _ => e.received

/-- What is received fits, as in `Conn.Fits`. -/
def Life.Fits (s : Life α) (i : LifeEvent α) : Prop :=
  (s.req.map fun req => req.rxHdrs.totLen).getD 0 + i.received.length ≤ 0xFFFF

instance (s : Life α) (i : LifeEvent α) : Decidable (s.Fits i) :=
  inferInstanceAs (Decidable (_ ≤ _))

/-- The invariant of a request's life: what the start has acquired, and then the invariant of its
callbacks -/
def LifeInv (c : Settings) (payload : List UInt8) (h : History) (s : Life α) : Prop :=
  Acquired payload.length s.before ∧ match s.phase with
    | none => False
    | some (.resolving req _) => req = .started payload ∧ h = ⟨[], false⟩
    | some (.opened conn) => Inv c payload h conn ∧ Sends payload conn

/-- A started request waits to be sent. -/
theorem started_sends (payload : List UInt8) : Sends payload (.started payload) := .inl ⟨rfl, rfl⟩

/-- The answer of the resolver opens the connection of a request, or ends it. -/
theorem dnsFound_inv (c : Settings) (payload : List UInt8) (port : UInt16) (addr : Option α)
    (connect : Err) (a : Answers) :
    let found := httpcDnsFound c (.started payload) port addr connect a
    Costless found.2 ∧
      (Inv c payload ⟨[], false⟩ ⟨found.1.req, found.1.ret, found.1.acts⟩ ∧
        Sends payload ⟨found.1.req, found.1.ret, found.1.acts⟩) := by
  have hcloses : ∀ result err, Inv c payload ⟨[], false⟩
      ⟨(httpcClose c (.started payload) result 0 err a).req,
        (httpcClose c (.started payload) result 0 err a).ret,
        (httpcClose c (.started payload) result 0 err a).acts⟩ ∧
      Sends payload ⟨(httpcClose c (.started payload) result 0 err a).req,
        (httpcClose c (.started payload) result 0 err a).ret,
        (httpcClose c (.started payload) result 0 err a).acts⟩ := by
    intro result err
    have hmute : Mute (.started payload) (httpcClose c (.started payload) result 0 err a) :=
      httpcClose_mute ..
    have halive : Alive payload ⟨[], false⟩ (.started payload) [] :=
      started_inv (c := c) payload
    exact ⟨close_inv halive rfl rfl, hmute.sends (s := .started payload) rfl (started_sends payload)⟩
  cases addr with
  | none => exact ⟨⟨rfl, rfl, rfl, rfl⟩, hcloses .errHostname .arg⟩
  | some addr =>
    have heq : httpcDnsFound c (.started payload) port (some addr) connect a =
        if connect = .ok then (⟨some (.started payload), .ok, []⟩, [.connect addr port])
        else (httpcClose c (.started payload) .errConnect 0 connect a, [.connect addr port]) := rfl
    rw [heq]
    by_cases hconnect : connect = .ok
    · rw [if_pos hconnect]
      exact ⟨⟨rfl, rfl, rfl, rfl⟩, started_inv payload, started_sends payload⟩
    · rw [if_neg hconnect]
      exact ⟨⟨rfl, rfl, rfl, rfl⟩, hcloses .errConnect connect⟩

/-- One event of a request's life keeps the invariant of its phase. -/
theorem lifeStep_inv (hL : L.Documented) (hc : c.recvFn) {payload : List UInt8} (h : History)
    (s : Life α) (i : LifeEvent α) (s' : Life α) (hfits : s.Fits i)
    (hstep : Life.step L c s i = some s') (hs : LifeInv c payload h s) :
    LifeInv c payload (h.nextLife i) s' := by
  obtain ⟨phase, before⟩ := s
  obtain ⟨hacquired, hphase⟩ := hs
  cases phase with
  | none => exact hphase.elim
  | some phase =>
    cases phase with
    | resolving req port =>
      obtain ⟨rfl, rfl⟩ := hphase
      cases i with
      | dnsFound addr connect a =>
        cases hstep
        obtain ⟨hcostless, hinv⟩ := dnsFound_inv c payload port addr connect a
        exact ⟨hacquired.append hcostless, hinv⟩
      | called e a => cases hstep
    | opened conn =>
      cases i with
      | dnsFound addr connect a => cases hstep
      | called e a =>
        obtain ⟨conn', hconn, rfl⟩ := Option.map_eq_some_iff.mp hstep
        have hfitsConn : conn.Fits (e, a) := hfits
        exact ⟨hacquired, step_inv hL hc h conn (e, a) conn' hfitsConn hconn hphase.1,
          step_sends hL hfitsConn hconn hphase.2⟩

/-- A run, from the start on -/
theorem life_inv (hL : L.Documented) (ntoa : α → Option (List UInt8)) (q : Ask α)
    (a : StartAnswers α) {is : List (LifeEvent α)} {s : Life α}
    (h : Machine.exec (Life.step L q.calls) (httpcGetFile m ntoa q a).2 is = some s)
    (hfits : Machine.Along (Life.step L q.calls) Life.Fits (httpcGetFile m ntoa q a).2 is) :
    ((httpcGetFile m ntoa q a).1 ≠ .ok ∧ is = [] ∧ s.phase = none ∧ Released s.before) ∨
      ((httpcGetFile m ntoa q a).1 = .ok ∧ (q.request m ntoa).length < 0xFFFF ∧
        LifeInv q.calls (q.request m ntoa ++ [0]) (lifeHistory is) s) := by
  obtain ⟨hbegun, hok⟩ := start_begun (m := m) ntoa q a
  generalize httpcGetFile m ntoa q a = start at h hfits hbegun hok
  cases hbegun with
  | failed herr hreleased =>
    refine .inl ⟨herr, ?_⟩
    cases is with
    | nil =>
      cases h
      exact ⟨rfl, rfl, hreleased⟩
    | cons i is =>
      -- nothing calls back
      obtain ⟨s', hstep, -⟩ := Machine.exec_cons_some.mp h
      cases i <;> cases hstep
  | resolving hacquired =>
    obtain ⟨hrecv, hlt⟩ := hok rfl
    exact .inr ⟨rfl, hlt, Machine.exec_fold_along (lifeStep_inv hL hrecv) h hfits
      ⟨hacquired, rfl, rfl⟩⟩
  | opened hacquired =>
    obtain ⟨hrecv, hlt⟩ := hok rfl
    exact .inr ⟨rfl, hlt, Machine.exec_fold_along (lifeStep_inv hL hrecv) h hfits
      ⟨hacquired, started_inv _, started_sends _⟩⟩

/-- What the acts of a life count, split into those before and those of the callbacks -/
theorem acts_of_acquired {size : Nat} {before : List (LifeAct α)} (h : Acquired size before)
    (acts : List Act) : calls (before ++ acts.map .call) = acts ∧
      mallocs (before ++ acts.map .call) = 1 ∧ opens (before ++ acts.map .call) = 1 ∧
      allocated (before ++ acts.map .call) = size := by
  refine ⟨?_, ?_, ?_, ?_⟩
  · rw [calls_append, calls_map, h.calls]
    rfl
  · rw [mallocs_append, mallocs_map, h.state]
  · rw [opens_append, opens_map, h.connection]
  · rw [allocated_append, allocated_map, h.pbufs]
    rfl

/-- Whatever fails, and whenever a request is over: the state and the connection that it has acquired
have been given back, each once, but for a connection that TCP has lost, and so have the bytes of
its pbuf, which are the request unless the start has failed, with those received; its result has
been reported once if its start has succeeded. Until then nothing has been reported, and what was
not disposed of is held. -/
theorem life_balanced (hL : L.Documented) (ntoa : α → Option (List UInt8)) (q : Ask α)
    (a : StartAnswers α) {is : List (LifeEvent α)} {s : Life α}
    (h : Machine.exec (Life.step L q.calls) (httpcGetFile m ntoa q a).2 is = some s)
    (hfits : Machine.Along (Life.step L q.calls) Life.Fits (httpcGetFile m ntoa q a).2 is) :
    match s.req with
    | some req =>
      (httpcGetFile m ntoa q a).1 = .ok ∧ results (calls s.acts) = [] ∧
        mallocs s.acts = 1 ∧ (calls s.acts).count .memFree = 0 ∧
        opens s.acts = 1 ∧ (calls s.acts).count .close = 0 ∧
        allocated s.acts = (q.request m ntoa ++ [0]).length ∧
        (disposed (calls s.acts) ++ req.held).Perm
          (q.request m ntoa ++ [0] ++ (lifeHistory is).received)
    | none =>
      mallocs s.acts = (calls s.acts).count .memFree ∧
        opens s.acts = (calls s.acts).count .close + (if (lifeHistory is).lost then 1 else 0) ∧
        (∃ payload, allocated s.acts = payload.length ∧
          ((httpcGetFile m ntoa q a).1 = .ok → payload = q.request m ntoa ++ [0]) ∧
          (disposed (calls s.acts)).Perm (payload ++ (lifeHistory is).received)) ∧
        (results (calls s.acts)).length =
          if (httpcGetFile m ntoa q a).1 = .ok ∧ q.calls.resultFn then 1 else 0 := by
  rcases life_inv hL ntoa q a h hfits with
    ⟨herr, rfl, hphase, hreleased⟩ | ⟨hok, -, hacquired, hphase⟩
  · obtain ⟨phase, before⟩ := s
    cases hphase
    have hacts : Life.acts ⟨none, before⟩ = before := List.append_nil before
    have hno : ¬ ((httpcGetFile m ntoa q a).1 = .ok ∧ q.calls.resultFn) := fun hand => herr hand.1
    rw [hacts, if_neg hno, hreleased.results]
    refine ⟨hreleased.state, hreleased.connection, ?_, rfl⟩
    exact ⟨disposed (calls before), hreleased.pbufs, fun hok => absurd hok herr,
      .of_eq (List.append_nil _).symm⟩
  · obtain ⟨phase, before⟩ := s
    cases phase with
    | none => exact hphase.elim
    | some phase =>
      cases phase with
      | resolving req port =>
        obtain ⟨hreq, hhistory⟩ := hphase
        have hacts : Life.acts ⟨some (.resolving req port), before⟩ = before :=
          List.append_nil before
        rw [hacts, hhistory]
        show _ ∧ _
        rw [hacquired.calls, hreq]
        exact ⟨hok, rfl, hacquired.state, rfl, hacquired.connection, rfl, hacquired.pbufs, .refl _⟩
      | opened conn =>
        obtain ⟨hinv, -⟩ := hphase
        obtain ⟨hcalls, hmallocs, hopens, hallocated⟩ := acts_of_acquired hacquired conn.acts
        have hacts : Life.acts ⟨some (.opened conn), before⟩ = before ++ conn.acts.map .call := rfl
        rw [hacts, hcalls, hmallocs, hopens, hallocated]
        show match conn.req with | some req => _ | none => _
        rw [Inv] at hinv
        cases hreq : conn.req with
        | none =>
          rw [hreq] at hinv
          refine ⟨hinv.memFree.symm, ?_, ⟨_, rfl, fun _ => rfl, hinv.disposes⟩, ?_⟩
          · rw [hinv.close]
            cases (lifeHistory is).lost <;> rfl
          · rw [hinv.results]
            exact if_congr (and_iff_right hok).symm rfl rfl
        | some req =>
          rw [hreq] at hinv
          exact ⟨hok, hinv.pending.results, rfl, hinv.pending.memFree, rfl, hinv.pending.close,
            rfl, hinv.disposes⟩

/-- A file of a server that is called by its name -/
def namedAsk : Ask Nat where
  server := some (.inr (text "h".toList))
  port := 80
  uri := some (text "/f".toList)
  settings := some ⟨false, 0, 0, true, true⟩
  recvFn := true

def someMacros : Macros := ⟨text "lwIP".toList, 80⟩

/-- The resolver has to ask for the name. -/
def resolvedLater : StartAnswers Nat where
  memMalloc := true
  pbufAlloc := some true
  altcpNew := true
  connect := .ok
  dns := .inProgress
  dnsAddr := 0
  answers := allOk

/-- The name is resolved, a response comes, and the server closes the connection. -/
def resolvedRun : List (LifeEvent Nat) :=
  .dnsFound (some 7) .ok allOk :: closedRun.map fun i => .called i.1 i.2

/-- The run of `resolvedRun`: the name is resolved later, and the request is answered. -/
theorem life_balanced_resolved :
    ∃ s, Machine.exec (Life.step .simple namedAsk.calls)
        (httpcGetFile someMacros (fun _ => none) namedAsk resolvedLater).2 resolvedRun = some s ∧
      s.req = none ∧ mallocs s.acts = (calls s.acts).count .memFree ∧
        opens s.acts =
          (calls s.acts).count .close + (if (lifeHistory resolvedRun).lost then 1 else 0) ∧
        (∃ payload, allocated s.acts = payload.length ∧
          ((httpcGetFile someMacros (fun _ => none) namedAsk resolvedLater).1 = .ok →
            payload = namedAsk.request someMacros (fun _ => none) ++ [0]) ∧
          (disposed (calls s.acts)).Perm (payload ++ (lifeHistory resolvedRun).received)) ∧
        (results (calls s.acts)).length =
          if (httpcGetFile someMacros (fun _ => none) namedAsk resolvedLater).1 = .ok ∧
            namedAsk.calls.resultFn then 1 else 0 := by
  obtain ⟨s, hs⟩ := Option.isSome_iff_exists.mp (show
    (Machine.exec (Life.step .simple namedAsk.calls)
      (httpcGetFile someMacros (fun _ => none) namedAsk resolvedLater).2 resolvedRun).isSome by
      decide +kernel)
  have hover : (Machine.exec (Life.step .simple namedAsk.calls)
      (httpcGetFile someMacros (fun _ => none) namedAsk resolvedLater).2 resolvedRun).map
    (fun s => s.req.isNone) = some true := by decide +kernel
  rw [hs] at hover
  have hreq : s.req = none := Option.isNone_iff_eq_none.mp (Option.some.inj hover)
  have hbalanced := life_balanced Pbufs.simple_documented (fun _ => none) namedAsk resolvedLater hs
    (by decide +kernel)
  rw [hreq] at hbalanced
  exact ⟨s, hs, hreq, hbalanced⟩

/-! ## The text of the request -/

/-- The server as the request names it -/
def Ask.host (ntoa : α → Option (List UInt8)) (q : Ask α) : List UInt8 :=
  (q.server.bind (serverName ntoa)).getD []

/-- What is asked for: the path, or the whole address if a proxy is asked, with the port if it is
not the usual one -/
def Ask.target (m : Macros) (ntoa : α → Option (List UInt8)) (q : Ask α) : List UInt8 :=
  if (q.settings.map fun s => s.useProxy) = some true then
    text "http://".toList ++ q.host ntoa ++
      (if q.port = m.httpDefaultPort then [] else text ":".toList ++ decimal q.port.toNat) ++
      q.uri.getD []
  else q.uri.getD []

/-- The lines behind the first one -/
def Ask.fields (m : Macros) (ntoa : α → Option (List UInt8)) (q : Ask α) : List (List UInt8) :=
  [text "User-Agent: ".toList ++ m.clientAgent, text "Accept: */*".toList,
    text "Host: ".toList ++ q.host ntoa, text "Connection: Close".toList]

/-- The first line -/
def Ask.requestLine (m : Macros) (ntoa : α → Option (List UInt8)) (q : Ask α) : List UInt8 :=
  text "GET ".toList ++ q.target m ntoa ++ text " HTTP/1.1".toList

/-- The request is its lines, each ended by CR LF, and an empty line. -/
theorem request_eq (ntoa : α → Option (List UInt8)) (q : Ask α) :
    q.request m ntoa = lines (q.requestLine m ntoa :: q.fields m ntoa) ++ crlf := by
  have hget : text "GET http://".toList = text "GET ".toList ++ text "http://".toList := rfl
  have hlines : lines (q.requestLine m ntoa :: q.fields m ntoa) ++ crlf =
      q.requestLine m ntoa ++ (crlf ++ Http.fields m (hostLine (q.host ntoa))) := by
    simp only [Ask.fields, Http.fields, hostLine, lines, List.flatMap_cons, List.flatMap_nil,
      List.nil_append, List.append_assoc]
  rw [hlines, Ask.requestLine, Ask.target, Ask.request, requestString]
  split
  · rw [hget]
    by_cases hport : q.port = m.httpDefaultPort
    · rw [if_neg (not_not_intro hport), if_pos hport]
      simp only [List.append_assoc, List.append_nil]
      rfl
    · rw [if_pos hport, if_neg hport]
      simp only [List.append_assoc]
      rfl
  · rw [if_pos rfl]
    simp only [List.append_assoc]
    rfl

/-- A number is printed without a carriage return. -/
theorem decimal_no_cr (n : Nat) : cr ∉ decimal n := by
  intro hmem
  obtain ⟨c, hc, heq⟩ := List.mem_map.mp hmem
  have hdigit := Nat.isDigit_of_mem_toDigits (by decide) (Nat.le_refl 10) hc
  rw [Char.isDigit, Bool.and_eq_true, decide_eq_true_eq, decide_eq_true_eq] at hdigit
  have hlow : 48 ≤ c.toNat := UInt32.le_iff_toNat_le.mp hdigit.1
  have hhigh : c.toNat ≤ 57 := UInt32.le_iff_toNat_le.mp hdigit.2
  have hbyte := congrArg UInt8.toNat heq
  rw [UInt8.toNat_ofNat'] at hbyte
  have hcr : cr.toNat = 13 := rfl
  omega

/-- Without a carriage return in agent, host and URI, the only empty line is the last. -/
theorem request_emptyLine {ntoa : α → Option (List UInt8)} {q : Ask α}
    (hagent : cr ∉ m.clientAgent) (hhost : cr ∉ q.host ntoa) (huri : cr ∉ q.uri.getD []) :
    find crlfCrlf (q.request m ntoa) 0 = some ((q.request m ntoa).length - 4) := by
  have hport : cr ∉ if q.port = m.httpDefaultPort then []
      else text ":".toList ++ decimal q.port.toNat := by
    split
    · exact List.not_mem_nil
    · exact List.mem_append.not.mpr (not_or.mpr ⟨by decide, decimal_no_cr _⟩)
  have htarget : cr ∉ q.target m ntoa := by
    rw [Ask.target]
    split
    · simp only [List.mem_append, not_or]
      exact ⟨⟨⟨by decide, hhost⟩, hport⟩, huri⟩
    · exact huri
  have hline : cr ∉ q.requestLine m ntoa := by
    simp only [Ask.requestLine, List.mem_append, not_or]
    exact ⟨⟨by decide, htarget⟩, by decide⟩
  have hfields : ∀ f ∈ q.fields m ntoa, f ≠ [] ∧ cr ∉ f := by
    have hvalued : ∀ {name value : List UInt8}, name ≠ [] → cr ∉ name → cr ∉ value →
        name ++ value ≠ [] ∧ cr ∉ name ++ value := by
      intro name value hne hname hvalue
      exact ⟨fun h => hne (List.append_eq_nil_iff.mp h).1, fun h =>
        (List.mem_append.mp h).elim hname hvalue⟩
    simp only [Ask.fields, List.forall_mem_cons]
    exact ⟨hvalued (by decide) (by decide) hagent, ⟨by decide, by decide⟩,
      hvalued (by decide) (by decide) hhost, ⟨by decide, by decide⟩, List.forall_mem_nil _⟩
  have hfind := find_emptyLine hline hfields []
  have htwo : crlf.length = 2 := rfl
  rw [List.append_nil] at hfind
  rw [request_eq, hfind, List.length_append, htwo, Nat.add_sub_add_right _ 2 2]

/-- What a request sends, if anything: one request line, the header fields and an empty line, once;
the empty line is the first one if no text that is put in has a carriage return. -/
theorem request_sent (hL : L.Documented) (ntoa : α → Option (List UInt8)) (q : Ask α)
    (a : StartAnswers α) {is : List (LifeEvent α)} {s : Life α}
    (h : Machine.exec (Life.step L q.calls) (httpcGetFile m ntoa q a).2 is = some s)
    (hfits : Machine.Along (Life.step L q.calls) Life.Fits (httpcGetFile m ntoa q a).2 is) :
    sent (calls s.acts) = [] ∨ ∃ request, sent (calls s.acts) = [request] ∧
      request = lines (q.requestLine m ntoa :: q.fields m ntoa) ++ crlf ∧
      (cr ∉ m.clientAgent → cr ∉ q.host ntoa → cr ∉ q.uri.getD [] →
        find crlfCrlf request 0 = some (request.length - 4)) := by
  have hone : ∀ acts, sent acts = [(q.request m ntoa ++ [0]).dropLast] → ∃ request,
      sent acts = [request] ∧ request = lines (q.requestLine m ntoa :: q.fields m ntoa) ++ crlf ∧
        (cr ∉ m.clientAgent → cr ∉ q.host ntoa → cr ∉ q.uri.getD [] →
          find crlfCrlf request 0 = some (request.length - 4)) := by
    intro acts hacts
    rw [List.dropLast_concat] at hacts
    refine ⟨_, hacts, request_eq ntoa q, fun hagent hhost huri => ?_⟩
    exact request_emptyLine hagent hhost huri
  rcases life_inv hL ntoa q a h hfits with
    ⟨-, rfl, hphase, hreleased⟩ | ⟨-, -, hacquired, hphase⟩
  · obtain ⟨phase, before⟩ := s
    cases hphase
    have hacts : Life.acts ⟨none, before⟩ = before := List.append_nil before
    rw [hacts]
    exact .inl hreleased.sent
  · obtain ⟨phase, before⟩ := s
    cases phase with
    | none => exact hphase.elim
    | some phase =>
      cases phase with
      | resolving req port =>
        have hacts : Life.acts ⟨some (.resolving req port), before⟩ = before :=
          List.append_nil before
        rw [hacts, hacquired.calls]
        exact .inl rfl
      | opened conn =>
        have hacts : Life.acts ⟨some (.opened conn), before⟩ = before ++ conn.acts.map .call := rfl
        rw [hacts, (acts_of_acquired hacquired conn.acts).1]
        have hsends := hphase.2
        rw [Sends] at hsends
        cases hreq : conn.req with
        | none =>
          rw [hreq] at hsends
          exact hsends.imp_right (hone _)
        | some req =>
          rw [hreq] at hsends
          exact hsends.imp And.right fun hsent => hone _ hsent.2

/-- The request of `resolvedRun`, with its agent, host and URI -/
theorem request_sent_resolved :
    ∃ s, Machine.exec (Life.step .simple namedAsk.calls)
        (httpcGetFile someMacros (fun _ => none) namedAsk resolvedLater).2 resolvedRun = some s ∧
      (sent (calls s.acts) = [] ∨ ∃ request, sent (calls s.acts) = [request] ∧
        request = lines (namedAsk.requestLine someMacros (fun _ => none) ::
          namedAsk.fields someMacros fun _ => none) ++ crlf ∧
        find crlfCrlf request 0 = some (request.length - 4)) := by
  obtain ⟨s, hs⟩ := Option.isSome_iff_exists.mp (show
    (Machine.exec (Life.step .simple namedAsk.calls)
      (httpcGetFile someMacros (fun _ => none) namedAsk resolvedLater).2 resolvedRun).isSome by
      decide +kernel)
  have hsent := request_sent Pbufs.simple_documented (fun _ => none) namedAsk resolvedLater hs
    (by decide +kernel)
  refine ⟨s, hs, hsent.imp_right ?_⟩
  rintro ⟨request, hrequest, hlines, hempty⟩
  exact ⟨request, hrequest, hlines, hempty (by decide) (by decide) (by decide)⟩

end Lives

end PicoHost.Http
