import PicoHost.Http.Segments

/-!
# Starting a request (`http_client.c`)

`httpc_get_file` and `httpc_get_file_dns`: the request is written to a pbuf, what it needs is
allocated, the name of the server is resolved and the connection opened. What can fail is answered
from outside.
-/

namespace PicoHost.Http

/-! ## The request -/

/-- What the headers of lwIP define: `HTTPC_CLIENT_AGENT` and `HTTP_DEFAULT_PORT` -/
structure Macros where
  clientAgent : List UInt8
  httpDefaultPort : UInt16

/-- `httpc_connection_t`, with addresses of type `α` -/
structure HttpcConnection (α : Type) where
  useProxy : Bool
  proxyAddr : α
  proxyPort : UInt16
  resultFn : Bool
  headersDoneFn : Bool

/-- `%d` of a number that is not negative -/
def decimal (n : Nat) : List UInt8 := text (Nat.toDigits 10 n)

/-- `snprintf`: what it returns, and what it writes to the buffer -/
def snprintf (bufferSize : Nat) (s : List UInt8) : Int × List UInt8 :=
  (if s.length < 2 ^ 31 then (s.length : Int) else -1,
    if bufferSize = 0 then [] else s.take (bufferSize - 1) ++ [0])

section Request

variable {α : Type} (m : Macros)

/-- `HTTPC_REQ_11` and the formats with a host are the same from the second line on. -/
def fields (m : Macros) (host : List UInt8) : List UInt8 :=
  text "User-Agent: ".toList ++ m.clientAgent ++ crlf ++ text "Accept: */*".toList ++ crlf ++ host ++
    text "Connection: Close".toList ++ crlf ++ crlf

/-- The line `"Host: %s\r\n"` -/
def hostLine (serverName : List UInt8) : List UInt8 := text "Host: ".toList ++ serverName ++ crlf

/-- The text of `httpc_create_request_string` (http_client.c:494–511) -/
def requestString (settings : Option (HttpcConnection α)) (serverName : List UInt8)
    (serverPort : UInt16) (uri : List UInt8) (useHost : Bool) : List UInt8 :=
  if (settings.map fun s => s.useProxy) = some true then
    if serverPort ≠ m.httpDefaultPort then
      text "GET http://".toList ++ serverName ++ text ":".toList ++ decimal serverPort.toNat ++ uri ++
        text " HTTP/1.1".toList ++ crlf ++ fields m (hostLine serverName)
    else
      text "GET http://".toList ++ serverName ++ uri ++ text " HTTP/1.1".toList ++ crlf ++
        fields m (hostLine serverName)
  else if useHost then
    text "GET ".toList ++ uri ++ text " HTTP/1.1".toList ++ crlf ++ fields m (hostLine serverName)
  else text "GET ".toList ++ uri ++ text " HTTP/1.1".toList ++ crlf ++ fields m []

def httpcCreateRequestString (settings : Option (HttpcConnection α)) (serverName : List UInt8)
    (serverPort : UInt16) (uri : List UInt8) (useHost : Bool) (bufferSize : Nat) :
    Int × List UInt8 :=
  snprintf bufferSize (requestString m settings serverName serverPort uri useHost)

end Request

/-! ## What is called -/

/-- What a request calls from its start on -/
inductive LifeAct (α : Type) where
  | memMalloc
  | pbufAlloc (length : Nat)
  | altcpNew
  | connect (addr : α) (port : UInt16)
  | dnsGethostbyname (serverName : List UInt8)
  | call (act : Act)
deriving DecidableEq, Repr

/-- `ERR_INPROGRESS` -/
def Err.inProgress : Err := .other (-5)

/-- What the functions of lwIP answer at the start. `pbuf_alloc` gives nothing, or a pbuf, in one
piece or not; `dns_gethostbyname` stores an address when it returns `ERR_OK`. -/
structure StartAnswers (α : Type) where
  memMalloc : Bool
  pbufAlloc : Option Bool
  altcpNew : Bool
  connect : Err
  dns : Err
  dnsAddr : α
  answers : Answers

/-- What a start leaves: what is returned, the request and its port, what has been called -/
structure Started (α : Type) where
  err : Err
  req : Option (HttpcState × UInt16)
  acts : List (LifeAct α)

section Start

variable {α : Type}

/-- `httpc_free_state` on the way out, with the error that is returned -/
def giveUp (err : Err) (req : HttpcState) (a : StartAnswers α) (acts : List (LifeAct α)) :
    Started α :=
  ⟨err, none, acts ++ (httpcFreeState req a.answers).acts.map .call⟩

/-- The state after `memset` -/
def HttpcState.zero : HttpcState where
  pcb := false
  timeoutTicks := 0
  request := none
  rxHdrs := []
  rxHttpVersion := 0
  rxStatus := 0
  rxContentLen := 0
  hdrContentLen := 0
  parseState := .waitFirstLine

variable (m : Macros)

/-- `httpc_init_connection_common` (http_client.c:514–597). The size of the state fits in
`mem_size_t`. -/
def httpcInitConnectionCommon (settings : Option (HttpcConnection α)) (serverName : List UInt8)
    (serverPort : UInt16) (uri : List UInt8) (useHost : Bool) (a : StartAnswers α) : Started α :=
  match settings with
  | none => ⟨.arg, none, []⟩
  | some s =>
    let reqLen := (httpcCreateRequestString m settings serverName serverPort uri useHost 0).1
    if reqLen < 0 ∨ 0xFFFF < reqLen then ⟨.val, none, []⟩
    else if 0xFFFF < reqLen + 1 then ⟨.val, none, []⟩
    else if !a.memMalloc then ⟨.mem, none, []⟩
    else
      let req := { HttpcState.zero with timeoutTicks := httpcPollTimeout }
      let size := (reqLen + 1).toNat
      match a.pbufAlloc with
      | none => giveUp .mem req a [.memMalloc]
      | some onePiece =>
        -- what is in the pbuf does not matter yet
        let req := { req with request := some (List.replicate size 0) }
        if !onePiece then giveUp .mem req a [.memMalloc, .pbufAlloc size]
        else
          let req := { req with hdrContentLen := httpcContentLenInvalid }
          if !a.altcpNew then giveUp .mem req a [.memMalloc, .pbufAlloc size]
          else
            let req := { req with pcb := true }
            let remotePort := if s.useProxy then s.proxyPort else serverPort
            let (reqLen2, payload) :=
              httpcCreateRequestString m settings serverName serverPort uri useHost size
            let req := { req with request := some payload }
            if reqLen2 ≠ reqLen then giveUp .val req a [.memMalloc, .pbufAlloc size, .altcpNew]
            else ⟨.ok, some (req, remotePort), [.memMalloc, .pbufAlloc size, .altcpNew]⟩

/-- `httpc_get_internal_addr` (http_client.c:424–441) -/
def httpcGetInternalAddr (port : UInt16) (addr : α) (connect : Err) : Err × List (LifeAct α) :=
  (connect, [.connect addr port])

/-- `httpc_get_internal_dns` (http_client.c:473–492): what it returns, and whether `httpc_dns_found`
is still to be called -/
def httpcGetInternalDns (port : UInt16) (serverName : List UInt8) (a : StartAnswers α) :
    Err × Bool × List (LifeAct α) :=
  if a.dns = .ok then
    let (err, acts) := httpcGetInternalAddr port a.dnsAddr a.connect
    (err, false, .dnsGethostbyname serverName :: acts)
  else if a.dns = .inProgress then (.ok, true, [.dnsGethostbyname serverName])
  else (a.dns, false, [.dnsGethostbyname serverName])

/-- A request that has been started: the name of its server is being resolved, or its connection has
been opened. -/
inductive Phase where
  | resolving (req : HttpcState) (port : UInt16)
  | opened (conn : Conn)
deriving DecidableEq, Repr

/-- What the application asked for, as far as it is left: `none` when the start has failed -/
structure Life (α : Type) where
  phase : Option Phase
  before : List (LifeAct α)
deriving DecidableEq, Repr

/-- What has been called so far -/
def Life.acts (s : Life α) : List (LifeAct α) :=
  s.before ++ match s.phase with
    | some (.opened conn) => conn.acts.map .call
    | _ => []

/-- The last part of `httpc_get_file` and of `httpc_get_file_dns` (http_client.c:659–668,
703–712) -/
def finishStart (i : Started α) (req : HttpcState) (port : UInt16) (a : StartAnswers α)
    (opening : Err × Bool × List (LifeAct α)) : Err × Life α :=
  let (err, pending, acts) := opening
  if err ≠ .ok then
    let given := giveUp err req a (i.acts ++ acts)
    (given.err, ⟨none, given.acts⟩)
  else if pending then (.ok, ⟨some (.resolving req port), i.acts ++ acts⟩)
  else (.ok, ⟨some (.opened ⟨some req, .ok, []⟩), i.acts ++ acts⟩)

/-- What the application asks for: the server by its address or by its name, and whether there is
a `recv_fn`. What may be `NULL` may be `none`. -/
structure Ask (α : Type) where
  server : Option (α ⊕ List UInt8)
  port : UInt16
  uri : Option (List UInt8)
  settings : Option (HttpcConnection α)
  recvFn : Bool

/-- The name for the request: `ipaddr_ntoa` of an address, or the name itself -/
def serverName (ntoa : α → Option (List UInt8)) : α ⊕ List UInt8 → Option (List UInt8)
  | .inl addr => ntoa addr
  | .inr name => some name

/-- Where the connection goes: the proxy, or the server, whose name may have to be resolved -/
def openConnection (settings : HttpcConnection α) (server : α ⊕ List UInt8) (port : UInt16)
    (a : StartAnswers α) : Err × Bool × List (LifeAct α) :=
  let toAddr addr :=
    let (err, acts) := httpcGetInternalAddr port addr a.connect
    (err, false, acts)
  if settings.useProxy then toAddr settings.proxyAddr
  else match server with
    | .inl addr => toAddr addr
    | .inr name => httpcGetInternalDns port name a

/-- `httpc_get_file` (http_client.c:640–669) for an address, and `httpc_get_file_dns`
(http_client.c:685–713) for a name -/
def httpcGetFile (ntoa : α → Option (List UInt8)) (q : Ask α) (a : StartAnswers α) :
    Err × Life α :=
  match q.server, q.uri with
  | some server, some uri =>
    if !q.recvFn then (.arg, ⟨none, []⟩)
    else match serverName ntoa server with
      | none => (.val, ⟨none, []⟩)
      | some name =>
        let i := httpcInitConnectionCommon m q.settings name q.port uri true a
        match i.req, q.settings with
        | some (req, port), some settings =>
          finishStart i req port a (openConnection settings server port a)
        | _, _ => (i.err, ⟨none, i.acts⟩)
  | _, _ => (.arg, ⟨none, []⟩)

/-! ## Runs -/

/-- What happens after the start: the resolver has an answer, with what `altcp_connect` returns
then, or lwIP calls back. -/
inductive LifeEvent (α : Type) where
  | dnsFound (addr : Option α) (connect : Err) (a : Answers)
  | called (e : Event) (a : Answers)
deriving DecidableEq, Repr

/-- `httpc_dns_found` (http_client.c:447–469) -/
def httpcDnsFound (c : Settings) (req : HttpcState) (port : UInt16) (addr : Option α)
    (connect : Err) (a : Answers) : Outcome × List (LifeAct α) :=
  match addr with
  | some addr =>
    let (err, acts) := httpcGetInternalAddr port addr connect
    if err = .ok then (⟨some req, .ok, []⟩, acts)
    else (httpcClose c req .errConnect 0 err a, acts)
  | none => (httpcClose c req .errHostname 0 .arg a, [])

def Life.step (L : Pbufs) (c : Settings) (s : Life α) : LifeEvent α → Option (Life α)
  | .dnsFound addr connect a => match s.phase with
    | some (.resolving req port) =>
      let (o, acts) := httpcDnsFound c req port addr connect a
      some ⟨some (.opened ⟨o.req, o.ret, o.acts⟩), s.before ++ acts⟩
    | _ => none
  | .called e a => match s.phase with
    | some (.opened conn) => (Conn.step L c conn (e, a)).map fun conn =>
        ⟨some (.opened conn), s.before⟩
    | _ => none

end Start

end PicoHost.Http
