import PicoHost.Lib.Find
import PicoHost.Lib.Run
import PicoHost.Ota.Http
import Mathlib.Algebra.Group.Nat.Defs

/-!
# The HTTP client (`http_client.c`)

One request of lwIP's HTTP client, from `httpc_get_file` to the call of `result_fn`. lwIP calls
back with what TCP has received, in whatever pieces it came, every half second
(`httpc_tcp_poll`), and when the connection is there or lost. What the client calls is kept in
order: the callbacks of the application, and the functions of lwIP that dispose of something.

The functions that read a chain of pbufs are lwIP's and a parameter, with what its
documentation says of them.
-/

namespace PicoHost.Http

open Ota (Chunk HttpcResult)
open Find (At find)

/-! ## What lwIP provides -/

/-- A chain of pbufs, as the payloads of its pbufs. `NULL` is the empty list. -/
abbrev Chain := List Chunk

/-- `tot_len` -/
def Chain.totLen (p : Chain) : Nat := p.flatten.length

/-- `err_t` -/
inductive Err where
  | ok | mem | val | abrt | arg
  | other (code : Int)
deriving DecidableEq, Repr

/-- The functions of pbuf.c that the client uses: `pbuf_memfind`, `pbuf_memcmp`, `pbuf_get_at`,
`pbuf_copy_partial`, `pbuf_cat` and `pbuf_free_header`. -/
structure Pbufs where
  memfind : Chain → List UInt8 → Nat → Nat
  memcmp : Chain → Nat → List UInt8 → Nat
  getAt : Chain → Nat → UInt8
  copyPartial : Chain → Nat → Nat → List UInt8
  cat : Chain → Chain → Chain
  freeHeader : Chain → Nat → Chain

/-- What their documentation says, of chains whose length fits in `tot_len`. -/
structure Pbufs.Documented (L : Pbufs) : Prop where
  memfind_eq : ∀ p mem start, p.totLen ≤ 0xFFFF → mem ≠ [] →
    L.memfind p mem start = (find mem p.flatten start).getD 0xFFFF
  memcmp_eq : ∀ p offset s, L.memcmp p offset s = 0 ↔ At s p.flatten offset
  getAt_eq : ∀ p offset, L.getAt p offset = p.flatten.getD offset 0
  copyPartial_eq : ∀ p len offset, L.copyPartial p len offset = (p.flatten.drop offset).take len
  cat_eq : ∀ h t, L.cat h t = h ++ t
  freeHeader_eq : ∀ p size, (L.freeHeader p size).flatten = p.flatten.drop size

/-- An implementation that copies what it returns -/
def Pbufs.simple : Pbufs where
  memfind p mem start := (find mem p.flatten start).getD 0xFFFF
  memcmp p offset s := if At s p.flatten offset then 0 else 0xFFFF
  getAt p offset := p.flatten.getD offset 0
  copyPartial p len offset := (p.flatten.drop offset).take len
  cat h t := h ++ t
  freeHeader p size := if p.flatten.drop size = [] then [] else [p.flatten.drop size]

theorem Pbufs.simple_documented : Pbufs.simple.Documented where
  memfind_eq _ _ _ _ _ := rfl
  memcmp_eq p offset s := by
    show (if At s p.flatten offset then 0 else 0xFFFF) = 0 ↔ _
    by_cases h : At s p.flatten offset
    · exact ⟨fun _ => h, fun _ => if_pos h⟩
    · rw [if_neg h]
      exact ⟨fun hne => absurd hne (by decide), fun hat => absurd hat h⟩
  getAt_eq _ _ := rfl
  copyPartial_eq _ _ _ := rfl
  cat_eq _ _ := rfl
  freeHeader_eq p size := by
    show (if p.flatten.drop size = [] then [] else [p.flatten.drop size]).flatten = _
    by_cases h : p.flatten.drop size = []
    · rw [if_pos h, h]
      rfl
    · rw [if_neg h]
      exact List.append_nil _

/-! ## Texts and numbers -/

/-- The bytes of a text -/
def text (cs : List Char) : List UInt8 := cs.map fun c => .ofNat c.toNat

def crlf : List UInt8 := text ['\r', '\n']

def crlfCrlf : List UInt8 := text ['\r', '\n', '\r', '\n']

def space : UInt8 := 32

def httpSlash : List UInt8 := text ['H', 'T', 'T', 'P', '/']

/-- `"Content-Length: "` -/
def contentLengthText : List UInt8 :=
  text ['C', 'o', 'n', 't', 'e', 'n', 't', '-', 'L', 'e', 'n', 'g', 't', 'h', ':', ' ']

def isSpace (c : UInt8) : Bool := c = 32 ∨ 9 ≤ c ∧ c ≤ 13

def isDigit (c : UInt8) : Bool := 48 ≤ c ∧ c ≤ 57

/-- The number that the digits at the beginning of the text are, after the number so far -/
def readDigits : Nat → List UInt8 → Nat
  | n, [] => n
  | n, c :: cs => if isDigit c then readDigits (10 * n + (c.toNat - 48)) cs else n

/-- An `int`; what is too large or too small is cut off, as `strtol` does. -/
def clampInt (n : Int) : Int := max (-0x80000000) (min n 0x7FFFFFFF)

/-- `atoi`. The end of the list is the terminating zero. -/
def atoi (s : List UInt8) : Int :=
  match s.dropWhile isSpace with
  | [] => 0
  | c :: cs =>
    if c = 45 then clampInt (-(readDigits 0 cs : Int)) -- '-'
    else if c = 43 then clampInt (readDigits 0 cs) -- '+'
    else clampInt (readDigits 0 (c :: cs))

/-! ## Parsing -/

/-- `HTTPC_CONTENT_LEN_INVALID` -/
def httpcContentLenInvalid : Nat := 0xFFFFFFFF

/-- `HTTPC_POLL_TIMEOUT` -/
def httpcPollTimeout : Nat := 30

/-- What `http_parse_response_status` stores. It returns `ERR_OK` if it stores a status. -/
structure StatusLine where
  version : Option UInt16
  statusStrOffset : Option Nat
  status : Option Nat
deriving DecidableEq, Repr

section Parsing

variable (L : Pbufs)

/-- The status that the number between the blanks is; `statusNumLen` is a `size_t`, and
`status_num` has ten bytes. -/
def parseStatusNum (p : Chain) (space1 statusNumLen : Nat) : Option Nat :=
  if statusNumLen < 10 then
    let statusNum := L.copyPartial p statusNumLen (space1 + 1)
    if statusNum.length = statusNumLen then
      let status := atoi statusNum
      if 0 < status ∧ status ≤ 0xFFFF then some status.toNat else none
    else none
  else none

/-- `http_parse_response_status` (http_client.c:206–247) -/
def httpParseResponseStatus (p : Chain) : StatusLine :=
  let end1 := L.memfind p crlf 0
  if end1 ≠ 0xFFFF then
    let space1 := L.memfind p [space] 0
    if space1 ≠ 0xFFFF then
      if L.memcmp p 0 httpSlash = 0 ∧ L.getAt p 6 = 46 then
        let version := ((L.getAt p 5).toUInt16 - 48) <<< 8 ||| ((L.getAt p 7).toUInt16 - 48)
        let space2 := L.memfind p [space] (space1 + 1)
        if space2 ≠ 0xFFFF then
          ⟨some version, some (space2 + 1),
            parseStatusNum L p space1 ((space2 + 2 ^ 32 - space1 - 1) % 2 ^ 32)⟩
        else
          -- the blank may be behind the line: the length of the number then is a huge `size_t`
          ⟨some version, none, parseStatusNum L p space1 ((end1 + 2 ^ 32 - space1 - 1) % 2 ^ 32)⟩
      else ⟨none, none, none⟩
    else ⟨none, none, none⟩
  else ⟨none, none, none⟩

/-- The content length of `http_wait_headers` (http_client.c:256–276): the number after the first
`"Content-Length: "` of all that has been received -/
def contentLength (p : Chain) : Nat :=
  let contentLenHdr := L.memfind p contentLengthText 0
  if contentLenHdr ≠ 0xFFFF then
    let contentLenLineEnd := L.memfind p crlf contentLenHdr
    if contentLenLineEnd ≠ 0xFFFF then
      let contentLenNumLen := (contentLenLineEnd + 2 ^ 17 - contentLenHdr - 16) % 2 ^ 16
      if contentLenNumLen < 16 then
        let contentLenNum := L.copyPartial p contentLenNumLen (contentLenHdr + 16)
        if contentLenNum.length = contentLenNumLen then
          let len := atoi contentLenNum
          if 0 ≤ len ∧ len.toNat < httpcContentLenInvalid then len.toNat
          else httpcContentLenInvalid
        else httpcContentLenInvalid
      else httpcContentLenInvalid
    else httpcContentLenInvalid
  else httpcContentLenInvalid

/-- `http_wait_headers` (http_client.c:250–282): `content_length` and `total_header_len`, or
`ERR_VAL` -/
def httpWaitHeaders (p : Chain) : Option (Nat × Nat) :=
  let end1 := L.memfind p crlfCrlf 0
  if end1 < 0xFFFF - 2 then some (contentLength L p, (end1 + 4) % 2 ^ 16) else none

end Parsing

/-! ## The state of a request -/

/-- `httpc_parse_state_t` -/
inductive ParseState where
  | waitFirstLine | waitHeaders | rxData
deriving DecidableEq, Repr

/-- `httpc_state_t`: `pcb` says whether there is a connection to dispose of; the pbuf of the request
and those of the headers are there or `NULL`. -/
structure HttpcState where
  pcb : Bool
  timeoutTicks : Nat
  request : Option (List UInt8)
  rxHdrs : Chain
  rxHttpVersion : UInt16
  rxStatus : Nat
  rxContentLen : Nat
  hdrContentLen : Nat
  parseState : ParseState
deriving DecidableEq, Repr

/-- Which functions of `httpc_connection_t` are set, and whether `recv_fn` is -/
structure Settings where
  resultFn : Bool
  headersDoneFn : Bool
  recvFn : Bool
deriving DecidableEq, Repr

/-- What the client calls: functions of the application, and functions of lwIP -/
inductive Act where
  | headersDone (hdr : Chain) (hdrLen contentLen : Nat)
  | recv (p : Chain)
  | result (httpcResult : HttpcResult) (rxContentLen srvRes : Nat) (err : Err)
  | recved (len : Nat)
  | pbufFree (p : Chain)
  | pbufFreeHeader (p : Chain) (size : Nat)
  | memFree
  | close
  | abort
  | write (dataptr : List UInt8)
  | output
deriving DecidableEq, Repr

/-- What the functions that a callback calls return: `headers_done_fn`, `recv_fn`, `altcp_close`
and `altcp_write` -/
structure Answers where
  headersDone : Err
  recv : Err
  close : Err
  write : Err
deriving DecidableEq, Repr

/-- What a callback leaves: the state, unless it is freed, what it returns, and what it has
called. -/
structure Outcome where
  req : Option HttpcState
  ret : Err
  acts : List Act
deriving DecidableEq, Repr

/-- What has been called before goes first. -/
def Outcome.after (acts : List Act) (o : Outcome) : Outcome := { o with acts := acts ++ o.acts }

/-! ## The callbacks of the client -/

/-- `httpc_free_state` (http_client.c:156–188) -/
def httpcFreeState (req : HttpcState) (a : Answers) : Outcome :=
  let request := req.request.toList.map fun payload => Act.pbufFree [payload]
  let rxHdrs := if req.rxHdrs ≠ [] then [Act.pbufFree req.rxHdrs] else []
  let freed := request ++ rxHdrs ++ [.memFree]
  if req.pcb then
    if a.close ≠ .ok then ⟨none, .abrt, freed ++ [.close, .abort]⟩
    else ⟨none, .ok, freed ++ [.close]⟩
  else ⟨none, .ok, freed⟩

/-- `httpc_close` (http_client.c:191–203) -/
def httpcClose (c : Settings) (req : HttpcState) (result : HttpcResult) (serverResponse : Nat)
    (err : Err) (a : Answers) : Outcome :=
  let called := if c.resultFn then [.result result req.rxContentLen serverResponse err] else []
  (httpcFreeState req a).after called

/-- The last part of `httpc_tcp_recv` (http_client.c:343–355), on data -/
def rxData (c : Settings) (req : HttpcState) (p : Chain) (a : Answers) : Outcome :=
  if p ≠ [] then
    let req := { req with
      rxContentLen := (req.rxContentLen + p.totLen) % 2 ^ 32
      timeoutTicks := httpcPollTimeout }
    if c.recvFn then ⟨some req, a.recv, [.recv p]⟩
    else ⟨some req, .ok, [.recved p.totLen, .pbufFree p]⟩
  else ⟨some req, .ok, []⟩

section Callbacks

variable (L : Pbufs) (c : Settings)

/-- The state after the search for the first line -/
def firstLine (req : HttpcState) : HttpcState :=
  let line := httpParseResponseStatus L req.rxHdrs
  let req := { req with rxHttpVersion := line.version.getD req.rxHttpVersion }
  match line.status with
  | some status => { req with rxStatus := status, parseState := .waitHeaders }
  | none => req

/-- The search for the end of the headers, and what follows it -/
def headers (req : HttpcState) (a : Answers) : Outcome :=
  match httpWaitHeaders L req.rxHdrs with
  | none => ⟨some req, .ok, []⟩
  | some (contentLen, totalHeaderLen) =>
    let req := { req with hdrContentLen := contentLen }
    let recved := [.recved totalHeaderLen]
    let called :=
      if c.headersDoneFn then [.headersDone req.rxHdrs totalHeaderLen contentLen] else []
    if c.headersDoneFn ∧ a.headersDone ≠ .ok then
      (httpcClose c req .localAbort req.rxStatus a.headersDone a).after (recved ++ called)
    else
      let q := L.freeHeader req.rxHdrs totalHeaderLen
      let hidden := [.pbufFreeHeader req.rxHdrs totalHeaderLen]
      (rxData c { req with rxHdrs := [], parseState := .rxData } q a).after
        (recved ++ called ++ hidden)

/-- `httpc_tcp_recv` (http_client.c:285–357) -/
def httpcTcpRecv (req : HttpcState) (p : Chain) (a : Answers) : Outcome :=
  if p = [] then
    let result :=
      if req.parseState ≠ .rxData then HttpcResult.errClosed
      else if req.hdrContentLen ≠ httpcContentLenInvalid ∧ req.hdrContentLen ≠ req.rxContentLen
      then .errContentLen
      else .ok
    httpcClose c req result req.rxStatus .ok a
  else if req.parseState ≠ .rxData then
    let req := { req with rxHdrs := if req.rxHdrs = [] then p else L.cat req.rxHdrs p }
    let req := if req.parseState = .waitFirstLine then firstLine L req else req
    if req.parseState = .waitHeaders then headers L c req a else ⟨some req, .ok, []⟩
  else rxData c req p a

/-- `httpc_tcp_err` (http_client.c:360–369) -/
def httpcTcpErr (req : HttpcState) (err : Err) (a : Answers) : Outcome :=
  httpcClose c { req with pcb := false } .errClosed 0 err a

/-- `httpc_tcp_poll` (http_client.c:372–387) -/
def httpcTcpPoll (req : HttpcState) (a : Answers) : Outcome :=
  let req := { req with timeoutTicks := req.timeoutTicks - 1 }
  if req.timeoutTicks = 0 then httpcClose c req .errTimeout 0 .ok a else ⟨some req, .ok, []⟩

/-- `httpc_tcp_connected` (http_client.c:401–421), with the request to send; the last byte is the
terminating zero. -/
def httpcTcpConnected (req : HttpcState) (payload : List UInt8) (a : Answers) : Outcome :=
  let written := [.write payload.dropLast]
  if a.write ≠ .ok then (httpcClose c req .errMem 0 a.write a).after written
  else ⟨some { req with request := none }, .ok, written ++ [.pbufFree [payload], .output]⟩

/-! ## Runs -/

/-- What lwIP calls back with -/
inductive Event where
  | recv (p : Chain)
  | err (err : Err)
  | poll
  | sent (len : Nat)
  | connected (err : Err)
deriving DecidableEq, Repr

/-- A request: its state, what the last callback returned, and what has been called so far -/
structure Conn where
  req : Option HttpcState
  ret : Err
  acts : List Act
deriving DecidableEq, Repr

/-- One callback. When the state is freed none is registered any more, and a connection is
established once. -/
def callback (req : HttpcState) (e : Event) (a : Answers) : Option Outcome :=
  match e with
  | .recv p => some (httpcTcpRecv L c req p a)
  | .err err => some (httpcTcpErr c req err a)
  | .poll => some (httpcTcpPoll c req a)
  | .sent _ => some ⟨some req, .ok, []⟩
  | .connected _ => req.request.map fun payload => httpcTcpConnected c req payload a

def Conn.step (s : Conn) (i : Event × Answers) : Option Conn :=
  s.req.bind fun req => (callback L c req i.1 i.2).map fun o => ⟨o.req, o.ret, s.acts ++ o.acts⟩

end Callbacks

/-- A request that `httpc_get_file` has started -/
def HttpcState.started (request : List UInt8) : HttpcState where
  pcb := true
  timeoutTicks := httpcPollTimeout
  request := some request
  rxHdrs := []
  rxHttpVersion := 0
  rxStatus := 0
  rxContentLen := 0
  hdrContentLen := httpcContentLenInvalid
  parseState := .waitFirstLine

def Conn.started (request : List UInt8) : Conn := ⟨some (.started request), .ok, []⟩

end PicoHost.Http
