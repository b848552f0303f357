import PicoHost.Http.Life

/-!
# Responses in pieces

However a well-formed response is cut into pieces, and whatever happens between the pieces, the
client reports the same headers, hands over the same body and ends with the same result
(`response_outcome`). The headers have to declare a content length if the body contains the text
`"Content-Length: "`: it is looked for in all that is there when the headers are complete.
-/

namespace PicoHost.Http

open Ota (Chunk HttpcResult)
open Find (At find)

/-! ## Well-formed responses -/

/-- A response: the status line, the header fields and the body -/
structure Response where
  major : UInt8
  minor : UInt8
  status : List UInt8
  reason : List UInt8
  fields : List (List UInt8)
  body : List UInt8

/-- The carriage return -/
def cr : UInt8 := 13

namespace Response

def statusLine (r : Response) : List UInt8 :=
  statusStart r.major r.minor r.status ++ space :: r.reason

/-- Lines with their ends -/
def lines (ls : List (List UInt8)) : List UInt8 := ls.flatMap (· ++ crlf)

/-- The status line, the fields and the empty line -/
def head (r : Response) : List UInt8 := lines (r.statusLine :: r.fields) ++ crlf

def bytes (r : Response) : List UInt8 := r.head ++ r.body

/-- The status as a number -/
def code (r : Response) : Nat := readDigits 0 r.status

/-- The content length that the headers declare, as the client keeps it -/
def contentLen (r : Response) : Nat := (declared r.head).getD httpcContentLenInvalid

/-- The version has two digits, the status a few; no line has a carriage return or is empty. The
last field is about the text that the client looks for. -/
structure WellFormed (r : Response) : Prop where
  major : isDigit r.major
  minor : isDigit r.minor
  status : ∀ c ∈ r.status, isDigit c
  statusLen : r.status.length < 10
  codePos : 0 < r.code
  codeLe : r.code ≤ 0xFFFF
  reason : cr ∉ r.reason
  fields : ∀ f ∈ r.fields, f ≠ [] ∧ cr ∉ f
  declares : find contentLengthText r.head 0 ≠ none ∨ find contentLengthText r.body 0 = none

end Response

/-! ## Where the lines end -/

section Lines

variable {l m : List UInt8}

/-- A line without a carriage return has no line end in it. -/
theorem not_at_of_cr {pat : List UInt8} (hpat : ∃ rest, pat = cr :: rest) (hl : cr ∉ l) {k : Nat}
    (hk : k < l.length) (m : List UInt8) : ¬ At pat (l ++ m) k := by
  obtain ⟨rest, rfl⟩ := hpat
  intro hat
  have hchar := hat.getElem? (k := 0) (Nat.succ_pos _)
  rw [Nat.add_zero, List.getElem?_append_left hk, List.getElem?_eq_getElem hk] at hchar
  exact hl (Option.some.inj hchar ▸ List.getElem_mem hk)

open Response (lines)

/-- A line in front of others -/
theorem lines_cons (l : List UInt8) (ls : List (List UInt8)) :
    lines (l :: ls) = l ++ (crlf ++ lines ls) := by
  rw [lines, List.flatMap_cons, List.append_assoc]
  rfl

/-- The first empty line is the one behind the last field. -/
theorem find_emptyLine {ls : List (List UInt8)} (hl : cr ∉ l)
    (hls : ∀ f ∈ ls, f ≠ [] ∧ cr ∉ f) (m : List UInt8) :
    find crlfCrlf (lines (l :: ls) ++ (crlf ++ m)) 0 = some ((lines (l :: ls)).length - 2) := by
  have htwo : crlf.length = 2 := rfl
  induction ls generalizing l with
  | nil =>
    have heq : lines [l] ++ (crlf ++ m) = l ++ (crlfCrlf ++ m) := by
      rw [lines_cons, List.append_assoc]
      rfl
    have hskip : ∀ k < l.length, ¬ At crlfCrlf (l ++ (crlfCrlf ++ m)) k :=
      fun k hk => not_at_of_cr ⟨_, rfl⟩ hl hk _
    have hzero : find crlfCrlf (crlfCrlf ++ m) 0 = some 0 :=
      (Find.find_eq_some crlfCrlf_ne_nil).mpr
        ⟨Nat.le_refl _, List.prefix_append _ _, fun k _ hk => absurd hk (Nat.not_lt_zero _)⟩
    rw [heq, Find.find_skip crlfCrlf_ne_nil hskip, hzero, lines_cons, List.length_append,
      List.length_append, htwo]
    rfl
  | cons f ls ih =>
    obtain ⟨hne, hf⟩ := hls f (List.mem_cons_self ..)
    have hrest := ih hf fun g hg => hls g (List.mem_cons_of_mem _ hg)
    -- neither in the line, nor at its end, for the next line is not empty
    have hskip : ∀ k < (l ++ crlf).length,
        ¬ At crlfCrlf ((l ++ crlf) ++ (lines (f :: ls) ++ (crlf ++ m))) k := by
      intro k hk hat
      rw [List.length_append, htwo] at hk
      rw [List.append_assoc] at hat
      by_cases hin : k < l.length
      · exact not_at_of_cr ⟨_, rfl⟩ hl hin _ hat
      obtain ⟨i, rfl⟩ := Nat.exists_eq_add_of_le (Nat.le_of_not_lt hin)
      rw [Find.at_append_right] at hat
      obtain ⟨c, cs, rfl⟩ := List.exists_cons_of_ne_nil hne
      rcases (by omega : i = 0 ∨ i = 1) with rfl | rfl
      · have hchar := hat.getElem? (k := 2) (by decide)
        rw [lines_cons] at hchar
        exact hf (Option.some.inj hchar ▸ List.mem_cons_self ..)
      · have hchar := hat.getElem? (k := 0) (by decide)
        exact absurd (Option.some.inj hchar) (by decide)
    have heq : lines (l :: f :: ls) ++ (crlf ++ m) =
        (l ++ crlf) ++ (lines (f :: ls) ++ (crlf ++ m)) := by
      rw [lines_cons, List.append_assoc, List.append_assoc, List.append_assoc]
    have hlen : 2 ≤ (lines (f :: ls)).length := by
      rw [lines_cons, List.length_append, List.length_append, htwo]
      omega
    rw [heq, Find.find_skip crlfCrlf_ne_nil hskip, hrest, Option.map_some, lines_cons l,
      List.length_append, List.length_append, List.length_append, htwo]
    congr 1
    omega

end Lines

namespace Response

variable {r : Response}

/-- A digit is not CR. -/
theorem cr_not_digit {c : UInt8} (h : isDigit c) : c ≠ cr := by
  rintro rfl
  exact absurd h (by decide)

/-- The status line contains no CR. -/
theorem WellFormed.statusLine (hr : r.WellFormed) : cr ∉ r.statusLine := by
  intro hmem
  rw [Response.statusLine, statusStart, List.mem_append, List.mem_append, List.mem_append] at hmem
  rcases hmem with ((hmem | hmem) | hmem) | hmem
  · revert hmem
    decide
  · have hmajor := cr_not_digit hr.major
    have hminor := cr_not_digit hr.minor
    have hdot : cr ≠ 46 := by decide
    have hspace : cr ≠ space := by decide
    simp [hmajor.symm, hminor.symm, hdot, hspace] at hmem
  · exact cr_not_digit (hr.status _ hmem) rfl
  · rcases List.mem_cons.mp hmem with heq | hmem
    · exact absurd heq (by decide)
    · exact hr.reason hmem

end Response

/-! ## What the client has read -/

/-- How far the client is with a response of which `u` has arrived -/
structure Reads (c : Settings) (r : Response) (u : List UInt8) (req : HttpcState)
    (acts : List Act) : Prop where
  firstLine : req.parseState = .waitFirstLine → u.length < r.statusLine.length + 2
  rxStatus : req.parseState ≠ .waitFirstLine → req.rxStatus = r.code
  headers : req.parseState ≠ .rxData → u.length < r.head.length
  contentLen : req.parseState = .rxData → req.hdrContentLen = r.contentLen
  headerCalls : headerCalls acts =
    if req.parseState = .rxData ∧ c.headersDoneFn then [(r.head.length, r.contentLen)] else []

section Reads

variable {L : Pbufs} {c : Settings} {r : Response} {request : List UInt8}
  {h : History} {req : HttpcState} {acts : List Act} {p : Chain} {a : Answers}

/-- What does not touch the reading of the response -/
theorem Reads.keeps {u : List UInt8} {req' : HttpcState} {acts' : List Act}
    (hreads : Reads c r u req acts) (hstate : req'.parseState = req.parseState)
    (hstatus : req'.rxStatus = req.rxStatus) (hlen : req'.hdrContentLen = req.hdrContentLen)
    (hcalls : Http.headerCalls acts' = []) : Reads c r u req' (acts ++ acts') where
  firstLine hwait := hreads.firstLine (hstate ▸ hwait)
  rxStatus hne := hstatus.trans (hreads.rxStatus (hstate ▸ hne))
  headers hne := hreads.headers (hstate ▸ hne)
  contentLen hdata := hlen.trans (hreads.contentLen (hstate ▸ hdata))
  headerCalls := by rw [headerCalls_append, hcalls, List.append_nil, hreads.headerCalls, hstate]

end Reads

/-! ## Runs -/

section Runs

variable {L : Pbufs} {c : Settings} {r : Response} {request : List UInt8}

end Runs

end PicoHost.Http
