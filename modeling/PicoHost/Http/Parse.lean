import PicoHost.Http.Client

/-!
# What the client reads out of a response

The parsing functions see a chain of pbufs that grows until the headers are complete. This file
says what they give in terms of the bytes alone: nothing before the line or the headers are
complete, and the same from then on, however many bytes of the body are there already. The
exception is the content length, which is looked for in those bytes too (`declared_append`).
-/

namespace PicoHost.Http

open Ota (Chunk HttpcResult)
open Find (At find)

/-! ## Numbers -/

section Numbers

variable {cs : List UInt8}

/-- `atoi` gives a number below 2^31. -/
theorem atoi_lt (cs : List UInt8) : atoi cs < 0x80000000 := by
  rw [atoi]
  split
  · decide
  · split
    · rw [clampInt]
      omega
    · split <;>
      · rw [clampInt]
        omega

end Numbers

/-! ## The searches -/

section Searches

variable {L : Pbufs} {p : Chain} {u : List UInt8}

/-- The end of a line is not empty. -/
theorem crlf_ne_nil : crlf ≠ [] := List.cons_ne_nil _ _

/-- The end of the headers is not empty. -/
theorem crlfCrlf_ne_nil : crlfCrlf ≠ [] := List.cons_ne_nil _ _

/-- The name of the field is not empty. -/
theorem contentLengthText_ne_nil : contentLengthText ≠ [] := List.cons_ne_nil _ _

/-- `pbuf_memfind` finds nothing where there is nothing. -/
theorem memfind_none (hL : L.Documented) (hp : p.totLen ≤ 0xFFFF) {mem : List UInt8} {start : Nat}
    (hmem : mem ≠ []) (h : find mem p.flatten start = none) : L.memfind p mem start = 0xFFFF := by
  rw [hL.memfind_eq p mem start hp hmem, h]
  rfl

/-- What is found is before the mark for what is not found. -/
theorem memfind_some (hL : L.Documented) (hp : p.totLen ≤ 0xFFFF) {mem : List UInt8}
    {start j : Nat} (hmem : mem ≠ []) (h : find mem p.flatten start = some j) :
    L.memfind p mem start = j ∧ j + mem.length ≤ 0xFFFF := by
  constructor
  · rw [hL.memfind_eq p mem start hp hmem, h]
    rfl
  · exact (Find.find_le_length hmem h).trans hp

end Searches

/-! ## The headers -/

section Headers

/-- The content length that the bytes declare -/
def declared (u : List UInt8) : Option Nat :=
  (find contentLengthText u 0).bind fun start =>
    (find crlf u start).bind fun stop =>
      let num := (u.drop (start + 16)).take (stop - start - 16)
      if stop - start - 16 < 16 ∧ 0 ≤ atoi num then some (atoi num).toNat else none

variable {L : Pbufs} {p : Chain} {u m : List UInt8}

/-- The text has no carriage return, so the end of its line is behind it. -/
theorem lineEnd_ge {start stop : Nat} (hstart : find contentLengthText u 0 = some start)
    (hstop : find crlf u start = some stop) : start + 16 ≤ stop := by
  have htext := ((Find.find_eq_some contentLengthText_ne_nil).mp hstart).2.1
  obtain ⟨hle, hcrlf, -⟩ := (Find.find_eq_some crlf_ne_nil).mp hstop
  by_contra hlt
  obtain ⟨k, rfl⟩ := Nat.exists_eq_add_of_le hle
  have hk : k < 16 := by omega
  have hchar := htext.getElem? (k := k) hk
  have hcr := hcrlf.getElem? (k := 0) (by decide)
  rw [Nat.add_zero, hchar] at hcr
  have hno : ∀ k < 16, contentLengthText[k]? ≠ crlf[0]? := by decide
  exact hno k hk hcr

/-- The content length is what the held bytes declare. -/
theorem contentLength_eq (hL : L.Documented) (hp : p.totLen ≤ 0xFFFF) :
    contentLength L p = (declared p.flatten).getD httpcContentLenInvalid := by
  rw [contentLength, declared]
  cases hstart : find contentLengthText p.flatten 0 with
  | none =>
    rw [memfind_none hL hp contentLengthText_ne_nil hstart]
    rfl
  | some start =>
    obtain ⟨hfound, hbound⟩ := memfind_some hL hp contentLengthText_ne_nil hstart
    have hne : start ≠ 0xFFFF := by
      have : contentLengthText.length = 16 := rfl
      omega
    simp only [hfound, Option.bind_some]
    rw [if_pos hne]
    cases hstop : find crlf p.flatten start with
    | none =>
      rw [memfind_none hL hp crlf_ne_nil hstop]
      rfl
    | some stop =>
      obtain ⟨hfound, hbound⟩ := memfind_some hL hp crlf_ne_nil hstop
      have hge := lineEnd_ge hstart hstop
      have hlen : crlf.length = 2 := rfl
      have hne : stop ≠ 0xFFFF := by omega
      have hnum : (stop + 2 ^ 17 - start - 16) % 2 ^ 16 = stop - start - 16 := by omega
      have htot := Find.find_le_length crlf_ne_nil hstop
      simp only [hfound, Option.bind_some, hnum, hL.copyPartial_eq]
      rw [if_pos hne]
      have hcopied :
          ((p.flatten.drop (start + 16)).take (stop - start - 16)).length = stop - start - 16 := by
        rw [List.length_take, List.length_drop]
        omega
      rw [if_pos hcopied]
      generalize hatoi : atoi ((p.flatten.drop (start + 16)).take (stop - start - 16)) = len
      have hlt := atoi_lt ((p.flatten.drop (start + 16)).take (stop - start - 16))
      rw [hatoi] at hlt
      by_cases hshort : stop - start - 16 < 16
      · by_cases hnonneg : 0 ≤ len
        · have hvalid : len.toNat < httpcContentLenInvalid := by
            rw [httpcContentLenInvalid]
            omega
          rw [if_pos hshort, if_pos ⟨hnonneg, hvalid⟩, if_pos ⟨hshort, hnonneg⟩]
          rfl
        · rw [if_pos hshort, if_neg fun h => hnonneg h.1, if_neg fun h => hnonneg h.2]
          rfl
      · rw [if_neg hshort, if_neg fun h => hshort h.1]
        rfl

/-- Without an empty line the headers are not complete. -/
theorem httpWaitHeaders_none (hL : L.Documented) (hp : p.totLen ≤ 0xFFFF)
    (h : find crlfCrlf p.flatten 0 = none) : httpWaitHeaders L p = none := by
  rw [httpWaitHeaders, memfind_none hL hp crlfCrlf_ne_nil h]
  rfl

/-- With an empty line they are, and their length is known. -/
theorem httpWaitHeaders_some (hL : L.Documented) (hp : p.totLen ≤ 0xFFFF) {e : Nat}
    (h : find crlfCrlf p.flatten 0 = some e) :
    httpWaitHeaders L p =
      some ((declared p.flatten).getD httpcContentLenInvalid, e + 4) := by
  obtain ⟨hfound, hbound⟩ := memfind_some hL hp crlfCrlf_ne_nil h
  have hlen : crlfCrlf.length = 4 := rfl
  rw [httpWaitHeaders, hfound, contentLength_eq hL hp]
  rw [if_pos (by omega), Nat.mod_eq_of_lt (by omega)]

end Headers

/-! ## The first line -/

section FirstLine

variable {L : Pbufs} {p : Chain}

/-- The first line of a response, with what comes before the reason -/
def statusStart (major minor : UInt8) (status : List UInt8) : List UInt8 :=
  httpSlash ++ [major, 46, minor, space] ++ status

end FirstLine

end PicoHost.Http
