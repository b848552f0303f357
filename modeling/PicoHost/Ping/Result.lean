import Mathlib.Algebra.GroupWithZero.Nat
import Mathlib.Data.List.Induction
import Mathlib.Order.OrderDual
import PicoHost.Lib.Best
import PicoHost.Ping.Receive

/-!
# The statistics of the deprecated ping (`esp_ping.c`, `ping.c`)

`esp_ping_result` adds one result to the statistics; `ping.c` calls it with the size and the time
that the session has at that moment. The counters, sums and extremes are what they are called
unless a value of 32 bits overflows, timeouts come with a size other than zero, or the last time
is positive after a time of zero, which stands for no minimum yet.
-/

namespace PicoHost.Ping

/-- `PING_RES_TIMEOUT`, `PING_RES_OK` and `PING_RES_FINISH` -/
def pingResTimeout : UInt8 := 0

def pingResOk : UInt8 := 1

def pingResFinish : UInt8 := 2

/-- The arguments of `esp_ping_result` -/
structure PingResult where
  resVal : UInt8
  pingLen : UInt16
  pingTime : UInt32
deriving DecidableEq, Repr

/-- `esp_ping_found` -/
structure PingFound where
  respTime : UInt32
  timeoutCount : UInt32
  sendCount : UInt32
  recvCount : UInt32
  bytes : UInt32
  totalBytes : UInt32
  totalTime : UInt32
  minTime : UInt32
  maxTime : UInt32
  pingErr : Int8
deriving DecidableEq, Repr

/-- After a reset -/
def PingFound.zero : PingFound := ⟨0, 0, 0, 0, 0, 0, 0, 0, 0, 0⟩

/-- The smallest and the largest time so far -/
def minStep (minTime pingTime : UInt32) : UInt32 :=
  if minTime = 0 ∨ pingTime < minTime then pingTime else minTime

def maxStep (maxTime pingTime : UInt32) : UInt32 :=
  if maxTime < pingTime then pingTime else maxTime

/-- `esp_ping_result` (esp_ping.c:130–167): the statistics after the call, and those that the result
function is called with. `resFn` says whether there is one. -/
def espPingResult (resFn : Bool) (s : PingFound) (r : PingResult) : PingFound × Option PingFound :=
  let s := { s with pingErr := r.resVal.toInt8 }
  let s :=
    if r.resVal ≠ pingResFinish then
      let s := { s with
        bytes := r.pingLen.toUInt32
        respTime := r.pingTime
        totalBytes := s.totalBytes + r.pingLen.toUInt32
        sendCount := s.sendCount + 1 }
      if r.resVal = pingResTimeout then { s with timeoutCount := s.timeoutCount + 1 }
      else { s with
        minTime := minStep s.minTime r.pingTime
        maxTime := maxStep s.maxTime r.pingTime
        totalTime := s.totalTime + r.pingTime
        recvCount := s.recvCount + 1 }
    else s
  if resFn then (if r.resVal = pingResFinish then .zero else s, some s) else (s, none)

/-- The calls that `ping.c` makes (ping.c:239–262); a timeout leaves the size of the last reply. -/
def onPingSuccess (ep : EspPing) : PingResult :=
  ⟨pingResOk, ep.recvLen.toUInt16, ep.elapsedTimeMs⟩

def onPingTimeout (ep : EspPing) : PingResult :=
  ⟨pingResTimeout, ep.recvLen.toUInt16, ep.elapsedTimeMs⟩

def onPingEnd : PingResult := ⟨pingResFinish, 0, 0⟩

/-- The statistics after some calls since a reset -/
def statistics (resFn : Bool) (results : List PingResult) : PingFound :=
  results.foldl (fun s r => (espPingResult resFn s r).1) .zero

/-- The end of a session is a reset, where there is a result function. -/
theorem statistics_after_end (results later : List PingResult) :
    statistics true (results ++ onPingEnd :: later) = statistics true later := by
  rw [statistics, List.foldl_append, List.foldl_cons]
  rfl

/-! ## What the statistics should be -/

def successes (results : List PingResult) : List PingResult :=
  results.filter fun r => r.resVal ≠ pingResTimeout

def timeouts (results : List PingResult) : List PingResult :=
  results.filter fun r => r.resVal = pingResTimeout

/-- The round-trip times of the successes -/
def times (results : List PingResult) : List UInt32 := (successes results).map PingResult.pingTime

/-- What the bytes of some results add up to -/
def sumLen (results : List PingResult) : Nat := (results.map fun r => r.pingLen.toNat).sum

/-- The statistics are those of the results. -/
structure StatisticsOf (results : List PingResult) (s : PingFound) : Prop where
  counts : s.sendCount.toNat = s.recvCount.toNat + s.timeoutCount.toNat
  minTime : times results ≠ [] → s.minTime ∈ times results ∧ ∀ t ∈ times results, s.minTime ≤ t
  maxTime : times results ≠ [] → s.maxTime ∈ times results ∧ ∀ t ∈ times results, t ≤ s.maxTime
  totalTime : s.totalTime.toNat = ((times results).map UInt32.toNat).sum
  totalBytes : s.totalBytes.toNat = sumLen (successes results)

/-- Nothing overflows, timeouts have no bytes, and if a time is zero, the last one is. -/
structure Tame (results : List PingResult) : Prop where
  counts : (successes results).length % 2 ^ 32 + (timeouts results).length % 2 ^ 32 < 2 ^ 32
  minTime : 0 ∈ times results → (times results).getLast? = some 0
  totalTime : ((times results).map UInt32.toNat).sum < 2 ^ 32
  totalBytes : sumLen (successes results) < 2 ^ 32
  timeouts : sumLen (timeouts results) % 2 ^ 32 = 0

/-! ## The extremes -/

section Extremes

open Best (IsBest)

variable {l : List UInt32} {t : UInt32}

/-- The smaller a time, the better. -/
def shortness (t : UInt32) : Natᵒᵈ := OrderDual.toDual t.toNat

/-- The times with one more -/
theorem mem_concat_eq (l : List UInt32) (t : UInt32) :
    {u | u ∈ l ++ [t]} = insert t {u | u ∈ l} := by
  ext u
  show u ∈ l ++ [t] ↔ u = t ∨ u ∈ l
  rw [List.mem_append, List.mem_singleton, or_comm]

/-- A running value after one more time -/
theorem foldl_concat (f : UInt32 → UInt32 → UInt32) (l : List UInt32) (t : UInt32) :
    (l ++ [t]).foldl f 0 = f (l.foldl f 0) t := by
  rw [List.foldl_append]
  rfl

/-- There is no best of nothing. -/
theorem isBest_nil {α : Type*} [LinearOrder α] (f : UInt32 → α) :
    IsBest f {u | u ∈ ([] : List UInt32)} none :=
  Set.eq_empty_of_forall_notMem fun _ => List.not_mem_nil

/-- A scan without a zero finds the minimum. -/
theorem minimum_of_pos (hl : l ≠ []) (hpos : 0 ∉ l) :
    IsBest shortness {u | u ∈ l} (some (l.foldl minStep 0)) := by
  induction l using List.reverseRecOn with
  | nil => exact absurd rfl hl
  | append_singleton l t ih =>
    rw [mem_concat_eq, foldl_concat, minStep]
    by_cases hne : l = []
    · subst hne
      rw [List.foldl_nil, if_pos (Or.inl rfl)]
      exact (isBest_nil shortness).insert_self nofun
    · have hbest := ih hne fun h0 => hpos (List.mem_append_left _ h0)
      have hm : l.foldl minStep 0 ≠ 0 := fun hzero =>
        hpos (List.mem_append_left _ (hzero ▸ hbest.mem))
      split
      · rename_i hlt
        have hlt := hlt.resolve_left hm
        refine hbest.insert_self fun m hmem => ?_
        cases hmem
        exact UInt32.le_of_lt hlt
      · rename_i hnot
        exact hbest.insert_le (UInt32.not_lt.mp fun hlt => hnot (.inr hlt))

/-- What the scan has found is zero exactly when the last time is. -/
theorem foldl_minStep_eq_zero_iff (hl : l ≠ []) :
    l.foldl minStep 0 = 0 ↔ l.getLast? = some 0 := by
  rcases List.eq_nil_or_concat l with rfl | ⟨l', t, rfl⟩
  · exact absurd rfl hl
  · rw [List.concat_eq_append, foldl_concat, List.getLast?_concat, Option.some.injEq, minStep]
    split
    · rfl
    · rename_i hnot
      rw [not_or] at hnot
      refine ⟨fun hzero => absurd hzero hnot.1, fun hzero => absurd ?_ hnot.2⟩
      rw [hzero]
      exact UInt32.pos_iff_ne_zero.mpr hnot.1

/-- The code's minimum is right exactly if a time of 0 is the last one or does not occur. -/
theorem minimum_iff : (l ≠ [] → l.foldl minStep 0 ∈ l ∧ ∀ t ∈ l, l.foldl minStep 0 ≤ t) ↔
    (0 ∈ l → l.getLast? = some 0) := by
  constructor
  · intro h hmem
    have hne := List.ne_nil_of_mem hmem
    have hle := (h hne).2 0 hmem
    exact (foldl_minStep_eq_zero_iff hne).mp (UInt32.le_zero_iff.mp hle)
  · intro h hl
    by_cases hmem : 0 ∈ l
    · rw [(foldl_minStep_eq_zero_iff hl).mpr (h hmem)]
      exact ⟨hmem, fun t _ => UInt32.zero_le⟩
    · exact minimum_of_pos hl hmem

/-- For the maximum a zero does no harm. -/
theorem maximum_foldl (hl : l ≠ []) :
    IsBest UInt32.toNat {u | u ∈ l} (some (l.foldl maxStep 0)) := by
  induction l using List.reverseRecOn with
  | nil => exact absurd rfl hl
  | append_singleton l t ih =>
    rw [mem_concat_eq, foldl_concat, maxStep]
    by_cases hne : l = []
    · subst hne
      have ht : (if List.foldl maxStep 0 [] < t then t else List.foldl maxStep 0 []) = t := by
        split
        · rfl
        · rename_i hnot
          exact (UInt32.le_zero_iff.mp (UInt32.not_lt.mp hnot)).symm
      rw [ht]
      exact (isBest_nil UInt32.toNat).insert_self nofun
    · have hbest := ih hne
      split
      · rename_i hlt
        refine hbest.insert_self fun m hmem => ?_
        cases hmem
        exact UInt32.le_of_lt hlt
      · rename_i hnot
        exact hbest.insert_le (UInt32.not_lt.mp hnot)

end Extremes

/-! ## The counters and sums -/

/-- What the statistics hold after some results -/
structure Tally (results : List PingResult) (s : PingFound) : Prop where
  sendCount : s.sendCount.toNat = results.length % 2 ^ 32
  recvCount : s.recvCount.toNat = (successes results).length % 2 ^ 32
  timeoutCount : s.timeoutCount.toNat = (timeouts results).length % 2 ^ 32
  totalBytes : s.totalBytes.toNat = sumLen results % 2 ^ 32
  totalTime : s.totalTime.toNat = ((times results).map UInt32.toNat).sum % 2 ^ 32
  minTime : s.minTime = (times results).foldl minStep 0
  maxTime : s.maxTime = (times results).foldl maxStep 0

section Tally

variable {results : List PingResult} {r : PingResult} {s : PingFound} {resFn : Bool}

/-- A 32-bit sum, modulo 2^32 -/
theorem toNat_add_mod {a b : UInt32} {n : Nat} (h : a.toNat = n % 2 ^ 32) :
    (a + b).toNat = (n + b.toNat) % 2 ^ 32 := by
  rw [UInt32.toNat_add, h]
  exact Nat.mod_add_mod ..

/-- The length of a result is added. -/
theorem sumLen_concat (results : List PingResult) (r : PingResult) :
    sumLen (results ++ [r]) = sumLen results + r.pingLen.toUInt32.toNat := by
  rw [sumLen, sumLen, List.map_append, List.sum_append, UInt16.toNat_toUInt32]
  exact congrArg _ (Nat.add_zero _)

/-- A result that is no time-out is a success. -/
theorem successes_concat (h : r.resVal ≠ pingResTimeout) :
    successes (results ++ [r]) = successes results ++ [r] := by
  rw [successes, List.filter_append]
  exact congrArg _ (List.filter_cons_of_pos (decide_eq_true h))

/-- A time-out is no success. -/
theorem successes_concat_timeout (h : r.resVal = pingResTimeout) :
    successes (results ++ [r]) = successes results := by
  rw [successes, List.filter_append, List.filter_cons_of_neg (by simp [h])]
  exact List.append_nil _

/-- A time-out is counted as one. -/
theorem timeouts_concat (h : r.resVal = pingResTimeout) :
    timeouts (results ++ [r]) = timeouts results ++ [r] := by
  rw [timeouts, List.filter_append]
  exact congrArg _ (List.filter_cons_of_pos (decide_eq_true h))

/-- A success is no time-out. -/
theorem timeouts_concat_success (h : r.resVal ≠ pingResTimeout) :
    timeouts (results ++ [r]) = timeouts results := by
  rw [timeouts, List.filter_append, List.filter_cons_of_neg (by simp [h])]
  exact List.append_nil _

/-- The time of a success is recorded. -/
theorem times_concat (h : r.resVal ≠ pingResTimeout) :
    times (results ++ [r]) = times results ++ [r.pingTime] := by
  rw [times, successes_concat h, List.map_append]
  rfl

/-- One result keeps the tally. -/
theorem Tally.step (tally : Tally results s) (h : r.resVal ≠ pingResFinish) :
    Tally (results ++ [r]) (espPingResult resFn s r).1 := by
  have hret : ∀ s' : PingFound,
      (if resFn then (if r.resVal = pingResFinish then PingFound.zero else s', some s')
        else (s', none)).1 = s' := by
    intro s'
    rw [if_neg h]
    cases resFn <;> rfl
  have hsend : (s.sendCount + 1).toNat = (results ++ [r]).length % 2 ^ 32 := by
    rw [List.length_append]
    exact toNat_add_mod tally.sendCount
  have hbytes : (s.totalBytes + r.pingLen.toUInt32).toNat = sumLen (results ++ [r]) % 2 ^ 32 := by
    rw [sumLen_concat]
    exact toNat_add_mod tally.totalBytes
  rw [espPingResult, hret, if_pos h]
  dsimp only
  split
  · -- a timeout
    rename_i ht
    constructor
    · exact hsend
    · rw [successes_concat_timeout ht]
      exact tally.recvCount
    · rw [timeouts_concat ht, List.length_append]
      exact toNat_add_mod tally.timeoutCount
    · exact hbytes
    · rw [times, successes_concat_timeout ht]
      exact tally.totalTime
    · rw [times, successes_concat_timeout ht]
      exact tally.minTime
    · rw [times, successes_concat_timeout ht]
      exact tally.maxTime
  · -- a success
    rename_i ht
    constructor
    · exact hsend
    · rw [successes_concat ht, List.length_append]
      exact toNat_add_mod tally.recvCount
    · rw [timeouts_concat_success ht]
      exact tally.timeoutCount
    · exact hbytes
    · rw [times_concat ht, List.map_append, List.sum_append]
      exact toNat_add_mod tally.totalTime
    · rw [times_concat ht, foldl_concat, ← tally.minTime]
    · rw [times_concat ht, foldl_concat, ← tally.maxTime]

/-- After any results since a reset, the variables are the tally. -/
theorem tally_statistics (resFn : Bool) (h : ∀ r ∈ results, r.resVal ≠ pingResFinish) :
    Tally results (statistics resFn results) := by
  induction results using List.reverseRecOn with
  | nil => exact ⟨rfl, rfl, rfl, rfl, rfl, rfl, rfl⟩
  | append_singleton results r ih =>
    rw [statistics, List.foldl_append]
    have hr := h r (List.mem_append_right _ (List.mem_singleton_self r))
    exact (ih fun r hr => h r (List.mem_append_left _ hr)).step hr

/-- Every result is a success or a time-out. -/
theorem length_eq (results : List PingResult) :
    results.length = (successes results).length + (timeouts results).length := by
  induction results using List.reverseRecOn with
  | nil => rfl
  | append_singleton results r ih =>
    rw [List.length_append, ih]
    by_cases ht : r.resVal = pingResTimeout
    · rw [successes_concat_timeout ht, timeouts_concat ht, List.length_append, Nat.add_assoc]
    · rw [successes_concat ht, timeouts_concat_success ht, List.length_append, Nat.add_right_comm]

/-- The lengths of all results, successes and time-outs -/
theorem sumLen_eq (results : List PingResult) :
    sumLen results = sumLen (successes results) + sumLen (timeouts results) := by
  induction results using List.reverseRecOn with
  | nil => rfl
  | append_singleton results r ih =>
    rw [sumLen_concat, ih]
    by_cases ht : r.resVal = pingResTimeout
    · rw [successes_concat_timeout ht, timeouts_concat ht, sumLen_concat, Nat.add_assoc]
    · rw [successes_concat ht, timeouts_concat_success ht, sumLen_concat, Nat.add_right_comm]

end Tally

/-- The statistics since a reset are those of the results exactly when these are tame. -/
theorem statisticsOf_iff (resFn : Bool) (results : List PingResult)
    (h : ∀ r ∈ results, r.resVal ≠ pingResFinish) :
    StatisticsOf results (statistics resFn results) ↔ Tame results := by
  have tally := tally_statistics resFn h
  have hlength := length_eq results
  have hsum := sumLen_eq results
  have hsend := tally.sendCount
  have hrecv := tally.recvCount
  have htimeout := tally.timeoutCount
  have htime := tally.totalTime
  have hbytes := tally.totalBytes
  constructor
  · intro st
    have hmin := st.minTime
    rw [tally.minTime] at hmin
    have hcounts := st.counts
    have htotal := st.totalTime
    have hsumLen := st.totalBytes
    exact {
      counts := by omega
      minTime := minimum_iff.mp hmin
      totalTime := by omega
      totalBytes := by omega
      timeouts := by omega }
  · intro tame
    have hcounts := tame.counts
    have htotal := tame.totalTime
    have hsumLen := tame.totalBytes
    have hnone := tame.timeouts
    exact {
      counts := by omega
      minTime := by
        rw [tally.minTime]
        exact minimum_iff.mpr tame.minTime
      maxTime := by
        rw [tally.maxTime]
        exact fun hl => maximum_foldl hl
      totalTime := by omega
      totalBytes := by omega }

/-- Two replies with a timeout in between that has no bytes -/
def tameResults : List PingResult :=
  [⟨pingResOk, 64, 5⟩, ⟨pingResTimeout, 0, 1000⟩, ⟨pingResOk, 64, 3⟩]

/-- Results whose statistics are right -/
theorem statisticsOf_iff_tameResults :
    StatisticsOf tameResults (statistics true tameResults) :=
  (statisticsOf_iff true tameResults (by decide)).mpr
    ⟨by decide, by decide, by decide, by decide, by decide⟩

/-- A session after a reply of 64 bytes in some milliseconds -/
def replied (time : UInt32) : EspPing := { firstSent with recvLen := 64, elapsedTimeMs := time }

/-- A time of five after one of zero, and a timeout after a reply of 64 bytes -/
theorem not_statisticsOf :
    ¬ StatisticsOf [onPingSuccess (replied 0), onPingSuccess (replied 5)]
        (statistics true [onPingSuccess (replied 0), onPingSuccess (replied 5)]) ∧
      ¬ StatisticsOf [onPingSuccess (replied 5), onPingTimeout (replied 1000)]
        (statistics true [onPingSuccess (replied 5), onPingTimeout (replied 1000)]) := by
  constructor
  · intro st
    exact absurd ((st.minTime (by decide)).2 0 (by decide)) (by decide)
  · intro st
    exact absurd st.totalBytes (by decide)

end PicoHost.Ping
