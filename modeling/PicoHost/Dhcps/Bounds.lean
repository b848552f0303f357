import PicoHost.Dhcps.Run

/-!
# Accesses to the message buffer

The indices of the buffer that `handle_dhcp` writes when it copies the pbufs and that
`parse_msg` and `parse_options` read. The option loop stops at the end of the data, but
it reads the length of an option, the type and the four bytes of an address behind the
option's code unchecked.

`handleDhcp_inBounds_iff`: all accesses of a datagram lie inside the buffer, in every state
of the server, exactly when no option that the loop reaches begins too close to the end of
the buffer (`Fits`).
-/

namespace PicoHost.Dhcps

/-! ## The buffer -/

/-- A received pbuf chain. Its `tot_len` is a `u16_t`. -/
structure Pbuf where
  datagram : Datagram
  fits : (datagram.first ++ datagram.rest.flatten).length < 2 ^ 16

/-- The size that is asked of `mem_calloc`: `malloc_len` as a `mem_size_t`. -/
def Datagram.bufferSize (g : Datagram) : Nat := (UInt32.ofInt g.mallocLen).toNat

/-- The number of bytes that the option loop goes through. -/
def Datagram.optionLength (g : Datagram) : Nat := g.len.toInt16.toInt.toNat

namespace Pbuf

def totLen (p : Pbuf) : Nat := (p.datagram.first ++ p.datagram.rest.flatten).length

/-- The 16-bit length of a pbuf is the length of its chain. -/
theorem totLen_toNat (p : Pbuf) : p.datagram.totLen.toNat = p.totLen := by
  rw [Datagram.totLen, UInt16.toNat_ofNat']
  exact Nat.mod_eq_of_lt p.fits

/-- The length of a pbuf fits 16 bits. -/
theorem totLen_lt (p : Pbuf) : p.totLen < 2 ^ 16 := p.fits

/-- A 16-bit length from 2^15 on is negative as `s16_t`. -/
theorem toInt16_of_ge {x : UInt16} (h : 2 ^ 15 ≤ x.toNat) :
    x.toInt16.toInt = (x.toNat : Int) - 2 ^ 16 := by
  have h' : ¬ 2 * x.toBitVec.toNat < 2 ^ 16 := by
    rw [UInt16.toNat_toBitVec]
    omega
  have hint := BitVec.toInt_eq_toNat_cond x.toBitVec
  rw [if_neg h'] at hint
  exact hint

/-- `malloc_len` is a 16-bit number, which is negative for 32768 bytes or more. -/
theorem bufferSize_eq (p : Pbuf) : p.datagram.bufferSize =
    if p.totLen ≤ 548 then 548
    else if p.totLen < 2 ^ 15 then p.totLen
    else 2 ^ 32 - 2 ^ 16 + p.totLen := by
  have hlt := p.totLen_lt
  have htot := p.totLen_toNat
  have hof : ∀ i : Int, (UInt32.ofInt i).toNat = (i % 2 ^ 32).toNat := by
    intro i
    rw [UInt32.ofInt, UInt32.toNat_ofNat']
    omega
  rw [Datagram.bufferSize, hof, Datagram.mallocLen, htot]
  show ((if 548 < p.totLen then p.datagram.totLen.toInt16.toInt else 548) % 2 ^ 32).toNat = _
  by_cases hsmall : p.totLen ≤ 548
  · rw [if_neg (by omega), if_pos hsmall]
    rfl
  · rw [if_pos (by omega), if_neg hsmall]
    by_cases h15 : p.totLen < 2 ^ 15
    · rw [if_pos h15, toInt16_toInt (by omega)]
      omega
    · rw [if_neg h15, toInt16_of_ge (by omega)]
      omega

/-- No more is copied than has arrived. -/
theorem copied_le (p : Pbuf) : p.datagram.copied.length ≤ p.totLen := by
  rw [Datagram.copied, totLen, List.length_append, List.length_append]
  cases p.datagram.rest with
  | nil => exact Nat.le_refl _
  | cons q rest =>
    rw [List.headD_cons, List.flatten_cons, List.length_append]
    omega

/-- No more is copied than the buffer holds. -/
theorem copied_le_bufferSize (p : Pbuf) : p.datagram.copied.length ≤ p.datagram.bufferSize := by
  have hle := p.copied_le
  rw [bufferSize_eq]
  split
  · omega
  · split <;> omega

/-- The buffer holds a whole `dhcps_msg`. -/
theorem bufferSize_ge (p : Pbuf) : 548 ≤ p.datagram.bufferSize := by
  rw [bufferSize_eq]
  split
  · omega
  · split <;> omega

/-- The loop goes through what follows the first 240 bytes. -/
theorem optionLength_eq (p : Pbuf) (h : p.totLen < 2 ^ 15) :
    p.datagram.optionLength = p.totLen - 240 := by
  have htot := p.totLen_toNat
  have hint : p.datagram.totLen.toInt16.toInt = p.totLen := by
    rw [toInt16_toInt (by omega), htot]
  have hlen : p.datagram.len.toNat = (((p.totLen : Int) - 240) % 2 ^ 16).toNat := by
    rw [Datagram.len, hint, UInt16.ofInt, UInt16.toNat_ofNat']
    omega
  rw [Datagram.optionLength]
  by_cases hge : 240 ≤ p.totLen
  · rw [toInt16_toInt (by omega), hlen]
    omega
  · -- shorter than the header: a negative length
    rw [toInt16_of_ge (by omega), hlen]
    omega

/-- The length of the options is below 2^15, as it is a positive `s16_t`. -/
theorem optionLength_lt (p : Pbuf) : p.datagram.optionLength < 2 ^ 15 := by
  have hlt := p.datagram.len.toInt16.toInt_lt
  rw [Datagram.optionLength]
  omega

end Pbuf

/-! ## Accesses -/

/-- The cookie. -/
def cookieReads : List Nat := [236, 237, 238, 239]

/-- The six bytes of `chaddr` that are compared and copied. -/
def chaddrReads : List Nat := [28, 29, 30, 31, 32, 33]

def ciaddrReads : List Nat := [12, 13, 14, 15]

/-- The search over the leases compares `chaddr`, and `ciaddr` where it is the client's. -/
def searchReads (m : Msg) : List ListNode → List Nat
  | [] => []
  | p :: plist =>
    chaddrReads ++ if p.pool.mac = m.chaddr then ciaddrReads else searchReads m plist

/-- `parse_msg` up to the label `POOL_CHECK`. A new lease gets a copy of `chaddr`. -/
def selectReads (s : Server) (m : Msg) : List Nat :=
  searchReads m s.dhcps.plist ++ if (selectAddress s m).2.isSome then chaddrReads else []

/-- One turn of the option loop at `optptr`: the code, what is looked at for this code, and the
length. -/
def turnReads (m : Msg) (optptr : Nat) : List Nat :=
  optptr :: (if m optptr = dhcpOptionMsgType then [optptr + 2]
    else if m optptr = dhcpOptionReqIpaddr then [optptr + 2, optptr + 3, optptr + 4, optptr + 5]
    else []) ++ [optptr + 1]

/-- The option loop with at most `fuel` turns. `none`: it has not come to an end. -/
def optionReads (m : Msg) (stop : Nat) : Nat → Nat → Option (List Nat)
  | 0, optptr => if optptr < stop then none else some []
  | fuel + 1, optptr =>
    if optptr < stop then
      if m optptr = dhcpOptionEnd then some [optptr]
      else (optionReads m stop fuel (optptr + (m (optptr + 1)).toNat + 2)).map
        (turnReads m optptr ++ ·)
    else some []

/-- `parse_msg` -/
def parseMsgReads (fuel : Nat) (s : Server) (m : Msg) (len : UInt16) : Option (List Nat) :=
  if m.word Msg.options = magicCookie then
    let r := selectAddress s m
    let client := r.1.dhcps.clientAddress
    let options := if r.1.dhcps.dhcpsPoll.endIp < client ∨ client = 0 then some []
      else optionReads m (Msg.options + 4 + len.toInt16.toInt.toNat) fuel (Msg.options + 4)
    options.map (cookieReads ++ selectReads s m ++ ·)
  else some cookieReads

/-- `handle_dhcp`, where `calloc` says for which sizes there is memory: the copy of the pbufs and
what is read of it. -/
def handleDhcpAccesses (calloc : Nat → Bool) (fuel : Nat) (s : Server) (g : Datagram) :
    Option (List Nat) :=
  if calloc g.bufferSize then
    (parseMsgReads fuel s g.msg g.len).map (List.range g.copied.length ++ ·)
  else some []

/-! ## The option loop ends -/

/-- Once the loop has ended, more turns make no difference. -/
theorem optionReads_mono {m : Msg} {stop fuel fuel' optptr : Nat} {reads : List Nat}
    (h : optionReads m stop fuel optptr = some reads) (hle : fuel ≤ fuel') :
    optionReads m stop fuel' optptr = some reads := by
  induction fuel generalizing fuel' optptr reads with
  | zero =>
    rw [optionReads] at h
    split at h
    · cases h
    case isFalse hstop =>
      cases h
      cases fuel' with
      | zero => rw [optionReads, if_neg hstop]
      | succ fuel' => rw [optionReads, if_neg hstop]
  | succ fuel ih =>
    obtain ⟨fuel', rfl⟩ : ∃ k, fuel' = k + 1 := ⟨fuel' - 1, by omega⟩
    rw [optionReads] at h ⊢
    by_cases hstop : optptr < stop
    · rw [if_pos hstop] at h ⊢
      by_cases hend : m optptr = dhcpOptionEnd
      · rw [if_pos hend] at h ⊢
        exact h
      · rw [if_neg hend] at h ⊢
        obtain ⟨rest, hrest, hreads⟩ := Option.map_eq_some_iff.mp h
        rw [ih hrest (Nat.le_of_succ_le_succ hle)]
        exact congrArg some hreads
    · rw [if_neg hstop] at h ⊢
      exact h

/-- Every turn advances by two bytes or more, so the loop ends. -/
theorem optionReads_ends (m : Msg) (stop optptr : Nat) :
    ∃ reads, optionReads m stop (stop - optptr) optptr = some reads := by
  generalize hn : stop - optptr = n
  induction n using Nat.strongRecOn generalizing optptr with
  | ind n ih =>
    cases n with
    | zero => exact ⟨[], if_neg (by omega)⟩
    | succ n =>
      rw [optionReads, if_pos (by omega)]
      by_cases hend : m optptr = dhcpOptionEnd
      · exact ⟨[optptr], if_pos hend⟩
      · obtain ⟨rest, hrest⟩ := ih _ (by omega) (optptr + (m (optptr + 1)).toNat + 2) rfl
        rw [if_neg hend, optionReads_mono hrest (by omega)]
        exact ⟨_, rfl⟩

/-! ## The reads are complete

What `parse_msg` does depends on no byte of memory but those it is said to read. -/

section Congr

variable {m m' : Msg}

/-- A word depends on its four bytes. -/
theorem word_congr {p : Nat} (h : ∀ i ∈ [p, p + 1, p + 2, p + 3], m i = m' i) :
    m.word p = m'.word p := by
  simp only [List.forall_mem_cons] at h
  obtain ⟨h0, h1, h2, h3, -⟩ := h
  rw [Msg.word, Msg.word, h0, h1, h2, h3]

/-- The hardware address depends on the bytes that are read for it. -/
theorem chaddr_congr (h : ∀ i ∈ chaddrReads, m i = m' i) : m.chaddr = m'.chaddr := by
  funext i
  have hmem : ∀ i : Fin 6, 28 + i.val ∈ chaddrReads := by decide
  exact h _ (hmem i)

/-- The loop over the options depends on the bytes that it reads. -/
theorem optionLoop_congr {client : UInt32} {stop fuel optptr : Nat} {reads : List Nat}
    {type : UInt8} {state : ReplyState} (hreads : optionReads m stop fuel optptr = some reads)
    (h : ∀ i ∈ reads, m i = m' i) :
    optionLoop client m stop fuel optptr type state =
      optionLoop client m' stop fuel optptr type state := by
  induction fuel generalizing optptr reads type state with
  | zero => rfl
  | succ fuel ih =>
    rw [optionReads] at hreads
    rw [optionLoop, optionLoop]
    by_cases hstop : optptr < stop
    · rw [if_pos hstop] at hreads
      rw [if_pos hstop, if_pos hstop]
      by_cases hend : m optptr = dhcpOptionEnd
      · rw [if_pos hend] at hreads
        cases hreads
        have hcode := h optptr (List.mem_singleton_self _)
        rw [if_pos hend, if_pos (hcode ▸ hend)]
      · rw [if_neg hend] at hreads
        obtain ⟨rest, hrest, rfl⟩ := Option.map_eq_some_iff.mp hreads
        obtain ⟨hturn, hlater⟩ := List.forall_mem_append.mp h
        have hcode : m optptr = m' optptr := hturn _ (List.mem_cons_self ..)
        have hlen : m (optptr + 1) = m' (optptr + 1) := hturn _ (by simp [turnReads])
        -- the turn reads the value only under one of the two codes
        have hend' : ¬ m' optptr = dhcpOptionEnd := hcode ▸ hend
        have htype : (if m optptr = dhcpOptionMsgType then m (optptr + 2) else type) =
            if m' optptr = dhcpOptionMsgType then m' (optptr + 2) else type := by
          rw [← hcode]
          split
          case isTrue hc => exact hturn _ (by simp [turnReads, hc])
          case isFalse => rfl
        have hword : m optptr = dhcpOptionReqIpaddr →
            m.word (optptr + 2) = m'.word (optptr + 2) := by
          intro hc
          have hne : ¬ dhcpOptionReqIpaddr = dhcpOptionMsgType := by decide
          rw [turnReads, hc, if_neg hne, if_pos rfl] at hturn
          exact word_congr fun i hi => hturn i (List.mem_cons_of_mem _
            (List.mem_append_left _ hi))
        rw [if_neg hend, if_neg hend', htype, ← hcode, ← hlen]
        dsimp only
        by_cases hc : m optptr = dhcpOptionReqIpaddr
        · rw [if_pos hc, if_pos hc, hword hc]
          exact ih hrest hlater
        · rw [if_neg hc, if_neg hc]
          exact ih hrest hlater
    · rw [if_neg hstop, if_neg hstop]

/-- The search for the client depends on the bytes that it reads. -/
theorem searchPool_congr {t : UInt32} {s : Search} {plist : List ListNode}
    (h : ∀ i ∈ searchReads m plist, m i = m' i) :
    searchPool m t s plist = searchPool m' t s plist := by
  induction plist generalizing s with
  | nil => rfl
  | cons p plist ih =>
    obtain ⟨hchaddr, hrest⟩ := List.forall_mem_append.mp h
    rw [searchPool, searchPool, ← chaddr_congr hchaddr]
    by_cases hmac : p.pool.mac = m.chaddr
    · rw [if_pos hmac] at hrest
      rw [if_pos hmac, if_pos hmac, Msg.ciaddr, Msg.ciaddr, word_congr hrest]
    · rw [if_neg hmac] at hrest
      rw [if_neg hmac, if_neg hmac, ih hrest]

/-- The choice of an address depends on the bytes that it reads. -/
theorem selectAddress_congr {s : Server} (h : ∀ i ∈ selectReads s m, m i = m' i) :
    selectAddress s m = selectAddress s m' := by
  obtain ⟨hsearch, hnew⟩ := List.forall_mem_append.mp h
  have hnew : (selectAddress s m).2.isSome = true → m.chaddr = m'.chaddr := by
    intro hsome
    rw [if_pos hsome] at hnew
    exact chaddr_congr hnew
  -- the hardware address is copied into a new lease only
  unfold selectAddress at hnew ⊢
  rw [← searchPool_congr hsearch]
  generalize searchPool m s.dhcps.leaseTimer s.dhcps.startSearch s.dhcps.plist = found at *
  obtain ⟨r, plist, pnode⟩ := found
  cases pnode with
  | some pnode => rfl
  | none =>
    dsimp only at hnew ⊢
    split
    · rfl
    case isFalse hend =>
      rw [if_neg hend] at hnew
      have hchaddr := hnew rfl
      unfold insertLease
      rw [hchaddr]

/-- Two messages that agree where `parse_msg` reads are handled alike. -/
theorem parseMsg_congr {s : Server} {len : UInt16} {fuel : Nat} {reads : List Nat}
    (hreads : parseMsgReads fuel s m len = some reads) (h : ∀ i ∈ reads, m i = m' i) :
    parseMsg s m len = parseMsg s m' len := by
  unfold parseMsgReads at hreads
  unfold parseMsg
  by_cases hm : m.word Msg.options = magicCookie
  · rw [if_pos hm] at hreads
    obtain ⟨options, hoptions, rfl⟩ := Option.map_eq_some_iff.mp hreads
    obtain ⟨hheader, hloop⟩ := List.forall_mem_append.mp h
    obtain ⟨hcookie, hselect⟩ := List.forall_mem_append.mp hheader
    have hm' : m'.word Msg.options = magicCookie := (word_congr hcookie).symm.trans hm
    rw [if_pos hm, if_pos hm', ← selectAddress_congr hselect]
    dsimp only
    generalize selectAddress s m = r at *
    by_cases hcheck : r.1.dhcps.dhcpsPoll.endIp < r.1.dhcps.clientAddress ∨
        r.1.dhcps.clientAddress = 0
    · rw [if_pos hcheck, if_pos hcheck]
    · rw [if_neg hcheck] at hoptions
      have hsame : parseOptions r.1.dhcps m len.toInt16.toInt =
          parseOptions r.1.dhcps m' len.toInt16.toInt := by
        -- with fuel for both the recorded loop and the other
        have hmax := optionReads_mono hoptions
          (Nat.le_max_left fuel len.toInt16.toInt.toNat)
        have hcongr := fun type state => @optionLoop_congr m m' r.1.dhcps.clientAddress _ _ _ _
          type state hmax hloop
        have hle : Msg.options + 4 + len.toInt16.toInt.toNat - (Msg.options + 4) ≤
            max fuel len.toInt16.toInt.toNat := by
          rw [Nat.add_sub_cancel_left]
          exact Nat.le_max_right ..
        unfold parseOptions
        dsimp only
        rw [← optionLoop_of_le _ m _ _ _ hle, ← optionLoop_of_le _ m' _ _ _ hle, hcongr]
      rw [if_neg hcheck, if_neg hcheck, hsame]
  · rw [if_neg hm] at hreads
    cases hreads
    have hm' : ¬ m'.word Msg.options = magicCookie := fun hc => hm ((word_congr h).trans hc)
    rw [if_neg hm, if_neg hm']

end Congr

/-! ## Options that fit -/

/-- The bytes from `p` on. -/
def memBytes (m : Msg) : Nat → Nat → List UInt8
  | _, 0 => []
  | p, n + 1 => m p :: memBytes m (p + 1) n

/-- How far behind its code an option is looked at. -/
def lookahead (code : UInt8) : Nat :=
  if code = dhcpOptionReqIpaddr then 5 else if code = dhcpOptionMsgType then 2 else 1

/-- Options of which none begins too close to the end: there are `slack` bytes behind these. Where
the length of an option is missing it counts as 0. -/
def Fits (slack : Nat) : List UInt8 → Prop
  | [] => True
  | code :: rest => code = dhcpOptionEnd ∨
      lookahead code ≤ rest.length + slack ∧ Fits slack (rest.drop ((rest.headD 0).toNat + 1))
termination_by bytes => bytes.length
decreasing_by
  rw [List.length_drop, List.length_cons]
  omega

@[simp] theorem memBytes_length (m : Msg) (p n : Nat) : (memBytes m p n).length = n := by
  induction n generalizing p with
  | zero => rfl
  | succ n ih => rw [memBytes, List.length_cons, ih]

/-- Leaving bytes out at the start is reading further on. -/
theorem memBytes_drop (m : Msg) (p n k : Nat) :
    (memBytes m p n).drop k = memBytes m (p + k) (n - k) := by
  induction k generalizing p n with
  | zero => rfl
  | succ k ih =>
    cases n with
    | zero => rw [Nat.zero_sub]; rfl
    | succ n =>
      rw [memBytes, List.drop_succ_cons, ih, Nat.add_sub_add_right]
      congr 1
      omega

/-- An option is read at most five bytes ahead. -/
theorem lookahead_le (code : UInt8) : lookahead code ≤ 5 := by
  unfold lookahead
  split
  · exact Nat.le_refl 5
  · split <;> omega

/-- With five bytes behind them all options fit. -/
theorem fits_of_slack {slack : Nat} (h : 5 ≤ slack) (bytes : List UInt8) : Fits slack bytes := by
  generalize hn : bytes.length = n
  induction n using Nat.strongRecOn generalizing bytes with
  | ind n ih =>
    cases bytes with
    | nil =>
      rw [Fits]
      trivial
    | cons code rest =>
      have hlook := lookahead_le code
      rw [Fits]
      refine .inr ⟨by omega, ih _ ?_ _ rfl⟩
      rw [List.length_drop, ← hn, List.length_cons]
      omega

/-- The accesses of one turn lie in a buffer of `size` bytes if the option is not too close to
its end. -/
theorem turnReads_lt_iff {m : Msg} {optptr size : Nat} :
    (∀ i ∈ turnReads m optptr, i < size) ↔ optptr + lookahead (m optptr) < size := by
  have hne : dhcpOptionMsgType ≠ dhcpOptionReqIpaddr := by decide
  unfold turnReads lookahead
  by_cases htype : m optptr = dhcpOptionMsgType
  · rw [if_pos htype, htype, if_neg hne, if_pos rfl]
    simp only [List.forall_mem_cons, List.forall_mem_append, List.not_mem_nil, false_implies,
      implies_true, and_true]
    omega
  · rw [if_neg htype, if_neg htype]
    by_cases hip : m optptr = dhcpOptionReqIpaddr
    · rw [if_pos hip, if_pos hip]
      simp only [List.forall_mem_cons, List.forall_mem_append, List.not_mem_nil, false_implies,
        implies_true, and_true]
      omega
    · rw [if_neg hip, if_neg hip]
      simp only [List.forall_mem_cons, List.forall_mem_append, List.not_mem_nil, false_implies,
        implies_true, and_true]
      omega

/-- `Fits` at a byte of memory. -/
theorem fits_memBytes {m : Msg} {slack stop p : Nat} (hp : p < stop) :
    Fits slack (memBytes m p (stop - p)) ↔ m p = dhcpOptionEnd ∨
      p + lookahead (m p) < stop + slack ∧
        Fits slack (memBytes m (p + (m (p + 1)).toNat + 2)
          (stop - (p + (m (p + 1)).toNat + 2))) := by
  obtain ⟨n, hn⟩ : ∃ n, stop - p = n + 1 := ⟨stop - p - 1, by omega⟩
  have hlook : lookahead (m p) ≤ n + slack ↔ p + lookahead (m p) < stop + slack := by omega
  have hrest : (memBytes m (p + 1) n).drop (((memBytes m (p + 1) n).headD 0).toNat + 1) =
      memBytes m (p + (m (p + 1)).toNat + 2) (stop - (p + (m (p + 1)).toNat + 2)) := by
    cases n with
    | zero =>
      -- the length lies behind the end, and so does the next option
      have hpast : stop - (p + (m (p + 1)).toNat + 2) = 0 := by omega
      rw [hpast]
      rfl
    | succ n =>
      rw [memBytes_drop]
      show memBytes m (p + 1 + ((m (p + 1)).toNat + 1)) _ = _
      congr 1
      · omega
      · show n + 1 - ((m (p + 1)).toNat + 1) = _
        omega
  rw [hn, memBytes, Fits, memBytes_length, hlook, hrest]

/-- The accesses of the option loop lie in a buffer of `size` bytes if the options fit. -/
theorem optionReads_lt_iff {m : Msg} {stop size fuel optptr : Nat} {reads : List Nat}
    (hsize : stop ≤ size) (h : optionReads m stop fuel optptr = some reads) :
    (∀ i ∈ reads, i < size) ↔ Fits (size - stop) (memBytes m optptr (stop - optptr)) := by
  have hslack : stop + (size - stop) = size := by omega
  -- behind the last option nothing is left to fit
  have hdone : ∀ {p : Nat}, ¬ p < stop → Fits (size - stop) (memBytes m p (stop - p)) := by
    intro p hp
    have hzero : stop - p = 0 := by omega
    rw [hzero, memBytes, Fits]
    trivial
  induction fuel generalizing optptr reads with
  | zero =>
    rw [optionReads] at h
    split at h
    · cases h
    case isFalse hp =>
      cases h
      exact ⟨fun _ => hdone hp, fun _ => nofun⟩
  | succ fuel ih =>
    rw [optionReads] at h
    by_cases hp : optptr < stop
    · rw [if_pos hp] at h
      rw [fits_memBytes hp, hslack]
      by_cases hend : m optptr = dhcpOptionEnd
      · rw [if_pos hend] at h
        cases h
        refine ⟨fun _ => .inl hend, fun _ i hi => ?_⟩
        rw [List.mem_singleton.mp hi]
        omega
      · rw [if_neg hend] at h
        obtain ⟨rest, hrest, rfl⟩ := Option.map_eq_some_iff.mp h
        rw [List.forall_mem_append, turnReads_lt_iff, or_iff_right hend]
        exact and_congr_right fun _ => ih hrest
    · rw [if_neg hp] at h
      cases h
      exact ⟨fun _ => hdone hp, fun _ => nofun⟩

/-! ## The other accesses -/

/-- The search reads in front of the options. -/
theorem searchReads_lt (m : Msg) (plist : List ListNode) : ∀ i ∈ searchReads m plist, i < 240 := by
  induction plist with
  | nil => exact nofun
  | cons p plist ih =>
    refine List.forall_mem_append.mpr ⟨by decide, ?_⟩
    split
    · decide
    · exact ih

/-- The header and the cookie lie in the first 240 bytes. -/
theorem headerReads_lt (s : Server) (m : Msg) : ∀ i ∈ cookieReads ++ selectReads s m, i < 240 := by
  refine List.forall_mem_append.mpr ⟨by decide, List.forall_mem_append.mpr
    ⟨searchReads_lt m s.dhcps.plist, ?_⟩⟩
  split
  · decide
  · exact nofun

/-! ## Datagrams -/

/-- The state of the server and the memory are right for `handle_dhcp` to end, with all accesses
inside the buffer. -/
def InBounds (calloc : Nat → Bool) (s : Server) (g : Datagram) : Prop :=
  ∃ accesses turns, (∀ fuel, turns ≤ fuel → handleDhcpAccesses calloc fuel s g = some accesses) ∧
    ∀ i ∈ accesses, i < g.bufferSize

/-- The options of the message fit the buffer. -/
def Pbuf.OptionsFit (p : Pbuf) : Prop :=
  Fits (p.datagram.bufferSize - p.totLen) (memBytes p.datagram.msg 240 (p.totLen - 240))

/-- `parse_msg` gets to the options: there is a cookie, and an address for the client. -/
def ReachesOptions (s : Server) (m : Msg) : Prop :=
  m.word Msg.options = magicCookie ∧
    ¬ ((selectAddress s m).1.dhcps.dhcpsPoll.endIp < (selectAddress s m).1.dhcps.clientAddress ∨
      (selectAddress s m).1.dhcps.clientAddress = 0)

namespace Pbuf

variable {p : Pbuf}

/-- Options of a short message have five bytes of the 548 behind them. From 32768 bytes on the
buffer, if there is one, is far larger than the message. -/
theorem optionsFit_of_length (h : p.totLen ≤ 543 ∨ 2 ^ 15 ≤ p.totLen) : p.OptionsFit := by
  refine fits_of_slack ?_ _
  have htot := p.totLen_lt
  rw [bufferSize_eq]
  rcases h with h | h
  · rw [if_pos (by omega)]
    omega
  · rw [if_neg (by omega), if_neg (by omega)]
    omega

/-- The options fit what is left of the buffer exactly if they fit the datagram. -/
theorem fits_optionLength_iff :
    Fits (p.datagram.bufferSize - (240 + p.datagram.optionLength))
        (memBytes p.datagram.msg 240 p.datagram.optionLength) ↔ p.OptionsFit := by
  have hsize := p.bufferSize_eq
  have htot := p.totLen_lt
  by_cases h15 : p.totLen < 2 ^ 15
  · rw [p.optionLength_eq h15]
    unfold OptionsFit
    by_cases hge : 240 ≤ p.totLen
    · have hstop : 240 + (p.totLen - 240) = p.totLen := by omega
      rw [hstop]
    · -- no options at all
      have hzero : p.totLen - 240 = 0 := by omega
      rw [hzero, memBytes, Fits, Fits]
  -- a length from 2 ^ 15 on is negative as `s16_t`, so that both sides hold
  · have hlen := p.optionLength_lt
    rw [if_neg (by omega), if_neg h15] at hsize
    exact iff_of_true (fits_of_slack (by omega) _) (optionsFit_of_length (.inr (by omega)))

/-- The end of the options lies in the buffer. -/
theorem stop_le : 240 + p.datagram.optionLength ≤ p.datagram.bufferSize := by
  have hsize := p.bufferSize_eq
  have hlen := p.optionLength_lt
  by_cases h15 : p.totLen < 2 ^ 15
  · have heq := p.optionLength_eq h15
    have hge := p.bufferSize_ge
    split at hsize <;> omega
  · rw [if_neg (by omega), if_neg h15] at hsize
    omega

/-- The copy stays in the buffer. -/
theorem copy_lt (p : Pbuf) :
    ∀ i ∈ List.range p.datagram.copied.length, i < p.datagram.bufferSize := by
  intro i hi
  exact Nat.lt_of_lt_of_le (List.mem_range.mp hi) p.copied_le_bufferSize

/-- What `parse_msg` reads before the options lies in the buffer. -/
theorem header_lt (p : Pbuf) (s : Server) :
    ∀ i ∈ cookieReads ++ selectReads s p.datagram.msg, i < p.datagram.bufferSize := by
  intro i hi
  exact Nat.lt_of_lt_of_le (headerReads_lt s p.datagram.msg i hi)
    (Nat.le_trans (by omega) p.bufferSize_ge)

/-- Without memory nothing is accessed. -/
theorem inBounds_of_full {calloc : Nat → Bool} (s : Server) (g : Datagram)
    (hc : ¬ calloc g.bufferSize = true) : InBounds calloc s g :=
  ⟨[], 0, fun _ _ => if_neg hc, nofun⟩

/-- A message whose options are not looked at. -/
theorem parseMsgReads_of_not_reaches {s : Server} {m : Msg} (h : ¬ ReachesOptions s m)
    (len : UInt16) :
    ∃ reads, (∀ fuel, parseMsgReads fuel s m len = some reads) ∧
      ∀ i ∈ reads, i ∈ cookieReads ++ selectReads s m := by
  unfold parseMsgReads
  by_cases hm : m.word Msg.options = magicCookie
  · have hcheck := not_not.mp fun hn => h ⟨hm, hn⟩
    dsimp only
    simp only [if_pos hm, if_pos hcheck]
    exact ⟨cookieReads ++ selectReads s m ++ [], fun _ => rfl, by simp⟩
  · simp only [if_neg hm]
    exact ⟨cookieReads, fun _ => rfl, fun i hi => List.mem_append_left _ hi⟩

/-- A message whose options are not read is read in bounds. -/
theorem inBounds_of_not_reaches {s : Server} (h : ¬ ReachesOptions s p.datagram.msg)
    {calloc : Nat → Bool} (hc : calloc p.datagram.bufferSize = true) :
    InBounds calloc s p.datagram := by
  obtain ⟨reads, hreads, hmem⟩ := parseMsgReads_of_not_reaches h p.datagram.len
  refine ⟨List.range p.datagram.copied.length ++ reads, 0, fun fuel _ => ?_,
    List.forall_mem_append.mpr ⟨p.copy_lt, fun i hi => p.header_lt s i (hmem i hi)⟩⟩
  rw [handleDhcpAccesses, if_pos hc, hreads]
  rfl

/-- A message whose options are looked at, in a buffer for it. -/
theorem inBounds_iff_of_reaches {s : Server} (h : ReachesOptions s p.datagram.msg)
    {calloc : Nat → Bool} (hc : calloc p.datagram.bufferSize = true) :
    InBounds calloc s p.datagram ↔ p.OptionsFit := by
  obtain ⟨hm, hcheck⟩ := h
  obtain ⟨reads, hreads⟩ :=
    optionReads_ends p.datagram.msg (240 + p.datagram.optionLength) 240
  rw [Nat.add_sub_cancel_left] at hreads
  have haccesses : ∀ fuel, p.datagram.optionLength ≤ fuel →
      handleDhcpAccesses calloc fuel s p.datagram =
        some (List.range p.datagram.copied.length ++
          (cookieReads ++ selectReads s p.datagram.msg ++ reads)) := by
    intro fuel hfuel
    have hopt : optionReads p.datagram.msg
        (Msg.options + 4 + p.datagram.len.toInt16.toInt.toNat) fuel (Msg.options + 4) =
        some reads := optionReads_mono hreads hfuel
    rw [handleDhcpAccesses, if_pos hc, parseMsgReads, if_pos hm]
    dsimp only
    rw [if_neg hcheck, hopt]
    rfl
  have hfit := optionReads_lt_iff p.stop_le hreads
  rw [Nat.add_sub_cancel_left, fits_optionLength_iff] at hfit
  rw [← hfit]
  constructor
  · rintro ⟨accesses, turns, hturns, hin⟩
    -- the accesses of a call do not depend on the fuel
    have heq := (hturns _ (Nat.le_max_left turns p.datagram.optionLength)).symm.trans
      (haccesses _ (Nat.le_max_right turns p.datagram.optionLength))
    rw [Option.some.inj heq] at hin
    exact (List.forall_mem_append.mp (List.forall_mem_append.mp hin).2).2
  · intro hin
    exact ⟨_, p.datagram.optionLength, haccesses, List.forall_mem_append.mpr ⟨p.copy_lt,
      List.forall_mem_append.mpr ⟨p.header_lt s, hin⟩⟩⟩

/-- A new server has an address for every client. -/
theorem reaches_default {m : Msg} (hm : m.word Msg.options = magicCookie) :
    ReachesOptions Start.default.server m := by
  exact ⟨hm, of_decide_eq_true (Eq.refl true)⟩

end Pbuf

/-- A datagram is handled in bounds, in every state of the server and however `mem_calloc`
answers, exactly when it has no cookie or its options fit. -/
theorem handleDhcp_inBounds_iff (p : Pbuf) :
    (∀ (calloc : Nat → Bool) (s : Server), InBounds calloc s p.datagram) ↔
      (p.datagram.msg.word Msg.options = magicCookie → p.OptionsFit) := by
  constructor
  · intro h hm
    exact (Pbuf.inBounds_iff_of_reaches (Pbuf.reaches_default hm) rfl).mp
      (h (fun _ => true) Start.default.server)
  · intro h calloc s
    by_cases hc : calloc p.datagram.bufferSize = true
    · by_cases hr : ReachesOptions s p.datagram.msg
      · exact (Pbuf.inBounds_iff_of_reaches hr hc).mpr (h hr.1)
      · exact Pbuf.inBounds_of_not_reaches hr hc
    · exact Pbuf.inBounds_of_full s p.datagram hc

/-- A message of 549 bytes whose last byte is the code of a third option. -/
def cutOff : Pbuf where
  datagram :=
    { first := List.replicate 236 0 ++ wordBytes magicCookie ++
        (12 :: 255 :: List.replicate 255 97) ++ (12 :: 49 :: List.replicate 49 97) ++ [12],
      rest := [], beyond := fun _ => 0, gw := 0 }
  fits := by decide +kernel

/-- The length of that option is read behind the buffer. -/
theorem cutOff_outOfBounds : ∃ accesses,
    handleDhcpAccesses (fun _ => true) 309 Start.default.server cutOff.datagram = some accesses ∧
      549 ∈ accesses ∧ cutOff.datagram.bufferSize = 549 := by
  have hmem : (handleDhcpAccesses (fun _ => true) 309 Start.default.server
      cutOff.datagram).map (fun accesses => decide (549 ∈ accesses)) = some true := by
    decide +kernel
  obtain ⟨accesses, haccesses, h549⟩ := Option.map_eq_some_iff.mp hmem
  exact ⟨accesses, haccesses, of_decide_eq_true h549, by decide +kernel⟩

end PicoHost.Dhcps
