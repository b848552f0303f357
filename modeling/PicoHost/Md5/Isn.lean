import PicoHost.Md5.Streaming

/-!
# Initial sequence numbers (`tcp_isn_default.c`)

The hook keeps the block that it hashes in static memory, and writes only the part for the
connection. Whatever connections were asked for before, the number is that of the connection, the
secret and the time (`isns_eq`), and two connections share a block only when they are one.
-/

namespace PicoHost.Isn

open Md5

/-! ## The hook -/

/-- `type` of `ip_addr_t` -/
inductive IpType where
  | v4 | v6
deriving DecidableEq, Repr

/-- `ip_addr_t`: the memory of `u_addr`, of which an IPv4 address takes four bytes -/
structure IpAddr where
  type : IpType
  addr : Nat → UInt8

/-- The static variables `input`, of 64 bytes, and `base_time` -/
structure Statics where
  input : Nat → UInt8
  baseTime : UInt32

/-- `lwip_init_tcp_isn` (tcp_isn_default.c:95–105) -/
def lwipInitTcpIsn (_ : Statics) (bootTime : UInt32) (secret : Nat → UInt8) : Statics where
  input := memcpy (fun _ => 0) 36 (bytes secret 16)
  baseTime := bootTime * 250000

/-- The arguments of the hook, and what `sys_now` says then -/
structure Request where
  localIp : IpAddr
  localPort : UInt16
  remoteIp : IpAddr
  remotePort : UInt16
  now : UInt32

/-- The addresses, written to the input (tcp_isn_default.c:122–158) -/
def writeAddresses (input : Nat → UInt8) (r : Request) : Nat → UInt8 :=
  match r.localIp.type with
  | .v6 =>
    let input := memcpy input 0 (bytes r.localIp.addr 16)
    memcpy input 16 (bytes r.remoteIp.addr 16)
  | .v4 =>
    let input := memcpy input 0 (List.replicate 10 0)
    let input := memcpy input 10 [0xff]
    let input := memcpy input 11 [0xff]
    let input := memcpy input 12 (bytes r.localIp.addr 4)
    let input := memcpy input 16 (List.replicate 10 0)
    let input := memcpy input 26 [0xff]
    let input := memcpy input 27 [0xff]
    memcpy input 28 (bytes r.remoteIp.addr 4)

/-- The ports (tcp_isn_default.c:160–163) -/
def writePorts (input : Nat → UInt8) (r : Request) : Nat → UInt8 :=
  let input := memcpy input 32 [(r.localPort >>> 8).toUInt8]
  let input := memcpy input 33 [(r.localPort &&& 0xff).toUInt8]
  let input := memcpy input 34 [(r.remotePort >>> 8).toUInt8]
  memcpy input 35 [(r.remotePort &&& 0xff).toUInt8]

/-- `lwip_hook_tcp_isn` (tcp_isn_default.c:116–189), for the context that the stack holds. The first
four bytes of the output are a word of a little endian machine. -/
def lwipHookTcpIsn (ctx : Ctx) (s : Statics) (r : Request) : UInt32 × Statics :=
  let input := writePorts (writeAddresses s.input r) r
  let output := (md5Final (md5Update (md5Init ctx) (bytes input 64))).1
  (word output 0 + s.baseTime + r.now * 250, { s with input })

/-- The numbers of requests one after the other, each with the memory that its context finds -/
def isns (s : Statics) : List (Ctx × Request) → List UInt32
  | [] => []
  | (ctx, r) :: requests =>
    let (isn, s) := lwipHookTcpIsn ctx s r
    isn :: isns s requests

/-! ## What is hashed -/

/-- A connection: addresses of one family, and ports -/
structure Connection where
  localIp : List UInt8
  localPort : UInt16
  remoteIp : List UInt8
  remotePort : UInt16
deriving DecidableEq, Repr

/-- The address as an IPv6 address; an IPv4 address is mapped -/
def mapped (type : IpType) (addr : Nat → UInt8) : List UInt8 :=
  match type with
  | .v6 => bytes addr 16
  | .v4 => List.replicate 10 0 ++ [0xff, 0xff] ++ bytes addr 4

def Request.connection (r : Request) : Connection where
  localIp := mapped r.localIp.type r.localIp.addr
  localPort := r.localPort
  remoteIp := mapped r.localIp.type r.remoteIp.addr
  remotePort := r.remotePort

/-- A port, the high byte first -/
def portBytes (port : UInt16) : List UInt8 := [.ofNat (port.toNat / 256), .ofNat port.toNat]

/-- The block of a connection -/
def block (c : Connection) (secret : List UInt8) : List UInt8 :=
  c.localIp ++ c.remoteIp ++ portBytes c.localPort ++ portBytes c.remotePort ++ secret ++
    List.replicate 12 0

/-- The number of a connection at a time -/
def isn (bootTime : UInt32) (secret : List UInt8) (c : Connection) (now : UInt32) : UInt32 :=
  littleEndian (md5 (block c secret)) 0 + bootTime * 250000 + now * 250

/-! ## The static memory -/

/-- Bytes behind the copy stay. -/
theorem memcpy_of_le {buffer : Nat → UInt8} {off i : Nat} {data : List UInt8}
    (h : off + data.length ≤ i) : memcpy buffer off data i = buffer i := by
  have hle : data.length ≤ i - off := by omega
  rw [memcpy, if_pos (by omega), List.getD_eq_getElem?_getD, List.getElem?_eq_none hle]
  rfl

/-- A port is written in network order. -/
theorem portBytes_eq (port : UInt16) :
    [(port >>> 8).toUInt8, (port &&& 0xff).toUInt8] = portBytes port := by
  have hhigh : (port >>> 8).toUInt8 = .ofNat (port.toNat / 256) := by
    apply UInt8.toNat_inj.mp
    rw [UInt16.toNat_toUInt8, UInt16.toNat_shiftRight, UInt8.toNat_ofNat',
      Nat.shiftRight_eq_div_pow]
    rfl
  have hlow : (port &&& 0xff).toUInt8 = .ofNat port.toNat := by
    apply UInt8.toNat_inj.mp
    rw [UInt16.toNat_toUInt8, UInt16.toNat_and, UInt8.toNat_ofNat']
    have hmask : port.toNat &&& (0xff : UInt16).toNat = port.toNat % 2 ^ 8 :=
      Nat.and_two_pow_sub_one_eq_mod _ 8
    rw [hmask, Nat.mod_mod]
  rw [hhigh, hlow, portBytes]

/-- The two addresses fill the first half of the block. -/
theorem bytes_writeAddresses (input : Nat → UInt8) (r : Request) :
    bytes (writeAddresses input r) 32 = r.connection.localIp ++ r.connection.remoteIp := by
  have hempty : bytes input 0 = [] := rfl
  rw [writeAddresses, Request.connection]
  cases r.localIp.type with
  | v6 =>
    dsimp only [mapped]
    rw [bytes_memcpy_of_length (by rfl), bytes_memcpy_of_length (by rfl), hempty, List.nil_append]
  | v4 =>
    dsimp only [mapped]
    rw [bytes_memcpy_of_length (by rfl), bytes_memcpy_of_length (by rfl),
      bytes_memcpy_of_length (by rfl), bytes_memcpy_of_length (by rfl),
      bytes_memcpy_of_length (by rfl), bytes_memcpy_of_length (by rfl),
      bytes_memcpy_of_length (by rfl), bytes_memcpy_of_length (by rfl), hempty]
    simp

/-- The two ports come behind the addresses. -/
theorem bytes_writePorts (input : Nat → UInt8) (r : Request) :
    bytes (writePorts input r) 36 =
      bytes input 32 ++ portBytes r.localPort ++ portBytes r.remotePort := by
  rw [writePorts, ← portBytes_eq, ← portBytes_eq]
  rw [bytes_memcpy_of_length (by rfl), bytes_memcpy_of_length (by rfl),
    bytes_memcpy_of_length (by rfl), bytes_memcpy_of_length (by rfl)]
  simp

/-- What `lwip_init_tcp_isn` writes behind the connection -/
def Keeps (secret : Nat → UInt8) (input : Nat → UInt8) : Prop :=
  ∀ i, 36 ≤ i → input i = memcpy (fun _ => 0) 36 (bytes secret 16) i

/-- Addresses and ports leave the secret alone. -/
theorem keeps_write {secret input : Nat → UInt8} (h : Keeps secret input) (r : Request) :
    Keeps secret (writePorts (writeAddresses input r) r) := by
  intro i hi
  have haddresses : writeAddresses input r i = input i := by
    rw [writeAddresses]
    cases r.localIp.type with
    | v6 =>
      dsimp only
      rw [memcpy_of_le, memcpy_of_le] <;> rw [bytes_length] <;> omega
    | v4 =>
      dsimp only
      rw [memcpy_of_le, memcpy_of_le, memcpy_of_le, memcpy_of_le, memcpy_of_le, memcpy_of_le,
        memcpy_of_le, memcpy_of_le] <;> simp <;> omega
  rw [← h i hi, ← haddresses, writePorts]
  rw [memcpy_of_le, memcpy_of_le, memcpy_of_le, memcpy_of_le] <;> simp <;> omega

/-- Behind the ports stand the secret and twelve zeros. -/
theorem bytes_of_keeps {secret input : Nat → UInt8} (h : Keeps secret input) :
    bytes input 64 = bytes input 36 ++ bytes secret 16 ++ List.replicate 12 0 := by
  have hrange : List.range 64 = List.range 36 ++ (List.range 28).map (36 + ·) := rfl
  have htail : (List.range 28).map (fun i => input (36 + i)) =
      (List.range 28).map fun i => memcpy (fun _ => 0) 36 (bytes secret 16) (36 + i) :=
    List.map_congr_left fun i _ => h _ (Nat.le_add_right 36 i)
  rw [bytes, hrange, List.map_append, List.map_map, List.append_assoc]
  exact congrArg (bytes input 36 ++ ·) (htail.trans rfl)

/-! ## The numbers -/

/-- The number of a request, whatever was asked before -/
theorem hook_eq {s : Statics} {secret : Nat → UInt8} (h : Keeps secret s.input) (ctx : Ctx)
    (r : Request) : (lwipHookTcpIsn ctx s r).1 =
      littleEndian (md5 (block r.connection (bytes secret 16))) 0 + s.baseTime + r.now * 250 := by
  have hblock : bytes (writePorts (writeAddresses s.input r) r) 64 =
      block r.connection (bytes secret 16) := by
    rw [bytes_of_keeps (keeps_write h r), bytes_writePorts, bytes_writeAddresses]
    rfl
  have hdigest : (md5Final (md5Update (md5Init ctx) (block r.connection (bytes secret 16)))).1 =
      md5 (block r.connection (bytes secret 16)) :=
    final_holds (update_holds (md5Init_holds ctx) _)
  rw [lwipHookTcpIsn]
  dsimp only
  rw [hblock, hdigest, word_eq]

/-- Each number depends on its own request, by induction on the requests. -/
theorem isns_of_keeps (requests : List (Ctx × Request)) {s : Statics} {secret : Nat → UInt8}
    {bootTime : UInt32} (h : Keeps secret s.input) (htime : s.baseTime = bootTime * 250000) :
    isns s requests =
      requests.map fun q => isn bootTime (bytes secret 16) q.2.connection q.2.now := by
  induction requests generalizing s with
  | nil => rfl
  | cons q requests ih =>
    have hrest : isns (lwipHookTcpIsn q.1 s q.2).2 requests = _ := ih (keeps_write h q.2) htime
    show (lwipHookTcpIsn q.1 s q.2).1 :: isns (lwipHookTcpIsn q.1 s q.2).2 requests = _
    rw [hrest, hook_eq h, htime]
    rfl

/-- A mapped address has sixteen bytes. -/
theorem mapped_length (type : IpType) (addr : Nat → UInt8) : (mapped type addr).length = 16 := by
  cases type <;> rfl

/-- Ports with the same bytes are the same. -/
theorem portBytes_inj {p q : UInt16} (h : portBytes p = portBytes q) : p = q := by
  obtain ⟨hhigh, htail⟩ := List.cons.inj h
  obtain ⟨hlow, -⟩ := List.cons.inj htail
  have hhigh' := congrArg UInt8.toNat hhigh
  have hlow' := congrArg UInt8.toNat hlow
  rw [UInt8.toNat_ofNat', UInt8.toNat_ofNat'] at hhigh' hlow'
  have hp := p.toNat_lt
  have hq := q.toNat_lt
  apply UInt16.toNat_inj.mp
  omega

/-- Every part of the block has its place. -/
theorem block_inj {r r' : Request} {secret : List UInt8}
    (h : block r.connection secret = block r'.connection secret) : r.connection = r'.connection := by
  rw [block, block] at h
  have hports := List.append_cancel_right (List.append_cancel_right h)
  obtain ⟨hrest, hremotePort⟩ := List.append_inj' hports rfl
  obtain ⟨haddresses, hlocalPort⟩ := List.append_inj' hrest rfl
  obtain ⟨hlocal, hremote⟩ := List.append_inj haddresses
    ((mapped_length ..).trans (mapped_length ..).symm)
  have hlp := portBytes_inj hlocalPort
  have hrp := portBytes_inj hremotePort
  show Connection.mk _ _ _ _ = Connection.mk _ _ _ _
  rw [Connection.mk.injEq]
  exact ⟨hlocal, hlp, hremote, hrp⟩

/-- The numbers of a run are those of the connections at their times, and no two connections of it
hash one block. -/
theorem isns_eq (s : Statics) (bootTime : UInt32) (secret : Nat → UInt8)
    (requests : List (Ctx × Request)) :
    isns (lwipInitTcpIsn s bootTime secret) requests =
      (requests.map fun q => isn bootTime (bytes secret 16) q.2.connection q.2.now) ∧
    ∀ q ∈ requests, ∀ q' ∈ requests, block q.2.connection (bytes secret 16) =
      block q'.2.connection (bytes secret 16) → q.2.connection = q'.2.connection :=
  ⟨isns_of_keeps requests (fun _ _ => rfl) rfl, fun _ _ _ _ h => block_inj h⟩

end PicoHost.Isn
