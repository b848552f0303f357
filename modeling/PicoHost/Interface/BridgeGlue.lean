import PicoHost.Interface.Types
import PicoHost.Lib.Run
import PicoHost.OsWrapper.Alloc

/-!
# The ports of a bridge

`esp_netif_br_glue_add_port` (esp_netif_br_glue.c) over the allocation functions of the port. The
array starts with room for one pointer and is reallocated for every further one; its length is
an 8-bit count.
-/

namespace PicoHost.BridgeGlue

open Interface (EspErr)
open OsWrapper
open FreeList (ptrSize)

/-- What `struct esp_netif_br_glue_t` has on the ports -/
structure Glue where
  portsEspNetifs : Option Block
  portCnt : UInt8

/-- `esp_netif_br_glue_add_port` (esp_netif_br_glue.c:224–240); `none` where an assertion of an
allocation function aborts. -/
def espNetifBrGlueAddPort (ndebug : Bool) (A : Nat → Allocator) (espNetifPort : UInt32) (g : Glue)
    (m : BlockMemory) : Option (EspErr × Glue × BlockMemory) :=
  let grown := match g.portsEspNetifs with
    | none => hostedMalloc ndebug A 4 m
    | some ports => hostedRealloc ndebug A (some ports) ((g.portCnt.toUInt32 + 1) * 4) m
  grown.map fun r =>
    match r.1 with
    | none => (.noMem, { g with portsEspNetifs := none }, r.2)
    | some ports => (.ok, ⟨some ports, g.portCnt + 1⟩,
        r.2.storeWord ports (ptrSize * g.portCnt.toNat) espNetifPort)

/-- A glue, the memory, the ports whose calls returned `ESP_OK`, and what the last call returned -/
structure State where
  glue : Glue
  memory : BlockMemory
  added : List UInt32
  ret : EspErr

/-- One call, for some port -/
def step (ndebug : Bool) (A : Nat → Allocator) (s : State) (port : UInt32) : Option State :=
  (espNetifBrGlueAddPort ndebug A port s.glue s.memory).map fun r =>
    ⟨r.2.1, r.2.2, if r.1 = .ok then s.added ++ [port] else s.added, r.1⟩

/-- A glue as `hosted_calloc` returns it -/
def start (m : BlockMemory) : State := ⟨⟨none, 0⟩, m, [], .ok⟩

/-! ## What the array holds -/

/-- The array has room for the ports that were added, and holds them in order. -/
structure Holds (added : List UInt32) (m : BlockMemory) (ports : Block) : Prop where
  live : ports ∈ m.heap.live
  room : ptrSize * added.length ≤ m.size ports
  word : ∀ i port, added[i]? = some port → m.loadWord ports (ptrSize * i) = port

structure Stored (s : State) : Prop where
  count : s.added.length = s.glue.portCnt.toNat
  array : s.added ≠ [] → ∃ ports, s.glue.portsEspNetifs = some ports ∧ Holds s.added s.memory ports

/-- The call has left the glue and its array as they were. -/
structure Unchanged (s s' : State) : Prop where
  glue : s'.glue = s.glue
  array : ∀ ports ∈ s.glue.portsEspNetifs, Intact s.memory s'.memory ports

/-- What a call is to do -/
structure PortAdded (s s' : State) : Prop where
  stored : Stored s'
  failed : s'.ret ≠ .ok → Unchanged s s'

/-- An array that is there is not full, and the request for a larger one is granted. -/
def Grows (A : Nat → Allocator) (s : State) : Prop :=
  s.glue.portsEspNetifs.isSome → s.glue.portCnt.toNat < 255 ∧
    ((A (ptrSize * (s.glue.portCnt.toNat + 1))).place s.memory.heap).isSome

/-! ## One call -/

/-- What holds between the calls: an array is there as soon as a port has been added. -/
structure Kept (s : State) : Prop where
  ok : s.memory.heap.Ok
  stored : Stored s
  none_iff : s.glue.portsEspNetifs = none ↔ s.added = []

theorem kept_start {m : BlockMemory} (ok : m.heap.Ok) : Kept (start m) where
  ok := ok
  stored := ⟨rfl, fun hne => absurd rfl hne⟩
  none_iff := ⟨fun _ => rfl, fun _ => rfl⟩

/-- Storing a port behind those in the array -/
theorem Holds.push {added : List UInt32} {m : BlockMemory} {ports : Block} {port : UInt32}
    (live : ports ∈ m.heap.live) (room : ptrSize * (added.length + 1) ≤ m.size ports)
    (word : ∀ i p, added[i]? = some p → m.loadWord ports (ptrSize * i) = p) :
    Holds (added ++ [port]) (m.storeWord ports (ptrSize * added.length) port) ports where
  live := live
  room := by
    rw [List.length_append]
    exact room
  word i p hp := by
    rcases Nat.lt_trichotomy i added.length with hlt | rfl | hlt
    · rw [List.getElem?_append_left hlt] at hp
      have hle : ptrSize * i + ptrSize ≤ ptrSize * added.length :=
        Nat.mul_le_mul_left ptrSize (Nat.succ_le_of_lt hlt)
      rw [BlockMemory.loadWord_storeWord_of_le hle]
      exact word i p hp
    · rw [List.getElem?_concat_length] at hp
      cases hp
      exact BlockMemory.loadWord_storeWord
    · rw [List.getElem?_eq_none (by simp; omega)] at hp
      cases hp

/-- The size of the larger array, in bytes -/
theorem newsize_toNat (cnt : UInt8) :
    ((cnt.toUInt32 + 1) * 4).toNat = ptrSize * (cnt.toNat + 1) := by
  have hlt := cnt.toNat_lt
  rw [UInt32.toNat_mul, UInt32.toNat_add, UInt8.toNat_toUInt32]
  show (cnt.toNat + 1) % 2 ^ 32 * 4 % 2 ^ 32 = 4 * (cnt.toNat + 1)
  omega

theorem newsize_ne_zero (cnt : UInt8) : (cnt.toUInt32 + 1) * 4 ≠ 0 := by
  intro heq
  have hzero := newsize_toNat cnt
  rw [heq] at hzero
  exact absurd hzero.symm (Nat.mul_ne_zero (by decide) (Nat.succ_ne_zero _))

variable {A : Nat → Allocator} {s s' : State} {port : UInt32}

/-- What a call can do: its request is refused and the array is lost, or there is a larger one that
holds the port too. -/
def Outcome (A : Nat → Allocator) (s : State) (port : UInt32) : Prop :=
  (A (ptrSize * (s.glue.portCnt.toNat + 1))).place s.memory.heap = none ∧
      step true A s port = some ⟨⟨none, s.glue.portCnt⟩, s.memory.refuse, s.added, .noMem⟩ ∨
    ((A (ptrSize * (s.glue.portCnt.toNat + 1))).place s.memory.heap).isSome ∧
      ∃ m ports, step true A s port = some ⟨⟨some ports, s.glue.portCnt + 1⟩,
          m, s.added ++ [port], .ok⟩ ∧
        m.heap.Ok ∧ Holds (s.added ++ [port]) m ports

/-- The first port: the count is zero. -/
theorem Kept.outcome_first (kept : Kept s) (hports : s.glue.portsEspNetifs = none)
    (port : UInt32) : Outcome A s port := by
  have hcnt := kept.stored.count
  have hnil : s.added = [] := kept.none_iff.mp hports
  have hzero : s.glue.portCnt.toNat = 0 := by rw [← hcnt, hnil]; rfl
  rw [Outcome, hzero]
  rcases @hostedMalloc_cases true A 4 s.memory with ⟨hplace, h⟩ | ⟨a, hplace, h⟩
  · refine .inl ⟨hplace, ?_⟩
    rw [step, espNetifBrGlueAddPort, hports]
    show (Option.map _ (hostedMalloc true A 4 s.memory)).map _ = _
    rw [h]
    rfl
  · have hstep : step true A s port = some ⟨⟨some (s.memory.heap.malloc a).1, s.glue.portCnt + 1⟩,
        (s.memory.grant a 4).storeWord (s.memory.heap.malloc a).1
          (ptrSize * s.glue.portCnt.toNat) port, s.added ++ [port], .ok⟩ := by
      rw [step, espNetifBrGlueAddPort, hports]
      show (Option.map _ (hostedMalloc true A 4 s.memory)).map _ = _
      rw [h]
      rfl
    refine .inr ⟨Option.isSome_iff_exists.mpr ⟨a, hplace⟩, _, _, hstep, kept.ok.malloc a, ?_⟩
    rw [← hcnt, hnil]
    refine Holds.push (List.mem_cons_self ..) ?_ nofun
    exact Nat.le_of_eq (s.memory.grant_size a 4).symm

/-- The array is there, and its words are copied. -/
theorem Kept.outcome_grown (kept : Kept s) {mem : Block}
    (hports : s.glue.portsEspNetifs = some mem) (port : UInt32) : Outcome A s port := by
  have hcnt := kept.stored.count
  have hne : s.added ≠ [] := fun hnil => by
    rw [kept.none_iff.mpr hnil] at hports
    cases hports
  obtain ⟨ports, heq, holds⟩ := kept.stored.array hne
  cases hports.symm.trans heq
  have hsize := newsize_toNat s.glue.portCnt
  rw [Outcome, ← hsize]
  cases hplace : (A ((s.glue.portCnt.toUInt32 + 1) * 4).toNat).place s.memory.heap with
  | none =>
    refine .inl ⟨rfl, ?_⟩
    rw [step, espNetifBrGlueAddPort, hports]
    show (Option.map _ (hostedRealloc true A (some mem) _ s.memory)).map _ = _
    rw [hostedRealloc_refused (newsize_ne_zero _) hplace]
    rfl
  | some a =>
    have hstep : step true A s port = some ⟨⟨some (s.memory.heap.malloc a).1, s.glue.portCnt + 1⟩,
        (((s.memory.grant a ((s.glue.portCnt.toUInt32 + 1) * 4).toNat).memcpy
          (s.memory.heap.malloc a).1 mem ((s.glue.portCnt.toUInt32 + 1) * 4).toNat).free
            mem).storeWord (s.memory.heap.malloc a).1 (ptrSize * s.glue.portCnt.toNat) port,
        s.added ++ [port], .ok⟩ := by
      rw [step, espNetifBrGlueAddPort, hports]
      show (Option.map _ (hostedRealloc true A (some mem) _ s.memory)).map _ = _
      rw [hostedRealloc_granted (newsize_ne_zero _) hplace]
      rfl
    have hlive := List.mem_cons_of_mem (s.memory.heap.malloc a).1 holds.live
    refine .inr ⟨rfl, _, _, hstep, (kept.ok.malloc a).free hlive, ?_⟩
    rw [← hcnt]
    refine Holds.push ?_ ?_ fun i p hp => ?_
    · refine (kept.ok.malloc a).mem_free.mpr ⟨fun heq => ?_, List.mem_cons_self ..⟩
      exact kept.ok.malloc_notMem a (heq ▸ holds.live)
    · refine Nat.le_of_eq (Eq.symm ((s.memory.grant_size a _).trans ?_))
      rw [hsize, hcnt]
    · -- the words of the old array are copied
      rw [← holds.word i p hp]
      obtain ⟨hi, -⟩ := List.getElem?_eq_some_iff.mp hp
      refine congrArg UInt32.ofNat (FreeList.load_congr fun k hk => ?_)
      refine BlockMemory.memcpy_byte ?_
      rw [hsize]
      have hk : k < 4 := hk
      show 4 * i + k < 4 * (s.glue.portCnt.toNat + 1)
      omega

theorem Kept.outcome (kept : Kept s) (port : UInt32) : Outcome A s port := by
  cases hports : s.glue.portsEspNetifs with
  | none => exact kept.outcome_first hports port
  | some mem => exact kept.outcome_grown hports port

/-- With assertions compiled out every call returns. -/
theorem exists_step (s : State) (port : UInt32) : ∃ s', step true A s port = some s' := by
  have hsome : (espNetifBrGlueAddPort true A port s.glue s.memory).isSome := by
    rw [espNetifBrGlueAddPort, Option.isSome_map]
    cases s.glue.portsEspNetifs with
    | none =>
      show (hostedMalloc true A 4 s.memory).isSome
      rcases @hostedMalloc_cases true A 4 s.memory with ⟨-, h⟩ | ⟨a, -, h⟩ <;> rw [h] <;> rfl
    | some mem =>
      show (hostedRealloc true A (some mem) _ s.memory).isSome
      cases hplace : (A ((s.glue.portCnt.toUInt32 + 1) * 4).toNat).place s.memory.heap with
      | none => rw [hostedRealloc_refused (newsize_ne_zero _) hplace]; rfl
      | some a => rw [hostedRealloc_granted (newsize_ne_zero _) hplace]; rfl
  obtain ⟨r, hr⟩ := Option.isSome_iff_exists.mp hsome
  exact ⟨_, congrArg (Option.map _) hr⟩

/-! ## Whole runs -/

/-- A call that grows the array, or finds none, keeps what holds between the calls. -/
theorem Kept.step (kept : Kept s) (hgrows : Grows A s) (h : step true A s port = some s') :
    Kept s' ∧ PortAdded s s' := by
  have hcnt := kept.stored.count
  rcases kept.outcome port with ⟨hplace, hs⟩ | ⟨-, m, ports, hs, ok, holds⟩
  · cases hs.symm.trans h
    -- a refused request that loses nothing: there was no array
    have hports : s.glue.portsEspNetifs = none := by
      rw [← Option.not_isSome_iff_eq_none]
      intro hsome
      have hgranted := (hgrows hsome).2
      rw [hplace] at hgranted
      cases hgranted
    have hnil := kept.none_iff.mp hports
    have stored : Stored ⟨⟨none, s.glue.portCnt⟩, s.memory.refuse, s.added, .noMem⟩ :=
      ⟨hcnt, fun hne => absurd hnil hne⟩
    refine ⟨⟨kept.ok.refuse, stored, fun _ => hnil, fun _ => rfl⟩, stored, fun _ => ?_⟩
    refine ⟨?_, fun ports hmem => ?_⟩
    · show (⟨none, s.glue.portCnt⟩ : Glue) = s.glue
      rw [← hports]
    · rw [hports] at hmem
      cases hmem
  · cases hs.symm.trans h
    have hlt : s.glue.portCnt.toNat < 255 := by
      cases hports : s.glue.portsEspNetifs with
      | none =>
        rw [← hcnt, kept.none_iff.mp hports]
        decide
      | some mem => exact (hgrows (Option.isSome_iff_exists.mpr ⟨mem, hports⟩)).1
    have hcount : (s.added ++ [port]).length = (s.glue.portCnt + 1).toNat := by
      rw [List.length_append, hcnt, UInt8.toNat_add]
      show s.glue.portCnt.toNat + 1 = (s.glue.portCnt.toNat + 1) % 256
      omega
    have stored : Stored ⟨⟨some ports, s.glue.portCnt + 1⟩, m, s.added ++ [port], .ok⟩ :=
      ⟨hcount, fun _ => ⟨ports, rfl, holds⟩⟩
    refine ⟨⟨ok, stored, ?_⟩, stored, fun hne => absurd rfl hne⟩
    constructor
    · intro hnone
      cases hnone
    · intro hnil
      cases List.append_ne_nil_of_right_ne_nil s.added (List.cons_ne_nil port []) hnil

/-- The 256th port makes the count zero, and a refused request loses the array. -/
theorem Kept.not_portAdded (kept : Kept s) (hnot : ¬ Grows A s)
    (h : BridgeGlue.step true A s port = some s') : ¬ PortAdded s s' := by
  have hcnt := kept.stored.count
  obtain ⟨hsome, hnot⟩ := Classical.not_imp.mp hnot
  intro hadded
  rcases kept.outcome port with ⟨-, hs⟩ | ⟨hplace, m, ports, hs, -, -⟩
  · cases hs.symm.trans h
    have hglue : (⟨none, s.glue.portCnt⟩ : Glue) = s.glue := (hadded.failed nofun).glue
    rw [← hglue] at hsome
    cases hsome
  · cases hs.symm.trans h
    have hcount : (s.added ++ [port]).length = (s.glue.portCnt + 1).toNat := hadded.stored.count
    rw [List.length_append, hcnt] at hcount
    have hcount : s.glue.portCnt.toNat + 1 = (s.glue.portCnt + 1).toNat := hcount
    refine hnot ⟨?_, hplace⟩
    have hbound := (s.glue.portCnt + 1).toNat_lt
    omega

/-- Every call of a run adds its port or changes nothing, exactly when every call that finds an
array finds it not full and is granted a larger one. -/
theorem portAdded_iff_grows (A : Nat → Allocator) (m : BlockMemory) (ok : m.heap.Ok)
    (ports : List UInt32) :
    ∃ t, Machine.exec (BridgeGlue.step true A) (start m) ports = some t ∧
      (Machine.Each (BridgeGlue.step true A) (fun s _ s' => PortAdded s s') (start m) ports ↔
        Machine.Along (BridgeGlue.step true A) (fun s _ => Grows A s) (start m) ports) := by
  obtain ⟨t, ht⟩ := Machine.exec_total exists_step (start m) ports
  refine ⟨t, ht, Machine.each_iff_along ?_ ?_ ht (kept_start ok)⟩
  · exact fun s port s' hgrows h kept => kept.step hgrows h
  · exact fun s port s' hnot h kept => kept.not_portAdded hnot h

/-- Two ports, with memory for both requests -/
theorem portAdded_iff_grows_twoPorts :
    Machine.Each (BridgeGlue.step true plenty) (fun s _ s' => PortAdded s s') (start .empty)
      [7, 8] := by
  obtain ⟨t, -, h⟩ := portAdded_iff_grows plenty .empty Heap.ok_empty [7, 8]
  refine h.mpr ⟨?_, ?_, trivial⟩
  · intro hsome
    cases hsome
  · exact fun _ => ⟨by decide, by decide⟩

/-- An allocator that never fails adds every port. -/
theorem exec_added {s t : State} {ports : List UInt32}
    (h : Machine.exec (BridgeGlue.step true plenty) s ports = some t) :
    t.added = s.added ++ ports := by
  induction ports generalizing s with
  | nil =>
    cases h
    exact (List.append_nil _).symm
  | cons port ports ih =>
    obtain ⟨s', hs', h⟩ := Machine.exec_cons_some.mp h
    have hadded : s'.added = s.added ++ [port] := by
      rw [BridgeGlue.step, espNetifBrGlueAddPort] at hs'
      cases hports : s.glue.portsEspNetifs with
      | none =>
        rw [hports] at hs'
        cases hs'
        rfl
      | some mem =>
        rw [hports] at hs'
        obtain ⟨r, hr, rfl⟩ := Option.map_eq_some_iff.mp hs'
        obtain ⟨q, hq, rfl⟩ := Option.map_eq_some_iff.mp hr
        have hq : hostedRealloc true plenty (some mem) _ s.memory = some q := hq
        rw [hostedRealloc_granted (newsize_ne_zero _) rfl] at hq
        cases hq
        rfl
    rw [ih h, hadded, List.append_assoc, List.singleton_append]

/-- A refused second request, and the 256th port -/
theorem not_portAdded :
    ¬ Machine.Each (BridgeGlue.step true fun _ => .limited 1) (fun s _ s' => PortAdded s s')
        (start .empty) [7, 8] ∧
      ¬ Machine.Each (BridgeGlue.step true plenty) (fun s _ s' => PortAdded s s')
        (start .empty) (.replicate 256 7) := by
  constructor
  · intro heach
    obtain ⟨-, hadded, -⟩ := heach
    have hglue := (hadded.failed nofun).glue
    exact absurd (congrArg (fun g => g.portsEspNetifs.isSome) hglue) (by decide)
  · intro heach
    have hsnoc : List.replicate (255 + 1) (7 : UInt32) = .replicate 255 7 ++ [7] :=
      List.replicate_succ'
    obtain ⟨t, ht⟩ := Machine.exec_total exists_step (start .empty) (.replicate 255 7)
    obtain ⟨u, hu⟩ := @exists_step plenty t 7
    rw [hsnoc] at heach
    have hlast := Machine.exec_cons_some.mpr ⟨u, hu, Machine.exec_nil u⟩
    have hall := exec_added (Machine.exec_append_some.mpr ⟨t, ht, hlast⟩)
    have hcount := (heach.last ht hu).stored.count
    rw [hall, ← hsnoc] at hcount
    have hcount : 256 = u.glue.portCnt.toNat := by
      rw [← hcount]
      exact List.length_replicate.symm
    exact absurd u.glue.portCnt.toNat_lt (by omega)

end PicoHost.BridgeGlue
