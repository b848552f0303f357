import PicoHost.Event.Types
import PicoHost.Lib.Run

/-!
# The SNTP client (`esp_netif_sntp.c`)

The module has a block of its own, `s_storage`, with copies of the server names where these are to
be set again after a got-IP event. lwIP keeps the pointers that it is given in a table of slots; its
client is a parameter. Assertions are compiled out.

`esp_netif_sntp_deinit` frees the copies and leaves them in the table, and `esp_netif_sntp_init`
does not look at what `s_storage` is. `SafeStep` is the exact condition under which neither does
harm.
-/

namespace PicoHost.Sntp

open Event (EspErr)

/-- What a slot points to: a string of the caller, or a copy that `strdup` has made. -/
inductive ServerName where
  | config (ptr : Nat)
  | dup (b : Block)
deriving DecidableEq, Repr

/-- lwIP's client: whether it runs, and its table. `maxServers` is `SNTP_MAX_SERVERS`, with the
range of `Kconfig`, and `dhcpGetNtpSrv` is `LWIP_DHCP_GET_NTP_SRV`. -/
structure Lwip where
  State : Type
  maxServers : Nat
  dhcpGetNtpSrv : Bool
  boot : State
  running : State → Bool
  name : State → Nat → Option ServerName
  setservername : UInt8 → Option ServerName → State → State
  setoperatingmode : State → State
  servermodeDhcp : State → State
  init : State → State
  stop : State → State
  maxServers_le : maxServers ≤ 16
  running_boot : running boot = false
  name_boot : ∀ i, name boot i = none
  running_setservername : ∀ idx p s, running (setservername idx p s) = running s
  name_setservername : ∀ idx p s i, name (setservername idx p s) i =
    if i = idx.toNat ∧ i < maxServers then p else name s i
  running_setoperatingmode : ∀ s, running (setoperatingmode s) = running s
  name_setoperatingmode : ∀ s, name (setoperatingmode s) = name s
  running_servermodeDhcp : ∀ s, running (servermodeDhcp s) = running s
  name_servermodeDhcp : ∀ s, name (servermodeDhcp s) = name s
  running_init : ∀ s, running (init s) = true
  name_init : ∀ s, name (init s) = name s
  running_stop : ∀ s, running (stop s) = false
  name_stop : ∀ s, name (stop s) = name s

/-- `esp_sntp_config_t`, but for the callback and the mode of synchronisation -/
structure Config where
  serverFromDhcp : Bool
  waitForSync : Bool
  start : Bool
  renewServersAfterNewIP : Bool
  indexOfFirstServer : Nat
  numOfServers : Nat
  servers : Nat → Nat

/-- `sntp_storage_t` -/
structure Storage where
  self : Block
  syncSem : Option Block
  indexOfFirstServer : Nat
  numOfServers : Nat
  servers : List (Option Block)
  size : servers.length = numOfServers

/-- The objects that belong to the storage -/
def Storage.blocks (st : Storage) : List Block :=
  st.servers.filterMap id ++ (st.syncSem.toList ++ [st.self])

/-- `s_storage`, the client, and the objects of the module -/
structure Service (L : Lwip) where
  storage : Option Storage
  lwip : L.State
  heap : Heap

/-! ## The code -/

section Code

variable {L : Lwip} (A : Allocator) (c : Config)

/-- The loop of `renew_servers_api` -/
def setCopies : Nat → List (Option Block) → L.State → L.State
  | _, [], lwip => lwip
  | i, b :: servers, lwip =>
    setCopies (i + 1) servers (L.setservername (.ofNat i) (b.map .dup) lwip)

/-- `renew_servers_api` (esp_netif_sntp.c:75–83) -/
def renewServersApi (s : Service L) : Service L :=
  match s.storage with
  | none => s
  | some st =>
    if st.numOfServers ≠ 0 then
      { s with lwip := setCopies st.indexOfFirstServer st.servers s.lwip }
    else s

/-- The loop of `sntp_init_api` over the first `n` servers -/
def setNames : Nat → L.State → L.State
  | 0, lwip => lwip
  | n + 1, lwip => L.setservername (.ofNat n) (some (.config (c.servers n))) (setNames n lwip)

/-- `sntp_init_api` (esp_netif_sntp.c:42–73) -/
def sntpInitApi (lwip : L.State) : EspErr × L.State :=
  if c.numOfServers ≤ L.maxServers then
    let lwip := setNames c c.numOfServers (L.setoperatingmode lwip)
    if c.serverFromDhcp ∧ ¬ L.dhcpGetNtpSrv then (.invalidArg, lwip)
    else
      let lwip := if c.serverFromDhcp then L.servermodeDhcp lwip else lwip
      (.ok, if c.start then L.init lwip else lwip)
  else (.invalidArg, lwip)

/-- `esp_netif_sntp_deinit` (esp_netif_sntp.c:132–151) -/
def espNetifSntpDeinit (s : Service L) : Service L :=
  match s.storage with
  | none => s
  | some st =>
    let heap := if st.numOfServers ≠ 0 then s.heap.freeAll (st.servers.filterMap id) else s.heap
    let heap := match st.syncSem with
      | none => heap
      | some sem => heap.free sem
    ⟨none, L.stop s.lwip, heap.free st.self⟩

/-- `strdup`, `n` times -/
def strdups : Nat → Heap → List (Option Block) × Heap
  | 0, h => ([], h)
  | n + 1, h =>
    let r := A.calloc h
    let rest := strdups n r.2
    (r.1 :: rest.1, rest.2)

/-- One copy for each server -/
theorem strdups_length (n : Nat) (h : Heap) : (strdups A n h).1.length = n := by
  induction n generalizing h with
  | zero => rfl
  | succ n ih => rw [strdups, List.length_cons, ih]

/-- The semaphore of `esp_netif_sntp_init`; whether the function goes on -/
def createSem (st : Storage) (h : Heap) : Bool × Storage × Heap :=
  if c.waitForSync then
    match A.calloc h with
    | (none, h) => (false, st, h)
    | (some sem, h) => (true, { st with syncSem := some sem }, h)
  else (true, st, h)

/-- The copies of `esp_netif_sntp_init` and the registration of the handler -/
def storeServers (registered : EspErr) (st : Storage) (h : Heap) : EspErr × Storage × Heap :=
  if c.renewServersAfterNewIP ∧ 0 < c.numOfServers then
    (registered, { st with
      indexOfFirstServer := c.indexOfFirstServer
      numOfServers := c.numOfServers
      servers := (strdups A c.numOfServers h).1
      size := strdups_length A c.numOfServers h }, (strdups A c.numOfServers h).2)
  else (.ok, st, h)

/-- `esp_netif_sntp_init` (esp_netif_sntp.c:90–124); `registered` is what the event loop returns. -/
def espNetifSntpInit (registered : EspErr) (s : Service L) : EspErr × Service L :=
  match A.calloc s.heap with
  | (none, h) => (.noMem, espNetifSntpDeinit { s with storage := none, heap := h })
  | (some self, h) =>
    match createSem A c ⟨self, none, 0, 0, [], rfl⟩ h with
    | (false, st, h) => (.noMem, espNetifSntpDeinit { s with storage := some st, heap := h })
    | (true, st, h) =>
      let r := storeServers A c registered st h
      let s := { s with storage := some r.2.1, heap := r.2.2 }
      if r.1 = .ok then
        let i := sntpInitApi c s.lwip
        let s := { s with lwip := i.2 }
        if i.1 = .ok then (.ok, s) else (i.1, espNetifSntpDeinit s)
      else (r.1, espNetifSntpDeinit s)

/-- `esp_netif_sntp_start` (esp_netif_sntp.c:168–178) -/
def espNetifSntpStart (s : Service L) : Service L := { s with lwip := L.init (L.stop s.lwip) }

end Code

/-- A call; a renewal follows a got-IP event. -/
inductive Action where
  | init (c : Config) (registered : EspErr)
  | start
  | renew
  | deinit

section Machine

variable {L : Lwip} (A : Allocator)

/-- The module at the start -/
def boot (L : Lwip) : Service L := ⟨none, L.boot, .empty⟩

def step (s : Service L) : Action → Option (Service L)
  | .init c registered => some (espNetifSntpInit A c registered s).2
  | .start => some (espNetifSntpStart s)
  | .renew => some (renewServersApi s)
  | .deinit => some (espNetifSntpDeinit s)

end Machine

/-! ## A safe service -/

section Safe

variable {L : Lwip}

/-- The objects of the current storage -/
def Service.blocks (s : Service L) : List Block := s.storage.elim [] Storage.blocks

/-- The copies in the current storage -/
def Service.copies (s : Service L) : List Block :=
  s.storage.elim [] fun st => st.servers.filterMap id

/-- A running client has no freed name in its table. No object has been freed twice, and those that
have not been freed belong to the storage, which the next `esp_netif_sntp_deinit` frees. -/
structure Service.Safe (s : Service L) : Prop where
  slots : L.running s.lwip → ∀ i b, L.name s.lwip i = some (.dup b) → b ∉ s.heap.freed
  once : s.heap.freed.Nodup
  held : ∀ b ∈ s.heap.live, b ∈ s.blocks

/-- `esp_netif_sntp_init` gets all it asks for. -/
def InitSucceeds (L : Lwip) (A : Allocator) (c : Config) (registered : EspErr) (h : Heap) : Prop :=
  (A.calloc h).1.isSome ∧ (c.waitForSync → (A.calloc (A.calloc h).2).1.isSome) ∧
    (c.renewServersAfterNewIP ∧ 0 < c.numOfServers → registered = .ok) ∧
    c.numOfServers ≤ L.maxServers ∧ (c.serverFromDhcp → L.dhcpGetNtpSrv)

/-- `esp_netif_sntp_init` is called with no storage. Where the client is started, the slots that are
not set have no copies, but those of the current storage. -/
def SafeStep (A : Allocator) (s : Service L) : Action → Prop
  | .init c registered => s.storage = none ∧
      (c.start ∧ InitSucceeds L A c registered s.heap →
        ∀ i b, c.numOfServers ≤ i → L.name s.lwip i ≠ some (.dup b))
  | .start => ∀ i b, L.name s.lwip i = some (.dup b) → b ∈ s.copies
  | .renew | .deinit => True

end Safe

/-! ## The table -/

section Table

variable {L : Lwip} {c : Config}

@[simp] theorem running_setNames (c : Config) (n : Nat) (lwip : L.State) :
    L.running (setNames c n lwip) = L.running lwip := by
  induction n with
  | zero => rfl
  | succ n ih => rw [setNames, L.running_setservername, ih]

/-- After the loop, the first servers are those of the configuration. -/
theorem name_setNames (c : Config) {n : Nat} (lwip : L.State) (hn : n ≤ L.maxServers) (i : Nat) :
    L.name (setNames c n lwip) i =
      if i < n then some (.config (c.servers i)) else L.name lwip i := by
  induction n with
  | zero => rfl
  | succ n ih =>
    have hmax := L.maxServers_le
    have hidx : (UInt8.ofNat n).toNat = n := UInt8.toNat_ofNat_of_lt' (by show n < 256; omega)
    rw [setNames, L.name_setservername, hidx, ih (by omega)]
    by_cases hi : i = n
    · subst hi
      rw [if_pos ⟨rfl, by omega⟩, if_pos (Nat.lt_succ_self i)]
    · rw [if_neg fun h => hi h.1]
      have hiff : i < n ↔ i < n + 1 := by omega
      simp only [hiff]

@[simp] theorem running_setCopies (i : Nat) (servers : List (Option Block)) (lwip : L.State) :
    L.running (setCopies i servers lwip) = L.running lwip := by
  induction servers generalizing i lwip with
  | nil => rfl
  | cons b servers ih => rw [setCopies, ih, L.running_setservername]

/-- A slot that is set again points to one of the copies. -/
theorem name_setCopies (i : Nat) (servers : List (Option Block)) (lwip : L.State) {j : Nat}
    {b : Block} (h : L.name (setCopies i servers lwip) j = some (.dup b)) :
    L.name lwip j = some (.dup b) ∨ some b ∈ servers := by
  induction servers generalizing i lwip with
  | nil => exact .inl h
  | cons first servers ih =>
    rcases ih (i + 1) _ h with h | h
    · rw [L.name_setservername] at h
      split at h
      · obtain ⟨b', hb', heq⟩ := Option.map_eq_some_iff.mp h
        cases heq
        rw [hb']
        exact .inr (List.mem_cons_self ..)
      · exact .inl h
    · exact .inr (List.mem_cons_of_mem _ h)

end Table

/-! ## The objects -/

section Objects

variable {L : Lwip} {A : Allocator} {c : Config} {s : Service L} {others : List Block}

/-- `esp_netif_sntp_deinit` frees its blocks and nothing else. -/
theorem deinit_heap (s : Service L) : (espNetifSntpDeinit s).heap = s.heap.freeAll s.blocks := by
  rw [espNetifSntpDeinit, Service.blocks]
  cases s.storage with
  | none => rfl
  | some st =>
    have hservers : (if st.numOfServers ≠ 0 then s.heap.freeAll (st.servers.filterMap id)
        else s.heap) = s.heap.freeAll (st.servers.filterMap id) := by
      split
      · rfl
      · rename_i hzero
        have hnil : st.servers = [] := List.length_eq_zero_iff.mp (by rw [st.size]; omega)
        rw [hnil]
        rfl
    dsimp only
    rw [hservers, Option.elim_some, Storage.blocks, Heap.freeAll_append, Heap.freeAll_append]
    cases st.syncSem with
    | none => rfl
    | some sem => rfl

/-- After it there is no storage. -/
theorem deinit_storage (s : Service L) : (espNetifSntpDeinit s).storage = none := by
  rw [espNetifSntpDeinit]
  cases h : s.storage with
  | none => exact h
  | some st => rfl

/-- What the service does not own stays allocated. -/
theorem deinit_owns (own : s.heap.Owns (s.blocks ++ others)) :
    (espNetifSntpDeinit s).heap.Owns others := by
  rw [deinit_heap]
  exact own.freeAll

/-- A freed block stays freed. -/
theorem freed_subset_deinit {b : Block} (hb : b ∈ s.heap.freed) :
    b ∈ (espNetifSntpDeinit s).heap.freed := by
  rw [deinit_heap, Heap.freeAll_freed]
  exact List.mem_append_right _ hb

/-- lwIP keeps the names that it was given. -/
theorem deinit_name (s : Service L) :
    L.name (espNetifSntpDeinit s).lwip = L.name s.lwip := by
  rw [espNetifSntpDeinit]
  cases s.storage with
  | none => rfl
  | some st => exact L.name_stop s.lwip

/-- A client with a storage is stopped. -/
theorem deinit_running (h : s.storage.isSome) :
    L.running (espNetifSntpDeinit s).lwip = false := by
  obtain ⟨st, hst⟩ := Option.isSome_iff_exists.mp h
  rw [espNetifSntpDeinit, hst]
  exact L.running_stop s.lwip

/-- The copies that were granted are new blocks. -/
theorem strdups_owns {h : Heap} (own : h.Owns others) (n : Nat) :
    (strdups A n h).2.Owns ((strdups A n h).1.filterMap id ++ others) := by
  induction n generalizing h others with
  | zero => exact own
  | succ n ih =>
    rcases A.owns_calloc own with ⟨h', hc, own', -⟩ | ⟨b, h', hc, own', -, -⟩
    · rw [strdups, hc]
      exact ih own'
    · rw [strdups, hc]
      -- the later copies are in front of `b` here
      refine (ih own').perm ?_
      exact List.perm_middle

@[simp] theorem strdups_freed (n : Nat) (h : Heap) : (strdups A n h).2.freed = h.freed := by
  induction n generalizing h with
  | zero => rfl
  | succ n ih => rw [strdups, ih, A.calloc_freed]

/-- The semaphore belongs to the storage, if there is one. -/
theorem createSem_owns {st : Storage} {h : Heap} (hst : st.servers = [] ∧ st.syncSem = none)
    (own : h.Owns (st.self :: others)) :
    let r := createSem A c st h
    r.2.2.Owns (r.2.1.blocks ++ others) ∧ r.2.2.freed = h.freed ∧ r.2.1.servers = [] ∧
      (r.1 ↔ (c.waitForSync → (A.calloc h).1.isSome)) := by
  obtain ⟨hservers, hsem⟩ := hst
  have hblocks : st.blocks = [st.self] := by rw [Storage.blocks, hservers, hsem]; rfl
  rw [createSem]
  cases c.waitForSync with
  | false =>
    refine ⟨?_, rfl, hservers, fun _ hw => ?_, fun _ => rfl⟩
    · show h.Owns (st.blocks ++ others)
      rw [hblocks]
      exact own
    · cases hw
  | true =>
    have hfreed := A.calloc_freed h
    rcases A.owns_calloc own with ⟨h', hc, own', -⟩ | ⟨sem, h', hc, own', -, -⟩
    · rw [hc] at hfreed ⊢
      refine ⟨?_, hfreed, hservers, fun hf => ?_, fun hf => ?_⟩
      · show h'.Owns (st.blocks ++ others)
        rw [hblocks]
        exact own'
      · cases hf
      · cases hf rfl
    · rw [hc] at hfreed ⊢
      refine ⟨?_, hfreed, hservers, fun _ _ => rfl, fun _ => rfl⟩
      show h'.Owns (st.servers.filterMap id ++ [sem, st.self] ++ others)
      rw [hservers]
      exact own'

/-- So do the copies. -/
theorem storeServers_owns {st : Storage} {h : Heap} (registered : EspErr)
    (hst : st.servers = []) (own : h.Owns (st.blocks ++ others)) :
    let r := storeServers A c registered st h
    r.2.2.Owns (r.2.1.blocks ++ others) ∧ r.2.2.freed = h.freed ∧
      (r.1 = .ok ↔ (c.renewServersAfterNewIP ∧ 0 < c.numOfServers → registered = .ok)) := by
  rw [storeServers]
  by_cases hrenew : c.renewServersAfterNewIP ∧ 0 < c.numOfServers
  · rw [if_pos hrenew]
    refine ⟨?_, strdups_freed _ _, fun h _ => h, fun h => h hrenew⟩
    have own' := strdups_owns (A := A) own c.numOfServers
    rw [Storage.blocks, hst] at own'
    rw [Storage.blocks, List.append_assoc]
    exact own'
  · rw [if_neg hrenew]
    exact ⟨own, rfl, fun _ h => absurd h hrenew, fun _ => rfl⟩

end Objects

/-! ## `esp_netif_sntp_init` -/

section Init

variable {L : Lwip} {A : Allocator} {c : Config} {registered : EspErr} {s r : Service L}
  {others : List Block}

/-- What `sntp_init_api` does to the table and to the client -/
theorem sntpInitApi_ok (lwip : L.State) (h : (sntpInitApi c lwip).1 = .ok) :
    L.running (sntpInitApi c lwip).2 = (c.start || L.running lwip) ∧
      ∀ i, L.name (sntpInitApi c lwip).2 i =
        if i < c.numOfServers then some (.config (c.servers i)) else L.name lwip i := by
  rw [sntpInitApi] at h ⊢
  split at h
  · rename_i hmax
    rw [if_pos hmax]
    dsimp only at h ⊢
    split at h
    · cases h
    · rename_i hdhcp
      rw [if_neg hdhcp]
      have hname := name_setNames c (L.setoperatingmode lwip) hmax
      rw [L.name_setoperatingmode] at hname
      cases c.start with
      | false =>
        cases c.serverFromDhcp with
        | false => simp [hname, L.running_setoperatingmode]
        | true =>
          simp [hname, L.running_setoperatingmode, L.name_servermodeDhcp, L.running_servermodeDhcp]
      | true =>
        cases c.serverFromDhcp with
        | false => simp [hname, L.running_init, L.name_init]
        | true => simp [hname, L.running_init, L.name_init, L.name_servermodeDhcp]
  · cases h

/-- When `sntp_init_api` accepts a configuration -/
theorem sntpInitApi_ok_iff (lwip : L.State) : (sntpInitApi c lwip).1 = .ok ↔
    c.numOfServers ≤ L.maxServers ∧ (c.serverFromDhcp → L.dhcpGetNtpSrv) := by
  rw [sntpInitApi]
  by_cases hmax : c.numOfServers ≤ L.maxServers
  · rw [if_pos hmax]
    by_cases hdhcp : c.serverFromDhcp ∧ ¬ L.dhcpGetNtpSrv
    · simp [hdhcp]
    · simp only [hdhcp, if_false, true_iff]
      exact ⟨hmax, by simpa using hdhcp⟩
  · simp [hmax]

/-- Whatever it returns, it puts no copies into the table. -/
theorem sntpInitApi_name (lwip : L.State) {i : Nat} {b : Block}
    (h : L.name (sntpInitApi c lwip).2 i = some (.dup b)) : L.name lwip i = some (.dup b) := by
  by_cases hok : (sntpInitApi c lwip).1 = .ok
  · rw [(sntpInitApi_ok lwip hok).2] at h
    split at h
    · cases h
    · exact h
  · rw [sntpInitApi] at h hok
    split at h
    · rename_i hmax
      rw [if_pos hmax] at hok
      dsimp only at h hok
      split at h
      · rw [name_setNames c _ hmax, L.name_setoperatingmode] at h
        split at h
        · cases h
        · exact h
      · rename_i hdhcp
        rw [if_neg hdhcp] at hok
        exact absurd rfl hok
    · exact h

/-- A call that has failed and given everything back -/
structure InitUndone (s r : Service L) (others : List Block) : Prop where
  storage : r.storage = none
  owns : r.heap.Owns others
  freed : ∀ b ∈ s.heap.freed, b ∈ r.heap.freed
  names : ∀ i b, L.name r.lwip i = some (.dup b) → L.name s.lwip i = some (.dup b)
  running : L.running r.lwip → L.running s.lwip

/-- A call that has succeeded -/
structure InitDone (c : Config) (s r : Service L) (others : List Block) : Prop where
  owns : r.heap.Owns (r.blocks ++ others)
  freed : r.heap.freed = s.heap.freed
  names : ∀ i, L.name r.lwip i =
    if i < c.numOfServers then some (.config (c.servers i)) else L.name s.lwip i
  running : L.running r.lwip = (c.start || L.running s.lwip)

/-- An error undoes what was done with a storage. -/
theorem initUndone_deinit (hsome : r.storage.isSome) (own : r.heap.Owns (r.blocks ++ others))
    (hfreed : r.heap.freed = s.heap.freed)
    (hnames : ∀ i b, L.name r.lwip i = some (.dup b) → L.name s.lwip i = some (.dup b)) :
    InitUndone s (espNetifSntpDeinit r) others where
  storage := deinit_storage r
  owns := deinit_owns own
  freed b hb := by
    rw [← hfreed] at hb
    exact freed_subset_deinit hb
  names i b h := by
    rw [deinit_name] at h
    exact hnames i b h
  running h := by
    rw [deinit_running hsome] at h
    cases h

/-- What `esp_netif_sntp_init` can do, whatever else is on the heap -/
theorem init_cases (own : s.heap.Owns others) (registered : EspErr) :
    let r := (espNetifSntpInit A c registered s).2
    ¬ InitSucceeds L A c registered s.heap ∧ InitUndone s r others ∨
      InitSucceeds L A c registered s.heap ∧ InitDone c s r others := by
  rw [espNetifSntpInit, InitSucceeds]
  have hfreed := A.calloc_freed s.heap
  rcases A.owns_calloc own with ⟨h₁, hc, own₁, -⟩ | ⟨self, h₁, hc, own₁, -, -⟩
  · -- no memory for the storage
    rw [hc] at hfreed ⊢
    refine .inl ⟨fun h => absurd h.1 nofun, ⟨rfl, own₁, fun b hb => ?_, fun _ _ h => h, id⟩⟩
    show b ∈ h₁.freed
    rwa [show h₁.freed = s.heap.freed from hfreed]
  · rw [hc] at hfreed ⊢
    have hfreed₁ : h₁.freed = s.heap.freed := hfreed
    have hmade := @createSem_owns A c others ⟨self, none, 0, 0, [], rfl⟩ h₁ ⟨rfl, rfl⟩ own₁
    obtain ⟨own₂, hfreed₂, hservers, hsem⟩ := hmade
    dsimp only at own₂ hfreed₂ hservers hsem ⊢
    rcases hr : createSem A c ⟨self, none, 0, 0, [], rfl⟩ h₁ with ⟨made, st, h₂⟩
    rw [hr] at own₂ hfreed₂ hservers hsem
    cases made with
    | false =>
      refine .inl ⟨fun h => ?_, ?_⟩
      · cases hsem.mpr h.2.1
      · exact initUndone_deinit (r := ⟨some st, s.lwip, h₂⟩) rfl own₂ (hfreed₂.trans hfreed₁)
          fun _ _ h => h
    | true =>
      obtain ⟨own₃, hfreed₃, hregistered⟩ :=
        storeServers_owns (A := A) (c := c) registered hservers own₂
      have hfreed₃ := hfreed₃.trans (hfreed₂.trans hfreed₁)
      have hwait := hsem.mp rfl
      dsimp only at own₃ hfreed₃ hregistered ⊢
      rcases hstore : storeServers A c registered st h₂ with ⟨err, st, h₃⟩
      rw [hstore] at own₃ hfreed₃ hregistered
      dsimp only at hregistered ⊢
      by_cases hreg : err = .ok
      · rw [if_pos hreg]
        by_cases hapi : (sntpInitApi c s.lwip).1 = .ok
        · rw [if_pos hapi]
          obtain ⟨hrunning, hnames⟩ := sntpInitApi_ok s.lwip hapi
          refine .inr ⟨⟨rfl, hwait, hregistered.mp hreg, ?_⟩, own₃, hfreed₃, hnames, hrunning⟩
          exact (sntpInitApi_ok_iff s.lwip).mp hapi
        · rw [if_neg hapi]
          refine .inl ⟨fun h => hapi ((sntpInitApi_ok_iff s.lwip).mpr h.2.2.2), ?_⟩
          exact initUndone_deinit (r := ⟨some st, (sntpInitApi c s.lwip).2, h₃⟩) rfl own₃ hfreed₃
            fun _ _ h => sntpInitApi_name s.lwip h
      · rw [if_neg hreg]
        refine .inl ⟨fun h => hreg (hregistered.mpr h.2.2.1), ?_⟩
        exact initUndone_deinit (r := ⟨some st, s.lwip, h₃⟩) rfl own₃ hfreed₃ fun _ _ h => h

end Init

/-! ## Runs -/

/-- What holds between the calls: the objects are those of the storage, a copy in the table belongs
to the storage or has been freed, and the latter only while the client does not run. -/
structure Service.Inv {L : Lwip} (s : Service L) : Prop where
  owns : s.heap.Owns s.blocks
  slots : ∀ i b, L.name s.lwip i = some (.dup b) → b ∈ s.copies ∨ b ∈ s.heap.freed
  running : L.running s.lwip → ∀ i b, L.name s.lwip i = some (.dup b) → b ∈ s.copies

section Runs

variable {L : Lwip} {A : Allocator} {s s' : Service L} {a : Action}

/-- At boot nothing is allocated, and lwIP has no name. -/
theorem inv_boot (L : Lwip) : (boot L).Inv where
  owns := Heap.owns_empty
  slots i b h := by
    rw [boot, L.name_boot] at h
    cases h
  running h := by
    rw [boot, L.running_boot] at h
    cases h

/-- The copies are among the blocks of the service. -/
theorem copies_subset_blocks {b : Block} (hb : b ∈ s.copies) : b ∈ s.blocks := by
  rw [Service.copies] at hb
  rw [Service.blocks]
  cases h : s.storage with
  | none =>
    rw [h] at hb
    cases hb
  | some st =>
    rw [h] at hb
    exact List.mem_append_left _ hb

/-- Without storage the service owns nothing. -/
theorem blocks_of_none (h : s.storage = none) : s.blocks = [] := by rw [Service.blocks, h]; rfl

/-- Without storage there are no copies. -/
theorem copies_of_none (h : s.storage = none) : s.copies = [] := by rw [Service.copies, h]; rfl

/-- The invariant gives what is asked of the service. -/
theorem Service.Inv.safe (inv : s.Inv) : s.Safe where
  slots hrunning i b h := by
    have hblock := copies_subset_blocks (inv.running hrunning i b h)
    exact inv.owns.ok.notMem_freed (inv.owns.mem_iff.mpr hblock)
  once := inv.owns.ok.freed_nodup
  held b hb := inv.owns.mem_iff.mp hb

/-- Without a storage, the copies in the table have been freed, and the client does not use them. -/
theorem Service.Inv.stale (inv : s.Inv) (hnone : s.storage = none) {i : Nat} {b : Block}
    (h : L.name s.lwip i = some (.dup b)) : b ∈ s.heap.freed ∧ ¬ L.running s.lwip := by
  have hcopies : b ∉ s.copies := by
    rw [copies_of_none hnone]
    exact List.not_mem_nil
  exact ⟨(inv.slots i b h).resolve_left hcopies, fun hr => hcopies (inv.running hr i b h)⟩

/-- An initialisation keeps the invariant if it is a safe step. -/
theorem Service.Inv.init {c : Config} {registered : EspErr} (inv : s.Inv)
    (hsafe : SafeStep A s (.init c registered)) :
    (espNetifSntpInit A c registered s).2.Inv := by
  obtain ⟨hnone, hslots⟩ := hsafe
  have own : s.heap.Owns [] := by
    rw [← blocks_of_none hnone]
    exact inv.owns
  rcases init_cases (A := A) (c := c) own registered with ⟨-, undone⟩ | ⟨succeeds, done⟩
  · refine ⟨?_, ?_, ?_⟩
    · rw [blocks_of_none undone.storage]
      exact undone.owns
    · intro i b h
      exact .inr (undone.freed b (inv.stale hnone (undone.names i b h)).1)
    · intro hrunning i b h
      exact absurd (undone.running hrunning) (inv.stale hnone (undone.names i b h)).2
  · have hold : ∀ i b, L.name (espNetifSntpInit A c registered s).2.lwip i = some (.dup b) →
        c.numOfServers ≤ i ∧ L.name s.lwip i = some (.dup b) := by
      intro i b h
      rw [done.names] at h
      split at h
      · cases h
      · rename_i hi
        exact ⟨Nat.le_of_not_lt hi, h⟩
    refine ⟨?_, ?_, ?_⟩
    · have own' := done.owns
      rwa [List.append_nil] at own'
    · intro i b h
      rw [done.freed]
      exact .inr (inv.stale hnone (hold i b h).2).1
    · intro hrunning i b h
      obtain ⟨hi, h⟩ := hold i b h
      rw [done.running, Bool.or_eq_true] at hrunning
      rcases hrunning with hstart | hrunning
      · exact absurd h (hslots ⟨hstart, succeeds⟩ i b hi)
      · exact absurd hrunning (inv.stale hnone h).2

/-- A renewal sets slots to copies of the storage, and nothing else. -/
theorem renew_spec (s : Service L) : ∃ lwip, renewServersApi s = { s with lwip } ∧
    L.running lwip = L.running s.lwip ∧
    ∀ i b, L.name lwip i = some (.dup b) → L.name s.lwip i = some (.dup b) ∨ b ∈ s.copies := by
  obtain ⟨storage, lwip, heap⟩ := s
  cases storage with
  | none => exact ⟨lwip, rfl, rfl, fun i b h => .inl h⟩
  | some st =>
    by_cases hnum : st.numOfServers ≠ 0
    · refine ⟨setCopies st.indexOfFirstServer st.servers lwip, if_pos hnum,
        running_setCopies _ _ _, fun i b h => ?_⟩
      refine (name_setCopies _ _ _ h).imp_right fun hmem => ?_
      exact List.mem_filterMap.mpr ⟨some b, hmem, rfl⟩
    · exact ⟨lwip, if_neg hnum, rfl, fun i b h => .inl h⟩

/-- Renewing the servers keeps the invariant. -/
theorem Service.Inv.renew (inv : s.Inv) : (renewServersApi s).Inv := by
  obtain ⟨lwip, hs, hrunning, hslot⟩ := renew_spec s
  rw [hs]
  refine ⟨inv.owns, ?_, ?_⟩
  · intro i b h
    rcases hslot i b h with h | h
    · exact inv.slots i b h
    · exact .inl h
  · intro hr i b h
    rw [hrunning] at hr
    rcases hslot i b h with h | h
    · exact inv.running hr i b h
    · exact h

/-- A deinitialisation keeps the invariant. -/
theorem Service.Inv.deinit (inv : s.Inv) : (espNetifSntpDeinit s).Inv := by
  have hblocks := blocks_of_none (deinit_storage s)
  refine ⟨?_, ?_, ?_⟩
  · rw [hblocks]
    refine deinit_owns ?_
    rw [List.append_nil]
    exact inv.owns
  · intro i b h
    rw [deinit_name] at h
    rcases inv.slots i b h with h | h
    · rw [deinit_heap, Heap.freeAll_freed]
      exact .inr (List.mem_append_left _ (List.mem_reverse.mpr (copies_subset_blocks h)))
    · exact .inr (freed_subset_deinit h)
  · intro hrunning i b h
    cases hst : s.storage with
    | none =>
      rw [espNetifSntpDeinit, hst] at hrunning h ⊢
      exact inv.running hrunning i b h
    | some st =>
      rw [deinit_running (by rw [hst]; rfl)] at hrunning
      cases hrunning

/-- A step that meets the condition keeps what holds between the calls. -/
theorem Service.Inv.step (inv : s.Inv) (hsafe : SafeStep A s a) (h : Sntp.step A s a = some s') :
    s'.Inv := by
  cases a with
  | init c registered =>
    cases h
    exact inv.init hsafe
  | start =>
    cases h
    have hname : L.name (espNetifSntpStart s).lwip = L.name s.lwip := by
      rw [espNetifSntpStart, L.name_init, L.name_stop]
    refine ⟨inv.owns, fun i b h => ?_, fun _ i b h => ?_⟩
    · rw [hname] at h
      exact inv.slots i b h
    · rw [hname] at h
      exact hsafe i b h
  | renew =>
    cases h
    exact inv.renew
  | deinit =>
    cases h
    exact inv.deinit

/-- A second storage takes the place of the first one, which nobody frees then. -/
theorem not_safe_of_init {c : Config} {registered : EspErr} (inv : s.Inv) {st : Storage}
    (hst : s.storage = some st) : ¬ (espNetifSntpInit A c registered s).2.Safe := by
  intro safe
  have hself : st.self ∈ s.blocks := by
    rw [Service.blocks, hst]
    exact List.mem_append_right _ (List.mem_append_right _ (List.mem_singleton_self _))
  rcases init_cases (A := A) (c := c) inv.owns registered with ⟨-, undone⟩ | ⟨-, done⟩
  · have hmem := safe.held st.self (undone.owns.mem_iff.mpr hself)
    rw [blocks_of_none undone.storage] at hmem
    cases hmem
  · have hmem := safe.held st.self
      (done.owns.mem_iff.mpr (List.mem_append_right _ hself))
    exact (List.nodup_append.mp done.owns.nodup).2.2 _ hmem _ hself rfl

/-- A step that does not meet the condition does harm. -/
theorem Service.Inv.not_safe (inv : s.Inv) (hnot : ¬ SafeStep A s a)
    (h : Sntp.step A s a = some s') : ¬ s'.Safe := by
  cases a with
  | init c registered =>
    cases h
    cases hst : s.storage with
    | some st => exact not_safe_of_init inv hst
    | none =>
      intro safe
      refine hnot ⟨hst, ?_⟩
      rintro ⟨hstart, succeeds⟩ i b hi hname
      have own : s.heap.Owns [] := by
        rw [← blocks_of_none hst]
        exact inv.owns
      rcases init_cases (A := A) (c := c) own registered with ⟨fails, -⟩ | ⟨-, done⟩
      · exact fails succeeds
      · have hfreed := (inv.stale hst hname).1
        have hrunning := done.running
        rw [hstart, Bool.true_or] at hrunning
        rw [← done.freed] at hfreed
        refine safe.slots hrunning i b ?_ hfreed
        rw [done.names, if_neg (Nat.not_lt_of_le hi), hname]
  | start =>
    cases h
    intro safe
    refine hnot fun i b hname => ?_
    by_contra hcopies
    have hfreed := (inv.slots i b hname).resolve_left hcopies
    refine safe.slots (L.running_init _) i b ?_ hfreed
    rw [espNetifSntpStart, L.name_init, L.name_stop, hname]
  | renew => exact absurd trivial hnot
  | deinit => exact absurd trivial hnot

end Runs

/-- Every action is possible in every state. -/
theorem exists_step {L : Lwip} {A : Allocator} (s : Service L) (a : Action) :
    ∃ s', step A s a = some s' := by
  cases a with
  | init c registered => exact ⟨_, rfl⟩
  | start => exact ⟨_, rfl⟩
  | renew => exact ⟨_, rfl⟩
  | deinit => exact ⟨_, rfl⟩

/-- In every run, whatever is refused, the module is safe after every call exactly when every call
meets the condition. -/
theorem safe_iff_safeStep (L : Lwip) (A : Allocator) (actions : List Action) :
    Machine.Each (step A) (fun _ _ s' => s'.Safe) (boot L) actions ↔
      Machine.Along (step A) (SafeStep A) (boot L) actions := by
  obtain ⟨t, ht⟩ := Machine.exec_total exists_step (boot L) actions
  refine Machine.each_iff_along ?_ ?_ ht (inv_boot L)
  · intro s a s' hsafe h inv
    have inv' := inv.step hsafe h
    exact ⟨inv', inv'.safe⟩
  · intro s a s' hnot h inv
    exact inv.not_safe hnot h

/-- A client with one slot, as this port configures it -/
def Lwip.oneSlot : Lwip where
  State := Bool × (Nat → Option ServerName)
  maxServers := 1
  dhcpGetNtpSrv := false
  boot := (false, fun _ => none)
  running s := s.1
  name s := s.2
  setservername idx p s := (s.1, fun i => if i = idx.toNat ∧ i < 1 then p else s.2 i)
  setoperatingmode s := s
  servermodeDhcp s := s
  init s := (true, s.2)
  stop s := (false, s.2)
  maxServers_le := by decide
  running_boot := rfl
  name_boot _ := rfl
  running_setservername _ _ _ := rfl
  name_setservername _ _ _ _ := rfl
  running_setoperatingmode _ := rfl
  name_setoperatingmode _ := rfl
  running_servermodeDhcp _ := rfl
  name_servermodeDhcp _ := rfl
  running_init _ := rfl
  name_init _ := rfl
  running_stop _ := rfl
  name_stop _ := rfl

/-- One server, which is set again after a got-IP event -/
def renewed : Config := ⟨false, false, true, true, 0, 1, fun _ => 0x2000⟩

/-- The client is started once more after `esp_netif_sntp_deinit`, and has the freed copy; or
`esp_netif_sntp_init` is called twice, and the first storage is lost. -/
theorem not_safe_restarted :
    ¬ Machine.Each (step .unbounded) (fun _ _ s' => s'.Safe) (boot .oneSlot)
        [.init renewed .ok, .renew, .deinit, .start] ∧
    ¬ Machine.Each (step .unbounded) (fun _ _ s' => s'.Safe) (boot .oneSlot)
        [.init renewed .ok, .init renewed .ok] := by
  constructor
  · rintro ⟨-, -, -, safe, -⟩
    exact safe.slots rfl 0 ⟨2, 1⟩ rfl (by decide)
  · rintro ⟨-, safe, -⟩
    exact absurd (safe.held ⟨1, 0⟩ (by decide)) (by decide)

end PicoHost.Sntp
