import PicoHost.Smartconfig.Ack

/-!
# What the tasks of SmartConfig send

The task of a start sends rounds of datagrams: one for the phone, unless that is everyone, and one
for everyone. `acks_sent` says which rounds these are and how the task ends, `stopped_ends` what the
tasks still do after a stop.
-/

namespace PicoHost.Smartconfig

/-! ## What a task sends -/

def Effect.isSocket : Effect → Bool
  | opened _ | closed _ => true
  | sent .. | done | freed => false

/-- What task `n` has done, apart from its sockets -/
def System.told (s : System) (n : Nat) : List Effect :=
  ((s.log.filter fun e => e.1 = n).map Prod.snd).filter fun e => !e.isSocket

/-- A round: its socket, the address that it goes to beside the broadcast, and the station -/
structure Round where
  sock : Fd
  dest : Addr
  mac : Mac
  ip : Addr
deriving DecidableEq, Repr

def Round.datagrams (req : Request) (r : Round) : List Effect :=
  let data := (Ctx.bytes ⟨req.token, r.mac, r.ip⟩).take (ackLen req.type)
  let send := fun dest => Effect.sent (some r.sock) dest (remotePort req.type req.token) data
  if r.dest ≠ inaddrBroadcast then [send r.dest, send inaddrBroadcast] else [send inaddrBroadcast]

/-- In the run of the actions, task `n` was at `pc` when it got the answer: this is what the call
returned that it makes there. -/
def Answered (actions : List Action) (n : Nat) (pc : Pc) (a : Answer) : Prop :=
  ∃ before after s k, actions = before ++ .task n a :: after ∧
    Machine.exec System.step .init before = some s ∧ s.tasks[n]? = some k ∧ k.pc = pc

/-- A round goes over a socket that the task got, to the phone that the request names, for AirKiss
to the one that `recvfrom` has heard, for the second version of ESPTouch to everyone. The one for
ESPTouch has the own address, and each the MAC: they are what `esp_netif_get_ip_info` and
`esp_wifi_get_mac` returned. -/
structure Round.Ok (req : Request) (answered : Pc → Answer → Prop) (r : Round) : Prop where
  sock : ∃ a, answered .socket a ∧ a.socket = some r.sock
  dest : req.type ≠ .airkiss →
    r.dest = if req.type = .esptouchV2 then inaddrBroadcast else req.cellphoneIp
  heard : req.type = .airkiss → ∃ a from_, answered .setsockopt a ∧ a.recvfrom = some from_ ∧
    r.dest = if from_ ≠ inaddrAny then from_ else inaddrBroadcast
  own : req.type = .esptouch → r.ip ≠ inaddrAny ∧ ∃ a, answered .getIpInfo a ∧ a.ipInfo = some r.ip
  mac : ∃ a, answered .getMac a ∧ r.mac = a.mac.getD req.mac

/-- What a task has done: its rounds, at most thirty; that it is done, if it was thirty of them; and
the end. -/
structure Told (req : Request) (answered : Pc → Answer → Prop) (k : Task) (told : List Effect)
    (rounds : List Round) : Prop where
  ok : ∀ r ∈ rounds, r.Ok req answered
  count : rounds.length ≤ scAckMaxCount
  full : rounds.length = scAckMaxCount → k.pc = .eventPost ∨ k.pc = .close ∨ k.pc = .ended
  told : told = rounds.flatMap (Round.datagrams req) ++
    (if rounds.length = scAckMaxCount ∧ k.pc ≠ .eventPost then [.done] else []) ++
    if k.pc = .ended then [.freed] else []

/-- The variables are set, to what has been answered, by the time they are used. -/
structure Task.Ready (req : Request) (answered : Pc → Answer → Prop) (k : Task) : Prop where
  dest : req.type ≠ .airkiss →
    k.serverAddr = if req.type = .esptouchV2 then inaddrBroadcast else req.cellphoneIp
  own : k.pc = .socket ∨ k.pc = .setsockopt ∨ k.pc = .inner ∨ k.pc = .sendto →
    req.type = .esptouch → k.ack.ctx.ip ≠ inaddrAny ∧
      ∃ a, answered .getIpInfo a ∧ a.ipInfo = some k.ack.ctx.ip
  sock : k.pc = .setsockopt ∨ k.pc = .inner ∨ k.pc = .sendto →
    ∃ fd, k.sendSock = some fd ∧ ∃ a, answered .socket a ∧ a.socket = some fd
  heard : k.pc = .inner ∨ k.pc = .sendto → req.type = .airkiss →
    ∃ a from_, answered .setsockopt a ∧ a.recvfrom = some from_ ∧
      k.serverAddr = if from_ ≠ inaddrAny then from_ else inaddrBroadcast
  mac : k.pc ≠ .getMac → ∃ a, answered .getMac a ∧ k.ack.ctx.mac = a.mac.getD req.mac

/-- What a task has done, and what it is about to do -/
structure Acking (req : Request) (answered : Pc → Answer → Prop) (k : Task) (told : List Effect)
    (rounds : List Round) : Prop extends Told req answered k told rounds where
  ready : k.Ready req answered
  block : k.pc = .getMac → k.ack.ctx.mac = req.mac
  type : k.ack.type = req.type
  token : k.ack.ctx.token = req.token
  port : k.remotePort = remotePort req.type req.token
  packetCount : k.packetCount.toNat = rounds.length + 1
  last : k.pc = .eventPost → rounds.length = scAckMaxCount

section Acks

variable {req : Request} {answered answered' : Pc → Answer → Prop} {k : Task} {told : List Effect}
  {rounds : List Round}

/-- What has been answered stays so. -/
theorem Round.Ok.mono {r : Round} (h : r.Ok req answered)
    (hmono : ∀ pc a, answered pc a → answered' pc a) : r.Ok req answered' where
  sock := h.sock.imp fun _ => And.imp_left (hmono _ _)
  dest := h.dest
  heard htype := by
    obtain ⟨a, from_, ha, hrest⟩ := h.heard htype
    exact ⟨a, from_, hmono _ _ ha, hrest⟩
  own htype := (h.own htype).imp_right fun hown => hown.imp fun _ => And.imp_left (hmono _ _)
  mac := h.mac.imp fun _ => And.imp_left (hmono _ _)

/-- More answers do not matter to what was sent. -/
theorem Acking.mono (h : Acking req answered k told rounds)
    (hmono : ∀ pc a, answered pc a → answered' pc a) : Acking req answered' k told rounds :=
  { h with
    ok := fun r hr => (h.ok r hr).mono hmono
    ready :=
      { dest := h.ready.dest
        own := fun hpc htype => (h.ready.own hpc htype).imp_right fun hown =>
          hown.imp fun _ => And.imp_left (hmono _ _)
        sock := fun hpc => (h.ready.sock hpc).imp fun _ => And.imp_right fun hsock =>
          hsock.imp fun _ => And.imp_left (hmono _ _)
        heard := fun hpc htype => by
          obtain ⟨a, from_, ha, hrest⟩ := h.ready.heard hpc htype
          exact ⟨a, from_, hmono _ _ ha, hrest⟩
        mac := fun hpc => (h.ready.mac hpc).imp fun _ => And.imp_left (hmono _ _) } }

/-- A task that has just been created -/
theorem acking_new (type : ScType) (token : UInt8) (ip : Addr) (mac : Mac) :
    Acking ⟨type, token, ip, mac⟩ answered (newTask type token ip mac) [] [] where
  ok := by simp
  count := Nat.zero_le _
  full := by simp [scAckMaxCount]
  told := by simp [newTask, scAckMaxCount]
  ready := ⟨by simp [newTask], by simp [newTask], by simp [newTask], by simp [newTask],
    by simp [newTask]⟩
  block _ := rfl
  type := rfl
  token := rfl
  port := rfl
  packetCount := rfl
  last := by simp [newTask]

/-- A step before the last round that does not send -/
theorem Acking.move (h : Acking req answered k told rounds) {k' : Task}
    (hfrom : k.pc ≠ .eventPost ∧ k.pc ≠ .close ∧ k.pc ≠ .ended)
    (hto : k'.pc ≠ .eventPost ∧ k'.pc ≠ .ended ∧ k'.pc ≠ .getMac)
    (htype : k'.ack.type = k.ack.type) (htoken : k'.ack.ctx.token = k.ack.ctx.token)
    (hport : k'.remotePort = k.remotePort) (hcount : k'.packetCount = k.packetCount)
    (hready : k'.Ready req answered) : Acking req answered k' (told ++ []) rounds where
  ok := h.ok
  count := h.count
  full hfull := by
    have hold := h.full hfull
    simp [hfrom] at hold
  told := by
    have hlt : rounds.length ≠ scAckMaxCount := by
      intro hfull
      have hold := h.full hfull
      simp [hfrom] at hold
    rw [h.told]
    simp [hlt, hfrom, hto]
  ready := hready
  block hpc := absurd hpc hto.2.2
  type := htype.trans h.type
  token := htoken.trans h.token
  port := hport.trans h.port
  packetCount := by rw [hcount, h.packetCount]
  last hpc := absurd hpc hto.1

/-- The MAC has been asked for. -/
theorem Acking.mac (h : Acking req answered k told rounds) (hpc : k.pc = .getMac) {a : Answer}
    (ha : answered .getMac a) : Acking req answered
      { k with ack.ctx.mac := a.mac.getD k.ack.ctx.mac, pc := .outer } (told ++ []) rounds := by
  refine h.move (by simp [hpc]) (by simp) rfl rfl rfl rfl ?_
  refine ⟨h.ready.dest, by simp, by simp, by simp, fun _ => ⟨a, ha, ?_⟩⟩
  exact congrArg a.mac.getD (h.block hpc)

/-- A step that leaves the inner loop, or does not come to a socket -/
theorem Acking.leave (h : Acking req answered k told rounds) {pc : Pc}
    (hfrom : k.pc ≠ .getMac ∧ k.pc ≠ .eventPost ∧ k.pc ≠ .close ∧ k.pc ≠ .ended)
    (hto : pc = .outer ∨ pc = .getIpInfo ∨ pc = .close) :
    Acking req answered { k with pc := pc } (told ++ []) rounds := by
  refine h.move hfrom.2 ?_ rfl rfl rfl rfl
    ⟨h.ready.dest, ?_, ?_, ?_, fun _ => h.ready.mac hfrom.1⟩
  · rcases hto with rfl | rfl | rfl <;> simp
  · rcases hto with rfl | rfl | rfl <;> simp
  · rcases hto with rfl | rfl | rfl <;> simp
  · rcases hto with rfl | rfl | rfl <;> simp

/-- The own address has been found. -/
theorem Acking.found (h : Acking req answered k told rounds) (hpc : k.pc = .getIpInfo) {ip : Addr}
    (hany : ip ≠ inaddrAny) {a : Answer} (ha : answered .getIpInfo a) (hip : a.ipInfo = some ip) :
    Acking req answered (if k.ack.type = .esptouch then
      { k with ack.ctx.ip := ip, pc := .socket } else { k with pc := .socket }) (told ++ [])
      rounds := by
  have hmac := h.ready.mac (by simp [hpc])
  split
  · refine h.move (by simp [hpc]) (by simp) rfl rfl rfl rfl ?_
    exact ⟨h.ready.dest, fun _ _ => ⟨hany, a, ha, hip⟩, by simp, by simp, fun _ => hmac⟩
  · rename_i hother
    refine h.move (by simp [hpc]) (by simp) rfl rfl rfl rfl ?_
    refine ⟨h.ready.dest, ?_, by simp, by simp, fun _ => hmac⟩
    intro _ htype
    exact absurd (h.type.trans htype) hother

/-- The phone has been heard. -/
theorem Acking.hear (h : Acking req answered k told rounds) (hpc : k.pc = .setsockopt)
    (htype : k.ack.type = .airkiss) {from_ : Addr} {a : Answer} (ha : answered .setsockopt a)
    (hfrom : a.recvfrom = some from_) :
    Acking req answered { k with
      serverAddr := if from_ ≠ inaddrAny then from_ else inaddrBroadcast
      pc := .inner } (told ++ []) rounds := by
  refine h.move (by simp [hpc]) (by simp) rfl rfl rfl rfl ⟨?_, ?_, ?_, ?_, ?_⟩
  · intro hother
    exact absurd (h.type.symm.trans htype) hother
  · intro _
    exact h.ready.own (.inr (.inl hpc))
  · intro _
    exact h.ready.sock (.inl hpc)
  · intro _ _
    exact ⟨a, from_, ha, hfrom, rfl⟩
  · intro _
    exact h.ready.mac (by simp [hpc])

/-- A task that need not hear the phone goes on to its inner loop. -/
theorem Acking.enter (h : Acking req answered k told rounds) (hpc : k.pc = .setsockopt)
    (htype : k.ack.type ≠ .airkiss) :
    Acking req answered { k with pc := .inner } (told ++ []) rounds := by
  refine h.move (by simp [hpc]) (by simp) rfl rfl rfl rfl ⟨h.ready.dest, ?_, ?_, ?_, ?_⟩
  · intro _
    exact h.ready.own (.inr (.inl hpc))
  · intro _
    exact h.ready.sock (.inl hpc)
  · intro _ hairkiss
    exact absurd (h.type.trans hairkiss) htype
  · intro _
    exact h.ready.mac (by simp [hpc])

/-- The round that a task at `sendto` sends -/
def Task.thisRound (k : Task) (fd : Fd) : Round := ⟨fd, k.serverAddr, k.ack.ctx.mac, k.ack.ctx.ip⟩

/-- What the task sends in its round -/
theorem Acking.round_eq (h : Acking req answered k told rounds) {fd : Fd}
    (hfd : k.sendSock = some fd) : k.round = (k.thisRound fd).datagrams req := by
  rw [Task.round, Round.datagrams, h.type, h.port, hfd, ← h.token]
  by_cases hdest : k.serverAddr = inaddrBroadcast <;> simp [Task.thisRound, hdest]

/-- A round has nothing to do with sockets being opened or closed. -/
theorem datagrams_told (req : Request) (r : Round) :
    (r.datagrams req).filter (fun e => !e.isSocket) = r.datagrams req := by
  rw [Round.datagrams]
  split <;> rfl

/-- Another round is sent. -/
theorem Acking.sendto (h : Acking req answered k told rounds) (hpc : k.pc = .sendto) :
    ∃ rounds', Acking req answered { k with
        packetCount := k.packetCount + 1
        pc := if k.packetCount.toNat ≥ scAckMaxCount then .eventPost else .inner }
      (told ++ k.round.filter fun e => !e.isSocket) rounds' := by
  obtain ⟨fd, hfd, hopened⟩ := h.ready.sock (.inr (.inr hpc))
  have hlt : rounds.length < scAckMaxCount := by
    refine Nat.lt_of_le_of_ne h.count fun hfull => ?_
    have hold := h.full hfull
    simp [hpc] at hold
  have hlength : (rounds ++ [k.thisRound fd]).length = rounds.length + 1 := by simp
  have hcount := h.packetCount
  refine ⟨rounds ++ [k.thisRound fd], ?_⟩
  constructor
  case toTold =>
    constructor
    case ok =>
      intro r hr
      rcases List.mem_append.mp hr with hr | hr
      · exact h.ok r hr
      · cases List.mem_singleton.mp hr
        constructor
        · exact hopened
        · exact h.ready.dest
        · exact h.ready.heard (.inr hpc)
        · exact h.ready.own (.inr (.inr (.inr hpc)))
        · exact h.ready.mac (by simp [hpc])
    case count => omega
    case full =>
      intro hfull
      rw [hlength] at hfull
      refine .inl (if_pos ?_)
      omega
    case told =>
      rw [h.round_eq hfd, datagrams_told, h.told]
      by_cases hmax : k.packetCount.toNat ≥ scAckMaxCount
      · simp [hpc, hmax, Nat.ne_of_lt hlt]
      · have hless : rounds.length + 1 ≠ scAckMaxCount := by omega
        simp [hpc, hmax, Nat.ne_of_lt hlt, hless]
  case ready =>
    constructor
    case dest => exact h.ready.dest
    case own =>
      intro _
      exact h.ready.own (.inr (.inr (.inr hpc)))
    case sock =>
      intro _
      exact ⟨fd, hfd, hopened⟩
    case heard =>
      intro _
      exact h.ready.heard (.inr hpc)
    case mac =>
      intro _
      exact h.ready.mac (by simp [hpc])
  case block =>
    intro hfirst
    dsimp only at hfirst
    split at hfirst <;> cases hfirst
  case type => exact h.type
  case token => exact h.token
  case port => exact h.port
  case packetCount =>
    have hmax : scAckMaxCount = 30 := rfl
    rw [hlength, UInt8.toNat_add, hcount]
    simp only [UInt8.toNat_ofNat]
    omega
  case last =>
    intro hlast
    dsimp only at hlast
    split at hlast
    · rename_i hmax
      omega
    · cases hlast

/-- A step of a task that gets an answer -/
theorem Acking.step (h : Acking req answered k told rounds) (hlive : k.pc ≠ .ended) (flag : Bool)
    {a : Answer} (ha : answered k.pc a) : ∃ rounds', Acking req answered (k.step flag a).1
      (told ++ (k.step flag a).2.filter fun e => !e.isSocket) rounds' := by
  rw [Task.step]
  split
  case h_1 hpc => exact ⟨rounds, h.mac hpc (hpc ▸ ha)⟩
  case h_2 hpc =>
    refine ⟨rounds, h.leave (by simp [hpc]) ?_⟩
    cases flag <;> simp
  case h_3 hpc =>
    have houter := h.leave (by simp [hpc]) (.inl (Eq.refl Pc.outer))
    refine ⟨rounds, ?_⟩
    split
    · exact houter
    · rename_i ip hip
      split
      · exact houter
      · rename_i hany
        have hfound := h.found hpc hany (hpc ▸ ha) hip
        split
        · rename_i htype
          rwa [if_pos htype] at hfound
        · rename_i htype
          rwa [if_neg htype] at hfound
  case h_4 hpc =>
    have hmac := h.ready.mac (by simp [hpc])
    refine ⟨rounds, ?_⟩
    split
    · refine h.move (by simp [hpc]) (by simp) rfl rfl rfl rfl ?_
      exact ⟨h.ready.dest, by simp, by simp, by simp, fun _ => hmac⟩
    · rename_i fd hfd
      refine h.move (by simp [hpc]) (by simp) rfl rfl rfl rfl ?_
      exact ⟨h.ready.dest, fun _ => h.ready.own (.inl hpc), fun _ => ⟨fd, rfl, a, hpc ▸ ha, hfd⟩,
        by simp, fun _ => hmac⟩
  case h_5 hpc =>
    have hclose := h.leave (by simp [hpc]) (.inr (.inr (Eq.refl Pc.close)))
    refine ⟨rounds, ?_⟩
    split
    · exact hclose
    · split
      · rename_i htype
        split
        · rename_i from_ _ hfrom
          exact h.hear hpc htype (hpc ▸ ha) hfrom
        · exact hclose
      · rename_i htype
        exact h.enter hpc htype
  case h_6 hpc =>
    refine ⟨rounds, ?_⟩
    cases flag with
    | true =>
      refine h.move (by simp [hpc]) (by simp) rfl rfl rfl rfl ?_
      exact ⟨h.ready.dest, fun _ => h.ready.own (.inr (.inr (.inl hpc))),
        fun _ => h.ready.sock (.inr (.inl hpc)), fun _ => h.ready.heard (.inl hpc),
        fun _ => h.ready.mac (by simp [hpc])⟩
    | false => exact h.leave (by simp [hpc]) (.inl rfl)
  case h_7 hpc => exact h.sendto hpc
  case h_8 hpc =>
    refine ⟨rounds, { h with full := ?_, told := ?_, ready := ?_, block := ?_, last := ?_ }⟩
    · intro _
      exact .inr (.inl rfl)
    · rw [h.told]
      simp [hpc, h.last hpc, Effect.isSocket]
    · exact ⟨h.ready.dest, by simp, by simp, by simp, fun _ => h.ready.mac (by simp [hpc])⟩
    · simp
    · simp
  case h_9 hpc =>
    refine ⟨rounds, { h with full := ?_, told := ?_, ready := ?_, block := ?_, last := ?_ }⟩
    · intro _
      exact .inr (.inr rfl)
    · rw [h.told]
      cases k.sendSock <;> simp [hpc, Effect.isSocket]
    · exact ⟨h.ready.dest, by simp, by simp, by simp, fun _ => h.ready.mac (by simp [hpc])⟩
    · simp
    · simp
  case h_10 hpc => exact absurd hpc hlive

end Acks

/-- The starts that have created a task, in order -/
def requests (actions : List Action) : List Request := actions.filterMap Action.request?

/-- Every task has done what it was started for. -/
structure AllAcking (before : List Action) (s : System) : Prop where
  run : Machine.exec System.step .init before = some s
  length : s.tasks.length = (requests before).length
  acking : ∀ n req k, (requests before)[n]? = some req → s.tasks[n]? = some k →
    ∃ rounds, Acking req (Answered before n) k (s.told n) rounds
  silent : ∀ n, s.tasks.length ≤ n → s.told n = []

section Run

variable {s s' : System} {before : List Action}

/-- An answer stays given. -/
theorem Answered.append {n : Nat} {pc : Pc} {a : Answer} (h : Answered before n pc a) (i : Action) :
    Answered (before ++ [i]) n pc a := by
  obtain ⟨pre, post, u, k, rfl, hrun, hk, hpc⟩ := h
  exact ⟨pre, post ++ [i], u, k, by simp, hrun, hk, hpc⟩

/-- The answer to the last call -/
theorem answered_last {n : Nat} {k : Task} (hrun : Machine.exec System.step .init before = some s)
    (hk : s.tasks[n]? = some k) (a : Answer) : Answered (before ++ [.task n a]) n k.pc a :=
  ⟨before, [], s, k, rfl, hrun, hk, rfl⟩

/-- A run that is continued -/
theorem run_append {i : Action} (hrun : Machine.exec System.step .init before = some s)
    (hstep : s.step i = some s') : Machine.exec System.step .init (before ++ [i]) = some s' :=
  Machine.exec_append_some.mpr ⟨s, hrun, Machine.exec_cons_some.mpr ⟨s', hstep, rfl⟩⟩

/-- What task `m` has done, after some effects of task `n` -/
theorem told_set (s : System) (n m : Nat) (tasks : List Task) (sockets : List Fd)
    (effects : List Effect) :
    System.told { s with
        tasks := tasks, sockets := sockets, log := s.log ++ effects.map (n, ·) } m =
      s.told m ++ if m = n then effects.filter (fun e => !e.isSocket) else [] := by
  rw [System.told, System.told, List.filter_append, List.map_append, List.filter_append]
  congr 1
  split
  · rename_i hm
    have hall : (effects.map (n, ·)).filter (fun e => e.1 = m) = effects.map (n, ·) := by
      rw [List.filter_eq_self]
      simp [hm]
    rw [hall, List.map_map]
    exact congrArg _ (List.map_id effects)
  · rename_i hm
    have hnone : (effects.map (n, ·)).filter (fun e => e.1 = m) = [] := by
      rw [List.filter_eq_nil_iff]
      simp [Ne.symm hm]
    rw [hnone]
    rfl

/-- The requests of a run with one more action -/
theorem requests_append {i : Action} : requests (before ++ [i]) =
    requests before ++ i.request?.toList := by
  rw [requests, requests, List.filterMap_append]
  cases hreq : i.request? <;> simp [hreq]

/-- A new task has sent nothing. -/
theorem AllAcking.start (h : AllAcking before s) (type : ScType) (token : UInt8) (ip : Addr)
    (mac : Mac) : AllAcking (before ++ [.start type token (some ip) (some mac) true])
      { s with scAckSend := true, tasks := s.tasks ++ [newTask type token ip mac], ret := .ok } := by
  have hone : requests (before ++ [.start type token (some ip) (some mac) true]) =
      requests before ++ [⟨type, token, ip, mac⟩] := requests_append
  refine ⟨run_append h.run rfl, ?_, ?_, ?_⟩
  · rw [hone, List.length_append, List.length_append, h.length]
    rfl
  · intro m req k hreq hk
    rw [hone] at hreq
    by_cases hm : m < s.tasks.length
    · rw [List.getElem?_append_left (h.length ▸ hm)] at hreq
      rw [List.getElem?_append_left hm] at hk
      obtain ⟨rounds, hacking⟩ := h.acking m req k hreq hk
      exact ⟨rounds, hacking.mono fun pc a ha => ha.append _⟩
    · -- the new task has done nothing
      have hle : s.tasks.length ≤ m := Nat.le_of_not_lt hm
      rw [List.getElem?_append_right (h.length ▸ hle), ← h.length] at hreq
      rw [List.getElem?_append_right hle] at hk
      cases hd : m - s.tasks.length with
      | zero =>
        rw [hd] at hreq hk
        cases hreq
        cases hk
        refine ⟨[], ?_⟩
        show Acking _ _ _ (s.told m) []
        rw [h.silent m hle]
        exact acking_new type token ip mac
      | succ d =>
        rw [hd] at hk
        cases hk
  · intro m hm
    exact h.silent m (Nat.le_trans (by simp) hm)

/-- A step of one task leaves the others as they are. -/
theorem AllAcking.task (h : AllAcking before s) {n : Nat} {k : Task} (hk : s.tasks[n]? = some k)
    (hlive : k.pc ≠ .ended) {a : Answer} {s' : System} (hs' : s' = { s with
      tasks := s.tasks.set n (k.step s.scAckSend a).1
      sockets := (k.step s.scAckSend a).2.foldl Effect.sockets s.sockets
      log := s.log ++ (k.step s.scAckSend a).2.map (n, ·) })
    (hstep : s.step (.task n a) = some s') : AllAcking (before ++ [.task n a]) s' := by
  have hsame : requests (before ++ [.task n a]) = requests before := by
    rw [requests_append]
    exact List.append_nil _
  have hlt : n < s.tasks.length := (List.getElem?_eq_some_iff.mp hk).1
  refine ⟨run_append h.run hstep, ?_, ?_, ?_⟩
  · rw [hsame, hs', List.length_set]
    exact h.length
  · intro m req k' hreq hk'
    rw [hsame] at hreq
    rw [hs'] at hk' ⊢
    rw [told_set]
    by_cases hm : m = n
    · subst hm
      obtain ⟨rounds, hacking⟩ := h.acking m req k hreq hk
      rw [List.getElem?_set_self hlt] at hk'
      cases hk'
      rw [if_pos rfl]
      exact (hacking.mono fun pc b hb => hb.append _).step hlive s.scAckSend
        (answered_last h.run hk a)
    · rw [List.getElem?_set_ne (Ne.symm hm)] at hk'
      rw [if_neg hm, List.append_nil]
      obtain ⟨rounds, hacking⟩ := h.acking m req k' hreq hk'
      exact ⟨rounds, hacking.mono fun pc b hb => hb.append _⟩
  · intro m hm
    rw [hs', List.length_set] at hm
    rw [hs', told_set, h.silent m hm, if_neg (by omega)]
    rfl

/-- Every step keeps account of what was sent. -/
theorem AllAcking.step {i : Action} (hstep : s.step i = some s') (h : AllAcking before s) :
    AllAcking (before ++ [i]) s' := by
  rcases step_cases hstep with ⟨flag, ret, rfl, -, hnone, -⟩ | ⟨type, token, ip, mac, rfl, rfl⟩ |
    ⟨n, a, k, rfl, hk, hlive, -, hs'⟩
  · -- no task is created
    have hsame : requests (before ++ [i]) = requests before := by
      rw [requests_append, hnone]
      exact List.append_nil _
    constructor
    · exact run_append h.run hstep
    · rw [hsame]
      exact h.length
    · rw [hsame]
      intro n req k hreq hk
      obtain ⟨rounds, hacking⟩ := h.acking n req k hreq hk
      exact ⟨rounds, hacking.mono fun pc a ha => ha.append _⟩
    · exact h.silent
  · exact h.start type token ip mac
  · exact h.task hk hlive hs' hstep

end Run

/-- In every run the tasks are those of the calls of `sc_send_ack_start` that created one, and each
of them sends at most thirty rounds of datagrams, as its call asks for and with what its own calls
have been answered; it reports `SC_EVENT_SEND_ACK_DONE` once if there are thirty of them and else
never, and frees its argument once, at its end. -/
theorem acks_sent (actions : List Action) (t : System)
    (h : Machine.exec System.step .init actions = some t) :
    t.tasks.length = (requests actions).length ∧
      ∀ n req k, (requests actions)[n]? = some req → t.tasks[n]? = some k →
        ∃ rounds, Told req (Answered actions n) k (t.told n) rounds := by
  have hinit : AllAcking [] .init := by
    refine ⟨rfl, rfl, ?_, fun _ _ => rfl⟩
    intro n req k hreq
    simp [requests] at hreq
  have hall : AllAcking ([] ++ actions) t :=
    Machine.exec_history (fun before s i s' hstep hs => hs.step hstep) h hinit
  refine ⟨hall.length, ?_⟩
  intro n req k hreq hk
  obtain ⟨rounds, hacking⟩ := hall.acking n req k hreq hk
  exact ⟨rounds, hacking.toTold⟩

/-- Two starts, the second one for everyone; the first task sends its thirty rounds while the second
one waits for an address. -/
def twoPhones : List Action :=
  [.start .esptouch 9 (some (ip4 192 168 4 2)) (some (macOf 0)) true,
    .task 0 { mac := some (macOf 7) }, .task 0 {},
    .task 0 { ipInfo := some (ip4 192 168 4 9) }, .task 0 { socket := some 54 }, .task 0 {},
    .start .esptouchV2 2 (some (ip4 192 168 4 3)) (some (macOf 0)) true,
    .task 1 {}, .task 1 {}, .task 1 { ipInfo := some inaddrAny }] ++
  (List.replicate 30 [.task 0 {}, .task 0 {}]).flatten ++ [.task 0 {}, .task 0 {}, .task 1 {}]

/-- The run of `twoPhones`, in which ESPTouch and AirKiss tell a phone each -/
theorem acks_sent_twoPhones : ∃ t k rounds,
    Machine.exec System.step .init twoPhones = some t ∧ t.tasks[0]? = some k ∧ k.pc = .ended ∧
      (t.told 0).length = 62 ∧
        Told ⟨.esptouch, 9, ip4 192 168 4 2, macOf 0⟩ (Answered twoPhones 0) k (t.told 0)
          rounds := by
  obtain ⟨t, h⟩ := Option.isSome_iff_exists.mp
    (show (Machine.exec System.step .init twoPhones).isSome by decide +kernel)
  have hends : (Machine.exec System.step .init twoPhones).map (fun t =>
      (t.tasks[0]?.map fun k => k.pc, (t.told 0).length)) = some (some .ended, 62) := by
    decide +kernel
  rw [h] at hends
  obtain ⟨hpc, hlength⟩ := Prod.mk.inj (Option.some.inj hends)
  obtain ⟨k, hk, hpc⟩ := Option.map_eq_some_iff.mp hpc
  obtain ⟨rounds, htold⟩ := (acks_sent twoPhones t h).2 0
    ⟨.esptouch, 9, ip4 192 168 4 2, macOf 0⟩ k (by decide +kernel) hk
  exact ⟨t, k, rounds, h, hk, hpc, hlength, htold⟩

/-! ## After a stop -/

/-- The steps that a task has left while the flag is not set -/
def Pc.left : Pc → Nat
  | .getIpInfo => 6
  | .socket => 5
  | .setsockopt | .sendto => 4
  | .getMac | .inner => 3
  | .outer | .eventPost => 2
  | .close => 1
  | .ended => 0

/-- The steps that task `n` has left -/
def System.left (s : System) (n : Nat) : Nat := ((s.tasks[n]?).map fun k => k.pc.left).getD 0

/-- A step of task `n` -/
def Action.isOf (n : Nat) : Action → Bool
  | .task m _ => m = n
  | _ => false

/-- Every round has one datagram for everyone. -/
def Effect.isBroadcast : Effect → Bool
  | sent _ dest _ _ => dest = inaddrBroadcast
  | _ => false

/-- The number of rounds that task `n` has sent -/
def System.rounds (s : System) (n : Nat) : Nat := (s.told n).countP Effect.isBroadcast

/-- Task `n` is about to send a round. -/
def System.sending (s : System) (n : Nat) : Nat :=
  if (s.tasks[n]?).map (·.pc) = some .sendto then 1 else 0

section Stopped

variable {s s' : System} {n : Nat} {k : Task} {a : Answer}

/-- Without the flag, every step brings a task nearer to its end. -/
theorem step_left (a : Answer) (hlive : k.pc ≠ .ended) :
    (k.step false a).1.pc.left < k.pc.left := by
  rw [Task.step]
  split
  case h_1 hpc | h_2 hpc | h_6 hpc | h_8 hpc | h_9 hpc => simp [hpc, Pc.left]
  case h_3 hpc =>
    split
    · simp [hpc, Pc.left]
    · split
      · simp [hpc, Pc.left]
      · split <;> simp [hpc, Pc.left]
  case h_4 hpc => split <;> simp [hpc, Pc.left]
  case h_5 hpc =>
    split
    · simp [hpc, Pc.left]
    · split
      · split <;> simp [hpc, Pc.left]
      · simp [hpc, Pc.left]
  case h_7 hpc =>
    dsimp only
    split <;> simp [hpc, Pc.left]
  case h_10 hpc => exact absurd hpc hlive

/-- A round sends one broadcast. -/
theorem round_broadcast (k : Task) :
    (k.round.filter fun e => !e.isSocket).countP Effect.isBroadcast = 1 := by
  rw [Task.round]
  by_cases hdest : k.serverAddr = inaddrBroadcast
  · simp [hdest, Effect.isSocket, Effect.isBroadcast]
  · simp [hdest, Effect.isSocket, Effect.isBroadcast]

/-- While the flag is not set, no task comes to a new round. -/
theorem step_rounds (k : Task) (a : Answer) :
    ((k.step false a).2.filter fun e => !e.isSocket).countP Effect.isBroadcast +
      (if (k.step false a).1.pc = .sendto then 1 else 0) ≤ if k.pc = .sendto then 1 else 0 := by
  rw [Task.step]
  split
  case h_1 hpc | h_2 hpc | h_6 hpc | h_8 hpc | h_10 hpc =>
    simp [hpc, Effect.isSocket, Effect.isBroadcast]
  case h_3 hpc =>
    split
    · simp
    · split
      · simp
      · split <;> simp
  case h_4 hpc => split <;> simp [Effect.isSocket]
  case h_5 hpc =>
    split
    · simp
    · split
      · split <;> simp
      · simp
  case h_7 hpc =>
    rw [round_broadcast, if_pos hpc]
    dsimp only
    split <;> decide
  case h_9 hpc => cases k.sendSock <;> simp [Effect.isSocket, Effect.isBroadcast]

/-- A step of a task brings the end of this task nearer, and leaves the others. -/
theorem task_left (m : Nat) (hstop : s.scAckSend = false) (hstep : s.step (.task n a) = some s') :
    s'.scAckSend = false ∧ s'.left m + ((Action.task n a).isOf m).toNat ≤ s.left m := by
  rcases step_cases hstep with ⟨flag, ret, -, hi, -⟩ | ⟨type, token, ip, mac, hi, -⟩ |
    ⟨n', b, k, hi, hk, hlive, -, rfl⟩
  · exact absurd rfl (hi n a)
  · cases hi
  · cases hi
    refine ⟨hstop, ?_⟩
    have hn : n < s.tasks.length := (List.getElem?_eq_some_iff.mp hk).1
    by_cases hm : n = m
    · subst hm
      have hlt := step_left a hlive
      simp only [System.left, List.getElem?_set_self hn, hk, Option.map_some, Option.getD_some,
        Action.isOf, decide_true, Bool.toNat_true, hstop]
      exact hlt
    · simp [System.left, Action.isOf, List.getElem?_set_ne hm, hm]

/-- While the flag is not set, no task comes to a new round, whichever takes a step. -/
theorem task_rounds (m : Nat) (hstop : s.scAckSend = false)
    (hstep : s.step (.task n a) = some s') :
    s'.rounds m + s'.sending m ≤ s.rounds m + s.sending m := by
  rcases step_cases hstep with ⟨flag, ret, -, hi, -⟩ | ⟨type, token, ip, mac, hi, -⟩ |
    ⟨n', b, k, hi, hk, hlive, -, rfl⟩
  · exact absurd rfl (hi n a)
  · cases hi
  · rw [System.rounds, told_set, List.countP_append]
    by_cases hm : m = n'
    · subst hm
      have hlt : m < s.tasks.length := (List.getElem?_eq_some_iff.mp hk).1
      have hround := step_rounds k b
      rw [if_pos rfl, hstop]
      simp only [System.sending, List.getElem?_set_self hlt, hk, Option.map_some,
        Option.some.injEq, System.rounds]
      omega
    · rw [if_neg hm]
      simp only [System.sending, List.getElem?_set_ne (Ne.symm hm), System.rounds]
      simp

/-- A task that has not ended can take a step, whatever the others do. -/
theorem task_enabled (hk : s.tasks[n]? = some k) (hlive : k.pc ≠ .ended) :
    ∃ s', s.step (.task n {}) = some s' := by
  simp [System.step, hk, hlive]

/-- No task has more than six steps left. -/
theorem left_le (s : System) (n : Nat) : s.left n ≤ 6 := by
  rw [System.left]
  cases s.tasks[n]? with
  | none => exact Nat.zero_le _
  | some k =>
    show k.pc.left ≤ 6
    cases k.pc <;> decide

end Stopped

/-- After a stop, and as long as there is no new start, each task takes at most six steps, in
whatever order the tasks take theirs, and sends at most one more round; and they can go on until all
of them have ended. -/
theorem stopped_ends (s : System) (hstop : s.scAckSend = false) (actions : List Action)
    (hactions : ∀ i ∈ actions, ∃ n a, i = .task n a) (t : System)
    (h : Machine.exec System.step s actions = some t) :
    (∀ n, actions.countP (Action.isOf n) ≤ 6 ∧ t.rounds n ≤ s.rounds n + 1) ∧
      ((∀ n a, t.step (.task n a) = none) ↔ ∀ k ∈ t.tasks, k.pc = .ended) := by
  refine ⟨fun n => ⟨?_, ?_⟩, ?_, ?_⟩
  · have hstep : ∀ u i u', (∃ m a, i = .task m a) → System.step u i = some u' →
        u.scAckSend = false → u'.scAckSend = false ∧ u'.left n + (i.isOf n).toNat ≤ u.left n := by
      rintro u i u' ⟨m, a, rfl⟩ hstep hoff
      exact task_left n hoff hstep
    have hbound := Machine.exec_countP_of hstep h hactions hstop
    have hle := left_le s n
    omega
  · have hinv : t.scAckSend = false ∧ t.rounds n + t.sending n ≤ s.rounds n + 1 := by
      refine Machine.exec_inv_of (P := fun u => u.scAckSend = false ∧
        u.rounds n + u.sending n ≤ s.rounds n + 1) ?_ h hactions ⟨hstop, ?_⟩
      · rintro u i u' ⟨m, a, rfl⟩ hstep ⟨hoff, hle⟩
        exact ⟨(task_left n hoff hstep).1, Nat.le_trans (task_rounds n hoff hstep) hle⟩
      · have hsending : s.sending n ≤ 1 := by
          rw [System.sending]
          split <;> omega
        omega
    omega
  · intro hstuck k hk
    by_contra hlive
    obtain ⟨n, hn⟩ := List.getElem?_of_mem hk
    obtain ⟨t', ht'⟩ := task_enabled hn hlive
    rw [hstuck] at ht'
    cases ht'
  · intro hended n a
    cases hk : t.tasks[n]? with
    | none => simp [System.step, hk]
    | some k => simp [System.step, hk, hended k (List.mem_of_getElem? hk)]

/-- One task before its first look at the flag and one before a round -/
def stoppedTasks : List Action :=
  [.start .esptouchV2 1 (some inaddrAny) (some (macOf 0)) true, .task 0 {}, .task 0 {},
    .task 0 { ipInfo := some (ip4 192 168 4 9) }, .task 0 { socket := some 54 }, .task 0 {},
    .task 0 {}, .start .airkiss 1 (some inaddrAny) (some (macOf 0)) true, .stop]

/-- The two tasks of `stoppedTasks` end after two steps each. -/
theorem stopped_ends_stoppedTasks : ∃ s t,
    Machine.exec System.step .init stoppedTasks = some s ∧ s.scAckSend = false ∧
      Machine.exec System.step s [.task 1 {}, .task 0 {}, .task 1 {}, .task 0 {}] = some t ∧
        t.rounds 0 ≤ s.rounds 0 + 1 ∧
          ¬ ∀ n a, t.step (.task n a) = none := by
  obtain ⟨s, hs⟩ := Option.isSome_iff_exists.mp
    (show (Machine.exec System.step .init stoppedTasks).isSome by decide +kernel)
  have hstop : (Machine.exec System.step .init stoppedTasks).map System.scAckSend =
      some false := by decide +kernel
  have hrun : ((Machine.exec System.step .init stoppedTasks).bind fun s =>
      (Machine.exec System.step s [.task 1 {}, .task 0 {}, .task 1 {}, .task 0 {}]).map
        fun t => decide (∀ k ∈ t.tasks, k.pc = .ended)) = some false := by
    decide +kernel
  rw [hs] at hstop hrun
  have hstop : s.scAckSend = false := Option.some.inj hstop
  obtain ⟨t, ht, hlive⟩ := Option.map_eq_some_iff.mp hrun
  obtain ⟨hbounds, hstuck⟩ := stopped_ends s hstop
    [.task 1 {}, .task 0 {}, .task 1 {}, .task 0 {}] (by simp) t ht
  exact ⟨s, t, hs, hstop, ht, (hbounds 0).2, fun hnone =>
    of_decide_eq_false hlive (hstuck.mp hnone)⟩

end PicoHost.Smartconfig
