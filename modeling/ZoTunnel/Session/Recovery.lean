import ZoTunnel.Lib.Progress
import ZoTunnel.Session.Handshake

/-!
# Coming back

A client that has lost its connection comes back on a new one, under its old name. The server may
still believe in the old connection: its driver may wait for a peer that is gone, its task may hang
in any of its segments, and its entry is still in the registry.

None of that can keep the client out. `can_take_over` holds from every reachable state of the server
and its clients. Steps on the new connection are enough to let the client in under its name, and
they leave everything else as it was, apart from the driver of the session that had the name, which
is asked to abort.
-/

namespace ZoTunnel

namespace Handshake

variable {serde : SerdeJson} {config : ServerConfig} {routes : RouteFiles}
  {h : List Control.Event} {s₀ s t : State} {a : Act} {es : List Control.Event} {c : ConnId}
  {p : Peer} {conn : Control.Conn} {i : Identity}

/-- The steps of connection `c`: of its client, its task and its bytes, but not of its driver. -/
def Act.Own (c : ConnId) (a : Act) : Prop := a.conn = c ∧ ∀ c' b, a ≠ .server (.driver c' b)

/-- Connection `c` has come this far, and apart from it nothing has changed since `s₀`. -/
structure Stands (s₀ s : State) (c : ConnId) (p : Peer) (conn : Control.Conn) : Prop where
  peer : s.peers c = some p
  conn : s.server.conns c = some conn
  slots : ∀ k, s.server.registry.get k = s₀.server.registry.get k
  peers : ∀ c' ≠ c, s.peers c' = s₀.peers c'
  conns : ∀ c' ≠ c, s.server.conns c' = s₀.server.conns c'

namespace Stands

theorem setPeer (hs : Stands s₀ s c p conn) (p' : Peer) :
    Stands s₀ (s.setPeer c p') c p' conn where
  peer := Function.update_self ..
  conn := hs.conn
  slots := hs.slots
  peers c' hne := (Function.update_of_ne hne _ _).trans (hs.peers c' hne)
  conns := hs.conns

/-- The task of the connection makes a step that is of no concern to the slots. -/
theorem setConn (hs : Stands s₀ s c p conn) {server : Control.State} (conn' : Control.Conn)
    (hconns : server.conns = s.server.conns)
    (hslots : ∀ k, server.registry.get k = s.server.registry.get k) :
    Stands s₀ { s with server := server.setConn c conn' } c p conn' where
  peer := hs.peer
  conn := Control.setConn_self ..
  slots k := (hslots k).trans (hs.slots k)
  peers := hs.peers
  conns c' hne := by
    change (server.setConn c conn').conns c' = _
    rw [Control.setConn_of_ne hne, hconns]
    exact hs.conns c' hne

end Stands

/-! ## The segments, one after the other -/

/-- A step of the control channel that is not the arrival of bytes. -/
theorem step_server {b : Control.Act} {server : Control.State}
    (hb : ∀ c bs, b ≠ .recv c bs)
    (hstep : Control.step serde config s.server b = some (server, es)) :
    step serde config s (.server b) = some ({ s with server }, es) := by
  have hs : serverStep serde config s b = some ({ s with server }, es) := by
    rw [serverStep, hstep]
  cases b with
  | recv c bs => exact absurd rfl (hb c bs)
  | _ => exact hs

section

variable {P : State → Prop}

/-- What is possible after a step of the task was possible before it. -/
theorem can_of_server {b : Control.Act} {server : Control.State} {conn' : Control.Conn}
    (hs : Stands s₀ s c p conn) (hbc : b.conn = c) (hb : ∀ c bs, b ≠ .recv c bs)
    (hd : ∀ c d, b ≠ .driver c d)
    (hstep : Control.step serde config s.server b = some (server.setConn c conn', es))
    (hconns : server.conns = s.server.conns)
    (hslots : ∀ k, server.registry.get k = s.server.registry.get k)
    (hcan : ∀ t, Stands s₀ t c p conn' →
      (machine serde config routes).Can (Act.Own c) P t) :
    (machine serde config routes).Can (Act.Own c) P s :=
  .next (a := .server b) ⟨hbc, fun c d h ↦ hd c d (Act.server.inj h)⟩ (step_server hb hstep)
    (hcan _ (hs.setConn conn' hconns hslots))

/-- What is possible after a step of the client was possible before it. -/
theorem can_of_peer {p' : Peer} (hs : Stands s₀ s c p conn) (hac : a.Own c)
    (hstep : step serde config s a = some (s.setPeer c p', es))
    (hcan : ∀ t, Stands s₀ t c p' conn →
      (machine serde config routes).Can (Act.Own c) P t) :
    (machine serde config routes).Can (Act.Own c) P s :=
  .next hac hstep (hcan _ (hs.setPeer p'))

theorem can_of_connect (i : Identity) (hc : s.server.conns c = none) (hp : s.peers c = none)
    (hcan : ∀ t, Stands s t c { identity := i } {} →
      (machine serde config routes).Can (Act.Own c) P t) :
    (machine serde config routes).Can (Act.Own c) P s := by
  have hconnect : step serde config s (.connect c i) =
      some (s.setPeer c { identity := i }, []) := by
    rw [step, if_pos ⟨hc, hp⟩]
  have haccept : Control.step serde config s.server (.accept c) = some
      ({ s.server with metrics := { s.server.metrics with
        totalConnections := s.server.metrics.totalConnections + 1 } }.setConn c {}, []) := by
    simp [Control.step, Control.Act.conn, hc]
  refine .next (a := .connect c i) ⟨rfl, fun c b ↦ by simp⟩ hconnect ?_
  refine .next (a := .server (.accept c)) ⟨rfl, fun c b ↦ by simp⟩
    (step_server (s := s.setPeer c { identity := i }) (fun c bs ↦ by simp) haccept) (hcan _ ?_)
  refine ⟨Function.update_self .., Control.setConn_self .., fun k ↦ rfl, fun c' hne ↦ ?_,
    fun c' hne ↦ Control.setConn_of_ne hne _ _⟩
  exact Function.update_of_ne hne _ _

/-- The client asks, and its request gets to the server. -/
theorem can_of_request {frame : Bytes} (hs : Stands s₀ s c { identity := i } {})
    (hframe : writeMessage serde (.authReq i.authReq) = .ok frame)
    (hread : (readMessage serde frame).1 = .ok (.authReq i.authReq))
    (hvalid : config.validateToken i.token = true)
    (hcan : ∀ t, Stands s₀ t c { identity := i, phase := .awaiting, wrote := frame }
        { inbound := frame, task := .accepting i.authReq } →
      (machine serde config routes).Can (Act.Own c) P t) :
    (machine serde config routes).Can (Act.Own c) P s := by
  have hwrite : step serde config s (.writeReq c) = some
      (s.setPeer c { identity := i, phase := .awaiting, wrote := frame }, []) := by
    simp [step, Act.conn, hs.peer, peerStep, hframe]
  refine can_of_peer hs (a := .writeReq c) ⟨rfl, fun c b ↦ by simp⟩ hwrite fun t ht ↦ ?_
  have hdeliver : step serde config t (.deliver c frame.length) = some
      ({ t with server := t.server.setConn c { inbound := frame } }, []) := by
    simp [step, Act.conn, ht.peer, peerStep, ht.conn, nextBytes, serverStep, Control.step,
      Control.Act.conn]
  refine .next (a := .deliver c frame.length) ⟨rfl, fun c b ↦ by simp⟩ hdeliver ?_
  have ht' := ht.setConn { inbound := frame } (Eq.refl t.server.conns) fun k ↦ rfl
  have hframe : Control.step serde config (t.server.setConn c { inbound := frame })
      (.readFrame c) = some ((t.server.setConn c { inbound := frame }).setConn c
        { inbound := frame, task := .accepting i.authReq }, []) := by
    simp [Control.step, Control.Act.conn, Control.taskStep, Control.canRead, hread,
      Control.onFirstFrame, Identity.authReq, hvalid]
  exact can_of_server ht' (b := .readFrame c) rfl (by simp) (by simp) hframe rfl (fun k ↦ rfl) hcan

/-- The server answers, and the client reads its answer. -/
theorem can_of_answer {frame answer : Bytes}
    (hs : Stands s₀ s c { identity := i, phase := .awaiting, wrote := frame }
      { inbound := frame, task := .accepting i.authReq })
    (hanswer : writeMessage serde (.authRes (Control.successRes config i.authReq)) = .ok answer)
    (hread : (readMessage serde answer).1 = .ok (.authRes (Control.successRes config i.authReq)))
    (hcan : ∀ t, Stands s₀ t c
        { identity := i, phase := .answered (.ok (.authRes (Control.successRes config i.authReq))),
          wrote := frame, got := answer }
        { inbound := frame, outbound := answer, task := .accepted i.authReq } →
      (machine serde config routes).Can (Act.Own c) P t) :
    (machine serde config routes).Can (Act.Own c) P s := by
  have hwrite : Control.step serde config s.server (.writeAnswer c) = some (s.server.setConn c
      { inbound := frame, outbound := answer, task := .accepted i.authReq },
      [.answered c (Control.successRes config i.authReq)]) := by
    simp [Control.step, Control.Act.conn, hs.conn, Control.taskStep, Control.answer, hanswer]
  refine can_of_server hs (b := .writeAnswer c) rfl (by simp) (by simp) hwrite rfl (fun k ↦ rfl)
    fun t ht ↦ ?_
  have harrive : step serde config t (.arrive c answer.length) = some (t.setPeer c
      { identity := i, phase := .awaiting, wrote := frame, got := answer }, []) := by
    simp [step, Act.conn, ht.peer, peerStep, nextBytes, State.outbound, ht.conn]
  refine can_of_peer ht (a := .arrive c answer.length) ⟨rfl, fun c b ↦ by simp⟩ harrive
    fun u hu ↦ ?_
  have hres : step serde config u (.readRes c) = some (u.setPeer c
      { identity := i, phase := .answered (.ok (.authRes (Control.successRes config i.authReq))),
        wrote := frame, got := answer }, []) := by
    simp [step, Act.conn, hu.peer, peerStep, hread]
  exact can_of_peer hu (a := .readRes c) ⟨rfl, fun c b ↦ by simp⟩ hres hcan

/-- The server spawns the driver, and the session gets its number. -/
theorem can_of_number {auth : AuthReq} (hs : Stands s₀ s c p conn)
    (ht : conn.task = .accepted auth) (hres : auth.clientId ∉ reservedSubdomains)
    (hcan : ∀ t n, Stands s₀ t c p { conn with
        task := .numbered auth n, driver := some (Driver.spawn auth.supportsHeartbeat 0) } →
      (machine serde config routes).Can (Act.Own c) P t) :
    (machine serde config routes).Can (Act.Own c) P s := by
  have hspawn : Control.step serde config s.server (.spawnDriver c 0) = some (s.server.setConn c
      { conn with driver := some (Driver.spawn auth.supportsHeartbeat 0),
                  task := .registering auth }, []) := by
    simp [Control.step, Control.Act.conn, hs.conn, Control.taskStep, ht]
  refine can_of_server hs (b := .spawnDriver c 0) rfl (by simp) (by simp) hspawn rfl (fun k ↦ rfl)
    fun t ht ↦ ?_
  have hcheck : Control.step serde config t.server (.checkId c) = some (t.server.setConn c
      { conn with driver := some (Driver.spawn auth.supportsHeartbeat 0),
                  task := .checked auth }, []) := by
    simp [Control.step, Control.Act.conn, ht.conn, Control.taskStep, Registry.checkId, hres]
  refine can_of_server ht (b := .checkId c) rfl (by simp) (by simp) hcheck rfl (fun k ↦ rfl)
    fun u hu ↦ ?_
  have hfetch : Control.step serde config u.server (.fetchSession c) = some
      (({ u.server with registry := u.server.registry.fetchSession.2 } : Control.State).setConn c
        { conn with driver := some (Driver.spawn auth.supportsHeartbeat 0),
                    task := .numbered auth u.server.registry.nextSession },
        [.numbered c u.server.registry.nextSession]) := by
    simp [Control.step, Control.Act.conn, hu.conn, Control.taskStep, Registry.fetchSession]
  exact can_of_server hu (b := .fetchSession c) rfl (by simp) (by simp) hfetch rfl (fun k ↦ rfl)
    fun v hv ↦ hcan v _ hv

/-- The route is seen to, and the task waits for the driver. -/
theorem can_of_route {auth : AuthReq} {n : UInt64} (hs : Stands s₀ s c p conn)
    (ht : conn.task = .registered auth n)
    (hcan : ∀ t, Stands s₀ t c p { conn with task := .serving auth n } →
      (machine serde config routes).Can (Act.Own c) P t) :
    (machine serde config routes).Can (Act.Own c) P s := by
  by_cases hup : config.traefik.enabled = true ∧
      (Control.manager config).upToDate s.server.routes auth.clientId = false
  · have hread : Control.step serde config s.server (.readRoute c) = some (s.server.setConn c
        { conn with task := .routing auth n }, [.addClient c auth.clientId]) := by
      simp [Control.step, Control.Act.conn, hs.conn, Control.taskStep, ht, hup.1, hup.2]
    refine can_of_server hs (b := .readRoute c) rfl (by simp) (by simp) hread rfl (fun k ↦ rfl)
      fun t ht ↦ ?_
    have hwrite : Control.step serde config t.server (.writeRoute c .written) = some
        (({ t.server with
            routes := (Control.manager config).writeRoute t.server.routes auth.clientId .written } :
          Control.State).setConn c { conn with task := .serving auth n }, []) := by
      simp [Control.step, Control.Act.conn, ht.conn, Control.taskStep]
    exact can_of_server ht (b := .writeRoute c .written) rfl (by simp) (by simp) hwrite rfl
      (fun k ↦ rfl) hcan
  · have hread : ∃ es, Control.step serde config s.server (.readRoute c) = some (s.server.setConn c
        { conn with task := .serving auth n }, es) := by
      by_cases hen : config.traefik.enabled = true
      · have hup' : (Control.manager config).upToDate s.server.routes auth.clientId = true :=
          Bool.of_not_eq_false fun hno ↦ hup ⟨hen, hno⟩
        simp [Control.step, Control.Act.conn, hs.conn, Control.taskStep, ht, hen, hup']
      · simp [Control.step, Control.Act.conn, hs.conn, Control.taskStep, ht, hen]
    obtain ⟨es, hread⟩ := hread
    exact can_of_server hs (b := .readRoute c) rfl (by simp) (by simp) hread rfl (fun k ↦ rfl) hcan

end

/-! ## Taking over -/

variable (config) in
/-- The client at connection `c` has its name in `t`, and the rest is as it was in `s`. -/
structure TakenOver (s t : State) (c : ConnId) (i : Identity) : Prop where
  /-- The client is connected, and knows its route. -/
  client : ∃ p, t.peers c = some p ∧ p.identity = i ∧
    p.phase = .answered (.ok (.authRes (Control.successRes config i.authReq)))
  /-- Its session has the name, and a driver that runs. -/
  session : ∃ conn n d, t.server.registry.get i.clientId = some ⟨i.clientId, n, c, true⟩ ∧
    t.server.conns c = some conn ∧ conn.task = .serving i.authReq n ∧ conn.driver = some d ∧
    d.ended = none ∧ d.abortRequested = false
  /-- The session that had the name is asked to abort. -/
  replaced : ∀ e conn, s.server.registry.get i.clientId = some e →
    s.server.conns e.handle = some conn → t.server.conns e.handle = some conn.abortDriver
  /-- Other names are in the hands that they were in. -/
  slots : ∀ k ≠ i.clientId, t.server.registry.get k = s.server.registry.get k
  conns : ∀ c' ≠ c, (∀ e, s.server.registry.get i.clientId = some e → e.handle ≠ c') →
    t.server.conns c' = s.server.conns c'
  peers : ∀ c' ≠ c, t.peers c' = s.peers c'

section

variable {n : UInt64} {server : Control.State}

/-- The session has the slot, the driver of its predecessor is told, and the route is to be seen
to. -/
private theorem can_of_taken (hs : Stands s₀ s c p conn) (hid : p.identity = i)
    (hphase : p.phase = .answered (.ok (.authRes (Control.successRes config i.authReq))))
    (hd : conn.driver = some (Driver.spawn i.authReq.supportsHeartbeat 0))
    (hold : ∀ e, s₀.server.registry.get i.clientId = some e → e.handle ≠ c)
    (hconn : server.conns c = some { conn with task := .registered i.authReq n })
    (hget : ∀ k, server.registry.get k =
      if k = i.clientId then some ⟨i.clientId, n, c, true⟩ else s.server.registry.get k)
    (hconns : ∀ c' ≠ c, server.conns c' =
      if (s₀.server.registry.get i.clientId).any (fun e ↦ e.handle = c') then
        (s.server.conns c').map Control.Conn.abortDriver
      else s.server.conns c') :
    (machine serde config routes).Can (Act.Own c) (fun t ↦ TakenOver config s₀ t c i)
      { s with server } := by
  have hstands : Stands { s with server } { s with server } c p
      { conn with task := .registered i.authReq n } :=
    ⟨hs.peer, hconn, fun k ↦ rfl, fun c' _ ↦ rfl, fun c' _ ↦ rfl⟩
  refine can_of_route hstands rfl fun t ht ↦ .here ⟨⟨p, ht.peer, hid, hphase⟩, ?_, ?_, ?_, ?_, ?_⟩
  · refine ⟨_, n, _, ?_, ht.conn, rfl, hd, rfl, rfl⟩
    rw [ht.slots]
    exact (hget i.clientId).trans (if_pos rfl)
  · intro e conn' he hc'
    have hne := hold e he
    rw [ht.conns _ hne]
    change server.conns e.handle = _
    rw [hconns _ hne, if_pos (by simp [he]), hs.conns _ hne, hc']
    rfl
  · intro k hne
    rw [ht.slots, ← hs.slots k]
    exact (hget k).trans (if_neg hne)
  · intro c' hne hother
    rw [ht.conns c' hne, ← hs.conns c' hne]
    refine (hconns c' hne).trans (if_neg fun hany ↦ ?_)
    rw [Option.any_eq_true] at hany
    obtain ⟨e, he, hec⟩ := hany
    exact hother e he (of_decide_eq_true hec)
  · intro c' hne
    rw [ht.peers c' hne]
    exact hs.peers c' hne

theorem can_of_insert (hs : Stands s₀ s c p conn) (hid : p.identity = i)
    (hphase : p.phase = .answered (.ok (.authRes (Control.successRes config i.authReq))))
    (ht : conn.task = .numbered i.authReq n)
    (hd : conn.driver = some (Driver.spawn i.authReq.supportsHeartbeat 0))
    (hold : ∀ e, s₀.server.registry.get i.clientId = some e → e.handle ≠ c) :
    (machine serde config routes).Can (Act.Own c) (fun t ↦ TakenOver config s₀ t c i)
      s := by
  have hsnd := Registry.insertEntry_snd s.server.registry ⟨i.clientId, n, c, true⟩
  have hget := fun k ↦ Registry.get_insertEntry s.server.registry ⟨i.clientId, n, c, true⟩ k
  rw [hs.slots] at hsnd
  rcases hins : s.server.registry.insertEntry ⟨i.clientId, n, c, true⟩ with ⟨registry, _ | old⟩
  · rw [hins] at hsnd hget
    have hnone : s₀.server.registry.get i.clientId = none := Option.map_eq_none_iff.mp hsnd.symm
    have hstep : Control.step serde config s.server (.insertEntry c) = some
        (({ s.server with registry } : Control.State).setConn c
          { conn with task := .registered i.authReq n }, [.swapped c i.authReq.clientId n]) := by
      have hins' : s.server.registry.insertEntry ⟨i.authReq.clientId, n, c,
          i.authReq.supportsHeartbeat⟩ = (registry, none) := hins
      simp [Control.step, Control.Act.conn, hs.conn, Control.taskStep, ht, hins']
    refine .next (a := .server (.insertEntry c)) ⟨rfl, fun c b ↦ by simp⟩
      (step_server (by simp) hstep) ?_
    refine can_of_taken hs hid hphase hd hold (Control.setConn_self ..) hget fun c' hne ↦ ?_
    rw [Control.setConn_of_ne hne, hnone]
    rfl
  · rw [hins] at hsnd hget
    obtain ⟨e, he, hec⟩ := Option.map_eq_some_iff.mp hsnd.symm
    have hne : c ≠ old := fun hcc ↦ hold e he (hec.trans hcc.symm)
    have hstep : Control.step serde config s.server (.insertEntry c) = some
        ((({ s.server with registry } : Control.State).setConn c
          { conn with task := .registered i.authReq n }).abortDriver old,
          [.swapped c i.authReq.clientId n, .aborted old]) := by
      have hins' : s.server.registry.insertEntry ⟨i.authReq.clientId, n, c,
          i.authReq.supportsHeartbeat⟩ = (registry, some old) := hins
      simp [Control.step, Control.Act.conn, hs.conn, Control.taskStep, ht, hins']
    refine .next (a := .server (.insertEntry c)) ⟨rfl, fun c b ↦ by simp⟩
      (step_server (by simp) hstep) ?_
    refine can_of_taken hs hid hphase hd hold ?_ hget fun c' hc' ↦ ?_
    · rw [Control.abortDriver_conns, if_neg hne, Control.setConn_self]
    · rw [Control.abortDriver_conns, Control.setConn_of_ne hc', he, Option.any_some, ← hec]
      simp [eq_comm]

end

/-- The client dials, is let in, and its session is about to take the slot. -/
theorem can_of_dial {P : State → Prop} (hserde : serde.Lawful) (hc : s.server.conns c = none)
    (hp : s.peers c = none) (hvalid : config.validateToken i.token = true)
    (hres : i.clientId ∉ reservedSubdomains) (hreq : Message.Fits serde (.authReq i.authReq))
    (hans : Message.Fits serde (.authRes (Control.successRes config i.authReq)))
    (hcan : ∀ t p conn n, Stands s t c p conn → p.identity = i →
      p.phase = .answered (.ok (.authRes (Control.successRes config i.authReq))) →
      conn.task = .numbered i.authReq n →
      conn.driver = some (Driver.spawn i.authReq.supportsHeartbeat 0) →
      (machine serde config routes).Can (Act.Own c) P t) :
    (machine serde config routes).Can (Act.Own c) P s := by
  obtain ⟨payload, hpay, hle⟩ := hreq
  obtain ⟨frame, hframe, hread⟩ := readMessage_writeMessage hserde hpay hle
  obtain ⟨payload', hpay', hle'⟩ := hans
  obtain ⟨answer, hanswer, hread'⟩ := readMessage_writeMessage hserde hpay' hle'
  have hread : (readMessage serde frame).1 = .ok (.authReq i.authReq) := by
    rw [← List.append_nil frame, hread]
  have hread' : (readMessage serde answer).1 =
      .ok (.authRes (Control.successRes config i.authReq)) := by
    rw [← List.append_nil answer, hread']
  refine can_of_connect i hc hp fun s₁ h₁ ↦ ?_
  refine can_of_request h₁ hframe hread hvalid fun s₂ h₂ ↦ ?_
  refine can_of_answer h₂ hanswer hread' fun s₃ h₃ ↦ ?_
  exact can_of_number h₃ rfl hres fun s₄ n h₄ ↦ hcan s₄ _ _ n h₄ rfl rfl rfl rfl

/-- The session that has a name is not on a connection that there is not. -/
theorem handle_ne (hr : (machine serde config routes).Reach h s) (hc : s.server.conns c = none)
    {k : String} {e : ClientEntry} (he : s.server.registry.get k = some e) : e.handle ≠ c := by
  rintro rfl
  obtain ⟨-, conn, auth, hconn, -⟩ := (Control.Gate.of_reach (reach_server hr)).entry k e he
  rw [hc] at hconn
  cases hconn

/-- **A client can always come back.** -/
theorem can_take_over (serde : SerdeJson) (config : ServerConfig) (routes : RouteFiles)
    (hserde : serde.Lawful) (h : List Control.Event) (s : State)
    (hr : (machine serde config routes).Reach h s) (c : ConnId) (i : Identity)
    (hc : s.server.conns c = none) (hp : s.peers c = none)
    (hvalid : config.validateToken i.token = true) (hres : i.clientId ∉ reservedSubdomains)
    (hreq : Message.Fits serde (.authReq i.authReq))
    (hans : Message.Fits serde (.authRes (Control.successRes config i.authReq))) :
    (machine serde config routes).Can (Act.Own c) (fun t ↦ TakenOver config s t c i) s := by
  refine can_of_dial hserde hc hp hvalid hres hreq hans
    fun t p conn n hstands hid hphase htask hdriver ↦ ?_
  exact can_of_insert hstands hid hphase htask hdriver fun e ↦ handle_ne hr hc

/-- A session has a name, its client is gone without a word, and comes back on a new connection. -/
theorem can_take_over_app : ∃ h s,
    (machine compactSerde Control.sampleConfig fun _ ↦ none).run
      ⟨Control.start fun _ ↦ none, fun _ ↦ none⟩
      (handshakeSegments 0 ⟨"app", "t"⟩ ++ (Control.registerSegments 0 0).map .server) =
      some (s, h) ∧
    (s.server.registry.get "app").any (fun e ↦ decide (e.handle = 0)) = true ∧
    (machine compactSerde Control.sampleConfig fun _ ↦ none).Can (Act.Own 1)
      (fun t ↦ TakenOver Control.sampleConfig s t 1 ⟨"app", "t"⟩) s := by
  have hrun : ((machine compactSerde Control.sampleConfig fun _ ↦ none).run
      ⟨Control.start fun _ ↦ none, fun _ ↦ none⟩
      (handshakeSegments 0 ⟨"app", "t"⟩ ++ (Control.registerSegments 0 0).map .server)).map
      (fun r ↦ (r.1.server.registry.get "app").any (fun e ↦ decide (e.handle = 0)) &&
        (r.1.server.conns 1).isNone && (r.1.peers 1).isNone) = some true := by
    decide +kernel
  obtain ⟨⟨s, h⟩, hsh, heq⟩ := Option.map_eq_some_iff.mp hrun
  rw [Bool.and_eq_true, Bool.and_eq_true, Option.isNone_iff_eq_none,
    Option.isNone_iff_eq_none] at heq
  obtain ⟨⟨hget, hc⟩, hp⟩ := heq
  exact ⟨h, s, hsh, hget, can_take_over _ _ _ compactSerde_lawful h s (.of_run hsh) 1 _ hc hp
    (by decide) (by decide) ⟨_, rfl, by decide⟩ ⟨_, rfl, by decide⟩⟩

end Handshake

end ZoTunnel
