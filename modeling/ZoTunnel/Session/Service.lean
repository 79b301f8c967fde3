import ZoTunnel.Server.Granting
import ZoTunnel.Session.Isolation
import ZoTunnel.Session.Recovery

/-!
# From a client to a served request

What isolation leaves open is whether anything gets through. `can_be_served` says that it always
can, from every reachable state of the tunnel. A client with a valid token dials on a new
connection. It takes its name over from whoever has it, a request for its host finds the session,
the driver hands out a stream, and the bytes go to the local service and back.

The steps are those of this client, of its connection and of this request. Whatever else waits in
the tunnel may wait for ever, and what is queued in front of the request is dealt with on the way.
-/

namespace ZoTunnel

namespace Isolation

variable {serde : SerdeJson} {config : ServerConfig} {routes : RouteFiles} {h : List Proxy.Event}
  {s t : State} {es : List Proxy.Event} {c : ConnId} {r : Proxy.ReqId} {g : Registry}
  {P : State → Prop}

/-- The steps of the client at connection `c`, of this connection and of request `r`. -/
def Act.About (c : ConnId) (r : Proxy.ReqId) : Act → Prop
  | .session (.server (.control b)) => b.conn = c
  | .session (.server a) => a.req = some r
  | .session (.httpWrite c' _ _) | .session (.probeWrite c' _) | .session (.tunnel c' _ _)
  | .httpRead c' _ _ => c' = c
  | .client a => a.conn = c

/-! ## What the parts can do -/

/-- The server makes a step. -/
def State.setServer (s : State) (v : Proxy.State) (es : List Proxy.Event) : State :=
  { s with session :=
      { server := v
        streams := fun c st ↦ Session.onEvents es c st (s.session.streams c st) } }

/-- The control channel makes a step. -/
def State.setControl (s : State) (control : Control.State) (es : List Proxy.Event) : State :=
  s.setServer { s.session.server with control } es

theorem session_control {b : Control.Act} {control : Control.State} {es : List Control.Event}
    (hstep : Control.step serde config s.session.server.control b = some (control, es))
    (hown : Proxy.ownStep b = true) (hallowed : Session.allowed s.session (.control b) = true) :
    Session.step serde config s.session (.server (.control b)) =
      some ((s.setControl control (es.map .control)).session, es.map .control) := by
  simp [Session.step, hallowed, Proxy.step, hown, hstep, State.setControl, State.setServer]

theorem sessionStep_control {b : Control.Act} {control : Control.State} {es : List Control.Event}
    (hstep : Control.step serde config s.session.server.control b = some (control, es))
    (hown : Proxy.ownStep b = true) (hallowed : Session.allowed s.session (.control b) = true) :
    sessionStep serde config s (.server (.control b)) =
      some (s.setControl control (es.map .control), es.map .control) := by
  rw [sessionStep, session_control hstep hown hallowed]
  rfl

theorem step_serverStep {u v : Handshake.State} {b : Control.Act} {es : List Control.Event}
    (hstep : Handshake.serverStep serde config u b = some (v, es)) :
    ∃ control, Control.step serde config u.server b = some (control, es) ∧
      v = { u with server := control } := by
  rw [Handshake.serverStep] at hstep
  split at hstep
  · cases hstep
  · rename_i control es' hs
    obtain ⟨rfl, rfl⟩ := Prod.mk.inj (Option.some.inj hstep)
    exact ⟨control, hs, rfl⟩

/-- An action of the clients and the control channel, as one of the tunnel. -/
def ofHandshake : Handshake.Act → Act
  | .server b => .session (.server (.control b))
  | a => .client a

/-- A step on the control connection that is none of the driver is one of the tunnel. -/
theorem step_ofHandshake {b : Handshake.Act} {u : Handshake.State} {es : List Control.Event}
    (hb : ∀ c' b', b ≠ .server (.driver c' b'))
    (hstep : Handshake.step serde config s.handshake b = some (u, es)) :
    ∃ t es', step serde config s (ofHandshake b) = some (t, es') ∧ t.handshake = u ∧
      t.session.server.requests = s.session.server.requests := by
  cases b with
  | server b' =>
    have hserver : Handshake.serverStep serde config s.handshake b' = some (u, es) ∧
        ∀ c bs, b' = .recv c bs → s.peers c = none := by
      cases b' with
      | recv c bs =>
        simp only [Handshake.step] at hstep
        split at hstep
        · rename_i hp
          refine ⟨hstep, fun c' bs' heq ↦ ?_⟩
          cases heq
          exact hp
        · cases hstep
      | _ => exact ⟨hstep, fun c bs heq ↦ by cases heq⟩
    obtain ⟨control, hs, rfl⟩ := step_serverStep hserver.1
    have hown : Proxy.ownStep b' = true ∧ Session.allowed s.session (.control b') = true := by
      cases b' with
      | driver c' d => exact absurd rfl (hb c' d)
      | _ => exact ⟨rfl, rfl⟩
    have hpass : allowed s (.server (.control b')) = true := by
      cases b' with
      | recv c bs => simp [allowed, hserver.2 c bs rfl]
      | _ => rfl
    refine ⟨s.setControl control (es.map .control), es.map .control, ?_, rfl, rfl⟩
    rw [ofHandshake, step, if_pos hpass, sessionStep_control hs hown.1 hown.2]
  | deliver c n =>
    simp only [Handshake.step, Handshake.Act.conn] at hstep
    split at hstep
    · cases hstep
    · rename_i p hp
      simp only [Handshake.peerStep] at hstep
      split at hstep
      · cases hstep
      · rename_i conn hc
        obtain ⟨control, hs, rfl⟩ := step_serverStep hstep
        refine ⟨s.setControl control (es.map .control), es.map .control, ?_, rfl, rfl⟩
        simp only [ofHandshake, step, clientStep, show s.peers c = some p from hp,
          show s.session.server.control.conns c = some conn from hc]
        exact sessionStep_control hs rfl rfl
  | _ =>
    obtain ⟨hserver, -⟩ := server_of_client hstep (fun b ↦ by simp) fun c n ↦ by simp
    refine ⟨{ s with peers := u.peers }, [], ?_, ?_, rfl⟩
    · simp only [ofHandshake, step, clientStep, hstep]
    · rw [State.handshake, ← show u.server = s.session.server.control from hserver]

/-- What the client and its task can do on the control connection, the tunnel can do. -/
theorem can_of_handshake {Q : Handshake.State → Prop}
    (hcan : (Handshake.machine serde config routes).Can (Handshake.Act.Own c) Q s.handshake)
    (hr : (machine serde config routes).Reach h s) (hq : s.session.server.requests r = none) :
    (machine serde config routes).Can (Act.About c r) (fun t ↦ Q t.handshake ∧
      (∃ h', (machine serde config routes).Reach h' t) ∧ t.session.server.requests r = none) s := by
  refine Machine.Can.lift (f := State.handshake)
    (I := fun t ↦ (∃ h', (machine serde config routes).Reach h' t) ∧
      t.session.server.requests r = none)
    (g := ofHandshake) ?_ hcan ⟨⟨h, hr⟩, hq⟩
  rintro s b u es ⟨⟨h, hr⟩, hq⟩ ⟨hbc, hb⟩ hstep
  obtain ⟨t, es', ht, hu, hrequests⟩ := step_ofHandshake hb hstep
  refine ⟨t, es', ?_, ht, hu, ⟨_, hr.step ht⟩, hrequests ▸ hq⟩
  cases b <;> exact hbc

/-! ## The request, until it has its stream -/

/-- The client at connection `c` is let in, and the driver of its session runs. -/
structure Ready (s : State) (c : ConnId) (p : Handshake.Peer) (g : Registry) : Prop where
  peer : s.peers c = some p
  registry : s.session.server.control.registry = g
  admitted : p.phase.admitted = true
  running : ∃ conn d, s.session.server.control.conns c = some conn ∧ conn.driver = some d ∧
    d.ended = none

variable (routes) in
theorem step_request {a : Proxy.Act} {v : Proxy.State} (ha : a.req = some r)
    (hstep : Proxy.step serde config s.session.server a = some (v, es)) :
    (machine serde config routes).step s (.session (.server a)) = some (s.setServer v es, es) := by
  cases a with
  | control b => cases ha
  | _ =>
    simp [machine, step, allowed, sessionStep, Session.step, Session.allowed, hstep,
      State.onCopyBack, State.setServer]

theorem about_of_req {a : Proxy.Act} (ha : a.req = some r) :
    Act.About c r (.session (.server a)) := by
  cases a with
  | control b => cases ha
  | _ => exact ha

/-- A request goes on, and the client with its session is as it was. -/
theorem can_of_request {p : Handshake.Peer} {a : Proxy.Act} {v : Proxy.State} {q : Proxy.Request}
    (hr : (machine serde config routes).Reach h s) (hready : Ready s c p g) (ha : a.req = some r)
    (hstep : Proxy.step serde config s.session.server a = some (v, es))
    (hcontrol : v.control = s.session.server.control) (hq : v.requests r = some q)
    (hcan : ∀ h' t, (machine serde config routes).Reach h' t → Ready t c p g →
      t.session.server.requests r = some q →
      (machine serde config routes).Can (Act.About c r) P t) :
    (machine serde config routes).Can (Act.About c r) P s := by
  have hs := step_request routes ha hstep
  refine .next (about_of_req ha) hs (hcan _ _ (hr.step hs) ?_ hq)
  exact ⟨hready.peer, hcontrol ▸ hready.registry, hready.admitted, hcontrol ▸ hready.running⟩

/-- A request arrives, is let pass, and finds its session. -/
theorem can_of_lookup {p : Handshake.Peer} {req : HttpRequest} {clientId path : String}
    {client : ClientEntry} (hr : (machine serde config routes).Reach h s) (hready : Ready s c p g)
    (hnone : s.session.server.requests r = none)
    (hproxy : serveHttp req config.domain = .proxy)
    (hroute : extractRouting req config.domain = some (clientId, path))
    (hget : g.get clientId = some client)
    (hcan : ∀ h' t, (machine serde config routes).Reach h' t → Ready t c p g →
      t.session.server.requests r = some ⟨req, .found ⟨clientId, path, client⟩⟩ →
      (machine serde config routes).Can (Act.About c r) P t) :
    (machine serde config routes).Can (Act.About c r) P s := by
  refine can_of_request hr hready rfl (Proxy.step_arrive hnone hproxy hroute) rfl
    (Function.update_self ..) fun h₁ s₁ hr₁ hready₁ hq₁ ↦ ?_
  obtain ⟨now, limiter, hcheck⟩ := s₁.session.server.limiter.exists_check clientId
  refine can_of_request hr₁ hready₁ rfl (Proxy.step_limit hq₁ hcheck) rfl
    (Function.update_self ..) fun h₂ s₂ hr₂ hready₂ hq₂ ↦ ?_
  have hget₂ : s₂.session.server.control.registry.get clientId = some client := by
    rw [hready₂.registry, hget]
  exact can_of_request hr₂ hready₂ rfl (Proxy.step_lookup hq₂ hget₂) rfl
    (Function.update_self ..) hcan

/-- The driver of connection `c` knows call `r`, and the request waits for its stream. -/
structure Opening (s : State) (c : ConnId) (r : Proxy.ReqId) (p : Handshake.Peer) (g : Registry)
    (q : Proxy.Request) : Prop where
  peer : s.peers c = some p
  registry : s.session.server.control.registry = g
  request : s.session.server.requests r = some q
  muxed : ∃ conn d, s.session.server.control.conns c = some conn ∧ conn.driver = some d
  /-- The client has done nothing on the stream. -/
  untouched : ∀ st x, s.session.streams c st = some x → x.owner = .call r →
    x.tunnel.task = .awaiting

theorem Opening.drive {p : Handshake.Peer} {q : Proxy.Request} {b : Driver.Act} {d' : Driver}
    {ds : List Driver.Event} (ho : Opening s c r p g q)
    (hr : (machine serde config routes).Reach h s) (hb : b.Granting r)
    (hstep : (s.session.server.control.driverAt c).step b = some (d', ds)) :
    ∃ t es', (machine serde config routes).step s (.session (.server (.control (.driver c b)))) =
      some (t, es') ∧ t.session.server.control.driverAt c = d' ∧ Opening t c r p g q := by
  obtain ⟨conn, d, hc, hd⟩ := ho.muxed
  rw [Control.driverAt_eq hc hd] at hstep
  have hcontrol : Control.step serde config s.session.server.control (.driver c b) =
      some (s.session.server.control.setConn c { conn with driver := some d' },
        ds.map (.driver c)) := Control.step_granting serde config hc hd hb hstep
  have hown : Proxy.ownStep (.driver c b) = true ∧
      Session.allowed s.session (.control (.driver c b)) = true := by
    rcases hb with rfl | rfl | rfl <;> exact ⟨rfl, rfl⟩
  have hs : (machine serde config routes).step s (.session (.server (.control (.driver c b)))) =
      sessionStep serde config s (.server (.control (.driver c b))) := by
    simp only [machine, step, allowed, if_true]
  rw [sessionStep_control hcontrol hown.1 hown.2] at hs
  refine ⟨_, _, hs, ?_, ho.peer, ho.registry, ho.request, ⟨_, d', Control.setConn_self .., rfl⟩,
    fun st y hy howner ↦ ?_⟩
  · exact Control.driverAt_eq (Control.setConn_self ..) rfl
  · rcases stream_of_step (session_reach hr) (session_control hcontrol hown.1 hown.2) hy with
      ⟨-, -, owner, rfl⟩ | ⟨x, hx, hm⟩
    · rfl
    · cases hm with
      | quiet _ hsame _ htask _ => exact htask.trans (ho.untouched st x hx (hsame ▸ howner))
      | tunnel ha => cases ha

theorem can_of_open {p : Handshake.Peer} {req : HttpRequest} {tg : Proxy.Target}
    (hr : (machine serde config routes).Reach h s) (hready : Ready s c p g)
    (hq : s.session.server.requests r = some ⟨req, .found tg⟩) (htg : tg.client.handle = c)
    (hcan : ∀ h' t st, (machine serde config routes).Reach h' t →
      Opening t c r p g ⟨req, .opening tg⟩ →
      Proxy.openResult t.session.server r c = some (.ok st) →
      (machine serde config routes).Can (Act.About c r) P t) :
    (machine serde config routes).Can (Act.About c r) P s := by
  obtain ⟨conn, d, hc, hd, hrun⟩ := hready.running
  have hproxy := proxy_reach hr
  -- The request is new to the driver, as it has not contacted anybody.
  have hfresh : ∀ c', .contacted r c' ∉ h := by
    intro c' hmem
    obtain ⟨q, hq', hopened⟩ := (Proxy.Delivery.of_reach hproxy).contacted r c' hmem
    rw [hq, Option.some.injEq] at hq'
    rw [← hq'] at hopened
    cases hopened
  have hcall : d.calls r = none := by
    by_contra hne
    exact hfresh c ((Proxy.Delivery.of_reach hproxy).calls c conn d r hc hd hne)
  obtain ⟨control, conn', d', hcontrol, hreg, hc', hd', hrun', hsending⟩ :=
    Control.call_new serde config hc hd hrun hcall
  subst htg
  obtain ⟨v, hopen, hvc, hvq⟩ : ∃ v, Proxy.step serde config s.session.server (.openStream r) =
      some (v, [.contacted r tg.client.handle]) ∧ v.control = control ∧
        v.requests r = some ⟨req, .opening tg⟩ :=
    ⟨_, Proxy.step_openStream hq hcontrol, rfl, Function.update_self ..⟩
  have hs := step_request routes (show Proxy.Act.req (.openStream r) = some r from rfl) hopen
  have hr' := hr.step hs
  refine .next (about_of_req rfl) hs ?_
  -- It has no stream yet, so the client has done nothing on any.
  have hopening : Opening (s.setServer v [.contacted r tg.client.handle]) tg.client.handle r p g
      ⟨req, .opening tg⟩ := by
    refine ⟨hready.peer, ?_, hvq, ⟨conn', d', hvc ▸ hc', hd'⟩, fun st x hx howner ↦ ?_⟩
    · rw [← hready.registry, ← hreg, ← hvc]
      rfl
    have hmem := (Session.Streams.of_reach (session_reach hr')).handed _ st x hx
    rw [howner, Proxy.controlEvents_append, show Proxy.controlEvents [.contacted r _] = [] from rfl,
      List.append_nil] at hmem
    exact absurd (Proxy.contacted_of_handed hproxy hmem) (hfresh _)
  have hdriver : v.control.driverAt tg.client.handle = d' := Control.driverAt_eq (hvc ▸ hc') hd'
  have hgrant : (Driver.machine true 0).Can (Driver.Act.Granting r)
      (fun d ↦ d.ended = none ∧ ∃ st, d.calls r = some (.returned (.ok st)))
      (v.control.driverAt tg.client.handle) := hdriver ▸ Driver.can_grant hrun' hsending
  refine (Machine.Can.lift (M := machine serde config routes)
    (I := fun t ↦ (∃ h', (machine serde config routes).Reach h' t) ∧
      Opening t tg.client.handle r p g ⟨req, .opening tg⟩)
    (f := fun t ↦ t.session.server.control.driverAt tg.client.handle)
    (g := fun b ↦ .session (.server (.control (.driver tg.client.handle b)))) ?_ hgrant
    ⟨⟨_, hr'⟩, hopening⟩).and_then fun t ht ↦ ?_
  · rintro s b d es ⟨⟨h, hr⟩, ho⟩ hb hstep
    obtain ⟨t, es', ht, hd, ho'⟩ := ho.drive hr hb hstep
    exact ⟨t, es', rfl, ht, hd, ⟨_, hr.step ht⟩, ho'⟩
  · obtain ⟨⟨-, st, hcall⟩, ⟨h', hr'⟩, ho⟩ := ht
    refine hcan h' t st hr' ho ?_
    obtain ⟨conn, d, hc, hd⟩ := ho.muxed
    rw [Control.driverAt_eq hc hd] at hcall
    simp [Proxy.openResult, hc, hd, hcall]

/-! ## The bytes, there and back -/

/-- Request `r` has stream `st` of connection `c`. -/
structure Flow (s : State) (c : ConnId) (st : StreamId) (r : Proxy.ReqId) (p : Handshake.Peer)
    (g : Registry) (q : Proxy.Request) (x : Session.Stream) (e : Ends) : Prop where
  peer : s.peers c = some p
  registry : s.session.server.control.registry = g
  request : s.session.server.requests r = some q
  stream : s.session.streams c st = some x
  ends : s.ends c st = e

section

variable {st : StreamId} {p : Handshake.Peer} {q q' : Proxy.Request} {x : Session.Stream} {e : Ends}

/-- A stream is as it was handed out when its request gets it. -/
theorem flow_of_opening {tg : Proxy.Target} (hr : (machine serde config routes).Reach h s)
    (ho : Opening s c r p g q) (hphase : q.phase = .opening tg)
    (hres : Proxy.openResult s.session.server r c = some (.ok st)) :
    Flow s c st r p g q { owner := .call r } {} := by
  have hsession := session_reach hr
  have hstreams : Session.Streams serde h s.session := .of_reach hsession
  have hmem := Proxy.handed_of_openResult (proxy_reach hr) hres
  obtain ⟨x, hx⟩ := hstreams.every c st _ hmem
  have howner : x.owner = .call r := hstreams.owner_eq hsession hx hmem
  obtain ⟨hopen, hsent⟩ := hstreams.fresh r (fun q' hq' ↦ by
    rw [ho.request, Option.some.injEq] at hq'
    rw [← hq', hphase]
    rfl) c st x hx howner
  obtain ⟨⟨b, -, hw⟩, hcons⟩ := hstreams.stream c st x hx
  have htask := ho.untouched st x hx howner
  obtain ⟨hinbox, hpassed, hback⟩ := hcons.awaiting htask
  have hhttp : x.http = [] := by
    rw [hopen] at hw
    exact hw.unhandled
  have htied := (Tied.of_reach hr).stream c st x hx
  have hserved := htied.served
  rw [hback, htask, if_neg (by simp), List.append_nil] at hserved
  refine ⟨ho.peer, ho.registry, ho.request, ?_, congrArg₂ Ends.mk hserved.symm (htied.closed hopen)⟩
  obtain ⟨owner, httpOpen, sent, http, inbox, task, passed, back⟩ := x
  simp only at howner hopen hsent hinbox hpassed hback hhttp htask
  rw [hx, howner, hopen, hsent, hhttp, hinbox, hpassed, hback, htask, hsent]

theorem can_of_proxy {a : Proxy.Act} {v : Proxy.State} {y : Session.Stream}
    (hf : Flow s c st r p g q x e) (ha : a.req = some r)
    (hstep : Proxy.step serde config s.session.server a = some (v, es))
    (hcontrol : v.control = s.session.server.control)
    (hq : v.requests r = some q') (hy : Session.onEvents es c st (some x) = some y)
    (hcan : ∀ t, Flow t c st r p g q' y e → (machine serde config routes).Can (Act.About c r) P t) :
    (machine serde config routes).Can (Act.About c r) P s := by
  refine .next (about_of_req ha) (step_request _ ha hstep)
    (hcan _ ⟨hf.peer, hcontrol ▸ hf.registry, hq, ?_, hf.ends⟩)
  rw [← hy, ← hf.stream]
  rfl

theorem can_of_stream {a : Session.Act} {y : Session.Stream} {e' : Ends}
    (hf : Flow s c st r p g q x e) (ha : Act.About c r (.session a)) (hallowed : allowed s a = true)
    (hstep : Session.step serde config s.session a = some (s.session.setStream c st y, []))
    (he : s.onCopyBack a c st = e')
    (hcan : ∀ t, Flow t c st r p g q y e' → (machine serde config routes).Can (Act.About c r) P t) :
    (machine serde config routes).Can (Act.About c r) P s := by
  have hs : (machine serde config routes).step s (.session a) = some ({ s with
      session := s.session.setStream c st y, ends := s.onCopyBack a }, []) := by
    simp [machine, step, hallowed, sessionStep, hstep]
  refine .next ha hs (hcan _ ⟨hf.peer, hf.registry, hf.request, ?_, he⟩)
  exact (Session.setStream_streams ..).trans (if_pos ⟨rfl, rfl⟩)

theorem can_of_tunnel {b : TunnelStream.Act} {tunnel : TunnelStream} {e' : Ends}
    (hf : Flow s c st r p g q x e) (hadm : p.phase.admitted = true)
    (hstep : x.tunnel.step b = some tunnel) (he : s.onCopyBack (.tunnel c st b) c st = e')
    (hcan : ∀ t, Flow t c st r p g q { x with tunnel } e' →
      (machine serde config routes).Can (Act.About c r) P t) :
    (machine serde config routes).Can (Act.About c r) P s := by
  refine can_of_stream hf (a := .tunnel c st b) rfl ?_ ?_ he hcan
  · simp [allowed, hf.peer, hadm]
  · simp [Session.step, hf.stream, hstep]

theorem onEvents_nil : Session.onEvents [] c st (some x) = some x := rfl

theorem onEvents_marked :
    Session.onEvents [.marked r c st] c st (some x) = some (x.write [streamTypeProxy]) := by
  have hmarks : Session.marks [.marked r c st] c st = true := by simp [Session.marks]
  rw [Session.onEvents, show Session.opened [.marked r c st] c st = none from rfl]
  simp only [hmarks, if_true, Option.map_some]

theorem onEvents_handshaken :
    Session.onEvents [.handshaken r c st] c st (some x) = some { x with httpOpen := true } := by
  have hmarks : Session.marks [.handshaken r c st] c st = false := rfl
  have hshakes : Session.shakes [.handshaken r c st] c st = true := by simp [Session.shakes]
  rw [Session.onEvents, show Session.opened [.handshaken r c st] c st = none from rfl]
  simp only [hmarks, hshakes, Bool.false_eq_true, if_false, if_true, Option.map_some]

/-- The request gets to the HTTP connection of its stream. -/
theorem can_of_forward {req : HttpRequest} {tg : Proxy.Target}
    (hf : Flow s c st r p g ⟨req, .opening tg⟩ { owner := .call r } {})
    (hres : Proxy.openResult s.session.server r c = some (.ok st)) (htg : tg.client.handle = c)
    (hsup : tg.client.supportsHeartbeat = true)
    (hcan : ∀ t, Flow t c st r p g ⟨req, .sending tg st⟩
        { owner := .call r, httpOpen := true, sent := [streamTypeProxy],
          tunnel := { inbox := [streamTypeProxy] } } {} →
      (machine serde config routes).Can (Act.About c r) P t) :
    (machine serde config routes).Can (Act.About c r) P s := by
  subst htg
  have hopened : Proxy.step serde config s.session.server (.opened r) =
      some (s.session.server.setPhase r ⟨req, .opening tg⟩ (.marking tg st), []) := by
    simp [Proxy.step, Proxy.Act.req, hf.request, Proxy.requestStep, hres, hsup]
  refine can_of_proxy hf rfl hopened rfl (Function.update_self ..) onEvents_nil fun s₁ h₁ ↦ ?_
  have hmark : Proxy.step serde config s₁.session.server (.mark r true) =
      some (s₁.session.server.setPhase r ⟨req, .marking tg st⟩ (.handshaking tg st),
        [.marked r tg.client.handle st]) := by
    simp [Proxy.step, Proxy.Act.req, h₁.request, Proxy.requestStep]
  refine can_of_proxy h₁ rfl hmark rfl (Function.update_self ..) onEvents_marked fun s₂ h₂ ↦ ?_
  have hshake : Proxy.step serde config s₂.session.server (.handshake r true) =
      some (s₂.session.server.setPhase r ⟨req, .handshaking tg st⟩ (.building tg st),
        [.handshaken r tg.client.handle st]) := by
    simp [Proxy.step, Proxy.Act.req, h₂.request, Proxy.requestStep]
  refine can_of_proxy h₂ rfl hshake rfl (Function.update_self ..) onEvents_handshaken fun s₃ h₃ ↦ ?_
  have hbuild : Proxy.step serde config s₃.session.server (.build r true) =
      some (s₃.session.server.setPhase r ⟨req, .building tg st⟩ (.sending tg st), []) := by
    simp [Proxy.step, Proxy.Act.req, h₃.request, Proxy.requestStep]
  exact can_of_proxy h₃ rfl hbuild rfl (Function.update_self ..) onEvents_nil hcan

/-- The request goes to the local service, the answer comes back, and the request is over. -/
theorem can_of_exchange {req : HttpRequest} {tg : Proxy.Target} (bs rs : Bytes)
    (hf : Flow s c st r p g ⟨req, .sending tg st⟩
      { owner := .call r, httpOpen := true, sent := [streamTypeProxy],
        tunnel := { inbox := [streamTypeProxy] } } {})
    (hadm : p.phase.admitted = true)
    (hcan : ∀ t, Flow t c st r p g ⟨req, .answered .forwarded⟩
        { owner := .call r, httpOpen := true, sent := streamTypeProxy :: bs, http := bs,
          tunnel := { task := .copying, passed := some bs, back := rs } } ⟨rs, rs⟩ →
      (machine serde config routes).Can (Act.About c r) P t) :
    (machine serde config routes).Can (Act.About c r) P s := by
  have hwrite : Session.step serde config s.session (.httpWrite c st bs) =
      some (s.session.setStream c st
        { owner := .call r, httpOpen := true, sent := streamTypeProxy :: bs, http := bs,
          tunnel := { inbox := streamTypeProxy :: bs } }, []) := by
    simp [Session.step, hf.stream, Session.Stream.write, TunnelStream.recv]
  refine can_of_stream hf (a := .httpWrite c st bs) rfl rfl hwrite hf.ends fun s₁ h₁ ↦ ?_
  have hread : TunnelStream.step { inbox := streamTypeProxy :: bs } .readMarker =
      some { inbox := bs, task := .connecting } := rfl
  refine can_of_tunnel h₁ hadm hread h₁.ends fun s₂ h₂ ↦ ?_
  have hconnect : TunnelStream.step { inbox := bs, task := .connecting } (.connect true) =
      some { inbox := bs, task := .copying, passed := some [] } := rfl
  refine can_of_tunnel h₂ hadm hconnect h₂.ends fun s₃ h₃ ↦ ?_
  have hcopy : TunnelStream.step { inbox := bs, task := .copying, passed := some [] }
      (.copy bs.length) = some { task := .copying, passed := some bs } := by
    simp [TunnelStream.step]
  refine can_of_tunnel h₃ hadm hcopy h₃.ends fun s₄ h₄ ↦ ?_
  have hback : TunnelStream.step { task := .copying, passed := some bs } (.copyBack rs) =
      some { task := .copying, passed := some bs, back := rs } := rfl
  refine can_of_tunnel h₄ hadm hback (?_ : _ = ⟨rs, []⟩) fun s₅ h₅ ↦ ?_
  · rw [State.onCopyBack, State.setEnds, if_pos ⟨rfl, rfl⟩, h₄.ends]
    rfl
  have hhttp : (machine serde config routes).step s₅ (.httpRead c st rs.length) =
      some ({ s₅ with ends := s₅.setEnds c st ⟨rs, rs⟩ }, []) := by
    simp [machine, step, h₅.stream, h₅.ends, Handshake.nextBytes]
  refine .next (a := .httpRead c st rs.length) rfl hhttp ?_
  have h₆ : Flow { s₅ with ends := s₅.setEnds c st ⟨rs, rs⟩ } c st r p g ⟨req, .sending tg st⟩
      { owner := .call r, httpOpen := true, sent := streamTypeProxy :: bs, http := bs,
        tunnel := { task := .copying, passed := some bs, back := rs } } ⟨rs, rs⟩ :=
    ⟨h₅.peer, h₅.registry, h₅.request, h₅.stream, if_pos ⟨rfl, rfl⟩⟩
  have hsend : Proxy.step serde config s₅.session.server (.send r true) =
      some (s₅.session.server.conclude r ⟨req, .sending tg st⟩ tg .forwarded, []) := by
    simp [Proxy.step, Proxy.Act.req, h₅.request, Proxy.requestStep]
  exact can_of_proxy h₆ rfl hsend rfl (Function.update_self ..) onEvents_nil hcan

end

/-! ## The whole way -/

/-- Request `r` was served by the client at connection `c`, whose session has the name: the local
service has got the bytes `bs`, and the HTTP connection of the request has read the bytes `rs` from
it. -/
structure Served (config : ServerConfig) (t : State) (c : ConnId) (r : Proxy.ReqId)
    (i : Handshake.Identity) (req : HttpRequest) (bs rs : Bytes) : Prop where
  client : ∃ p, t.peers c = some p ∧ p.identity = i ∧
    p.phase = .answered (.ok (.authRes (Control.successRes config i.authReq)))
  slot : ∃ n, t.session.server.control.registry.get i.clientId = some ⟨i.clientId, n, c, true⟩
  stream : ∃ st x, t.session.streams c st = some x ∧ x.owner = .call r ∧ x.http = bs ∧
    x.tunnel.passed = some bs ∧ t.ends c st = ⟨rs, rs⟩
  reply : t.session.server.requests r = some ⟨req, .answered .forwarded⟩

/-- A request for a client whose session is there can be served. -/
theorem can_serve {p : Handshake.Peer} {req : HttpRequest} {clientId path : String}
    {client : ClientEntry} (bs rs : Bytes) (hr : (machine serde config routes).Reach h s)
    (hready : Ready s c p g) (hnone : s.session.server.requests r = none)
    (hproxy : serveHttp req config.domain = .proxy)
    (hroute : extractRouting req config.domain = some (clientId, path))
    (hget : g.get clientId = some client)
    (hhandle : client.handle = c) (hsup : client.supportsHeartbeat = true) :
    (machine serde config routes).Can (Act.About c r) (fun t ↦ t.peers c = some p ∧
      t.session.server.control.registry = g ∧
      (∃ st x, t.session.streams c st = some x ∧ x.owner = .call r ∧ x.http = bs ∧
        x.tunnel.passed = some bs ∧ t.ends c st = ⟨rs, rs⟩) ∧
      t.session.server.requests r = some ⟨req, .answered .forwarded⟩) s := by
  refine can_of_lookup hr hready hnone hproxy hroute hget fun h₁ s₁ hr₁ hready₁ hq₁ ↦ ?_
  refine can_of_open hr₁ hready₁ hq₁ hhandle fun h₂ s₂ st hr₂ ho hres ↦ ?_
  refine can_of_forward (flow_of_opening hr₂ ho rfl hres) hres hhandle hsup fun s₃ hf ↦ ?_
  refine can_of_exchange bs rs hf hready.admitted fun s₄ hf ↦
    .here ⟨hf.peer, hf.registry, ?_, hf.request⟩
  exact ⟨st, _, hf.stream, rfl, rfl, rfl, hf.ends⟩

/-- Whom `serve_http` and `extract_routing` take a host for that names a client. -/
theorem routed_of_host {req : HttpRequest} {host clientId domain : String}
    (hhost : req.host = some host) (hname : hostNoPort host = clientId ++ "." ++ domain)
    (hne : clientId ≠ "") (hdash : clientId ≠ "dashboard") :
    serveHttp req domain = .proxy ∧ extractRouting req domain = some (clientId, req.path) := by
  refine ⟨?_, extractRouting_eq_some.mpr ⟨⟨host, hhost, hname⟩, hne, rfl⟩⟩
  rw [serveHttp, hhost, Option.getD_some, hname, if_neg]
  exact fun heq ↦ hdash (eq_dashboard_of_append heq.symm)

/-- **A tunnel can always be brought to work.** A client that dials can come to serve a request for
its host, with any bytes in both directions. -/
theorem can_be_served (serde : SerdeJson) (config : ServerConfig) (routes : RouteFiles)
    (hserde : serde.Lawful) (h : List Proxy.Event) (s : State)
    (hr : (machine serde config routes).Reach h s) (c : ConnId) (i : Handshake.Identity)
    (hc : s.session.server.control.conns c = none) (hp : s.peers c = none)
    (hvalid : config.validateToken i.token = true) (hres : i.clientId ∉ reservedSubdomains)
    (hreq : Message.Fits serde (.authReq i.authReq))
    (hans : Message.Fits serde (.authRes (Control.successRes config i.authReq)))
    (r : Proxy.ReqId) (hnone : s.session.server.requests r = none) (req : HttpRequest)
    (host : String) (hhost : req.host = some host)
    (hname : hostNoPort host = i.clientId ++ "." ++ config.domain) (hne : i.clientId ≠ "")
    (bs rs : Bytes) : (machine serde config routes).Can (Act.About c r)
      (fun t ↦ Served config t c r i req bs rs) s := by
  have hdash : i.clientId ≠ "dashboard" := by
    intro heq
    exact hres (heq ▸ by decide)
  obtain ⟨hproxy, hroute⟩ := routed_of_host hhost hname hne hdash
  have hdial : (Handshake.machine serde config routes).Can (Handshake.Act.Own c)
      (fun t ↦ Handshake.TakenOver config s.handshake t c i) s.handshake :=
    Handshake.can_of_dial hserde hc hp hvalid hres hreq hans
      fun t p conn n hstands hid hphase htask hdriver ↦
        Handshake.can_of_insert hstands hid hphase htask hdriver
          fun e ↦ Handshake.handle_ne (handshake_reach hr) hc
  refine (can_of_handshake hdial hr hnone).and_then fun t ht ↦ ?_
  obtain ⟨htaken, ⟨h', hr'⟩, hnone'⟩ := ht
  obtain ⟨p, hp', hid, hphase⟩ := htaken.client
  obtain ⟨conn, n, d, hget, hconn, -, hd, hrun, -⟩ := htaken.session
  have hadm : p.phase.admitted = true := by rw [hphase]; rfl
  refine (can_serve bs rs hr' ⟨hp', rfl, hadm, conn, d, hconn, hd, hrun⟩ hnone' hproxy hroute hget
    rfl rfl).mono fun u hu ↦ ?_
  obtain ⟨hpeer, hreg, hstream, hreply⟩ := hu
  exact ⟨⟨p, hpeer, hid, hphase⟩, ⟨n, hreg ▸ hget⟩, hstream, hreply⟩

/-- A session has a name and serves a request, and its client dials once more. -/
theorem can_be_served_app : ∃ h s,
    (machine compactSerde Control.sampleConfig fun _ ↦ none).run
      (machine compactSerde Control.sampleConfig fun _ ↦ none).init tunnelSegments = some (s, h) ∧
    (s.session.server.control.registry.get "app").any (fun e ↦ decide (e.handle = 0)) = true ∧
    (machine compactSerde Control.sampleConfig fun _ ↦ none).Can (Act.About 2 1)
      (fun t ↦ Served Control.sampleConfig t 2 1 ⟨"app", "t"⟩ (Proxy.hostRequest Proxy.appHost)
        [71, 69] [50, 48]) s := by
  have hrun : ((machine compactSerde Control.sampleConfig fun _ ↦ none).run
      (machine compactSerde Control.sampleConfig fun _ ↦ none).init tunnelSegments).map (fun p ↦
        (p.1.session.server.control.registry.get "app").any (fun e ↦ decide (e.handle = 0)) &&
          (p.1.session.server.control.conns 2).isNone && (p.1.peers 2).isNone &&
          (p.1.session.server.requests 1).isNone) = some true := by
    decide +kernel
  obtain ⟨⟨s, h⟩, hsh, heq⟩ := Option.map_eq_some_iff.mp hrun
  simp only [Bool.and_eq_true, Option.isNone_iff_eq_none] at heq
  obtain ⟨⟨⟨hget, hc⟩, hp⟩, hnone⟩ := heq
  have hhost : (Proxy.hostRequest Proxy.appHost).host = some "app.d.io:80" := by decide +kernel
  exact ⟨h, s, hsh, hget, can_be_served _ _ _ compactSerde_lawful h s (.of_run hsh) 2 _ hc hp
    (by decide) (by decide) ⟨_, rfl, by decide⟩ ⟨_, rfl, by decide⟩ 1 hnone _ _ hhost (by decide)
    (by decide) _ _⟩

end Isolation

end ZoTunnel
