import ZoTunnel.Session.Handshake
import ZoTunnel.Session.Wire

/-!
# Isolation

All of the tunnel at once: the server with its proxy, the clients on their control connections, the
streams in between, and what lies behind both of their ends. A client's tasks run on its streams
from the moment its answer has let it in, so the handshake and the streams do not move
independently. In front of a stream, the HTTP connection of a request writes and reads. Behind it,
the local service gets what is copied to it, and sends.

`isolated` follows a stream from one end to the other. It belongs to one request, whose host names
the client, and the request has no other stream. What the local service of this client gets, the
HTTP connection of this request has written. What this HTTP connection reads, this local service
has sent.
-/

namespace ZoTunnel

namespace Driver

theorem Accounts.answer_unique {h : List Event} {d : Driver} {r : CallId}
    {res res' : Except OpenError StreamId} (hi : Accounts h d) (hmem : .answered r res ∈ h)
    (hmem' : .answered r res' ∈ h) : res = res' := by
  obtain ⟨l₁, l₂, rfl⟩ := List.append_of_mem hmem
  have hnodup := hi.answered_nodup
  rw [answeredCalls_append, show answeredCalls (.answered r res :: l₂) = r :: answeredCalls l₂
    from rfl, List.nodup_middle, List.nodup_cons, ← answeredCalls_append, mem_answeredCalls]
    at hnodup
  rcases List.mem_append.mp hmem' with hmem' | hmem'
  · exact absurd ⟨res', List.mem_append_left _ hmem'⟩ hnodup.1
  · rcases List.mem_cons.mp hmem' with heq | hmem'
    · exact ((Event.answered.inj heq).2).symm
    · exact absurd ⟨res', List.mem_append_right _ hmem'⟩ hnodup.1

end Driver

namespace Control

variable {serde : SerdeJson} {config : ServerConfig} {routes : RouteFiles} {h : List Event}
  {s : State} {c : ConnId} {r : CallId} {st st' : StreamId} {o : Driver.Owner}

/-- A connection whose driver has handed out a stream has that driver, and its history. -/
theorem muxing_of_handed (hr : (machine serde config routes).Reach h s)
    (hmem : (st, o) ∈ handedStreams c h) : ∃ conn d, s.conns c = some conn ∧
      conn.driver = some d ∧ Driver.Accounts (driverEvents c h) d := by
  by_cases hd : ∃ conn d, s.conns c = some conn ∧ conn.driver = some d
  · obtain ⟨conn, d, hc, hd⟩ := hd
    obtain ⟨auth, now, -, hdr⟩ := driver_reach hr hc hd
    exact ⟨conn, d, hc, hd, .of_reach hdr⟩
  · have hsilent : driverEvents c h = [] := (Sessions.of_reach hr).silent c fun conn hc ↦
      Option.eq_none_iff_forall_ne_some.mpr fun d hd' ↦ hd ⟨conn, d, hc, hd'⟩
    rw [handedStreams, hsilent] at hmem
    cases hmem

theorem handed_call_unique (hr : (machine serde config routes).Reach h s)
    (hmem : (st, .call r) ∈ handedStreams c h) (hmem' : (st', .call r) ∈ handedStreams c h) :
    st = st' := by
  obtain ⟨conn, d, -, -, hacc⟩ := muxing_of_handed hr hmem
  exact Except.ok.inj (hacc.answer_unique (Driver.mem_handedTo_call.mp hmem)
    (Driver.mem_handedTo_call.mp hmem'))

end Control

namespace TunnelStream

/-- What a step of the client's task writes: what it copies, or the answer of a heartbeat. -/
theorem back_of_step {x y : TunnelStream} {a : Act} (hstep : x.step a = some y) :
    x.task ≠ .answered ∧
      ((∃ bs, a = .copyBack bs ∧ y.task ≠ .answered ∧ y.back = x.back ++ bs) ∨
        (∀ bs, a ≠ .copyBack bs) ∧ (y.task = .answered ∧ y.back = x.back ++ [streamTypeHeartbeat] ∨
          y.task ≠ .answered ∧ y.back = x.back)) := by
  cases a with
  | copyBack bs =>
    simp only [step] at hstep
    split at hstep
    · rename_i htask
      cases hstep
      exact ⟨by simp [htask], .inl ⟨bs, rfl, by simp [htask], rfl⟩⟩
    · cases hstep
  | readMarker =>
    simp only [step] at hstep
    split at hstep
    · rename_i htask _
      cases hstep
      refine ⟨by simp [htask], .inr ⟨by simp, .inr ⟨?_, rfl⟩⟩⟩
      split_ifs <;> simp
    · cases hstep
  | answer ok =>
    simp only [step] at hstep
    split at hstep
    · rename_i htask
      cases ok <;> cases hstep
      · exact ⟨by simp [htask], .inr ⟨by simp, .inr ⟨by simp, rfl⟩⟩⟩
      · exact ⟨by simp [htask], .inr ⟨by simp, .inl ⟨rfl, rfl⟩⟩⟩
    · cases hstep
  | connect ok =>
    simp only [step] at hstep
    split at hstep
    · rename_i htask
      cases ok <;> cases hstep <;>
      · exact ⟨by simp [htask], .inr ⟨by simp, .inr ⟨by simp, rfl⟩⟩⟩
    · cases hstep
  | copy n =>
    simp only [step] at hstep
    split at hstep
    · rename_i htask _
      cases hstep
      exact ⟨by simp [htask], .inr ⟨by simp, .inr ⟨by simp [htask], rfl⟩⟩⟩
    · cases hstep
  | stop =>
    simp only [step] at hstep
    split at hstep
    · rename_i htask
      cases hstep
      exact ⟨by simp [htask], .inr ⟨by simp, .inr ⟨by simp, rfl⟩⟩⟩
    · rename_i htask
      cases hstep
      exact ⟨by simp [htask], .inr ⟨by simp, .inr ⟨by simp, rfl⟩⟩⟩
    · cases hstep

end TunnelStream

namespace Proxy

variable {serde : SerdeJson} {config : ServerConfig} {routes : RouteFiles} {h : List Event}
  {s : State} {r : ReqId} {c : ConnId} {st : StreamId}

/-- A request gets streams from the session that it has contacted only. -/
theorem contacted_of_handed (hr : (machine serde config routes).Reach h s)
    (hmem : (st, .call r) ∈ Control.handedStreams c (controlEvents h)) : .contacted r c ∈ h := by
  obtain ⟨conn, d, hc, hd, hacc⟩ := Control.muxing_of_handed (control_reach hr) hmem
  refine (Delivery.of_reach hr).calls c conn d r hc hd fun hnone ↦ ?_
  rcases hacc.answered r _ (Driver.mem_handedTo_call.mp hmem) with hcall | hcall <;>
  · rw [hnone] at hcall
    cases hcall

/-- The host of a request names the client that has asked for the session it contacts. -/
theorem host_of_contacted (hr : (machine serde config routes).Reach h s)
    (hmem : .contacted r c ∈ h) {conn : Control.Conn} {auth : AuthReq}
    (hc : s.control.conns c = some conn) (hf : Control.FirstFrame serde conn auth) :
    ∃ req host, .arrived r req ∈ h ∧ req.host = some host ∧
      hostNoPort host = auth.clientId ++ "." ++ config.domain := by
  obtain ⟨h₁, h₂, rfl⟩ := List.append_of_mem hmem
  obtain ⟨req, clientId, path, client, harr, -, hroute, hlook, rfl⟩ := lookedUp_of_contacted hr
  obtain ⟨⟨host, hhost, hname⟩, -, -⟩ := extractRouting_eq_some.mp hroute
  have hswapped := (registered_of_lookedUp hr (List.mem_append_left _ hlook)).2
  obtain ⟨conn', auth', hc', hf', hid⟩ :=
    Control.firstFrame_of_swapped (control_reach hr) (mem_controlEvents.mpr hswapped)
  obtain rfl := Option.some.inj (hc.symm.trans hc')
  refine ⟨req, host, List.mem_append_left _ harr, hhost, ?_⟩
  rw [hname, hf.unique hf', hid]

end Proxy

namespace Isolation

/-- What lies behind the two ends of a stream. -/
structure Ends where
  served : Bytes := []
  read : Bytes := []
  deriving DecidableEq

/-- The server, the clients, and the streams from end to end. -/
structure State where
  session : Session.State
  peers : ConnId → Option Handshake.Peer
  ends : ConnId → StreamId → Ends

inductive Act
  | session (a : Session.Act)
  | client (a : Handshake.Act)
  /-- The HTTP connection reads the next `n` bytes of a stream. -/
  | httpRead (c : ConnId) (st : StreamId) (n : ℕ)

/-- The clients and the control channel that they see. -/
def State.handshake (s : State) : Handshake.State := ⟨s.session.server.control, s.peers⟩

def State.setEnds (s : State) (c : ConnId) (st : StreamId) (e : Ends) :
    ConnId → StreamId → Ends :=
  fun c' st' ↦ if c' = c ∧ st' = st then e else s.ends c' st'

/-- What a client writes on its control connection, the bytes of this client are. Its tasks run on
streams once it is let in. -/
def allowed (s : State) : Session.Act → Bool
  | .server (.control (.recv c _)) => (s.peers c).isNone
  | .tunnel c _ _ => (s.peers c).all fun p ↦ p.phase.admitted
  | _ => true

/-- What the local service has sent after a step. -/
def State.onCopyBack (s : State) : Session.Act → ConnId → StreamId → Ends
  | .tunnel c st (.copyBack bs) =>
    s.setEnds c st { s.ends c st with served := (s.ends c st).served ++ bs }
  | _ => s.ends

variable (serde : SerdeJson) (config : ServerConfig)

/-- A step of the server or on one of its streams. -/
def sessionStep (s : State) (a : Session.Act) : Option (State × List Proxy.Event) :=
  match Session.step serde config s.session a with
  | none => none
  | some (session, es) => some ({ s with session, ends := s.onCopyBack a }, es)

/-- A step of a client. -/
def clientStep (s : State) (a : Handshake.Act) : Option (State × List Proxy.Event) :=
  match a with
  | .server _ => none
  | .deliver c n =>
    match s.peers c, s.session.server.control.conns c with
    | some p, some conn =>
      sessionStep serde config s
        (.server (.control (.recv c (Handshake.nextBytes p.wrote conn.inbound n))))
    | _, _ => none
  | a =>
    match Handshake.step serde config s.handshake a with
    | none => none
    | some (t, _) => some ({ s with peers := t.peers }, [])

def step (s : State) : Act → Option (State × List Proxy.Event)
  | .session a => if allowed s a then sessionStep serde config s a else none
  | .client a => clientStep serde config s a
  | .httpRead c st n =>
    match s.session.streams c st with
    | none => none
    | some x =>
      if x.httpOpen then
        let e := s.ends c st
        let read := e.read ++ Handshake.nextBytes x.tunnel.back e.read n
        some ({ s with ends := s.setEnds c st { e with read } }, [])
      else none

/-- All of the tunnel as a machine. The events are those of the server. -/
def machine (routes : RouteFiles) : Machine State Act Proxy.Event where
  init := ⟨(Session.machine serde config routes).init, fun _ ↦ none, fun _ _ ↦ {}⟩
  step := step serde config

/-! ## What a step can do -/

inductive Transition (s : State) : State → List Proxy.Event → Prop
  | session {a : Session.Act} {session : Session.State} {es : List Proxy.Event}
      (hallowed : allowed s a = true)
      (hstep : Session.step serde config s.session a = some (session, es)) :
      Transition s { s with session, ends := s.onCopyBack a } es
  | deliver {c : ConnId} {p : Handshake.Peer} {conn : Control.Conn} {n : ℕ}
      {session : Session.State} {es : List Proxy.Event} (hp : s.peers c = some p)
      (hc : s.session.server.control.conns c = some conn)
      (hstep : Session.step serde config s.session
        (.server (.control (.recv c (Handshake.nextBytes p.wrote conn.inbound n)))) =
          some (session, es)) : Transition s { s with session } es
  | client {a : Handshake.Act} {t : Handshake.State}
      (hstep : Handshake.step serde config s.handshake a = some (t, []))
      (hserver : t.server = s.session.server.control) : Transition s { s with peers := t.peers } []
  | httpRead {c : ConnId} {st : StreamId} {x : Session.Stream} {n : ℕ}
      (hx : s.session.streams c st = some x) (hopen : x.httpOpen = true) :
      Transition s { s with ends := s.setEnds c st { s.ends c st with
        read := (s.ends c st).read ++ Handshake.nextBytes x.tunnel.back (s.ends c st).read n } } []

variable {serde config} {routes : RouteFiles} {h : List Proxy.Event} {s t : State} {a : Act}
  {es : List Proxy.Event} {c : ConnId} {st : StreamId} {x : Session.Stream}

private theorem sessionStep_eq_some {b : Session.Act}
    (hstep : sessionStep serde config s b = some (t, es)) :
    ∃ session, Session.step serde config s.session b = some (session, es) ∧
      t = { s with session, ends := s.onCopyBack b } := by
  rw [sessionStep] at hstep
  split at hstep
  · cases hstep
  · rename_i session es' hs
    obtain ⟨rfl, rfl⟩ := Prod.mk.inj (Option.some.inj hstep)
    exact ⟨session, hs, rfl⟩

/-- But for what it hears of them, the server has no part in the steps of the clients. -/
theorem server_of_client {s t : Handshake.State} {a : Handshake.Act} {es : List Control.Event}
    (hstep : Handshake.step serde config s a = some (t, es)) (hserver : ∀ b, a ≠ .server b)
    (hdeliver : ∀ c n, a ≠ .deliver c n) : t.server = s.server ∧ es = [] := by
  cases a with
  | server b => exact absurd rfl (hserver b)
  | deliver c n => exact absurd rfl (hdeliver c n)
  | connect c identity =>
    simp only [Handshake.step] at hstep
    split at hstep
    · obtain ⟨rfl, rfl⟩ := Prod.mk.inj (Option.some.inj hstep)
      exact ⟨rfl, rfl⟩
    · cases hstep
  | _ =>
    simp only [Handshake.step] at hstep
    split at hstep
    · cases hstep
    · simp only [Handshake.peerStep] at hstep
      repeat' split at hstep
      all_goals cases hstep
      all_goals exact ⟨rfl, rfl⟩

private theorem clientStep_transition {b : Handshake.Act}
    (hstep : clientStep serde config s b = some (t, es)) : Transition serde config s t es := by
  cases b with
  | server => cases hstep
  | deliver c n =>
    simp only [clientStep] at hstep
    split at hstep
    · rename_i p conn hp hc
      obtain ⟨session, hs, rfl⟩ := sessionStep_eq_some hstep
      exact .deliver hp hc hs
    · cases hstep
  | _ =>
    simp only [clientStep] at hstep
    split at hstep
    · cases hstep
    · rename_i t' es' hs
      obtain ⟨rfl, rfl⟩ := Prod.mk.inj (Option.some.inj hstep)
      obtain ⟨hserver, rfl⟩ := server_of_client hs (fun b ↦ by simp) fun c n ↦ by simp
      exact .client hs hserver

/-- **Inversion.** Every step is one of the transitions. -/
theorem step_transition (hstep : step serde config s a = some (t, es)) :
    Transition serde config s t es := by
  cases a with
  | session b =>
    simp only [step] at hstep
    split at hstep
    · rename_i hallowed
      obtain ⟨session, hs, rfl⟩ := sessionStep_eq_some hstep
      exact .session hallowed hs
    · cases hstep
  | client b => exact clientStep_transition hstep
  | httpRead c st n =>
    simp only [step] at hstep
    split at hstep
    · cases hstep
    · rename_i x hx
      split at hstep
      · rename_i hopen
        obtain ⟨rfl, rfl⟩ := Prod.mk.inj (Option.some.inj hstep)
        exact .httpRead hx hopen
      · cases hstep

/-! ## The parts of the tunnel -/

/-- **Projection.** Without the clients, a run is one of the server and its streams. -/
theorem session_reach (hr : (machine serde config routes).Reach h s) :
    (Session.machine serde config routes).Reach h s.session := by
  have hst := Machine.Steps.project (N := Session.machine serde config routes) State.session
    (fun e ↦ [e]) (fun s a t es hstep ↦ ?_) hr
  · rwa [List.flatMap_singleton'] at hst
  · rw [List.flatMap_singleton']
    cases step_transition hstep with
    | session _ hs => exact .single hs
    | deliver _ _ hs =>
      have hs : (Session.machine serde config routes).step _ (.server (.control (.recv _ _))) =
        some _ := hs
      exact .single hs
    | client | httpRead => exact .refl _

theorem proxy_reach (hr : (machine serde config routes).Reach h s) :
    (Proxy.machine serde config routes).Reach h s.session.server :=
  Session.server_reach (session_reach hr)

/-- What the server does, it does in the eyes of the clients. -/
private theorem handshake_of_server {u v : Proxy.State} {b : Proxy.Act}
    {peers : ConnId → Option Handshake.Peer} (hstep : Proxy.step serde config u b = some (v, es))
    (hrecv : ∀ c bs, b = .control (.recv c bs) → peers c = none) :
    (Handshake.machine serde config routes).Steps ⟨u.control, peers⟩ (Proxy.controlEvents es)
      ⟨v.control, peers⟩ := by
  have hsingle : ∀ {b' : Control.Act} {control : Control.State} {es' : List Control.Event},
      Control.step serde config u.control b' = some (control, es') →
      (∀ c bs, b' = .recv c bs → peers c = none) →
      (Handshake.machine serde config routes).Steps ⟨u.control, peers⟩
        (Proxy.controlEvents (es'.map .control)) ⟨control, peers⟩ := by
    intro b' control es' hs hb
    rw [Proxy.controlEvents_map]
    refine .single (a := .server b') ?_
    cases b' with
    | recv c bs => simp [Handshake.machine, Handshake.step, Handshake.serverStep, hs, hb c bs rfl]
    | _ => simp [Handshake.machine, Handshake.step, Handshake.serverStep, hs]
  cases Proxy.step_transition hstep with
  | control _ hs => exact hsingle hs fun c bs heq ↦ hrecv c bs (heq ▸ rfl)
  | openStream _ _ hs | dropCall _ _ hs => exact hsingle hs fun c bs heq ↦ by cases heq
  | toDashboard | toProxy | found | gotStream | marked | handshaken => exact .refl _
  | move _ hcontrol =>
    rw [← hcontrol]
    exact .refl _

/-- What a step of the control channel does to the server and its streams. -/
private theorem control_of_session {u v : Session.State} {b : Control.Act}
    (hstep : Session.step serde config u (.server (.control b)) = some (v, es)) :
    ∃ control es', Control.step serde config u.server.control b = some (control, es') ∧
      v.server = { u.server with control } ∧ es = es'.map .control := by
  cases Session.step_transition hstep with
  | server hs =>
    simp only [Proxy.step] at hs
    split at hs
    · split at hs
      · cases hs
      · rename_i control es' hb
        obtain ⟨rfl, rfl⟩ := Prod.mk.inj (Option.some.inj hs)
        exact ⟨control, es', hb, rfl, rfl⟩
    · cases hs

/-- **Projection.** On the control connections, a run is one of the clients and the control
channel. -/
theorem handshake_reach (hr : (machine serde config routes).Reach h s) :
    (Handshake.machine serde config routes).Reach (Proxy.controlEvents h) s.handshake := by
  refine Machine.Steps.project State.handshake _ (fun s a t es hstep ↦ ?_) hr
  cases step_transition hstep with
  | session hallowed hs =>
    cases Session.step_transition hs with
    | server hs' =>
      refine handshake_of_server hs' fun c bs hb ↦ ?_
      subst hb
      exact Option.isNone_iff_eq_none.mp hallowed
    | httpWrite | probeWrite | tunnel => exact .refl _
  | @deliver c p conn n session es hp hc hs =>
    obtain ⟨control, es', hs', hserver, rfl⟩ := control_of_session hs
    have hevents : Proxy.controlEvents (es'.map .control) = es' := Proxy.controlEvents_map es'
    rw [Proxy.controlEvents] at hevents
    rw [hevents]
    refine .single (a := .deliver c n) ?_
    simp [Handshake.machine, Handshake.step, Handshake.peerStep, Handshake.serverStep, hs',
      Handshake.Act.conn, State.handshake, hp, hc, hserver]
  | client hs hserver =>
    refine Eq.subst (motive := fun t ↦ Machine.Steps _ _ _ t) ?_ (.single hs)
    rw [State.handshake, ← hserver]
  | httpRead => exact .refl _

/-! ## What a step does to a stream -/

/-- How a step of the server, on its streams or at the client's end of one changes a stream. -/
inductive StreamMove (a : Session.Act) (c : ConnId) (st : StreamId) (x y : Session.Stream) : Prop
  | quiet (ha : ∀ b, a ≠ .tunnel c st b) (howner : y.owner = x.owner)
      (hback : y.tunnel.back = x.tunnel.back) (htask : y.tunnel.task = x.tunnel.task)
      (hopen : y.httpOpen = false → x.httpOpen = false)
  | tunnel {b : TunnelStream.Act} {tunnel : TunnelStream} (ha : a = .tunnel c st b)
      (hstep : x.tunnel.step b = some tunnel) (hy : y = { x with tunnel })

/-- The streams of connections that there are not have not come into being. -/
theorem conn_of_stream (hr : (Session.machine serde config routes).Reach h s.session)
    (hx : s.session.streams c st = some x) : s.session.server.control.conns c ≠ none := by
  obtain ⟨b, ⟨conn, auth, hc, -⟩, -⟩ := ((Session.Streams.of_reach hr).stream c st x hx).written
  rw [hc]
  exact Option.some_ne_none conn

/-- A stream after a step was there before, or has just been handed out. -/
theorem stream_of_step {u v : Session.State} {b : Session.Act} {y : Session.Stream}
    (hr : (Session.machine serde config routes).Reach h u)
    (hstep : Session.step serde config u b = some (v, es)) (hy : v.streams c st = some y) :
    ((∀ b', b ≠ .tunnel c st b') ∧ u.streams c st = none ∧ ∃ owner, y = { owner }) ∨
    ∃ x, u.streams c st = some x ∧ StreamMove b c st x y := by
  have hset : ∀ {c' : ConnId} {st' : StreamId} {x' y' : Session.Stream},
      u.streams c' st' = some x' → (u.setStream c' st' y').streams c st = some y →
      (∀ b', b = .tunnel c st b' → c = c' ∧ st = st') → StreamMove b c' st' x' y' →
      ∃ x, u.streams c st = some x ∧ StreamMove b c st x y := by
    intro c' st' x' y' hx' hy' hb hm
    rw [Session.setStream_streams] at hy'
    split at hy'
    · rename_i heq
      obtain ⟨rfl, rfl⟩ := heq
      exact ⟨x', hx', Option.some.inj hy' ▸ hm⟩
    · rename_i hne
      exact ⟨y, hy', .quiet (fun b' heq ↦ hne (hb b' heq)) rfl rfl rfl id⟩
  cases Session.step_transition hstep with
  | @server b' w _ hs =>
    have hne : ∀ b'', Session.Act.server b' ≠ .tunnel c st b'' := fun b'' ↦ by simp
    cases hx : u.streams c st with
    | none =>
      refine .inl ⟨hne, rfl, ?_⟩
      replace hy : Session.onEvents es c st (u.streams c st) = some y := hy
      rw [hx, Session.onEvents] at hy
      split at hy
      · rename_i owner _
        exact ⟨owner, (Option.some.inj hy).symm⟩
      · cases hy
    | some x =>
      -- A driver does not hand out a stream that is there.
      have hopened : Session.opened es c st = none := by
        refine Session.opened_eq_none.mpr fun owner hmem ↦ ?_
        have hr' := Proxy.control_reach ((Session.server_reach hr).step hs)
        have hnodup := Control.handed_nodup hr' c
        rw [Proxy.controlEvents_append, Control.handedStreams_append, List.map_append] at hnodup
        have hold : st ∈ (Control.handedStreams c (Proxy.controlEvents h)).map Prod.fst :=
          List.mem_map_of_mem ((Session.Streams.of_reach hr).handed c st x hx)
        have hnew : st ∈ (Control.handedStreams c (Proxy.controlEvents es)).map Prod.fst :=
          List.mem_map_of_mem hmem
        exact List.disjoint_of_nodup_append hnodup hold hnew
      obtain ⟨y', hy', hm⟩ := Session.onEvents_some (x := x) hopened
      replace hy : Session.onEvents es c st (u.streams c st) = some y := hy
      rw [hx, hy', Option.some.injEq] at hy
      subst hy
      refine .inr ⟨x, rfl, ?_⟩
      cases hm with
      | same _ _ heq => exact heq ▸ .quiet hne rfl rfl rfl id
      | marked _ heq => exact heq ▸ .quiet hne rfl rfl rfl id
      | handshaken _ heq => exact heq ▸ .quiet hne rfl rfl rfl fun hopen ↦ by cases hopen
  | httpWrite hx | probeWrite hx =>
    exact .inr (hset hx hy (fun b' heq ↦ by cases heq) (.quiet (fun b' ↦ by simp) rfl rfl rfl id))
  | tunnel hx hs =>
    exact .inr (hset hx hy (fun b' heq ↦ by cases heq; exact ⟨rfl, rfl⟩) (.tunnel rfl hs rfl))

/-- A stream that is not there after a step was not there before. -/
theorem no_stream_of_step {u v : Session.State} {b : Session.Act}
    (hstep : Session.step serde config u b = some (v, es)) (hy : v.streams c st = none) :
    (∀ b', b ≠ .tunnel c st b') ∧ u.streams c st = none := by
  have hset : ∀ {c' : ConnId} {st' : StreamId} {y : Session.Stream},
      (u.setStream c' st' y).streams c st = none → ¬(c = c' ∧ st = st') ∧
        u.streams c st = none := by
    intro c' st' y hy
    rw [Session.setStream_streams] at hy
    split at hy
    · cases hy
    · rename_i hne
      exact ⟨hne, hy⟩
  cases Session.step_transition hstep with
  | server =>
    refine ⟨fun b' ↦ by simp, ?_⟩
    replace hy : Session.onEvents es c st (u.streams c st) = none := hy
    rw [Session.onEvents] at hy
    split at hy
    · cases hy
    · exact Option.map_eq_none_iff.mp hy
  | httpWrite | probeWrite => exact ⟨fun b' ↦ by simp, (hset hy).2⟩
  | tunnel =>
    refine ⟨fun b' heq ↦ (hset hy).1 ?_, (hset hy).2⟩
    cases heq
    exact ⟨rfl, rfl⟩

/-! ## The invariant -/

/-- What a stream has to do with what is behind its ends, and with its client. -/
structure StreamTied (peer : Option Handshake.Peer) (e : Ends) (x : Session.Stream) : Prop where
  /-- What the client has written is what its local service has sent, unless it has answered a
  heartbeat. -/
  served : x.tunnel.back =
    e.served ++ if x.tunnel.task = .answered then [streamTypeHeartbeat] else []
  read : e.read <+: x.tunnel.back
  closed : x.httpOpen = false → e.read = []
  /-- The client's task runs for a client that was let in only. -/
  admitted : x.tunnel.task ≠ .awaiting → ∀ p, peer = some p → p.phase.admitted = true

/-- The streams of all sessions. -/
structure Tied (s : State) : Prop where
  stream : ∀ c st x, s.session.streams c st = some x → StreamTied (s.peers c) (s.ends c st) x
  fresh : ∀ c st, s.session.streams c st = none → s.ends c st = {}

theorem onCopyBack_of_ne {b : Session.Act} (hb : ∀ b', b ≠ .tunnel c st b') :
    s.onCopyBack b c st = s.ends c st := by
  cases b with
  | tunnel c' st' b' =>
    cases b' with
    | copyBack bs =>
      refine if_neg ?_
      rintro ⟨rfl, rfl⟩
      exact hb _ rfl
    | _ => rfl
  | _ => rfl

theorem admitted_of_move {u : Handshake.State} {p p' : Handshake.Peer}
    (hm : Handshake.PeerMove serde u c p p') (hp : p.phase.admitted = true) :
    p'.phase.admitted = true := by
  cases hm with
  | wrote hphase | unsent hphase | read hphase | lost hphase =>
    rw [hphase] at hp
    cases hp
  | clientMux | serverMux | arrive => exact hp

theorem read_onCopyBack (s : State) (b : Session.Act) (c : ConnId) (st : StreamId) :
    (s.onCopyBack b c st).read = (s.ends c st).read := by
  cases b with
  | tunnel c' st' b' =>
    cases b' with
    | copyBack bs =>
      rw [State.onCopyBack, State.setEnds]
      split
      · rename_i heq
        rw [heq.1, heq.2]
      · rfl
    | _ => rfl
  | _ => rfl

private theorem StreamTied.tunnel {b : TunnelStream.Act} {tunnel : TunnelStream}
    (hi : StreamTied (s.peers c) (s.ends c st) x) (hs : x.tunnel.step b = some tunnel)
    (hp : ∀ p, s.peers c = some p → p.phase.admitted = true) :
    StreamTied (s.peers c) (s.onCopyBack (.tunnel c st b) c st) { x with tunnel } := by
  obtain ⟨htask, hmove⟩ := TunnelStream.back_of_step hs
  have hserved : x.tunnel.back = (s.ends c st).served := by
    rw [hi.served, if_neg htask, List.append_nil]
  have hends : (∀ bs, b ≠ .copyBack bs) → s.onCopyBack (.tunnel c st b) = s.ends := by
    intro hne
    cases b with
    | copyBack bs => exact absurd rfl (hne bs)
    | _ => rfl
  refine ⟨?_, ?_, fun hclosed ↦ ?_, fun _ ↦ hp⟩
  · rcases hmove with ⟨bs, rfl, htask', heq⟩ | ⟨hne, ⟨htask', heq⟩ | ⟨htask', heq⟩⟩
    · have hcopy : s.onCopyBack (.tunnel c st (.copyBack bs)) c st =
          { s.ends c st with served := (s.ends c st).served ++ bs } := if_pos ⟨rfl, rfl⟩
      rw [heq, hserved, hcopy, if_neg htask', List.append_nil]
    · rw [heq, hserved, hends hne, if_pos htask']
    · rw [heq, hserved, hends hne, if_neg htask', List.append_nil]
  · rw [read_onCopyBack]
    refine hi.read.trans ?_
    rcases hmove with ⟨bs, -, -, heq⟩ | ⟨-, ⟨-, heq⟩ | ⟨-, heq⟩⟩ <;> rw [heq]
    · exact List.prefix_append _ _
    · exact List.prefix_append _ _
  · rw [read_onCopyBack]
    exact hi.closed hclosed

/-- A step of the server, on its streams or at the client's end of one. -/
private theorem Tied.session {b : Session.Act} {v : Session.State} (hi : Tied s)
    (hr : (Session.machine serde config routes).Reach h s.session)
    (hs : Session.step serde config s.session b = some (v, es))
    (hp : ∀ c st b' p, b = .tunnel c st b' → s.peers c = some p → p.phase.admitted = true) :
    Tied { s with session := v, ends := s.onCopyBack b } := by
  refine ⟨fun c st y hy ↦ ?_, fun c st hy ↦ ?_⟩
  · change StreamTied (s.peers c) (s.onCopyBack b c st) y
    rcases stream_of_step hr hs hy with ⟨hne, hx, owner, rfl⟩ | ⟨x, hx, hm⟩
    · rw [onCopyBack_of_ne hne, hi.fresh c st hx]
      exact ⟨rfl, List.nil_prefix, fun _ ↦ rfl, fun htask ↦ absurd rfl htask⟩
    · have hx' := hi.stream c st x hx
      cases hm with
      | quiet hne _ hback htask hopen =>
        rw [onCopyBack_of_ne hne]
        refine ⟨?_, hback ▸ hx'.read, fun hclosed ↦ hx'.closed (hopen hclosed),
          fun hawait ↦ hx'.admitted (htask ▸ hawait)⟩
        rw [hback, htask]
        exact hx'.served
      | tunnel hb hstep heq =>
        subst hb heq
        exact hx'.tunnel hstep fun p ↦ hp c st _ p rfl
  · obtain ⟨hne, hx⟩ := no_stream_of_step hs hy
    exact (onCopyBack_of_ne hne).trans (hi.fresh c st hx)

/-- **The step lemma.** -/
theorem Tied.step (hi : Tied s) (hr : (machine serde config routes).Reach h s)
    (hstep : step serde config s a = some (t, es)) : Tied t := by
  have hsession := session_reach hr
  cases step_transition hstep with
  | @session b v _ hallowed hs =>
    refine hi.session hsession hs fun c st b' p hb hp ↦ ?_
    rw [hb, allowed, hp] at hallowed
    exact hallowed
  | deliver _ _ hs => exact hi.session hsession hs fun c st b' p hb ↦ by cases hb
  | @client b u hs hserver =>
    refine ⟨fun c st x hx ↦ ?_, hi.fresh⟩
    have hx' := hi.stream c st x hx
    refine ⟨hx'.served, hx'.read, hx'.closed, fun hawait p' (hp' : u.peers c = some p') ↦ ?_⟩
    have hadm := hx'.admitted hawait
    cases Handshake.step_transition hs with
    | server | deliver => exact hadm p' hp'
    | @connect c₀ identity hc₀ =>
      -- A client that connects has a connection without streams.
      rw [Handshake.setPeer_peers] at hp'
      split at hp'
      · rename_i hcc
        exact absurd (hcc ▸ hc₀) (conn_of_stream hsession hx)
      · exact hadm p' hp'
    | @peer c₀ p₀ p₁ hp₀ hm =>
      rw [Handshake.setPeer_peers] at hp'
      split at hp'
      · rename_i hcc
        rw [← Option.some.inj hp']
        exact admitted_of_move hm (hadm p₀ (hcc ▸ hp₀))
      · exact hadm p' hp'
  | @httpRead c₀ st₀ x₀ n hx₀ hopen =>
    refine ⟨fun c st x hx ↦ ?_, fun c st hx ↦ ?_⟩
    · have hx' := hi.stream c st x hx
      simp only [State.setEnds]
      split
      · rename_i heq
        obtain ⟨rfl, rfl⟩ := heq
        obtain rfl := Option.some.inj (hx₀.symm.trans hx)
        refine ⟨hx'.served, Handshake.prefix_nextBytes hx'.read n, fun hclosed ↦ ?_, hx'.admitted⟩
        rw [hopen] at hclosed
        cases hclosed
      · exact hx'
    · refine (if_neg ?_).trans (hi.fresh c st hx)
      rintro ⟨rfl, rfl⟩
      exact Option.some_ne_none _ (hx₀.symm.trans hx)

theorem Tied.of_reach (hr : (machine serde config routes).Reach h s) : Tied s := by
  refine hr.invariant (P := fun _ s ↦ Tied s) ⟨fun c st x hx ↦ ?_, fun c st _ ↦ rfl⟩ ?_
  · cases hx
  · exact fun h s a t es hr hi hstep ↦ hi.step hr hstep

/-! ## From end to end -/

variable (serde config) in
/-- A stream of the session that a client has asked for by `auth`, from one end to the other. -/
structure Isolated (h : List Proxy.Event) (s : State) (c : ConnId) (st : StreamId)
    (auth : AuthReq) (x : Session.Stream) : Prop where
  token : config.validateToken auth.token = true
  /-- The host of a request names the client that its stream leads to. -/
  request : ∀ r, x.owner = .call r → ∃ req host, .arrived r req ∈ h ∧ req.host = some host ∧
    hostNoPort host = auth.clientId ++ "." ++ config.domain
  /-- The request has no other stream, to this client or to any other. -/
  only : ∀ r c' st' y, x.owner = .call r → s.session.streams c' st' = some y →
    y.owner = .call r → c' = c ∧ st' = st
  /-- What the local service has got, and then what the client has not read, the HTTP connection of
  a request has written. -/
  forward : auth.version ≠ none → ∀ passed, x.tunnel.passed = some passed →
    (∃ r, x.owner = .call r) ∧ passed ++ x.tunnel.inbox = x.http
  /-- What the HTTP connection of the request has read, the local service has sent. -/
  back : auth.version ≠ none → ∀ r, x.owner = .call r → (s.ends c st).read <+: (s.ends c st).served
  /-- A heartbeat reaches no local service and no HTTP connection. -/
  probe : x.owner = .probe → x.tunnel.passed = none ∧ s.ends c st = {}
  /-- The client has asked for this session by its own request, and has said that it is connected
  as the host of these requests before its task runs on the stream. -/
  client : ∀ p, s.peers c = some p → Message.Fits serde (.authReq p.identity.authReq) →
    Message.Fits serde (.authRes (Control.verdict config p.identity.authReq)) →
    auth = p.identity.authReq ∧ (x.tunnel.task ≠ .awaiting → ∀ debug,
      p.phase.attempt.runSessionWithStatus debug =
        (.ok (), [.connected ("https://" ++ (auth.clientId ++ "." ++ config.domain))]))

/-- A client that is let in has said that it is connected. -/
theorem connected_of_admitted (hserde : serde.Lawful) {u : Handshake.State}
    {l : List Control.Event} {p : Handshake.Peer} {debug : Message → String}
    (hr : (Handshake.machine serde config routes).Reach l u) (hp : u.peers c = some p)
    (hreq : Message.Fits serde (.authReq p.identity.authReq))
    (hres : Message.Fits serde (.authRes (Control.verdict config p.identity.authReq)))
    (hvalid : config.validateToken p.identity.authReq.token = true)
    (hadm : p.phase.admitted = true) : p.phase.attempt.runSessionWithStatus debug = (.ok (),
      [.connected ("https://" ++ (p.identity.authReq.clientId ++ "." ++ config.domain))]) := by
  cases hphase : p.phase with
  | answered res =>
    rw [(Handshake.answer_of_reach hserde hr hp hreq hres hphase).1, Handshake.runSession_verdict,
      if_pos hvalid]
  | _ =>
    rw [hphase] at hadm
    cases hadm

theorem closed_of_probe {b httpOpen : Bool} {sent http : Bytes}
    (hw : Session.Written b .probe httpOpen sent http) : httpOpen = false := by
  cases hw <;> rfl

/-- **Nothing gets from one tunnel into another**, on any stream of any session, in every reachable
state. -/
theorem isolated (serde : SerdeJson) (config : ServerConfig) (routes : RouteFiles)
    (hserde : serde.Lawful) (h : List Proxy.Event) (s : State)
    (hr : (machine serde config routes).Reach h s) (c : ConnId) (st : StreamId)
    (x : Session.Stream) (hx : s.session.streams c st = some x) :
    ∃ conn auth, s.session.server.control.conns c = some conn ∧
      Control.FirstFrame serde conn auth ∧ Isolated serde config h s c st auth x := by
  have hsession := session_reach hr
  have hproxy := proxy_reach hr
  have hstreams : Session.Streams serde h s.session := .of_reach hsession
  have hhanded := hstreams.handed c st x hx
  have htied := (Tied.of_reach hr).stream c st x hx
  obtain ⟨conn, d, hc, hd, -⟩ := Control.muxing_of_handed (Proxy.control_reach hproxy) hhanded
  obtain ⟨⟨auth, hfirst, hvalid⟩, -⟩ := Control.passed_of_driver (Proxy.control_reach hproxy) hc
    (hd ▸ Option.some_ne_none d)
  have hsound := (hstreams.stream c st x hx).sound hc hfirst
  refine ⟨conn, auth, hc, hfirst, hvalid, fun r howner ↦ ?_, fun r c' st' y howner hy howner' ↦ ?_,
    fun hv passed hpassed ↦ ?_, fun hv r howner ↦ ?_, fun howner ↦ ?_,
    fun p hp hreq hres ↦ ?_⟩
  · exact Proxy.host_of_contacted hproxy (Proxy.contacted_of_handed hproxy (howner ▸ hhanded)) hc
      hfirst
  · have hhanded' := hstreams.handed c' st' y hy
    rw [howner'] at hhanded'
    rw [howner] at hhanded
    obtain rfl := (Proxy.Delivery.of_reach hproxy).once r c' c
      (Proxy.contacted_of_handed hproxy hhanded') (Proxy.contacted_of_handed hproxy hhanded)
    exact ⟨rfl, Control.handed_call_unique (Proxy.control_reach hproxy) hhanded' hhanded⟩
  · cases howner : x.owner with
    | call r => exact ⟨⟨r, rfl⟩, (hsound.proxied hv r howner).2.2 passed hpassed⟩
    | probe =>
      rw [(hsound.heartbeat hv howner).1] at hpassed
      cases hpassed
  · have hread := htied.read
    rwa [htied.served, if_neg (hsound.proxied hv r howner).2.1, List.append_nil] at hread
  · have hv : auth.version ≠ none := fun hv ↦ (hsound.legacy hv).1 howner
    obtain ⟨hpassed, -, -, hback⟩ := hsound.heartbeat hv howner
    have hserved : (s.ends c st).served = [] := by
      have heq := htied.served
      rcases hback with hback | ⟨htask, hback⟩
      · rw [hback] at heq
        exact (List.append_eq_nil_iff.mp heq.symm).1
      · rw [hback, if_pos htask] at heq
        exact List.self_eq_append_left.mp heq
    obtain ⟨b, -, hw⟩ := (hstreams.stream c st x hx).written
    have hread := htied.closed (closed_of_probe (howner ▸ hw))
    exact ⟨hpassed, congrArg₂ Ends.mk hserved hread⟩
  · have hid : auth = p.identity.authReq :=
      Handshake.authReq_of_firstFrame hserde (handshake_reach hr) hp hreq hc hfirst
    subst hid
    exact ⟨rfl, fun htask debug ↦ connected_of_admitted hserde (handshake_reach hr) hp hreq hres
      hvalid (htied.admitted htask p hp)⟩

/-- Two clients are let in. A request for the first one is copied to its local service, and the
answer is read in part. -/
def tunnelSegments : List Act :=
  (Handshake.handshakeSegments 0 ⟨"app", "t"⟩ ++ Handshake.handshakeSegments 1 ⟨"web", "t"⟩).map
      (fun a ↦ match a with
        | .server b => .session (.server (.control b))
        | a => .client a) ++
    (Control.registerSegments 0 0 ++ Control.registerSegments 1 0).map
      (fun a ↦ .session (.server (.control a))) ++
    [.session (.server (.arrive 0 (Proxy.hostRequest Proxy.appHost))),
      .session (.server (.limit 0 0)), .session (.server (.lookup 0)),
      .session (.server (.openStream 0)), .session (.server (.control (.driver 0 (.send 0)))),
      .session (.server (.control (.driver 0 .recvCmd))),
      .session (.server (.control (.driver 0 .outboundOk))), .session (.server (.opened 0)),
      .session (.server (.mark 0 true)), .session (.server (.handshake 0 true)),
      .session (.httpWrite 0 0 [71, 69]), .session (.tunnel 0 0 .readMarker),
      .session (.tunnel 0 0 (.connect true)), .session (.tunnel 0 0 (.copy 2)),
      .session (.tunnel 0 0 (.copyBack [50, 48])), .httpRead 0 0 1]

theorem isolated_two_clients : ∃ h s x,
    (machine compactSerde Control.sampleConfig fun _ ↦ none).run
      (machine compactSerde Control.sampleConfig fun _ ↦ none).init tunnelSegments = some (s, h) ∧
    s.session.streams 0 0 = some x ∧ x.tunnel.passed = some [71, 69] ∧
    s.ends 0 0 = ⟨[50, 48], [50]⟩ ∧
    ∃ conn auth, s.session.server.control.conns 0 = some conn ∧
      Control.FirstFrame compactSerde conn auth ∧
      Isolated compactSerde Control.sampleConfig h s 0 0 auth x := by
  have hrun : ((machine compactSerde Control.sampleConfig fun _ ↦ none).run
      (machine compactSerde Control.sampleConfig fun _ ↦ none).init tunnelSegments).map (fun p ↦
        ((p.1.session.streams 0 0).map fun x ↦ x.tunnel.passed, p.1.ends 0 0)) =
      some (some (some [71, 69]), ⟨[50, 48], [50]⟩) := by
    decide +kernel
  obtain ⟨⟨s, h⟩, hsh, heq⟩ := Option.map_eq_some_iff.mp hrun
  obtain ⟨hstream, hends⟩ := Prod.mk.inj heq
  obtain ⟨x, hx, hpassed⟩ := Option.map_eq_some_iff.mp hstream
  exact ⟨h, s, x, hsh, hx, hpassed, hends,
    isolated _ _ _ compactSerde_lawful h s (.of_run hsh) 0 0 x hx⟩

end Isolation

end ZoTunnel
