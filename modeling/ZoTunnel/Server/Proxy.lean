import ZoTunnel.Server.Exclusive
import ZoTunnel.Server.Routing

/-!
# The reverse proxy

Public requests, on top of the control channel. Any number of them are served at once, next to
tasks that register, take over and unregister sessions. A request's state says where in
`handle_proxy_request` it stands; its segments end where another task can come in between, and at
every point where it waits its future can be dropped.

The control channel moves as before, with one restriction: streams are only asked for, and calls of
`open_stream` only dropped, by requests. The handle that a request holds is that of the session it
has looked up, whoever has the slot by then.

The counters of `Metrics` that requests move are kept here, those that control connections move are
kept there. The body of a request, the answer of the client and `touch` are left out.
-/

namespace ZoTunnel

/-- Per-client traffic metrics. -/
structure ClientMetrics where
  requests : UInt64 := 0
  activeStreams : UInt64 := 0
  deriving DecidableEq, Repr

namespace Proxy

/-- One public request. It calls `open_stream` at most once, and the call is known by it. -/
abbrev ReqId := CallId

/-- What a request has found out about where it goes. -/
structure Target where
  clientId : String
  path : String
  client : ClientEntry
  deriving DecidableEq, Repr

/-- How a request is answered. -/
inductive Reply
  /-- An error of the proxy's own, with its status and its message. -/
  | error (status : ℕ) (msg : String)
  | forwarded
  | dashboard
  deriving DecidableEq, Repr

/-- Where a request stands. -/
inductive Phase
  | dashboard
  /-- The host names no client; the clients are to be listed. -/
  | unroutable
  | limiting (clientId path : String)
  | looking (clientId path : String)
  | found (t : Target)
  | opening (t : Target)
  | marking (t : Target) (st : StreamId)
  | handshaking (t : Target) (st : StreamId)
  | building (t : Target) (st : StreamId)
  | sending (t : Target) (st : StreamId)
  | answered (reply : Reply)
  | dropped
  deriving DecidableEq, Repr

/-- A request and where it stands. -/
structure Request where
  req : HttpRequest
  phase : Phase
  deriving DecidableEq, Repr

/-- The server. -/
structure State where
  control : Control.State
  metrics : Metrics
  limiter : RateLimiter
  /-- The metrics of the session of a connection. -/
  sessions : ConnId → ClientMetrics
  requests : ReqId → Option Request

inductive Act
  | control (a : Control.Act)
  /-- A request arrives; `serve_http` decides, and `extract_routing` runs. -/
  | arrive (r : ReqId) (req : HttpRequest)
  | dashboardReply (r : ReqId)
  /-- The clients are listed, in some order. -/
  | hint (r : ReqId) (ids : List String)
  | limit (r : ReqId) (now : ℕ)
  | lookup (r : ReqId)
  | openStream (r : ReqId)
  | opened (r : ReqId)
  | mark (r : ReqId) (ok : Bool)
  | handshake (r : ReqId) (ok : Bool)
  /-- `build_forwarded_request` returns; it fails when the URI does not parse. -/
  | build (r : ReqId) (ok : Bool)
  | send (r : ReqId) (ok : Bool)
  | drop (r : ReqId)

inductive Event
  | control (e : Control.Event)
  | arrived (r : ReqId) (req : HttpRequest)
  | toDashboard (r : ReqId)
  /-- The slot of the client held this entry. -/
  | lookedUp (r : ReqId) (clientId : String) (client : ClientEntry)
  | contacted (r : ReqId) (c : ConnId)
  | marked (r : ReqId) (c : ConnId) (st : StreamId)
  /-- From here on the HTTP connection drives the stream, in a task of its own. -/
  | handshaken (r : ReqId) (c : ConnId) (st : StreamId)
  deriving DecidableEq

/-- The events of the control channel. -/
def controlEvents (h : List Event) : List Control.Event :=
  h.flatMap fun | .control e => [e] | _ => []

/-- The steps that the control channel takes by itself. -/
def ownStep : Control.Act → Bool
  | .driver _ (.call _) | .driver _ (.dropCall _) => false
  | _ => true

def start (config : ServerConfig) (routes : RouteFiles) : State where
  control := Control.start routes
  metrics := {}
  limiter := { maxPerSecond := config.rateLimit.requestsPerSecond }
  sessions := fun _ ↦ {}
  requests := fun _ ↦ none

def State.setRequest (s : State) (r : ReqId) (q : Request) : State :=
  { s with requests := Function.update s.requests r (some q) }

/-- Move a request to another phase. -/
def State.setPhase (s : State) (r : ReqId) (q : Request) (phase : Phase) : State :=
  s.setRequest r { q with phase }

/-- A request is counted with its session. -/
def State.track (s : State) (c : ConnId) : State :=
  let m := s.sessions c
  { s with
    sessions := Function.update s.sessions c
      { m with requests := m.requests + 1, activeStreams := m.activeStreams + 1 }
    metrics := { s.metrics with activeConnections := s.metrics.activeConnections + 1 } }

/-- A request is no longer counted as active. -/
def State.untrack (s : State) (c : ConnId) : State :=
  let m := s.sessions c
  { s with
    sessions := Function.update s.sessions c { m with activeStreams := m.activeStreams - 1 }
    metrics := { s.metrics with activeConnections := s.metrics.activeConnections - 1 } }

/-- The answer to a request whose host names no client. -/
def hintReply (domain : String) (ids : List String) : Reply :=
  if ids.isEmpty then .error 503 "No tunnel clients connected"
  else
    let tunnels := ids.map fun id ↦ id ++ "." ++ domain
    .error 404 ("Invalid subdomain. Available tunnels: " ++ ", ".intercalate tunnels)

def limitedReply : Reply := .error 429 "Rate limit exceeded"

def offlineReply (clientId : String) : Reply :=
  .error 502 ("Tunnel '" ++ clientId ++ "' not found or offline")

def connectionReply (clientId : String) : Reply :=
  .error 502 ("Tunnel '" ++ clientId ++ "' connection error")

def handshakeReply : Reply := .error 502 "Tunnel HTTP handshake failed"

def buildReply : Reply := .error 500 "Request forwarding error"

def silentReply (clientId : String) : Reply :=
  .error 502 ("Tunnel '" ++ clientId ++ "' did not respond")

/-- What a call of `open_stream` has come to. -/
def openResult (s : State) (r : ReqId) (c : ConnId) : Option (Except OpenError StreamId) :=
  match s.control.conns c with
  | some conn =>
    match conn.driver with
    | some d =>
      match d.calls r with
      | some (.returned res) => some res
      | _ => none
    | none => none
  | none => none

/-- A request is answered while it is counted as active. -/
def State.conclude (s : State) (r : ReqId) (q : Request) (t : Target) (reply : Reply) : State :=
  (s.untrack t.client.handle).setPhase r q (.answered reply)

variable (serde : SerdeJson) (config : ServerConfig)

/-- Where `handle_proxy_request` goes after `extract_routing`. -/
def onRouting : Option (String × String) → Phase
  | none => .unroutable
  | some (clientId, path) => .limiting clientId path

/-- The decision of `serve_http`, and the first segment of `handle_proxy_request`. -/
def arrive (s : State) (r : ReqId) (req : HttpRequest) : State × List Event :=
  match serveHttp req config.domain with
  | .dashboard => (s.setRequest r ⟨req, .dashboard⟩, [.arrived r req, .toDashboard r])
  | .proxy =>
    let metrics := { s.metrics with totalRequests := s.metrics.totalRequests + 1 }
    let phase := onRouting (extractRouting req config.domain)
    ({ s with metrics }.setRequest r ⟨req, phase⟩, [.arrived r req])

/-- One step of a request that is under way. -/
def requestStep (s : State) (r : ReqId) (q : Request) : Act → Option (State × List Event)
  | .dashboardReply _ =>
    match q.phase with
    | .dashboard => some (s.setPhase r q (.answered .dashboard), [])
    | _ => none
  | .hint _ ids =>
    match q.phase with
    | .unroutable =>
      if ids.Perm s.control.registry.ids then
        some (s.setPhase r q (.answered (hintReply config.domain ids)), [])
      else none
    | _ => none
  | .limit _ now =>
    match q.phase with
    | .limiting clientId path =>
      let (ok, limiter) := s.limiter.check clientId now
      if ok then some ({ s with limiter }.setPhase r q (.looking clientId path), [])
      else
        let metrics := { s.metrics with rateLimited := s.metrics.rateLimited + 1 }
        some ({ s with limiter, metrics }.setPhase r q (.answered limitedReply), [])
    | _ => none
  | .lookup _ =>
    match q.phase with
    | .looking clientId path =>
      match s.control.registry.get clientId with
      | none => some (s.setPhase r q (.answered (offlineReply clientId)), [])
      | some client =>
        some (s.setPhase r q (.found ⟨clientId, path, client⟩), [.lookedUp r clientId client])
    | _ => none
  | .openStream _ =>
    match q.phase with
    | .found t =>
      let c := t.client.handle
      match Control.step serde config s.control (.driver c (.call r)) with
      | none => none
      | some (control, es) =>
        some (({ s with control }.track c).setPhase r q (.opening t),
          .contacted r c :: es.map .control)
    | _ => none
  | .opened _ =>
    match q.phase with
    | .opening t =>
      match openResult s r t.client.handle with
      | none => none
      | some (.error _) => some (s.conclude r q t (connectionReply t.clientId), [])
      | some (.ok st) =>
        if t.client.supportsHeartbeat then some (s.setPhase r q (.marking t st), [])
        else some (s.setPhase r q (.handshaking t st), [])
    | _ => none
  | .mark _ ok =>
    match q.phase with
    | .marking t st =>
      if ok then
        some (s.setPhase r q (.handshaking t st), [.marked r t.client.handle st])
      else some (s.conclude r q t (connectionReply t.clientId), [])
    | _ => none
  | .handshake _ ok =>
    match q.phase with
    | .handshaking t st =>
      if ok then some (s.setPhase r q (.building t st), [.handshaken r t.client.handle st])
      else some (s.conclude r q t handshakeReply, [])
    | _ => none
  | .build _ ok =>
    match q.phase with
    | .building t st =>
      if ok then some (s.setPhase r q (.sending t st), [])
      else some (s.conclude r q t buildReply, [])
    | _ => none
  | .send _ ok =>
    match q.phase with
    | .sending t _ =>
      some (s.conclude r q t (if ok then .forwarded else silentReply t.clientId), [])
    | _ => none
  | .drop _ =>
    match q.phase with
    | .dashboard | .marking .. | .handshaking .. | .sending .. => some (s.setPhase r q .dropped, [])
    | .opening t =>
      match Control.step serde config s.control (.driver t.client.handle (.dropCall r)) with
      -- The reply is there already and nobody takes it.
      | none => some (s.setPhase r q .dropped, [])
      | some (control, es) => some ({ s with control }.setPhase r q .dropped, es.map .control)
    | _ => none
  | _ => none

/-- The request that an action is about. -/
def Act.req : Act → Option ReqId
  | control _ => none
  | arrive r _ | dashboardReply r | hint r _ | limit r _ | lookup r | openStream r | opened r
  | mark r _ | handshake r _ | build r _ | send r _ | drop r => some r

/-- One step of the server. -/
def step (s : State) (a : Act) : Option (State × List Event) :=
  match a with
  | .control b =>
    if ownStep b then
      match Control.step serde config s.control b with
      | none => none
      | some (control, es) => some ({ s with control }, es.map .control)
    else none
  | .arrive r req =>
    match s.requests r with
    | some _ => none
    | none => some (arrive config s r req)
  | a =>
    match a.req with
    | none => none
    | some r =>
      match s.requests r with
      | none => none
      | some q => requestStep serde config s r q a

/-- The server as a machine. -/
def machine (routes : RouteFiles) : Machine State Act Event where
  init := start config routes
  step := step serde config

/-! ## How far a request has come -/

namespace Phase

/-- The client id and the path of a request that is on its way to a client. -/
def route : Phase → Option (String × String)
  | limiting clientId path | looking clientId path => some (clientId, path)
  | found t | opening t | marking t _ | handshaking t _ | building t _ | sending t _ =>
    some (t.clientId, t.path)
  | dashboard | unroutable | answered _ | dropped => none

/-- The client that the request has looked up. -/
def target : Phase → Option Target
  | found t | opening t | marking t _ | handshaking t _ | building t _ | sending t _ => some t
  | dashboard | unroutable | limiting .. | looking .. | answered _ | dropped => none

/-- The request has asked for its stream, or will never do so. -/
def opened : Phase → Bool
  | opening _ | marking .. | handshaking .. | building .. | sending .. | answered _
  | dropped => true
  | dashboard | unroutable | limiting .. | looking .. | found _ => false

/-- The request waits for its stream, or no HTTP connection drives it yet. -/
def early : Phase → Bool
  | opening _ | marking .. | handshaking .. => true
  | dashboard | unroutable | limiting .. | looking .. | found _ | building .. | sending ..
  | answered _ | dropped => false

/-- The request may have written to its stream. -/
def written : Phase → Bool
  | handshaking .. | building .. | sending .. | answered _ | dropped => true
  | dashboard | unroutable | limiting .. | looking .. | found _ | opening _ | marking .. => false

/-- What a phase says still holds in a later one. -/
structure Later (p p' : Phase) : Prop where
  route : ∀ x, p'.route = some x → p.route = some x
  target : ∀ t, p'.target = some t → p.target = some t
  opened : p.opened = true → p'.opened = true
  written : p.written = true → p'.written = true

theorem later_answered (p : Phase) (reply : Reply) : Later p (.answered reply) :=
  ⟨nofun, nofun, fun _ ↦ rfl, fun _ ↦ rfl⟩

theorem later_dropped (p : Phase) : Later p .dropped := ⟨nofun, nofun, fun _ ↦ rfl, fun _ ↦ rfl⟩

theorem later_of_eq {p p' : Phase} (hroute : p'.route = p.route) (htarget : p'.target = p.target)
    (hopened : p'.opened = p.opened) (hwritten : p.written = true → p'.written = true) :
    Later p p' :=
  ⟨fun _ h ↦ hroute ▸ h, fun _ h ↦ htarget ▸ h, fun h ↦ hopened ▸ h, hwritten⟩

end Phase

/-! ## What a step can do

The inversion of `step`, as far as routing and streams go: a request that only moves on leaves the
control channel alone and reports nothing. -/

inductive Transition (s : State) : Act → State → List Event → Prop
  | control {b : Control.Act} {control : Control.State} {es : List Control.Event}
      (hown : ownStep b = true)
      (hstep : Control.step serde config s.control b = some (control, es)) :
      Transition s (.control b) { s with control } (es.map .control)
  | toDashboard {r : ReqId} {req : HttpRequest} (hr : s.requests r = none)
      (hserve : serveHttp req config.domain = .dashboard) :
      Transition s (.arrive r req) (s.setRequest r ⟨req, .dashboard⟩)
        [.arrived r req, .toDashboard r]
  | toProxy {r : ReqId} {req : HttpRequest} {m : Metrics} (hr : s.requests r = none)
      (hserve : serveHttp req config.domain = .proxy) :
      Transition s (.arrive r req)
        ({ s with metrics := m }.setRequest r
          ⟨req, onRouting (extractRouting req config.domain)⟩) [.arrived r req]
  | move {a : Act} {r : ReqId} {q : Request} {s₀ : State} {phase : Phase}
      (hr : s.requests r = some q) (hcontrol : s₀.control = s.control)
      (hrequests : s₀.requests = s.requests) (hlater : q.phase.Later phase)
      (hearly : phase.early = false) : Transition s a (s₀.setPhase r q phase) []
  | found {r : ReqId} {q : Request} {clientId path : String} {client : ClientEntry}
      (hr : s.requests r = some q) (hphase : q.phase = .looking clientId path)
      (hget : s.control.registry.get clientId = some client) :
      Transition s (.lookup r) (s.setPhase r q (.found ⟨clientId, path, client⟩))
        [.lookedUp r clientId client]
  | openStream {r : ReqId} {q : Request} {t : Target} {control : Control.State}
      {es : List Control.Event} (hr : s.requests r = some q) (hphase : q.phase = .found t)
      (hstep : Control.step serde config s.control (.driver t.client.handle (.call r)) =
        some (control, es)) :
      Transition s (.openStream r)
        (({ s with control }.track t.client.handle).setPhase r q (.opening t))
        (.contacted r t.client.handle :: es.map .control)
  | gotStream {r : ReqId} {q : Request} {t : Target} {st : StreamId} {phase : Phase}
      (hr : s.requests r = some q) (hphase : q.phase = .opening t)
      (hres : openResult s r t.client.handle = some (.ok st))
      (hnext : phase = if t.client.supportsHeartbeat then .marking t st else .handshaking t st) :
      Transition s (.opened r) (s.setPhase r q phase) []
  | marked {r : ReqId} {q : Request} {t : Target} {st : StreamId} (hr : s.requests r = some q)
      (hphase : q.phase = .marking t st) :
      Transition s (.mark r true) (s.setPhase r q (.handshaking t st))
        [.marked r t.client.handle st]
  | handshaken {r : ReqId} {q : Request} {t : Target} {st : StreamId} (hr : s.requests r = some q)
      (hphase : q.phase = .handshaking t st) :
      Transition s (.handshake r true) (s.setPhase r q (.building t st))
        [.handshaken r t.client.handle st]
  | dropCall {r : ReqId} {q : Request} {t : Target} {control : Control.State}
      {es : List Control.Event} (hr : s.requests r = some q) (hphase : q.phase = .opening t)
      (hstep : Control.step serde config s.control (.driver t.client.handle (.dropCall r)) =
        some (control, es)) :
      Transition s (.drop r) ({ s with control }.setPhase r q .dropped) (es.map .control)

variable {serde config} {routes : RouteFiles} {h h' : List Event} {s t : State} {a : Act}
  {es : List Event} {r : ReqId} {q : Request}

private theorem requestStep_transition (hr : s.requests r = some q)
    (h : requestStep serde config s r q a = some (t, es)) (ha : a.req = some r) :
    Transition serde config s a t es := by
  cases a with
  | control => cases h
  | arrive => cases h
  | dashboardReply r' =>
    simp only [requestStep] at h
    split at h
    · rw [Option.some.injEq, Prod.mk.injEq] at h
      obtain ⟨rfl, rfl⟩ := h
      exact .move hr rfl rfl (Phase.later_answered ..) rfl
    · cases h
  | hint r' ids =>
    simp only [requestStep] at h
    split at h
    · split at h
      · rw [Option.some.injEq, Prod.mk.injEq] at h
        obtain ⟨rfl, rfl⟩ := h
        exact .move hr rfl rfl (Phase.later_answered ..) rfl
      · cases h
    · cases h
  | limit r' now =>
    simp only [requestStep] at h
    split at h
    · rename_i clientId path hphase
      split at h
      · rw [Option.some.injEq, Prod.mk.injEq] at h
        obtain ⟨rfl, rfl⟩ := h
        exact .move hr rfl rfl (hphase ▸ Phase.later_of_eq rfl rfl rfl nofun) rfl
      · rw [Option.some.injEq, Prod.mk.injEq] at h
        obtain ⟨rfl, rfl⟩ := h
        exact .move hr rfl rfl (Phase.later_answered ..) rfl
    · cases h
  | lookup r' =>
    rw [Act.req, Option.some.injEq] at ha
    subst ha
    simp only [requestStep] at h
    split at h
    · rename_i clientId path hphase
      split at h
      · rw [Option.some.injEq, Prod.mk.injEq] at h
        obtain ⟨rfl, rfl⟩ := h
        exact .move hr rfl rfl (Phase.later_answered ..) rfl
      · rename_i client hget
        rw [Option.some.injEq, Prod.mk.injEq] at h
        obtain ⟨rfl, rfl⟩ := h
        exact .found hr hphase hget
    · cases h
  | openStream r' =>
    rw [Act.req, Option.some.injEq] at ha
    subst ha
    simp only [requestStep] at h
    split at h
    · rename_i tg hphase
      split at h
      · cases h
      · rename_i control es' hstep
        rw [Option.some.injEq, Prod.mk.injEq] at h
        obtain ⟨rfl, rfl⟩ := h
        exact .openStream hr hphase hstep
    · cases h
  | opened r' =>
    rw [Act.req, Option.some.injEq] at ha
    subst ha
    simp only [requestStep] at h
    split at h
    · rename_i tg hphase
      split at h
      · cases h
      · rw [Option.some.injEq, Prod.mk.injEq] at h
        obtain ⟨rfl, rfl⟩ := h
        exact .move hr rfl rfl (Phase.later_answered ..) rfl
      · rename_i st hres
        split at h <;>
        · rename_i hs
          rw [Option.some.injEq, Prod.mk.injEq] at h
          obtain ⟨rfl, rfl⟩ := h
          exact .gotStream hr hphase hres (by simp [hs])
    · cases h
  | mark r' ok =>
    rw [Act.req, Option.some.injEq] at ha
    subst ha
    simp only [requestStep] at h
    split at h
    · rename_i tg st hphase
      split at h
      · rename_i hok
        rw [Option.some.injEq, Prod.mk.injEq] at h
        obtain ⟨rfl, rfl⟩ := h
        exact hok ▸ .marked hr hphase
      · rw [Option.some.injEq, Prod.mk.injEq] at h
        obtain ⟨rfl, rfl⟩ := h
        exact .move hr rfl rfl (Phase.later_answered ..) rfl
    · cases h
  | handshake r' ok =>
    rw [Act.req, Option.some.injEq] at ha
    subst ha
    simp only [requestStep] at h
    split at h
    · rename_i tg st hphase
      split at h
      · rename_i hok
        rw [Option.some.injEq, Prod.mk.injEq] at h
        obtain ⟨rfl, rfl⟩ := h
        exact hok ▸ .handshaken hr hphase
      · rw [Option.some.injEq, Prod.mk.injEq] at h
        obtain ⟨rfl, rfl⟩ := h
        exact .move hr rfl rfl (Phase.later_answered ..) rfl
    · cases h
  | build r' ok =>
    simp only [requestStep] at h
    split at h
    · rename_i hphase
      split at h
      · rw [Option.some.injEq, Prod.mk.injEq] at h
        obtain ⟨rfl, rfl⟩ := h
        exact .move hr rfl rfl (hphase ▸ Phase.later_of_eq rfl rfl rfl fun _ ↦ rfl) rfl
      · rw [Option.some.injEq, Prod.mk.injEq] at h
        obtain ⟨rfl, rfl⟩ := h
        exact .move hr rfl rfl (Phase.later_answered ..) rfl
    · cases h
  | send r' ok =>
    simp only [requestStep] at h
    split at h
    · rw [Option.some.injEq, Prod.mk.injEq] at h
      obtain ⟨rfl, rfl⟩ := h
      exact .move hr rfl rfl (Phase.later_answered ..) rfl
    · cases h
  | drop r' =>
    rw [Act.req, Option.some.injEq] at ha
    subst ha
    simp only [requestStep] at h
    split at h
    · rw [Option.some.injEq, Prod.mk.injEq] at h
      obtain ⟨rfl, rfl⟩ := h
      exact .move hr rfl rfl (Phase.later_dropped _) rfl
    · rw [Option.some.injEq, Prod.mk.injEq] at h
      obtain ⟨rfl, rfl⟩ := h
      exact .move hr rfl rfl (Phase.later_dropped _) rfl
    · rw [Option.some.injEq, Prod.mk.injEq] at h
      obtain ⟨rfl, rfl⟩ := h
      exact .move hr rfl rfl (Phase.later_dropped _) rfl
    · rw [Option.some.injEq, Prod.mk.injEq] at h
      obtain ⟨rfl, rfl⟩ := h
      exact .move hr rfl rfl (Phase.later_dropped _) rfl
    · rename_i tg hphase
      split at h
      · rw [Option.some.injEq, Prod.mk.injEq] at h
        obtain ⟨rfl, rfl⟩ := h
        exact .move hr rfl rfl (Phase.later_dropped _) rfl
      · rename_i control es' hstep
        rw [Option.some.injEq, Prod.mk.injEq] at h
        obtain ⟨rfl, rfl⟩ := h
        exact .dropCall hr hphase hstep
    · cases h

/-- **Inversion.** Every step is one of the transitions. -/
theorem step_transition (h : step serde config s a = some (t, es)) :
    Transition serde config s a t es := by
  cases a with
  | control b =>
    simp only [step] at h
    split at h
    · rename_i hown
      split at h
      · cases h
      · rename_i control es' hstep
        rw [Option.some.injEq, Prod.mk.injEq] at h
        obtain ⟨rfl, rfl⟩ := h
        exact .control hown hstep
    · cases h
  | arrive r req =>
    simp only [step] at h
    split at h
    · cases h
    · rename_i hr
      rw [Option.some.injEq, arrive] at h
      cases hserve : serveHttp req config.domain with
      | dashboard =>
        rw [hserve, Prod.mk.injEq] at h
        obtain ⟨rfl, rfl⟩ := h
        exact .toDashboard hr hserve
      | proxy =>
        rw [hserve, Prod.mk.injEq] at h
        obtain ⟨rfl, rfl⟩ := h
        exact .toProxy hr hserve
  | _ =>
    simp only [step, Act.req] at h
    split at h
    · cases h
    · rename_i hr
      exact requestStep_transition hr h rfl

end Proxy

end ZoTunnel
