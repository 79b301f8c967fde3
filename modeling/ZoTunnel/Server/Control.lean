import ZoTunnel.Protocol.Frame
import ZoTunnel.Server.Metrics
import ZoTunnel.Server.Registry
import ZoTunnel.Server.Traefik

/-!
# The control channel

`accept_clients` spawns one `handle_client` task for each connection, and any number of these tasks
run at once over one registry. Here they form one machine. A task is a state that says where in
`handle_client` it stands, with the variables that are live there; an action moves one task over
one segment that no other task can split, or moves the world: a peer sends bytes, a driver takes a
step of its own.

`register` contributes three segments, as its own parts can be interleaved with other tasks. The map
operation is one segment with the abort of the session it replaces.

All bytes that a peer has sent are kept in `inbound`, and `read_message` is applied to the whole.
What it leaves unread belongs to yamux, whose answers are actions of the driver.
-/

namespace ZoTunnel

namespace Control

/-- How a `handle_client` task came to its end. -/
inductive Outcome
  | timedOut
  | readFailed
  | unexpected
  | writeFailed
  | invalidToken
  | registrationFailed
  | disconnected
  deriving DecidableEq, Repr

/-- Where a `handle_client` task stands. -/
inductive Task
  /-- `read_message` under its timeout. -/
  | reading
  /-- The token is invalid; writing the answer. -/
  | rejecting (auth : AuthReq)
  /-- The answer is written; the failure is not counted yet. -/
  | rejected (auth : AuthReq)
  /-- The token is valid; writing the answer. -/
  | accepting (auth : AuthReq)
  /-- The answer is written; the driver is not spawned yet. -/
  | accepted (auth : AuthReq)
  /-- The driver runs; `register` is called. -/
  | registering (auth : AuthReq)
  /-- The id is not reserved; the session has no number yet. -/
  | checked (auth : AuthReq)
  /-- The session has its number and is not in the map yet. -/
  | numbered (auth : AuthReq) (sessionId : UInt64)
  /-- `register` returned an error; the driver is not aborted yet. -/
  | refused (auth : AuthReq)
  /-- `register` returned the entry; the route is not looked at yet. -/
  | registered (auth : AuthReq) (sessionId : UInt64)
  /-- The route is missing or differs; it is not written yet. -/
  | routing (auth : AuthReq) (sessionId : UInt64)
  | serving (auth : AuthReq) (sessionId : UInt64)
  | leaving (auth : AuthReq) (sessionId : UInt64)
  | done (outcome : Outcome)
  deriving DecidableEq, Repr

/-- A control connection with its task and, once spawned, its driver. -/
structure Conn where
  inbound : Bytes := []
  closed : Bool := false
  outbound : Bytes := []
  task : Task := .reading
  driver : Option Driver := none

/-- The server as its control tasks see it. -/
structure State where
  registry : Registry
  conns : ConnId → Option Conn
  routes : RouteFiles
  metrics : Metrics

inductive Act
  | accept (c : ConnId)
  | recv (c : ConnId) (bs : Bytes)
  | peerClose (c : ConnId)
  | readFrame (c : ConnId)
  | readFail (c : ConnId)
  /-- The ten seconds for the first frame are over. -/
  | authTimeout (c : ConnId)
  /-- `write_message` of the answer returns, with all of it written or nothing to write. -/
  | writeAnswer (c : ConnId)
  | writeFail (c : ConnId) (n : ℕ)
  | countFailed (c : ConnId)
  | spawnDriver (c : ConnId) (now : ℕ)
  | checkId (c : ConnId)
  | fetchSession (c : ConnId)
  | insertEntry (c : ConnId)
  | abortOwn (c : ConnId)
  | readRoute (c : ConnId)
  | writeRoute (c : ConnId) (w : FileWrite)
  /-- A step of the driver, other than a request to abort it. -/
  | driver (c : ConnId) (a : Driver.Act)
  | join (c : ConnId)
  | unregister (c : ConnId)
  deriving DecidableEq

/-- The connection that an action is about. -/
def Act.conn : Act → ConnId
  | accept c | recv c _ | peerClose c | readFrame c | readFail c | authTimeout c | writeAnswer c
  | writeFail c _ | countFailed c | spawnDriver c _ | checkId c | fetchSession c | insertEntry c
  | abortOwn c | readRoute c | writeRoute c _ | driver c _ | join c | unregister c => c

inductive Event
  | answered (c : ConnId) (res : AuthRes)
  /-- `register` took a session number. -/
  | numbered (c : ConnId) (sessionId : UInt64)
  /-- The map operation of `register`: the session now has the slot. -/
  | swapped (c : ConnId) (clientId : String) (sessionId : UInt64)
  | refused (c : ConnId) (clientId : String)
  | aborted (c : ConnId)
  | addClient (c : ConnId) (clientId : String)
  | unregistered (c : ConnId) (clientId : String) (sessionId : UInt64) (removed : Bool)
  | driver (c : ConnId) (e : Driver.Event)
  deriving DecidableEq

/-- The events of the driver of a connection. -/
def driverEvents (c : ConnId) (h : List Event) : List Driver.Event :=
  h.flatMap fun | .driver c' e => if c' = c then [e] else [] | _ => []

/-- The answer to a valid token. -/
def successRes (config : ServerConfig) (auth : AuthReq) : AuthRes where
  success := true
  message := "OK — " ++ auth.clientId ++ "." ++ config.domain
  publicPort := some config.publicPort
  assignedRoute := some auth.clientId

/-- The answer to an invalid token. -/
def failureRes : AuthRes where
  success := false
  message := "Invalid token"
  publicPort := none
  assignedRoute := none

/-- The server at start, with the files that the dynamic directory holds. -/
def start (routes : RouteFiles) : State where
  registry := .new
  conns := fun _ ↦ none
  routes := routes
  metrics := {}

/-- Replace a connection. -/
def State.setConn (s : State) (c : ConnId) (conn : Conn) : State :=
  { s with conns := Function.update s.conns c (some conn) }

/-- The driver is asked to abort; a task that is over does not notice. -/
def Conn.abortDriver (conn : Conn) : Conn :=
  { conn with driver := conn.driver.map fun d ↦ { d with abortRequested := true } }

/-- `handle.abort()` on the handle of a connection. -/
def State.abortDriver (s : State) (c : ConnId) : State :=
  { s with conns := fun c' ↦ if c' = c then (s.conns c').map Conn.abortDriver else s.conns c' }

variable (serde : SerdeJson) (config : ServerConfig)

/-- The Traefik manager that `run` creates. -/
def manager : TraefikManager where
  config := config.traefik
  domain := config.domain

/-- `handle_client` from the result of `read_message` to its answer. -/
def onFirstFrame : Except ProtocolError Message → Task
  | .error _ => .done .readFailed
  | .ok (.authReq auth) =>
    if config.validateToken auth.token then .accepting auth else .rejecting auth
  | .ok _ => .done .unexpected

/-- Whether `read_message` has what it needs to return: the frame, or the end of the input. -/
def canRead (conn : Conn) : Bool :=
  match (readMessage serde conn.inbound).1 with
  | .error e => !e.isTruncated || conn.closed
  | .ok _ => true

/-- The answer that a task is writing, and where it stands once that is done. -/
def answer : Task → Option (AuthRes × Task)
  | .accepting auth => some (successRes config auth, .accepted auth)
  | .rejecting auth => some (failureRes, .rejected auth)
  | _ => none

/-- One step of the task of a connection. -/
def taskStep (s : State) (c : ConnId) (conn : Conn) : Act → Option (State × List Event)
  | .readFrame _ =>
    if conn.task = .reading ∧ canRead serde conn = true then
      let task := onFirstFrame config (readMessage serde conn.inbound).1
      some (s.setConn c { conn with task }, [])
    else none
  | .readFail _ =>
    if conn.task = .reading then some (s.setConn c { conn with task := .done .readFailed }, [])
    else none
  | .authTimeout _ =>
    if conn.task = .reading then some (s.setConn c { conn with task := .done .timedOut }, [])
    else none
  | .writeAnswer _ =>
    match answer config conn.task with
    | none => none
    | some (res, task) =>
      match writeMessage serde (.authRes res) with
      | .error _ => some (s.setConn c { conn with task := .done .writeFailed }, [])
      | .ok frame =>
        some (s.setConn c { conn with outbound := conn.outbound ++ frame, task },
          [.answered c res])
  | .writeFail _ n =>
    match answer config conn.task with
    | none => none
    | some (res, _) =>
      match writeMessage serde (.authRes res) with
      | .error _ => none
      | .ok frame =>
        some (s.setConn c
          { conn with outbound := conn.outbound ++ frame.take n, task := .done .writeFailed }, [])
  | .countFailed _ =>
    match conn.task with
    | .rejected _ =>
      let metrics := { s.metrics with failedAuth := s.metrics.failedAuth + 1 }
      some ({ s with metrics }.setConn c { conn with task := .done .invalidToken }, [])
    | _ => none
  | .spawnDriver _ now =>
    match conn.task with
    | .accepted auth =>
      let driver := Driver.spawn auth.supportsHeartbeat now
      some (s.setConn c { conn with driver := some driver, task := .registering auth }, [])
    | _ => none
  | .checkId _ =>
    match conn.task with
    | .registering auth =>
      match Registry.checkId auth.clientId with
      | .error _ =>
        some (s.setConn c { conn with task := .refused auth }, [.refused c auth.clientId])
      | .ok () => some (s.setConn c { conn with task := .checked auth }, [])
    | _ => none
  | .fetchSession _ =>
    match conn.task with
    | .checked auth =>
      let (sessionId, registry) := s.registry.fetchSession
      some ({ s with registry }.setConn c { conn with task := .numbered auth sessionId },
        [.numbered c sessionId])
    | _ => none
  | .insertEntry _ =>
    match conn.task with
    | .numbered auth sessionId =>
      let entry : ClientEntry :=
        { clientId := auth.clientId, sessionId, handle := c,
          supportsHeartbeat := auth.supportsHeartbeat }
      let (registry, replaced) := s.registry.insertEntry entry
      let s' := { s with registry }.setConn c { conn with task := .registered auth sessionId }
      match replaced with
      | none => some (s', [.swapped c auth.clientId sessionId])
      | some old =>
        some (s'.abortDriver old, [.swapped c auth.clientId sessionId, .aborted old])
    | _ => none
  | .abortOwn _ =>
    match conn.task with
    | .refused _ =>
      some ((s.setConn c { conn with task := .done .registrationFailed }).abortDriver c,
        [.aborted c])
    | _ => none
  | .readRoute _ =>
    match conn.task with
    | .registered auth sessionId =>
      if config.traefik.enabled then
        let task := if (manager config).upToDate s.routes auth.clientId
          then Task.serving auth sessionId else .routing auth sessionId
        some (s.setConn c { conn with task }, [.addClient c auth.clientId])
      else some (s.setConn c { conn with task := .serving auth sessionId }, [])
    | _ => none
  | .writeRoute _ w =>
    match conn.task with
    | .routing auth sessionId =>
      let routes := (manager config).writeRoute s.routes auth.clientId w
      some ({ s with routes }.setConn c { conn with task := .serving auth sessionId }, [])
    | _ => none
  | .join _ =>
    match conn.task, conn.driver with
    | .serving auth sessionId, some d =>
      if d.isClosed then some (s.setConn c { conn with task := .leaving auth sessionId }, [])
      else none
    | _, _ => none
  | .unregister _ =>
    match conn.task with
    | .leaving auth sessionId =>
      let (registry, removed) := s.registry.unregister auth.clientId sessionId
      some ({ s with registry }.setConn c { conn with task := .done .disconnected },
        [.unregistered c auth.clientId sessionId removed])
    | _ => none
  | _ => none

/-- One step of the control channel. -/
def step (s : State) (a : Act) : Option (State × List Event) :=
  match s.conns a.conn with
  | none =>
    match a with
    | .accept c =>
      let metrics := { s.metrics with totalConnections := s.metrics.totalConnections + 1 }
      some ({ s with metrics }.setConn c {}, [])
    | _ => none
  | some conn =>
    match a with
    | .recv c bs =>
      if conn.closed then none
      else some (s.setConn c { conn with inbound := conn.inbound ++ bs }, [])
    | .peerClose c => some (s.setConn c { conn with closed := true }, [])
    | .driver c b =>
      match conn.driver with
      | none => none
      | some d =>
        if b = .abort then none
        else
          match d.step b with
          | none => none
          | some (d', es) =>
            some (s.setConn c { conn with driver := some d' }, es.map (.driver c))
    | a => taskStep serde config s a.conn conn a

/-- The control channel as a machine. -/
def machine (routes : RouteFiles) : Machine State Act Event where
  init := start routes
  step := step serde config

/-! ## What a step can do

The inversion of `step`. Every step replaces the connection it is about; a takeover and a refused
registration then ask for an abort, and `abortDriver` says on which connection. -/

inductive Transition (s : State) : Act → State → List Event → Prop
  | accept {c : ConnId} {m : Metrics} (hc : s.conns c = none) :
      Transition s (.accept c) ({ s with metrics := m }.setConn c {}) []
  | recv {c : ConnId} {conn : Conn} {bs : Bytes} (hc : s.conns c = some conn) :
      Transition s (.recv c bs) (s.setConn c { conn with inbound := conn.inbound ++ bs }) []
  | peerClose {c : ConnId} {conn : Conn} (hc : s.conns c = some conn) :
      Transition s (.peerClose c) (s.setConn c { conn with closed := true }) []
  | readFrame {c : ConnId} {conn : Conn} (hc : s.conns c = some conn) (ht : conn.task = .reading)
      (hread : canRead serde conn = true) :
      Transition s (.readFrame c) (s.setConn c
        { conn with task := onFirstFrame config (readMessage serde conn.inbound).1 }) []
  | readEnds {c : ConnId} {conn : Conn} {a : Act} {o : Outcome} (hc : s.conns c = some conn)
      (ht : conn.task = .reading)
      (ha : a = .readFail c ∧ o = .readFailed ∨ a = .authTimeout c ∧ o = .timedOut) :
      Transition s a (s.setConn c { conn with task := .done o }) []
  | answered {c : ConnId} {conn : Conn} {res : AuthRes} {task : Task} {frame : Bytes}
      (hc : s.conns c = some conn) (hans : answer config conn.task = some (res, task))
      (hframe : writeMessage serde (.authRes res) = .ok frame) :
      Transition s (.writeAnswer c)
        (s.setConn c { conn with outbound := conn.outbound ++ frame, task }) [.answered c res]
  | writeEnds {c : ConnId} {conn : Conn} {a : Act} {bs : Bytes} {res : AuthRes} {task : Task}
      (hc : s.conns c = some conn) (hans : answer config conn.task = some (res, task))
      (ha : a = .writeAnswer c ∨ ∃ n, a = .writeFail c n) :
      Transition s a
        (s.setConn c { conn with outbound := bs, task := .done .writeFailed }) []
  | countFailed {c : ConnId} {conn : Conn} {auth : AuthReq} {m : Metrics}
      (hc : s.conns c = some conn) (ht : conn.task = .rejected auth) :
      Transition s (.countFailed c)
        ({ s with metrics := m }.setConn c { conn with task := .done .invalidToken }) []
  | spawnDriver {c : ConnId} {conn : Conn} {auth : AuthReq} {now : ℕ} (hc : s.conns c = some conn)
      (ht : conn.task = .accepted auth) :
      Transition s (.spawnDriver c now) (s.setConn c { conn with
        driver := some (Driver.spawn auth.supportsHeartbeat now), task := .registering auth }) []
  | refuse {c : ConnId} {conn : Conn} {auth : AuthReq} (hc : s.conns c = some conn)
      (ht : conn.task = .registering auth) (hres : auth.clientId ∈ reservedSubdomains) :
      Transition s (.checkId c) (s.setConn c { conn with task := .refused auth })
        [.refused c auth.clientId]
  | check {c : ConnId} {conn : Conn} {auth : AuthReq} (hc : s.conns c = some conn)
      (ht : conn.task = .registering auth) (hres : auth.clientId ∉ reservedSubdomains) :
      Transition s (.checkId c) (s.setConn c { conn with task := .checked auth }) []
  | fetchSession {c : ConnId} {conn : Conn} {auth : AuthReq} (hc : s.conns c = some conn)
      (ht : conn.task = .checked auth) :
      Transition s (.fetchSession c)
        ({ s with registry := s.registry.fetchSession.2 }.setConn c
          { conn with task := .numbered auth s.registry.nextSession })
        [.numbered c s.registry.nextSession]
  | insertVacant {c : ConnId} {conn : Conn} {auth : AuthReq} {sessionId : UInt64} {e : ClientEntry}
      (hc : s.conns c = some conn) (ht : conn.task = .numbered auth sessionId)
      (he : e = ⟨auth.clientId, sessionId, c, auth.supportsHeartbeat⟩)
      (hslot : s.registry.get auth.clientId = none) :
      Transition s (.insertEntry c)
        ({ s with registry := (s.registry.insertEntry e).1 }.setConn c
          { conn with task := .registered auth sessionId })
        [.swapped c auth.clientId sessionId]
  | insertOccupied {c : ConnId} {conn : Conn} {auth : AuthReq} {sessionId : UInt64}
      {e old : ClientEntry} (hc : s.conns c = some conn) (ht : conn.task = .numbered auth sessionId)
      (he : e = ⟨auth.clientId, sessionId, c, auth.supportsHeartbeat⟩)
      (hslot : s.registry.get auth.clientId = some old) :
      Transition s (.insertEntry c)
        (({ s with registry := (s.registry.insertEntry e).1 }.setConn c
          { conn with task := .registered auth sessionId }).abortDriver old.handle)
        [.swapped c auth.clientId sessionId, .aborted old.handle]
  | abortOwn {c : ConnId} {conn : Conn} {auth : AuthReq} (hc : s.conns c = some conn)
      (ht : conn.task = .refused auth) :
      Transition s (.abortOwn c)
        ((s.setConn c { conn with task := .done .registrationFailed }).abortDriver c) [.aborted c]
  | readRoute {c : ConnId} {conn : Conn} {auth : AuthReq} {sessionId : UInt64} {task : Task}
      {es : List Event} (hc : s.conns c = some conn) (ht : conn.task = .registered auth sessionId)
      (htask : task = .serving auth sessionId ∨ task = .routing auth sessionId)
      (hes : es = [] ∨ es = [.addClient c auth.clientId]) :
      Transition s (.readRoute c) (s.setConn c { conn with task }) es
  | writeRoute {c : ConnId} {conn : Conn} {auth : AuthReq} {sessionId : UInt64} {w : FileWrite}
      (hc : s.conns c = some conn) (ht : conn.task = .routing auth sessionId) :
      Transition s (.writeRoute c w)
        ({ s with routes := (manager config).writeRoute s.routes auth.clientId w }.setConn c
          { conn with task := .serving auth sessionId }) []
  | driver {c : ConnId} {conn : Conn} {d d' : Driver} {b : Driver.Act} {es : List Driver.Event}
      (hc : s.conns c = some conn) (hd : conn.driver = some d) (hb : b ≠ .abort)
      (hstep : d.step b = some (d', es)) :
      Transition s (.driver c b) (s.setConn c { conn with driver := some d' }) (es.map (.driver c))
  | join {c : ConnId} {conn : Conn} {auth : AuthReq} {sessionId : UInt64} {d : Driver}
      (hc : s.conns c = some conn) (ht : conn.task = .serving auth sessionId)
      (hd : conn.driver = some d) (hended : d.ended ≠ none) :
      Transition s (.join c) (s.setConn c { conn with task := .leaving auth sessionId }) []
  | unregister {c : ConnId} {conn : Conn} {auth : AuthReq} {sessionId : UInt64}
      (hc : s.conns c = some conn) (ht : conn.task = .leaving auth sessionId) :
      Transition s (.unregister c)
        ({ s with registry := (s.registry.unregister auth.clientId sessionId).1 }.setConn c
          { conn with task := .done .disconnected })
        [.unregistered c auth.clientId sessionId
          (s.registry.unregister auth.clientId sessionId).2]

variable {serde config} {s t : State} {a : Act} {es : List Event} {c : ConnId} {conn : Conn}

private theorem taskStep_transition (hc : s.conns a.conn = some conn)
    (h : taskStep serde config s a.conn conn a = some (t, es)) :
    Transition serde config s a t es := by
  cases a with
  | readFrame c =>
    simp only [taskStep] at h
    split at h
    · rename_i hg
      rw [Option.some.injEq, Prod.mk.injEq] at h
      obtain ⟨rfl, rfl⟩ := h
      exact .readFrame hc hg.1 hg.2
    · cases h
  | readFail c =>
    simp only [taskStep] at h
    split at h
    · rename_i ht
      rw [Option.some.injEq, Prod.mk.injEq] at h
      obtain ⟨rfl, rfl⟩ := h
      exact .readEnds hc ht (.inl ⟨rfl, rfl⟩)
    · cases h
  | authTimeout c =>
    simp only [taskStep] at h
    split at h
    · rename_i ht
      rw [Option.some.injEq, Prod.mk.injEq] at h
      obtain ⟨rfl, rfl⟩ := h
      exact .readEnds hc ht (.inr ⟨rfl, rfl⟩)
    · cases h
  | writeAnswer c =>
    simp only [taskStep] at h
    split at h
    · cases h
    · rename_i res task hans
      split at h
      · rw [Option.some.injEq, Prod.mk.injEq] at h
        obtain ⟨rfl, rfl⟩ := h
        exact .writeEnds hc hans (.inl rfl)
      · rename_i frame hframe
        rw [Option.some.injEq, Prod.mk.injEq] at h
        obtain ⟨rfl, rfl⟩ := h
        exact .answered hc hans hframe
  | writeFail c n =>
    simp only [taskStep] at h
    split at h
    · cases h
    · rename_i res task hans
      split at h
      · cases h
      · rw [Option.some.injEq, Prod.mk.injEq] at h
        obtain ⟨rfl, rfl⟩ := h
        exact .writeEnds hc hans (.inr ⟨n, rfl⟩)
  | countFailed c =>
    simp only [taskStep] at h
    split at h
    · rename_i ht
      rw [Option.some.injEq, Prod.mk.injEq] at h
      obtain ⟨rfl, rfl⟩ := h
      exact .countFailed hc ht
    · cases h
  | spawnDriver c now =>
    simp only [taskStep] at h
    split at h
    · rename_i ht
      rw [Option.some.injEq, Prod.mk.injEq] at h
      obtain ⟨rfl, rfl⟩ := h
      exact .spawnDriver hc ht
    · cases h
  | checkId c =>
    simp only [taskStep] at h
    split at h
    · rename_i auth ht
      split at h
      · rename_i e hcheck
        rw [Option.some.injEq, Prod.mk.injEq] at h
        obtain ⟨rfl, rfl⟩ := h
        refine .refuse hc ht ?_
        by_contra hres
        rw [(Registry.checkId_eq_ok _).mpr hres] at hcheck
        cases hcheck
      · rename_i hcheck
        rw [Option.some.injEq, Prod.mk.injEq] at h
        obtain ⟨rfl, rfl⟩ := h
        exact .check hc ht ((Registry.checkId_eq_ok _).mp hcheck)
    · cases h
  | fetchSession c =>
    simp only [taskStep] at h
    split at h
    · rename_i auth ht
      rw [Option.some.injEq, Prod.mk.injEq] at h
      obtain ⟨rfl, rfl⟩ := h
      exact .fetchSession hc ht
    · cases h
  | insertEntry c =>
    simp only [taskStep] at h
    split at h
    · rename_i auth sessionId ht
      have hsnd := Registry.insertEntry_snd s.registry
        ⟨auth.clientId, sessionId, c, auth.supportsHeartbeat⟩
      simp only [Act.conn] at h
      split at h
      · rename_i hnone
        rw [Option.some.injEq, Prod.mk.injEq] at h
        obtain ⟨rfl, rfl⟩ := h
        rw [hnone] at hsnd
        exact .insertVacant hc ht rfl (Option.map_eq_none_iff.mp hsnd.symm)
      · rename_i old hsome
        rw [Option.some.injEq, Prod.mk.injEq] at h
        obtain ⟨rfl, rfl⟩ := h
        rw [hsome] at hsnd
        obtain ⟨e, he, rfl⟩ := Option.map_eq_some_iff.mp hsnd.symm
        exact .insertOccupied hc ht rfl he
    · cases h
  | abortOwn c =>
    simp only [taskStep] at h
    split at h
    · rename_i auth ht
      rw [Option.some.injEq, Prod.mk.injEq] at h
      obtain ⟨rfl, rfl⟩ := h
      exact .abortOwn hc ht
    · cases h
  | readRoute c =>
    simp only [taskStep] at h
    split at h
    · rename_i auth sessionId ht
      split at h
      · rw [Option.some.injEq, Prod.mk.injEq] at h
        obtain ⟨rfl, rfl⟩ := h
        refine .readRoute hc ht ?_ (.inr rfl)
        split
        · exact .inl rfl
        · exact .inr rfl
      · rw [Option.some.injEq, Prod.mk.injEq] at h
        obtain ⟨rfl, rfl⟩ := h
        exact .readRoute hc ht (.inl rfl) (.inl rfl)
    · cases h
  | writeRoute c w =>
    simp only [taskStep] at h
    split at h
    · rename_i auth sessionId ht
      rw [Option.some.injEq, Prod.mk.injEq] at h
      obtain ⟨rfl, rfl⟩ := h
      exact .writeRoute hc ht
    · cases h
  | join c =>
    simp only [taskStep] at h
    split at h
    · rename_i auth sessionId d ht hd
      split at h
      · rename_i hclosed
        rw [Option.some.injEq, Prod.mk.injEq] at h
        obtain ⟨rfl, rfl⟩ := h
        refine .join hc ht hd ?_
        rwa [Driver.isClosed, Option.isSome_iff_ne_none] at hclosed
      · cases h
    · cases h
  | unregister c =>
    simp only [taskStep] at h
    split at h
    · rename_i auth sessionId ht
      rw [Option.some.injEq, Prod.mk.injEq] at h
      obtain ⟨rfl, rfl⟩ := h
      exact .unregister hc ht
    · cases h
  | accept | recv | peerClose | driver => simp [taskStep] at h

/-- **Inversion.** Every step is one of the transitions. -/
theorem step_transition (h : step serde config s a = some (t, es)) :
    Transition serde config s a t es := by
  cases hc : s.conns a.conn with
  | none =>
    cases a with
    | accept c =>
      simp only [step, hc, Option.some.injEq, Prod.mk.injEq] at h
      obtain ⟨rfl, rfl⟩ := h
      exact .accept hc
    | _ => simp [step, hc] at h
  | some conn =>
    cases a with
    | recv c bs =>
      simp only [step, hc] at h
      split at h
      · cases h
      · rw [Option.some.injEq, Prod.mk.injEq] at h
        obtain ⟨rfl, rfl⟩ := h
        exact .recv hc
    | peerClose c =>
      simp only [step, hc, Option.some.injEq, Prod.mk.injEq] at h
      obtain ⟨rfl, rfl⟩ := h
      exact .peerClose hc
    | driver c b =>
      simp only [step, hc] at h
      split at h
      · cases h
      · rename_i d hd
        split at h
        · cases h
        · rename_i hb
          split at h
          · cases h
          · rename_i d' es' hstep
            rw [Option.some.injEq, Prod.mk.injEq] at h
            obtain ⟨rfl, rfl⟩ := h
            exact .driver hc hd hb hstep
    | _ =>
      simp only [step, hc] at h
      exact taskStep_transition hc h

/-! ## Connections and drivers

The same for a reader who only wants to know what becomes of the connections and of their drivers:
a step replaces the connection it is about, and may ask for one abort. -/

@[simp] theorem setConn_self (s : State) (c : ConnId) (conn : Conn) :
    (s.setConn c conn).conns c = some conn := Function.update_self ..

theorem setConn_of_ne {c c' : ConnId} (hne : c' ≠ c) (s : State) (conn : Conn) :
    (s.setConn c conn).conns c' = s.conns c' := Function.update_of_ne hne _ _

theorem setConn_conns (s : State) (c c' : ConnId) (conn : Conn) :
    (s.setConn c conn).conns c' = if c' = c then some conn else s.conns c' :=
  Function.update_apply ..

theorem abortDriver_conns (s : State) (o c : ConnId) :
    (s.abortDriver o).conns c =
      if c = o then (s.conns c).map Conn.abortDriver else s.conns c := rfl

/-- An abort request changes the driver and nothing else. -/
theorem exists_of_abortDriver {o : ConnId} (hc : (s.abortDriver o).conns c = some conn) :
    ∃ conn₀ d, s.conns c = some conn₀ ∧ conn = { conn₀ with driver := d } := by
  rw [abortDriver_conns] at hc
  split at hc
  · obtain ⟨conn₀, hc₀, rfl⟩ := Option.map_eq_some_iff.mp hc
    exact ⟨conn₀, _, hc₀, rfl⟩
  · exact ⟨conn, conn.driver, hc, rfl⟩

theorem abortDriver_of_some {o : ConnId} (hc : s.conns c = some conn) :
    ∃ d, (s.abortDriver o).conns c = some { conn with driver := d } := by
  rw [abortDriver_conns, hc]
  split
  · exact ⟨_, rfl⟩
  · exact ⟨conn.driver, rfl⟩

@[simp] theorem driverEvents_append (h h' : List Event) :
    driverEvents c (h ++ h') = driverEvents c h ++ driverEvents c h' := List.flatMap_append

theorem driverEvents_map (c c' : ConnId) (es : List Driver.Event) :
    driverEvents c (es.map (.driver c')) = if c = c' then es else [] := by
  rw [driverEvents, List.flatMap_map]
  by_cases hcc : c = c'
  · subst hcc
    simp
  · simp [hcc, Ne.symm hcc]

/-- What a step does to the driver of the connection it is about, and what that driver reports. -/
inductive DriverMove (a : Act) (conn conn' : Conn) : List Driver.Event → Prop
  | same (hd : conn'.driver = conn.driver) : DriverMove a conn conn' []
  | spawned {auth : AuthReq} {now : ℕ} (ht : conn.task = .accepted auth)
      (ht' : conn'.task = .registering auth)
      (hd' : conn'.driver = some (Driver.spawn auth.supportsHeartbeat now)) :
      DriverMove a conn conn' []
  | stepped {c : ConnId} {b : Driver.Act} {d d' : Driver} {ds : List Driver.Event}
      (ha : a = .driver c b) (hb : b ≠ .abort) (hd : conn.driver = some d)
      (hstep : d.step b = some (d', ds)) (hconn' : conn' = { conn with driver := some d' }) :
      DriverMove a conn conn' ds

/-- The connection of one step with the events of its driver, and the connection that the step asks
to abort. -/
structure ConnsMove (s t : State) (a : Act) (conn' : Conn) (o : Option ConnId)
    (ds : List Driver.Event) : Prop where
  conns : ∀ c, t.conns c =
    if o = some c then (if c = a.conn then some conn' else s.conns c).map Conn.abortDriver
    else if c = a.conn then some conn' else s.conns c
  fresh : s.conns a.conn = none → conn' = {} ∧ ds = []
  driver : ∀ conn, s.conns a.conn = some conn → DriverMove a conn conn' ds
  inbound : ∀ conn, s.conns a.conn = some conn → conn.inbound <+: conn'.inbound

private theorem connsMove_set {s₀ : State} {conn' : Conn} {ds : List Driver.Event}
    (ha : a.conn = c) (hc : s.conns c = some conn) (hm : DriverMove a conn conn' ds)
    (hin : conn.inbound <+: conn'.inbound) (hs₀ : s₀.conns = s.conns) :
    ConnsMove s (s₀.setConn c conn') a conn' none ds where
  conns c' := by rw [setConn_conns, hs₀, ha, if_neg (Option.some_ne_none c').symm]
  fresh hn := by simp [ha, hc] at hn
  driver conn₀ hc₀ := by
    rw [ha, hc, Option.some.injEq] at hc₀
    exact hc₀ ▸ hm
  inbound conn₀ hc₀ := by
    rw [ha, hc, Option.some.injEq] at hc₀
    exact hc₀ ▸ hin

private theorem connsMove_abort {s₁ : State} {conn' : Conn} {ds : List Driver.Event} (o : ConnId)
    (hm : ConnsMove s s₁ a conn' none ds) :
    ConnsMove s (s₁.abortDriver o) a conn' (some o) ds where
  conns c := by
    have hc := hm.conns c
    rw [if_neg (Option.some_ne_none c).symm] at hc
    rw [abortDriver_conns, hc]
    by_cases hco : c = o
    · simp [hco]
    · rw [if_neg hco, if_neg fun h ↦ hco (Option.some.inj h).symm]
  fresh := hm.fresh
  driver := hm.driver
  inbound := hm.inbound

theorem step_conns (hstep : step serde config s a = some (t, es)) :
    ∃ conn' o ds, ConnsMove s t a conn' o ds ∧ (∀ c, .aborted c ∈ es ↔ o = some c) ∧
      ∀ c, driverEvents c es = if c = a.conn then ds else [] := by
  have hpre : ∀ {l : Bytes}, l <+: l := List.prefix_rfl
  cases step_transition hstep with
  | @accept c m hc =>
    refine ⟨{}, none, [], ⟨fun c' ↦ ?_, fun _ ↦ ⟨rfl, rfl⟩, fun conn hc' ↦ ?_, fun conn hc' ↦ ?_⟩,
      by simp, by simp [driverEvents]⟩
    · rw [setConn_conns, if_neg (Option.some_ne_none c').symm]
      rfl
    · rw [Act.conn, hc] at hc'
      cases hc'
    · rw [Act.conn, hc] at hc'
      cases hc'
  | recv hc =>
    exact ⟨_, none, _, connsMove_set rfl hc (.same rfl) (List.prefix_append ..) (by rfl), by simp,
      by simp [driverEvents]⟩
  | peerClose hc | readFrame hc | answered hc | countFailed hc | refuse hc | check hc
  | fetchSession hc | insertVacant hc | writeRoute hc | join hc | unregister hc =>
    exact ⟨_, none, _, connsMove_set rfl hc (.same rfl) hpre (by rfl), by simp,
      by simp [driverEvents]⟩
  | readRoute hc _ _ hes =>
    refine ⟨_, none, _, connsMove_set rfl hc (.same rfl) hpre (by rfl), fun c ↦ ?_, fun c ↦ ?_⟩ <;>
      rcases hes with rfl | rfl <;> simp [driverEvents]
  | readEnds hc _ ha =>
    rcases ha with ⟨rfl, -⟩ | ⟨rfl, -⟩ <;>
      exact ⟨_, none, _, connsMove_set rfl hc (.same rfl) hpre (by rfl), by simp,
        by simp [driverEvents]⟩
  | writeEnds hc _ ha =>
    rcases ha with rfl | ⟨n, rfl⟩ <;>
      exact ⟨_, none, _, connsMove_set rfl hc (.same rfl) hpre (by rfl), by simp,
        by simp [driverEvents]⟩
  | spawnDriver hc ht =>
    exact ⟨_, none, _, connsMove_set rfl hc (.spawned ht rfl rfl) hpre (by rfl), by simp,
      by simp [driverEvents]⟩
  | driver hc hd hb hs =>
    exact ⟨_, none, _, connsMove_set rfl hc (.stepped rfl hb hd hs rfl) hpre (by rfl), by simp,
      fun c ↦ driverEvents_map ..⟩
  | @insertOccupied c conn auth sessionId e old hc =>
    refine ⟨_, some old.handle, _,
      connsMove_abort _ (connsMove_set rfl hc (.same rfl) hpre (by rfl)), ?_,
      by simp [driverEvents]⟩
    simp [eq_comm]
  | abortOwn hc =>
    refine ⟨_, some _, _, connsMove_abort _ (connsMove_set rfl hc (.same rfl) hpre (by rfl)), ?_,
      by simp [driverEvents]⟩
    simp [eq_comm]

/-- What a peer has sent stays, and only more of it comes in. -/
theorem inbound_of_step (hstep : step serde config s a = some (t, es))
    (hc : s.conns c = some conn) :
    ∃ conn', t.conns c = some conn' ∧ conn.inbound <+: conn'.inbound := by
  obtain ⟨conn₁, o, ds, hm, -⟩ := step_conns hstep
  obtain ⟨conn₂, hc₂, hpre⟩ : ∃ conn₂, (if c = a.conn then some conn₁ else s.conns c) =
      some conn₂ ∧ conn.inbound <+: conn₂.inbound := by
    split
    · rename_i hca
      exact ⟨conn₁, rfl, hm.inbound conn (hca ▸ hc)⟩
    · exact ⟨conn, hc, List.prefix_rfl⟩
  rw [hm.conns, hc₂]
  split
  · exact ⟨_, rfl, hpre⟩
  · exact ⟨conn₂, rfl, hpre⟩

/-- A driver that knows a call knew it before, or the call has just been made. -/
theorem call_of_step {r : CallId} {conn' : Conn} {d' : Driver}
    (hstep : step serde config s a = some (t, es)) (hc' : t.conns c = some conn')
    (hd' : conn'.driver = some d') (hr : d'.calls r ≠ none) :
    (∃ conn d, s.conns c = some conn ∧ conn.driver = some d ∧ d.calls r ≠ none) ∨
      a = .driver c (.call r) := by
  obtain ⟨conn₁, o, ds, hm, -⟩ := step_conns hstep
  -- The connection before an abort, if one is asked for.
  obtain ⟨conn₂, d₂, hc₂, hd₂, hr₂⟩ : ∃ conn₂ d₂,
      (if c = a.conn then some conn₁ else s.conns c) = some conn₂ ∧ conn₂.driver = some d₂ ∧
        d₂.calls r ≠ none := by
    rw [hm.conns] at hc'
    split at hc'
    · obtain ⟨conn₂, hc₂, rfl⟩ := Option.map_eq_some_iff.mp hc'
      obtain ⟨d₂, hd₂, rfl⟩ := Option.map_eq_some_iff.mp hd'
      exact ⟨conn₂, d₂, hc₂, hd₂, hr⟩
    · exact ⟨conn', d', hc', hd', hr⟩
  split at hc₂
  · rename_i hca
    rw [Option.some.injEq] at hc₂
    subst hc₂
    cases hs : s.conns a.conn with
    | none => simp [(hm.fresh hs).1] at hd₂
    | some conn =>
      cases hm.driver conn hs with
      | same hsame => exact .inl ⟨conn, d₂, hca ▸ hs, hsame ▸ hd₂, hr₂⟩
      | spawned _ _ hdr =>
        rw [hdr, Option.some.injEq] at hd₂
        exact absurd (by rw [← hd₂]; rfl) hr₂
      | @stepped c' b d d'' _ ha _ hd hdstep hconn =>
        rw [hconn, Option.some.injEq] at hd₂
        subst hd₂
        by_cases hcall : b = .call r
        · rw [ha, hcall, hca, ha]
          exact .inr rfl
        · exact .inl ⟨conn, d, hca ▸ hs, hd,
            fun hnone ↦ hr₂ (Driver.calls_eq_none_of_step hdstep hnone hcall)⟩
  · exact .inl ⟨conn₂, d₂, hc₂, hd₂, hr₂⟩

/-! ## Tasks

The same for a reader who only wants to know how the tasks move on and what they report. -/

variable (config) in
/-- How the task of connection `c` moves on, and the events of that move. -/
inductive TaskMove (s : State) (c : ConnId) : Task → Task → List Event → Prop
  | read {r : Except ProtocolError Message} : TaskMove s c .reading (onFirstFrame config r) []
  | readEnds {o : Outcome} (ho : o = .readFailed ∨ o = .timedOut) :
      TaskMove s c .reading (.done o) []
  | answered {t t' : Task} {res : AuthRes} (hans : answer config t = some (res, t')) :
      TaskMove s c t t' [.answered c res]
  | writeEnds {t t' : Task} {res : AuthRes} (hans : answer config t = some (res, t')) :
      TaskMove s c t (.done .writeFailed) []
  | countFailed {auth : AuthReq} : TaskMove s c (.rejected auth) (.done .invalidToken) []
  | spawnDriver {auth : AuthReq} : TaskMove s c (.accepted auth) (.registering auth) []
  | refuse {auth : AuthReq} (hres : auth.clientId ∈ reservedSubdomains) :
      TaskMove s c (.registering auth) (.refused auth) [.refused c auth.clientId]
  | check {auth : AuthReq} (hres : auth.clientId ∉ reservedSubdomains) :
      TaskMove s c (.registering auth) (.checked auth) []
  | fetchSession {auth : AuthReq} :
      TaskMove s c (.checked auth) (.numbered auth s.registry.nextSession)
        [.numbered c s.registry.nextSession]
  | insertVacant {auth : AuthReq} {sessionId : UInt64}
      (hslot : s.registry.get auth.clientId = none) :
      TaskMove s c (.numbered auth sessionId) (.registered auth sessionId)
        [.swapped c auth.clientId sessionId]
  | insertOccupied {auth : AuthReq} {sessionId : UInt64} {old : ClientEntry}
      (hslot : s.registry.get auth.clientId = some old) :
      TaskMove s c (.numbered auth sessionId) (.registered auth sessionId)
        [.swapped c auth.clientId sessionId, .aborted old.handle]
  | abortOwn {auth : AuthReq} :
      TaskMove s c (.refused auth) (.done .registrationFailed) [.aborted c]
  | readRoute {auth : AuthReq} {sessionId : UInt64} {t' : Task} {es : List Event}
      (ht' : t' = .serving auth sessionId ∨ t' = .routing auth sessionId)
      (hes : es = [] ∨ es = [.addClient c auth.clientId]) :
      TaskMove s c (.registered auth sessionId) t' es
  | writeRoute {auth : AuthReq} {sessionId : UInt64} :
      TaskMove s c (.routing auth sessionId) (.serving auth sessionId) []
  | join {auth : AuthReq} {sessionId : UInt64} {conn : Conn} {d : Driver}
      (hc : s.conns c = some conn) (hd : conn.driver = some d) (hended : d.ended ≠ none) :
      TaskMove s c (.serving auth sessionId) (.leaving auth sessionId) []
  | unregister {auth : AuthReq} {sessionId : UInt64} :
      TaskMove s c (.leaving auth sessionId) (.done .disconnected)
        [.unregistered c auth.clientId sessionId
          (s.registry.unregister auth.clientId sessionId).2]

/-- A step leaves all tasks where they are and reports of drivers only, or it moves the task of the
connection it is about. -/
theorem step_task (hstep : step serde config s a = some (t, es)) :
    (s.conns a.conn = none ∧ es = []) ∨
    ∃ conn conn', s.conns a.conn = some conn ∧ t.conns a.conn = some conn' ∧
      (conn'.task = conn.task ∧ (∀ e ∈ es, ∃ c e', e = .driver c e') ∨
        TaskMove config s a.conn conn.task conn'.task es) := by
  have hset : ∀ {c : ConnId} {conn conn' : Conn} {s₀ : State}, s.conns c = some conn →
      c = a.conn → TaskMove config s c conn.task conn'.task es →
      ∃ conn₁ conn₁', s.conns a.conn = some conn₁ ∧
        (s₀.setConn c conn').conns a.conn = some conn₁' ∧
        (conn₁'.task = conn₁.task ∧ (∀ e ∈ es, ∃ c e', e = .driver c e') ∨
          TaskMove config s a.conn conn₁.task conn₁'.task es) := by
    rintro c conn conn' s₀ hc rfl hm
    exact ⟨conn, conn', hc, setConn_self .., .inr hm⟩
  cases step_transition hstep with
  | accept hc => exact .inl ⟨hc, rfl⟩
  | recv hc | peerClose hc =>
    exact .inr ⟨_, _, hc, setConn_self .., .inl ⟨rfl, by simp⟩⟩
  | driver hc =>
    refine .inr ⟨_, _, hc, setConn_self .., .inl ⟨rfl, fun e he ↦ ?_⟩⟩
    obtain ⟨e', -, rfl⟩ := List.mem_map.mp he
    exact ⟨_, e', rfl⟩
  | readFrame hc ht => exact .inr (hset hc rfl (ht ▸ .read))
  | readEnds hc ht ha =>
    rcases ha with ⟨rfl, rfl⟩ | ⟨rfl, rfl⟩
    · exact .inr (hset hc rfl (ht ▸ .readEnds (.inl rfl)))
    · exact .inr (hset hc rfl (ht ▸ .readEnds (.inr rfl)))
  | answered hc hans => exact .inr (hset hc rfl (.answered hans))
  | writeEnds hc hans ha =>
    rcases ha with rfl | ⟨n, rfl⟩ <;> exact .inr (hset hc rfl (.writeEnds hans))
  | countFailed hc ht => exact .inr (hset hc rfl (ht ▸ .countFailed))
  | spawnDriver hc ht => exact .inr (hset hc rfl (ht ▸ .spawnDriver))
  | refuse hc ht hres => exact .inr (hset hc rfl (ht ▸ .refuse hres))
  | check hc ht hres => exact .inr (hset hc rfl (ht ▸ .check hres))
  | fetchSession hc ht => exact .inr (hset hc rfl (ht ▸ .fetchSession))
  | insertVacant hc ht _ hslot => exact .inr (hset hc rfl (ht ▸ .insertVacant hslot))
  | insertOccupied hc ht _ hslot =>
    obtain ⟨d, hd⟩ := abortDriver_of_some (setConn_self ..)
    exact .inr ⟨_, _, hc, hd, .inr (ht ▸ .insertOccupied hslot)⟩
  | abortOwn hc ht =>
    obtain ⟨d, hd⟩ := abortDriver_of_some (setConn_self ..)
    exact .inr ⟨_, _, hc, hd, .inr (ht ▸ .abortOwn)⟩
  | readRoute hc ht htask hes => exact .inr (hset hc rfl (ht ▸ .readRoute htask hes))
  | writeRoute hc ht => exact .inr (hset hc rfl (ht ▸ .writeRoute))
  | join hc ht hd hended => exact .inr (hset hc rfl (ht ▸ .join hc hd hended))
  | unregister hc ht => exact .inr (hset hc rfl (ht ▸ .unregister))

theorem task_of_step (hstep : step serde config s a = some (t, es)) (hc : s.conns c = some conn) :
    ∃ conn', t.conns c = some conn' ∧
      (conn'.task = conn.task ∨ c = a.conn ∧ TaskMove config s c conn.task conn'.task es) := by
  by_cases hca : c = a.conn
  · subst hca
    rcases step_task hstep with ⟨hn, -⟩ | ⟨conn₀, conn', hc₀, hc', hm⟩
    · simp [hc] at hn
    · rw [hc, Option.some.injEq] at hc₀
      subst hc₀
      exact ⟨conn', hc', hm.imp (·.1) fun hm ↦ ⟨rfl, hm⟩⟩
  · obtain ⟨conn₁, o, ds, hm, -⟩ := step_conns hstep
    have hct := hm.conns c
    rw [if_neg hca, hc] at hct
    split at hct
    · exact ⟨_, hct, .inl rfl⟩
    · exact ⟨conn, hct, .inl rfl⟩

/-- A connection after a step is a fresh one, or was there before. -/
theorem conn_of_step {conn' : Conn} (hstep : step serde config s a = some (t, es))
    (hc' : t.conns c = some conn') :
    (s.conns c = none ∧ conn'.task = .reading) ∨ ∃ conn, s.conns c = some conn ∧
      (conn'.task = conn.task ∨ c = a.conn ∧ TaskMove config s c conn.task conn'.task es) := by
  cases hc : s.conns c with
  | some conn =>
    obtain ⟨conn'', hc'', hm⟩ := task_of_step hstep hc
    rw [hc', Option.some.injEq] at hc''
    exact .inr ⟨conn, rfl, hc'' ▸ hm⟩
  | none =>
    refine .inl ⟨rfl, ?_⟩
    obtain ⟨conn₁, o, ds, hm, -⟩ := step_conns hstep
    rw [hm.conns, hc] at hc'
    by_cases hca : c = a.conn
    · rw [if_pos hca, (hm.fresh (hca ▸ hc)).1] at hc'
      split at hc' <;> rw [← Option.some.inj hc']
      rfl
    · rw [if_neg hca] at hc'
      split at hc' <;> cases hc'

/-! What a reported event says about the task that reported it. -/

private theorem move_of_event {e : Event} (hstep : step serde config s a = some (t, es))
    (he : e ∈ es) (hdr : ∀ c e', e ≠ .driver c e') :
    ∃ conn conn', s.conns a.conn = some conn ∧ t.conns a.conn = some conn' ∧
      TaskMove config s a.conn conn.task conn'.task es := by
  rcases step_task hstep with ⟨-, rfl⟩ | ⟨conn, conn', hc, hc', ⟨-, hall⟩ | hm⟩
  · cases he
  · obtain ⟨c, e', heq⟩ := hall e he
    exact absurd heq (hdr c e')
  · exact ⟨conn, conn', hc, hc', hm⟩

theorem answered_of_step {res : AuthRes} (hstep : step serde config s a = some (t, es))
    (he : .answered c res ∈ es) : ∃ conn conn', s.conns c = some conn ∧ t.conns c = some conn' ∧
      answer config conn.task = some (res, conn'.task) := by
  obtain ⟨conn, conn', hc, hc', hm⟩ := move_of_event hstep he (by simp)
  generalize ht : conn.task = task at hm
  generalize ht' : conn'.task = task' at hm
  cases hm with
  | answered hans =>
    simp only [List.mem_singleton, Event.answered.injEq] at he
    obtain ⟨rfl, rfl⟩ := he
    exact ⟨conn, conn', hc, hc', by rw [ht, ht', hans]⟩
  | readRoute _ hes => rcases hes with rfl | rfl <;> simp at he
  | _ => simp at he

theorem refused_of_step {k : String} (hstep : step serde config s a = some (t, es))
    (he : .refused c k ∈ es) : es = [.refused c k] ∧ ∃ conn conn' auth, s.conns c = some conn ∧
      t.conns c = some conn' ∧ conn.task = .registering auth ∧ conn'.task = .refused auth := by
  obtain ⟨conn, conn', hc, hc', hm⟩ := move_of_event hstep he (by simp)
  generalize ht : conn.task = task at hm
  generalize ht' : conn'.task = task' at hm
  cases hm with
  | refuse =>
    simp only [List.mem_singleton, Event.refused.injEq] at he
    obtain ⟨rfl, rfl⟩ := he
    exact ⟨rfl, conn, conn', _, hc, hc', ht, ht'⟩
  | readRoute _ hes => rcases hes with rfl | rfl <;> simp at he
  | _ => simp at he

theorem swapped_of_step {k : String} {sessionId : UInt64}
    (hstep : step serde config s a = some (t, es)) (he : .swapped c k sessionId ∈ es) :
    ∃ conn conn' auth, s.conns c = some conn ∧ t.conns c = some conn' ∧
      conn.task = .numbered auth sessionId ∧ conn'.task = .registered auth sessionId ∧
      auth.clientId = k := by
  obtain ⟨conn, conn', hc, hc', hm⟩ := move_of_event hstep he (by simp)
  generalize ht : conn.task = task at hm
  generalize ht' : conn'.task = task' at hm
  cases hm with
  | insertVacant | insertOccupied =>
    simp only [List.mem_cons, List.not_mem_nil, Event.swapped.injEq, reduceCtorEq, or_false] at he
    obtain ⟨rfl, rfl, rfl⟩ := he
    exact ⟨conn, conn', _, hc, hc', ht, ht', rfl⟩
  | readRoute _ hes => rcases hes with rfl | rfl <;> simp at he
  | _ => simp at he

theorem unregistered_of_step {k : String} {sessionId : UInt64} {removed : Bool}
    (hstep : step serde config s a = some (t, es))
    (he : .unregistered c k sessionId removed ∈ es) :
    es = [.unregistered c k sessionId removed] ∧
    ∃ conn conn' auth, s.conns c = some conn ∧ t.conns c = some conn' ∧
      conn.task = .leaving auth sessionId ∧ conn'.task = .done .disconnected ∧
      auth.clientId = k ∧ removed = (s.registry.unregister k sessionId).2 := by
  obtain ⟨conn, conn', hc, hc', hm⟩ := move_of_event hstep he (by simp)
  generalize ht : conn.task = task at hm
  generalize ht' : conn'.task = task' at hm
  cases hm with
  | unregister =>
    simp only [List.mem_singleton, Event.unregistered.injEq] at he
    obtain ⟨rfl, rfl, rfl, rfl⟩ := he
    exact ⟨rfl, conn, conn', _, hc, hc', ht, ht', rfl, rfl⟩
  | readRoute _ hes => rcases hes with rfl | rfl <;> simp at he
  | _ => simp at he

/-- An abort is asked for by a takeover, of the session that had the slot, or by a task whose
registration was refused, of its own driver. -/
theorem aborted_of_step (hstep : step serde config s a = some (t, es)) (he : .aborted c ∈ es) :
    (∃ c' conn auth sessionId old, s.conns c' = some conn ∧ conn.task = .numbered auth sessionId ∧
      s.registry.get auth.clientId = some old ∧ old.handle = c ∧
      es = [.swapped c' auth.clientId sessionId, .aborted c]) ∨
    ∃ conn conn' auth, s.conns c = some conn ∧ t.conns c = some conn' ∧
      conn.task = .refused auth ∧ conn'.task = .done .registrationFailed ∧ es = [.aborted c] := by
  obtain ⟨conn, conn', hc, hc', hm⟩ := move_of_event hstep he (by simp)
  generalize ht : conn.task = task at hm
  generalize ht' : conn'.task = task' at hm
  cases hm with
  | insertOccupied hslot =>
    simp only [List.mem_cons, List.not_mem_nil, Event.aborted.injEq, reduceCtorEq, or_false,
      false_or] at he
    exact .inl ⟨_, conn, _, _, _, hc, ht, hslot, he.symm, by rw [he]⟩
  | abortOwn =>
    simp only [List.mem_singleton, Event.aborted.injEq] at he
    subst he
    exact .inr ⟨conn, conn', _, hc, hc', ht, ht', rfl⟩
  | readRoute _ hes => rcases hes with rfl | rfl <;> simp at he
  | _ => simp at he

end Control

end ZoTunnel
