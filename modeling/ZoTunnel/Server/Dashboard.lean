import Mathlib.Data.List.DropRight
import ZoTunnel.Lib.Lease
import ZoTunnel.Lib.Machine
import ZoTunnel.Server.Metrics
import ZoTunnel.Server.Routing

/-!
# The dashboard's sessions

The REST API of the dashboard. A login whose token is the configured one creates a session, and its
id goes to the browser in a cookie; the handlers that give out data ask the session store whether
the id in the cookie of their request is accepted. The store forgets an expired session only when
somebody asks for it.

Handlers run concurrently. A handler asks the store in one step, and what it does with the answer
is another one; an expired session is removed after the guard of its entry is released, so that is
a step of its own. The clock is what all instants are read from, in nanoseconds.

What the data handlers read of the registry and of the metrics comes in with the step. The static
files, the install script and the downloads have nothing to do with sessions and are left out.
-/

namespace ZoTunnel

/-- The part of the configuration that guards the dashboard. -/
structure DashboardAuthConfig where
  /-- If empty, the dashboard is open. -/
  token : String := ""
  sessionTtlSecs : UInt64 := 86400
  deriving DecidableEq, Repr

namespace DashboardAuthConfig

/-- Whether the dashboard requires authentication. -/
def dashboardAuthEnabled (auth : DashboardAuthConfig) : Bool := !auth.token.isEmpty

/-- Constant-time comparison. -/
def ctEq (a b : Bytes) : Bool := a.length == b.length && (a.zip b).all fun p ↦ p.1 == p.2

def validateDashboardToken (auth : DashboardAuthConfig) (token : String) : Bool :=
  if !auth.dashboardAuthEnabled then true
  else
    let expected := Framing.utf8 auth.token
    let provided := Framing.utf8 token
    expected.length == provided.length && ctEq expected provided

theorem ctEq_iff {a b : Bytes} : ctEq a b = true ↔ a = b := by
  rw [ctEq, Bool.and_eq_true, beq_iff_eq]
  constructor
  · rintro ⟨hlen, hall⟩
    refine List.ext_getElem hlen fun i hi hi' ↦ ?_
    have hmem : (a[i], b[i]) ∈ a.zip b := by
      rw [List.mem_iff_getElem]
      exact ⟨i, by rw [List.length_zip]; omega, List.getElem_zip⟩
    exact eq_of_beq (List.all_eq_true.mp hall _ hmem)
  · rintro rfl
    refine ⟨rfl, List.all_eq_true.mpr fun p hp ↦ ?_⟩
    obtain ⟨i, hi, rfl⟩ := List.mem_iff_getElem.mp hp
    rw [List.getElem_zip]
    exact beq_self_eq_true _

theorem dashboardAuthEnabled_iff {auth : DashboardAuthConfig} :
    auth.dashboardAuthEnabled = true ↔ auth.token ≠ "" := by
  rw [dashboardAuthEnabled, Bool.not_eq_true', ← Bool.not_eq_true, String.isEmpty_iff]

/-- With a token configured, that token and no other is valid. -/
theorem validateDashboardToken_iff {auth : DashboardAuthConfig} {token : String}
    (htoken : auth.token ≠ "") : auth.validateDashboardToken token = true ↔ token = auth.token := by
  rw [validateDashboardToken, dashboardAuthEnabled_iff.mpr htoken]
  simp only [Bool.not_true, Bool.false_eq_true, if_false, Bool.and_eq_true, beq_iff_eq, ctEq_iff]
  constructor
  · rintro ⟨-, heq⟩
    exact (Framing.utf8_inj heq).symm
  · rintro rfl
    exact ⟨rfl, rfl⟩

end DashboardAuthConfig

namespace Dashboard

/-! ## Session store -/

/-- One second. -/
def second : ℕ := 1000000000

/-- The sessions with their times of creation. -/
structure SessionStore where
  sessions : String → Option ℕ := fun _ ↦ none
  ttlSecs : UInt64

/-- What `validate` finds in the store. -/
inductive Inspection
  | absent
  | young
  /-- The session has expired; its entry is to be removed. -/
  | old
  deriving DecidableEq, Repr

namespace SessionStore

/-- The age of a session is one that its time to live admits. -/
def Alive (ttlSecs : UInt64) (age : ℕ) : Prop := age / second < ttlSecs.toNat

instance (ttlSecs : UInt64) : DecidablePred (Alive ttlSecs) := fun _ ↦ Nat.decLt ..

def create (store : SessionStore) (id : String) (now : ℕ) : SessionStore :=
  { store with sessions := Function.update store.sessions id (some now) }

/-- The first part of `validate`: the entry is looked up, and its age read under the guard. -/
def inspect (store : SessionStore) (id : String) (now : ℕ) : Inspection :=
  match store.sessions id with
  | none => .absent
  | some createdAt => if Alive store.ttlSecs (now - createdAt) then .young else .old

/-- The removal of an entry, in `validate` and in `invalidate`. -/
def invalidate (store : SessionStore) (id : String) : SessionStore :=
  { store with sessions := Function.update store.sessions id none }

end SessionStore

/-! ## Requests and answers -/

/-- The route of a request, with what the handler takes from the body. The body of a login is `none`
when it is not JSON with a token, and then the handler does not run. -/
inductive Endpoint
  | login (token : Option String)
  | logout
  | authCheck
  | status
  | clients
  | metrics
  deriving DecidableEq, Repr

structure Request where
  headers : List (String × HeaderValue)
  endpoint : Endpoint
  deriving DecidableEq, Repr

/-- Client info for the dashboard API. -/
structure ClientInfo where
  clientId : String
  connectedAtSecs : UInt64
  bytesIn : UInt64
  bytesOut : UInt64
  totalRequests : UInt64
  activeStreams : UInt64
  healthy : Bool
  deriving DecidableEq, Repr

/-- Metrics snapshot for the dashboard. -/
structure MetricsSnapshot extends Metrics where
  uptimeSecs : UInt64 := 0
  deriving DecidableEq, Repr

/-- What a handler reads of the registry and of the metrics. -/
structure View where
  connectedClients : ℕ := 0
  clients : List ClientInfo := []
  snapshot : MetricsSnapshot := {}
  deriving DecidableEq, Repr

structure StatusResponse where
  status : String
  version : String
  connectedClients : ℕ
  domain : String
  controlPort : UInt16
  clientToken : String
  installUrl : String
  installCommand : String
  configCommand : String
  exampleCommand : String
  deriving DecidableEq, Repr

inductive Reply
  /-- The body of a login is refused before the handler runs. -/
  | rejected
  /-- The answer to a login or logout, with its status and its `Set-Cookie` header. -/
  | login (status : ℕ) (setCookie : Option String) (success : Bool) (message : String)
  | authCheck (authenticated authRequired tlsEnabled : Bool)
  | unauthorized
  | status (data : StatusResponse)
  | clients (data : List ClientInfo)
  | metrics (data : MetricsSnapshot)
  deriving DecidableEq, Repr

/-- The answer gives out data. -/
def Reply.isData : Reply → Bool
  | status _ | clients _ | metrics _ => true
  | rejected | login .. | authCheck .. | unauthorized => false

/-- The routes that give out data. -/
def Endpoint.guarded : Endpoint → Bool
  | status | clients | metrics => true
  | login _ | logout | authCheck => false

/-! ## Cookies -/

def cookieName : String := "zo-session"

/-- The text behind another one that it begins with. -/
def stripPrefix (text start : String) : Option String :=
  (text.toList.dropPrefix? start.toList).map String.ofList

/-- The text without blanks at its ends. -/
def trim (text : String) : String :=
  String.ofList ((text.toList.dropWhile Char.isWhitespace).rdropWhile Char.isWhitespace)

/-- The loop of `extract_session_id` over the parts of the header. A part with the name of the
cookie and something else behind it than `=` ends the search. -/
def sessionIdOf : List String → Option String
  | [] => none
  | part :: parts =>
    match stripPrefix (trim part) cookieName with
    | none => sessionIdOf parts
    | some value =>
      match stripPrefix value "=" with
      | none => none
      | some value => if value = "" then sessionIdOf parts else some value

/-- The session id in the `Cookie` header. -/
def extractSessionId (headers : List (String × HeaderValue)) : Option String :=
  match (headers.lookup "cookie").bind HeaderValue.toStr with
  | none => none
  | some cookieHeader => sessionIdOf ((cookieHeader.toList.splitOn ';').map String.ofList)

def buildSessionCookie (sessionId : String) (maxAgeSecs : UInt64) (tlsEnabled : Bool) : String :=
  cookieName ++ "=" ++ sessionId ++ "; Path=/; HttpOnly; SameSite=Strict; Max-Age=" ++
    toString maxAgeSecs ++ (if tlsEnabled then "; Secure" else "")

def buildClearCookie : String := cookieName ++ "=; Path=/; HttpOnly; SameSite=Strict; Max-Age=0"

/-! ## The handlers -/

/-- What is fixed when the server starts. -/
structure DashboardState where
  dashboardToken : String
  clientToken : String
  authEnabled : Bool
  tlsEnabled : Bool
  domain : String
  controlPort : UInt16
  ttlSecs : UInt64
  deriving DecidableEq, Repr

/-- The state that the server makes of its configuration. -/
def DashboardState.ofConfig (config : ServerConfig) (auth : DashboardAuthConfig)
    (controlPort : UInt16) : DashboardState where
  dashboardToken := auth.token
  clientToken := config.auth.tokens.head?.getD ""
  authEnabled := auth.dashboardAuthEnabled
  tlsEnabled := config.traefik.enabled
  domain := config.domain
  controlPort := controlPort
  ttlSecs := auth.sessionTtlSecs

/-- The request came over TLS, as far as the server can tell. -/
def isTlsEnabled (st : DashboardState) (headers : List (String × HeaderValue)) : Bool :=
  if st.tlsEnabled then true
  else
    match (headers.lookup "x-forwarded-proto").bind HeaderValue.toStr with
    | some proto => (trim proto).toLower == "https"
    | none => false

/-- The token comparison of `api_login`, through a configuration made for it. -/
def checkToken (st : DashboardState) (token : String) : Bool :=
  let checkCfg : DashboardAuthConfig := { token := st.dashboardToken }
  checkCfg.validateDashboardToken token

def statusResponse (st : DashboardState) (view : View) : StatusResponse :=
  let installUrl := "https://dashboard." ++ st.domain ++ "/install"
  { status := "running"
    version := "0.0.5"
    connectedClients := view.connectedClients
    domain := st.domain
    controlPort := st.controlPort
    clientToken := st.clientToken
    installUrl
    installCommand := "curl -sSL " ++ installUrl ++ " | bash"
    configCommand := "zotunnel config set --server " ++ st.domain ++ ":" ++
      toString st.controlPort ++ " --token " ++ st.clientToken
    exampleCommand := "zotunnel http 3000 --name my-app -d" }

/-! ## The machine -/

abbrev ReqId := ℕ

/-- Where a handler stands. -/
inductive Phase
  | arrived
  /-- The session with this id has expired and is to be removed. -/
  | expired (sessionId : String)
  | decided (ok : Bool)
  | answered (reply : Reply)
  deriving DecidableEq, Repr

structure State where
  store : SessionStore
  generated : List String
  clock : ℕ
  requests : ReqId → Option (Request × Phase)

inductive Act
  | elapse (d : ℕ)
  | arrive (r : ReqId) (q : Request)
  /-- `is_authenticated`, up to the removal of an expired session. -/
  | authenticate (r : ReqId)
  | remove (r : ReqId)
  /-- The rest of the handler. A session that it creates gets the id `uuid`. -/
  | respond (r : ReqId) (uuid : String) (view : View)

inductive Event
  | arrived (r : ReqId) (q : Request)
  | checked (r : ReqId) (q : Request) (now : ℕ) (ok : Bool)
  | issued (r : ReqId) (sessionId : String) (now : ℕ)
  | loggedOut (r : ReqId) (sessionId : String)
  | replied (r : ReqId) (q : Request) (reply : Reply)
  deriving DecidableEq

/-- The handler calls `is_authenticated`. -/
def asks (st : DashboardState) : Endpoint → Bool
  | .login none | .logout => false
  | .login (some _) => st.authEnabled
  | .authCheck | .status | .clients | .metrics => true

/-- `is_authenticated`, up to the removal of an expired session. -/
def isAuthenticated (st : DashboardState) (store : SessionStore) (q : Request) (now : ℕ) : Phase :=
  if !st.authEnabled then .decided true
  else
    match extractSessionId q.headers with
    | none => .decided false
    | some sessionId =>
      match store.inspect sessionId now with
      | .absent => .decided false
      | .young => .decided true
      | .old => .expired sessionId

/-- The answer of `is_authenticated` that a phase stands for. -/
def Phase.verdict : Phase → Bool
  | decided ok => ok
  | arrived | expired _ | answered _ => false

/-- The answer of a handler that changes no session. `ok` is what `is_authenticated` has said, where
the handler asks. -/
def plainReply (st : DashboardState) (q : Request) (ok : Bool) (view : View) : Reply :=
  match q.endpoint with
  | .login none => .rejected
  | .login (some _) =>
    if !st.authEnabled then .login 200 none true "Authentication not required"
    else if ok then .login 200 none true "Already authenticated"
    else .login 401 none false "Invalid admin token"
  | .logout => .login 200 (some buildClearCookie) true "Logged out"
  | .authCheck => .authCheck ok st.authEnabled (isTlsEnabled st q.headers)
  | .status => if ok then .status (statusResponse st view) else .unauthorized
  | .clients => if ok then .clients view.clients else .unauthorized
  | .metrics => if ok then .metrics view.snapshot else .unauthorized

/-- A login creates a session: it asks, is not authenticated, and has the token. -/
def createsSession (st : DashboardState) (q : Request) (ok : Bool) : Bool :=
  match q.endpoint with
  | .login (some token) => st.authEnabled && !ok && checkToken st token
  | _ => false

def State.setPhase (s : State) (r : ReqId) (q : Request) (p : Phase) : State :=
  { s with requests := Function.update s.requests r (some (q, p)) }

/-- The end of a handler. -/
def respond (st : DashboardState) (s : State) (r : ReqId) (q : Request) (ok : Bool) (uuid : String)
    (view : View) : Option (State × List Event) :=
  if createsSession st q ok then
    -- A generated id is new.
    if uuid ∈ s.generated then none
    else
      let cookie := buildSessionCookie uuid st.ttlSecs (isTlsEnabled st q.headers)
      let reply := Reply.login 200 (some cookie) true "Login successful"
      some ({ s with
          store := s.store.create uuid s.clock
          generated := uuid :: s.generated }.setPhase r q (.answered reply),
        [.issued r uuid s.clock, .replied r q reply])
  else
    let reply := plainReply st q ok view
    if q.endpoint = .logout then
      match extractSessionId q.headers with
      | none => some (s.setPhase r q (.answered reply), [.replied r q reply])
      | some sessionId =>
        some ({ s with store := s.store.invalidate sessionId }.setPhase r q (.answered reply),
          [.loggedOut r sessionId, .replied r q reply])
    else some (s.setPhase r q (.answered reply), [.replied r q reply])

variable (st : DashboardState)

def step (s : State) : Act → Option (State × List Event)
  | .elapse d => some ({ s with clock := s.clock + d }, [])
  | .arrive r q =>
    match s.requests r with
    | none => some (s.setPhase r q .arrived, [.arrived r q])
    | some _ => none
  | .authenticate r =>
    match s.requests r with
    | some (q, .arrived) =>
      if asks st q.endpoint then
        let phase := isAuthenticated st s.store q s.clock
        some (s.setPhase r q phase, [.checked r q s.clock phase.verdict])
      else none
    | _ => none
  | .remove r =>
    match s.requests r with
    | some (q, .expired sessionId) =>
      some ({ s with store := s.store.invalidate sessionId }.setPhase r q (.decided false), [])
    | _ => none
  | .respond r uuid view =>
    match s.requests r with
    | some (q, .arrived) => if asks st q.endpoint then none else respond st s r q false uuid view
    | some (q, .decided ok) => respond st s r q ok uuid view
    | _ => none

def start : State where
  store := { ttlSecs := st.ttlSecs }
  generated := []
  clock := 0
  requests := fun _ ↦ none

/-- The dashboard as a machine. -/
def machine : Machine State Act Event where
  init := start st
  step := step st

/-! ## What a step can do -/

/-- The inversion of `step`. -/
inductive Transition (s : State) : Act → State → List Event → Prop
  | elapse (d : ℕ) : Transition s (.elapse d) { s with clock := s.clock + d } []
  | arrive {r : ReqId} {q : Request} (hr : s.requests r = none) :
      Transition s (.arrive r q) (s.setPhase r q .arrived) [.arrived r q]
  | authenticate {r : ReqId} {q : Request} (hr : s.requests r = some (q, .arrived)) :
      Transition s (.authenticate r)
        (s.setPhase r q (isAuthenticated st s.store q s.clock))
        [.checked r q s.clock (isAuthenticated st s.store q s.clock).verdict]
  | remove {r : ReqId} {q : Request} {sessionId : String}
      (hr : s.requests r = some (q, .expired sessionId)) :
      Transition s (.remove r)
        ({ s with store := s.store.invalidate sessionId }.setPhase r q (.decided false)) []
  | create {r : ReqId} {q : Request} {uuid token cookie : String} {view : View}
      (hr : s.requests r = some (q, .decided false)) (hq : q.endpoint = .login (some token))
      (htoken : checkToken st token = true) (hnew : uuid ∉ s.generated) :
      Transition s (.respond r uuid view)
        ({ s with
          store := s.store.create uuid s.clock
          generated := uuid :: s.generated }.setPhase r q
            (.answered (.login 200 (some cookie) true "Login successful")))
        [.issued r uuid s.clock,
          .replied r q (.login 200 (some cookie) true "Login successful")]
  | logout {r : ReqId} {q : Request} {p : Phase} {uuid sessionId : String} {view : View}
      {reply : Reply} (hr : s.requests r = some (q, p)) (hq : q.endpoint = .logout)
      (hid : extractSessionId q.headers = some sessionId) :
      Transition s (.respond r uuid view)
        ({ s with store := s.store.invalidate sessionId }.setPhase r q (.answered reply))
        [.loggedOut r sessionId, .replied r q reply]
  | reply {r : ReqId} {q : Request} {p : Phase} {uuid : String} {view : View} {ok : Bool}
      (hr : s.requests r = some (q, p))
      (hp : p = .decided ok ∨ p = .arrived ∧ asks st q.endpoint = false) :
      Transition s (.respond r uuid view) (s.setPhase r q (.answered (plainReply st q ok view)))
        [.replied r q (plainReply st q ok view)]

variable {st} {h h' h₁ h₂ : List Event} {s t : State} {a : Act} {es : List Event} {r : ReqId}
  {q : Request} {p : Phase} {sessionId : String} {now : ℕ} {ok : Bool}

theorem createsSession_eq_true : createsSession st q ok = true ↔
    st.authEnabled = true ∧ ok = false ∧
      ∃ token, q.endpoint = .login (some token) ∧ checkToken st token = true := by
  rw [createsSession]
  split
  · rename_i token hq
    simp [hq, and_assoc]
  · rename_i hq
    simp only [Bool.false_eq_true, false_iff, not_and, not_exists]
    exact fun _ _ token htoken ↦ absurd htoken (hq token)

private theorem respond_transition {uuid : String} {view : View}
    (hr : s.requests r = some (q, p))
    (hp : p = .decided ok ∨ p = .arrived ∧ asks st q.endpoint = false)
    (hstep : respond st s r q ok uuid view = some (t, es)) :
    Transition st s (.respond r uuid view) t es := by
  rw [respond] at hstep
  split at hstep
  · rename_i hcreate
    obtain ⟨henabled, rfl, token, hq, htoken⟩ := createsSession_eq_true.mp hcreate
    split at hstep
    · cases hstep
    · rename_i hnew
      rw [Option.some.injEq, Prod.mk.injEq] at hstep
      obtain ⟨rfl, rfl⟩ := hstep
      rcases hp with rfl | ⟨-, hasks⟩
      · exact .create hr hq htoken hnew
      · rw [hq, asks, henabled] at hasks
        cases hasks
  · split at hstep
    · rename_i hq
      split at hstep
      · rw [Option.some.injEq, Prod.mk.injEq] at hstep
        obtain ⟨rfl, rfl⟩ := hstep
        exact .reply hr hp
      · rename_i sessionId hid
        rw [Option.some.injEq, Prod.mk.injEq] at hstep
        obtain ⟨rfl, rfl⟩ := hstep
        exact .logout hr hq hid
    · rw [Option.some.injEq, Prod.mk.injEq] at hstep
      obtain ⟨rfl, rfl⟩ := hstep
      exact .reply hr hp

theorem step_transition (hstep : step st s a = some (t, es)) : Transition st s a t es := by
  cases a with
  | elapse d =>
    rw [step, Option.some.injEq, Prod.mk.injEq] at hstep
    obtain ⟨rfl, rfl⟩ := hstep
    exact .elapse d
  | arrive r q =>
    simp only [step] at hstep
    split at hstep
    · rename_i hr
      rw [Option.some.injEq, Prod.mk.injEq] at hstep
      obtain ⟨rfl, rfl⟩ := hstep
      exact .arrive hr
    · cases hstep
  | authenticate r =>
    simp only [step] at hstep
    split at hstep
    · rename_i q hr
      split at hstep
      · rw [Option.some.injEq, Prod.mk.injEq] at hstep
        obtain ⟨rfl, rfl⟩ := hstep
        exact .authenticate hr
      · cases hstep
    · cases hstep
  | remove r =>
    simp only [step] at hstep
    split at hstep
    · rename_i q sessionId hr
      rw [Option.some.injEq, Prod.mk.injEq] at hstep
      obtain ⟨rfl, rfl⟩ := hstep
      exact .remove hr
    · cases hstep
  | respond r uuid view =>
    simp only [step] at hstep
    split at hstep
    · rename_i q hr
      split at hstep
      · cases hstep
      · rename_i hasks
        exact respond_transition hr (.inr ⟨rfl, Bool.not_eq_true _ ▸ hasks⟩) hstep
    · rename_i q ok hr
      exact respond_transition hr (.inl rfl) hstep
    · cases hstep

/-! ## The invariant -/

/-- The sessions as leases: a login issues one, a logout revokes one. -/
def leaseLog (h : List Event) : List (Lease.Event String) :=
  h.filterMap fun
    | .issued _ sessionId now => some (.issue sessionId now)
    | .loggedOut _ sessionId => some (.revoke sessionId)
    | .arrived .. | .checked .. | .replied .. => none

@[simp] theorem leaseLog_append : leaseLog (h ++ h') = leaseLog h ++ leaseLog h' :=
  List.filterMap_append

theorem setPhase_requests (s : State) (r r' : ReqId) (q : Request) (p : Phase) :
    (s.setPhase r q p).requests r' = if r' = r then some (q, p) else s.requests r' :=
  Function.update_apply ..

/-- What a request has behind it. -/
structure RequestInv (st : DashboardState) (h : List Event) (clock : ℕ) (r : ReqId) (q : Request)
    (p : Phase) : Prop where
  arrived : .arrived r q ∈ h
  decided : ∀ ok, p = .decided ok → ∃ now, .checked r q now ok ∈ h
  expired : ∀ sessionId, p = .expired sessionId → (∃ now, .checked r q now false ∈ h) ∧
    ∃ t, .issue sessionId t ∈ leaseLog h ∧ ¬SessionStore.Alive st.ttlSecs (clock - t)

theorem alive_antitone (ttlSecs : UInt64) : Antitone (SessionStore.Alive ttlSecs) :=
  fun _ _ hle hage ↦ (Nat.div_le_div_right hle).trans_lt hage

theorem RequestInv.later {clock clock' : ℕ} (hi : RequestInv st h clock r q p)
    (hle : clock ≤ clock') : RequestInv st (h ++ h') clock' r q p where
  arrived := List.mem_append_left _ hi.arrived
  decided ok hp := by
    obtain ⟨now, hmem⟩ := hi.decided ok hp
    exact ⟨now, List.mem_append_left _ hmem⟩
  expired sessionId hp := by
    obtain ⟨⟨now, hmem⟩, t, ht, hdead⟩ := hi.expired sessionId hp
    refine ⟨⟨now, List.mem_append_left _ hmem⟩, t, ?_, fun hage ↦ hdead ?_⟩
    · rw [leaseLog_append]
      exact List.mem_append_left _ ht
    · exact alive_antitone st.ttlSecs (Nat.sub_le_sub_right hle t) hage

/-- The store agrees with the logins and logouts so far, and every handler with what it was told. -/
structure Sessions (st : DashboardState) (h : List Event) (s : State) : Prop where
  request : ∀ r q p, s.requests r = some (q, p) → RequestInv st h s.clock r q p
  tracks : Lease.Tracks (SessionStore.Alive st.ttlSecs) (leaseLog h) s.store.sessions s.clock
  ttl : s.store.ttlSecs = st.ttlSecs
  generated : ∀ sessionId ∈ Lease.issued (leaseLog h), sessionId ∈ s.generated
  clock : ∀ r q now ok, .checked r q now ok ∈ h → now ≤ s.clock

/-- A young session of the store is what makes a request authenticated. -/
theorem verdict_iff {store : SessionStore} (henabled : st.authEnabled = true) :
    (isAuthenticated st store q now).verdict = true ↔ ∃ sessionId t,
      extractSessionId q.headers = some sessionId ∧ store.sessions sessionId = some t ∧
        SessionStore.Alive store.ttlSecs (now - t) := by
  rw [isAuthenticated, henabled]
  cases hid : extractSessionId q.headers with
  | none => simp [Phase.verdict]
  | some sessionId =>
    cases hs : store.sessions sessionId with
    | none => simp [SessionStore.inspect, hs, Phase.verdict]
    | some t =>
      by_cases hage : SessionStore.Alive store.ttlSecs (now - t) <;>
        simp [SessionStore.inspect, hs, hage, Phase.verdict]

theorem eq_expired {store : SessionStore}
    (hp : isAuthenticated st store q now = .expired sessionId) : ∃ t,
      store.sessions sessionId = some t ∧ ¬SessionStore.Alive store.ttlSecs (now - t) := by
  rw [isAuthenticated] at hp
  split at hp
  · cases hp
  · split at hp
    · cases hp
    · rename_i id _
      cases hs : store.sessions id with
      | none => simp [SessionStore.inspect, hs] at hp
      | some t =>
        by_cases hage : SessionStore.Alive store.ttlSecs (now - t)
        · simp [SessionStore.inspect, hs, hage] at hp
        · simp only [SessionStore.inspect, hs, hage, if_false, Phase.expired.injEq] at hp
          subst hp
          exact ⟨t, hs, hage⟩

namespace Sessions

theorem start : Sessions st [] (start st) where
  request r q p hr := by cases hr
  tracks := .empty _ _
  ttl := rfl
  generated sessionId hmem := by cases hmem
  clock r q now ok hmem := by cases hmem

private theorem request_set (hi : Sessions st h s) {s₀ : State}
    (hrequests : s₀.requests = s.requests) (hclock : s₀.clock = s.clock)
    (hnew : RequestInv st (h ++ es) s.clock r q p) : ∀ r' q' p',
      (s₀.setPhase r q p).requests r' = some (q', p') →
        RequestInv st (h ++ es) (s₀.setPhase r q p).clock r' q' p' := by
  intro r' q' p' hr'
  rw [setPhase_requests, hrequests] at hr'
  rw [show (s₀.setPhase r q p).clock = s.clock from hclock]
  split at hr'
  · rename_i heq
    rw [Option.some.injEq, Prod.mk.injEq] at hr'
    obtain ⟨rfl, rfl⟩ := hr'
    exact heq ▸ hnew
  · exact (hi.request r' q' p' hr').later le_rfl

private theorem clock_append (hi : Sessions st h s) (hle : s.clock ≤ t.clock)
    (hes : ∀ r q now ok, .checked r q now ok ∈ es → now ≤ t.clock) :
    ∀ r q now ok, .checked r q now ok ∈ h ++ es → now ≤ t.clock := by
  intro r q now ok hmem
  rcases List.mem_append.mp hmem with hmem | hmem
  · exact (hi.clock r q now ok hmem).trans hle
  · exact hes r q now ok hmem

private theorem requestInv_answered {reply : Reply} {clock : ℕ} (harr : .arrived r q ∈ h) :
    RequestInv st (h ++ es) clock r q (.answered reply) :=
  ⟨List.mem_append_left _ harr, nofun, nofun⟩

/-- **The step lemma.** -/
theorem step (hi : Sessions st h s) (hstep : Dashboard.step st s a = some (t, es)) :
    Sessions st (h ++ es) t := by
  cases step_transition hstep with
  | elapse d =>
    have hle : s.clock ≤ s.clock + d := Nat.le_add_right _ _
    refine ⟨fun r q p hr ↦ (hi.request r q p hr).later hle, ?_, hi.ttl, ?_,
      hi.clock_append hle (by simp)⟩
    · rw [List.append_nil]
      exact hi.tracks.wait (alive_antitone _) hle
    · rw [List.append_nil]
      exact hi.generated
  | @arrive r q hr =>
    have hlog : leaseLog (h ++ [.arrived r q]) = leaseLog h := by simp [leaseLog]
    refine ⟨hi.request_set rfl rfl ⟨by simp, nofun, nofun⟩, ?_, hi.ttl, ?_,
      hi.clock_append le_rfl (by simp)⟩
    · rw [hlog]
      exact hi.tracks
    · rw [hlog]
      exact hi.generated
  | @authenticate r q hr =>
    have hq := hi.request r q _ hr
    have hlog : leaseLog (h ++ [.checked r q s.clock
        (isAuthenticated st s.store q s.clock).verdict]) = leaseLog h := by simp [leaseLog]
    refine ⟨hi.request_set rfl rfl ⟨List.mem_append_left _ hq.arrived, fun ok hp ↦ ?_,
      fun sessionId hp ↦ ⟨?_, ?_⟩⟩, ?_, hi.ttl, ?_, hi.clock_append le_rfl ?_⟩
    · rw [hp]
      exact ⟨s.clock, List.mem_append_right _ (List.mem_singleton_self _)⟩
    · rw [hp]
      exact ⟨s.clock, List.mem_append_right _ (List.mem_singleton_self _)⟩
    · -- An expired session is in the store, so it was issued.
      obtain ⟨t, ht, hage⟩ := eq_expired hp
      obtain ⟨log₁, log₂, heq, -⟩ := hi.tracks.sound _ t ht
      refine ⟨t, ?_, hi.ttl ▸ hage⟩
      rw [hlog, heq]
      exact List.mem_append_right _ List.mem_cons_self
    · rw [hlog]
      exact hi.tracks
    · rw [hlog]
      exact hi.generated
    · intro r' q' now ok hmem
      rw [List.mem_singleton, Event.checked.injEq] at hmem
      exact hmem.2.2.1.le
  | @remove r q sessionId hr =>
    -- The session was too old when it was looked at, and it has not become younger since.
    have hq := hi.request r q _ hr
    obtain ⟨hchecked, t, ht, hdead⟩ := hq.expired sessionId rfl
    rw [List.append_nil]
    refine ⟨?_, hi.tracks.forget ht hdead, hi.ttl, hi.generated, hi.clock⟩
    have hinv : RequestInv st (h ++ []) s.clock r q (.decided false) := by
      refine ⟨by simpa using hq.arrived, fun ok hok ↦ ?_, nofun⟩
      cases hok
      simpa using hchecked
    have hset : ∀ r' q' p', (State.setPhase { s with store := s.store.invalidate sessionId } r q
        (.decided false)).requests r' = some (q', p') →
        RequestInv st (h ++ []) s.clock r' q' p' := hi.request_set rfl rfl hinv
    rw [List.append_nil] at hset
    exact hset
  | @create r q uuid token cookie view hr hq htoken hnew =>
    have hlog : leaseLog (h ++ [.issued r uuid s.clock,
        .replied r q (.login 200 (some cookie) true "Login successful")]) =
        leaseLog h ++ [.issue uuid s.clock] := by simp [leaseLog]
    refine ⟨hi.request_set rfl rfl (requestInv_answered (hi.request r q _ hr).arrived), ?_, hi.ttl,
      fun id hid ↦ ?_, hi.clock_append le_rfl (by simp)⟩
    · -- The id is new, so it has one place in the log.
      rw [hlog]
      exact hi.tracks.issue fun hmem ↦ hnew (hi.generated uuid hmem)
    · rw [hlog, Lease.issued_append, List.mem_append] at hid
      rcases hid with hid | hid
      · exact List.mem_cons_of_mem _ (hi.generated id hid)
      · rw [List.mem_singleton.mp hid]
        exact List.mem_cons_self
  | @logout r q p uuid sessionId view reply hr hq hid =>
    have hlog : leaseLog (h ++ [.loggedOut r sessionId, .replied r q reply]) =
        leaseLog h ++ [.revoke sessionId] := by simp [leaseLog]
    refine ⟨hi.request_set rfl rfl (requestInv_answered (hi.request r q _ hr).arrived), ?_, hi.ttl,
      fun id hid ↦ ?_, hi.clock_append le_rfl (by simp)⟩
    · rw [hlog]
      exact hi.tracks.revoke
    · rw [hlog, Lease.issued_append, List.mem_append] at hid
      exact hid.elim (hi.generated id) nofun
  | @reply r q p uuid view ok hr hp =>
    have hlog : leaseLog (h ++ [.replied r q (plainReply st q ok view)]) = leaseLog h := by
      simp [leaseLog]
    refine ⟨hi.request_set rfl rfl (requestInv_answered (hi.request r q _ hr).arrived), ?_, hi.ttl,
      ?_, hi.clock_append le_rfl (by simp)⟩
    · rw [hlog]
      exact hi.tracks
    · rw [hlog]
      exact hi.generated

/-- **The run lemma.** -/
theorem of_reach (hr : (machine st).Reach h s) : Sessions st h s :=
  hr.invariant start fun _ _ _ _ _ _ hi hstep ↦ hi.step hstep

end Sessions

/-! ## Who gets the data -/

/-- A session id is accepted at a time: a login with the configured token created the session, no
logout was passed the id since, and the session is younger than its time to live. -/
def Accepted (st : DashboardState) (h : List Event) (sessionId : String) (now : ℕ) : Prop :=
  ∃ h₁ r q createdAt h₂, h = h₁ ++ .issued r sessionId createdAt :: h₂ ∧
    .arrived r q ∈ h₁ ∧ q.endpoint = .login (some st.dashboardToken) ∧
    (∀ r', .loggedOut r' sessionId ∉ h₂) ∧ (now - createdAt) / second < st.ttlSecs.toNat

theorem checkToken_iff {token : String} (htoken : st.dashboardToken ≠ "") :
    checkToken st token = true ↔ token = st.dashboardToken :=
  DashboardAuthConfig.validateDashboardToken_iff htoken

/-- A session is created by a login with the configured token. -/
theorem login_of_issued (htoken : st.dashboardToken ≠ "")
    (hr : (machine st).Reach (h₁ ++ .issued r sessionId now :: h₂) s) :
    ∃ q, .arrived r q ∈ h₁ ∧ q.endpoint = .login (some st.dashboardToken) := by
  obtain ⟨h₀, v, a, w, es₁, es₂, h', hv, hstep, -, rfl, -⟩ := Machine.Steps.split hr
  have hmem : .issued r sessionId now ∈ es₁ ++ .issued r sessionId now :: es₂ :=
    List.mem_append_right _ List.mem_cons_self
  generalize es₁ ++ .issued r sessionId now :: es₂ = es at hstep hmem
  cases step_transition hstep with
  | @create r' q _ token _ _ hq hlogin hcheck =>
    simp only [List.mem_cons, Event.issued.injEq, reduceCtorEq, List.not_mem_nil, or_false] at hmem
    obtain ⟨rfl, -, -⟩ := hmem
    refine ⟨q, List.mem_append_left _ ((Sessions.of_reach hv).request r q _ hq).arrived, ?_⟩
    rw [hlogin, (checkToken_iff htoken).mp hcheck]
  | elapse | arrive | authenticate | remove | logout | reply => simp at hmem

theorem revoke_mem_leaseLog :
    .revoke sessionId ∈ leaseLog h ↔ ∃ r, .loggedOut r sessionId ∈ h := by
  rw [leaseLog, List.mem_filterMap]
  constructor
  · rintro ⟨e, he, heq⟩
    cases e with
    | loggedOut r id =>
      cases heq
      exact ⟨r, he⟩
    | _ => cases heq
  · rintro ⟨r, hmem⟩
    exact ⟨_, hmem, rfl⟩

theorem issue_mem_leaseLog :
    .issue sessionId now ∈ leaseLog h ↔ ∃ r, .issued r sessionId now ∈ h := by
  rw [leaseLog, List.mem_filterMap]
  constructor
  · rintro ⟨e, he, heq⟩
    cases e with
    | issued r id t =>
      cases heq
      exact ⟨r, he⟩
    | _ => cases heq
  · rintro ⟨r, hmem⟩
    exact ⟨_, hmem, rfl⟩

theorem accepted_iff (htoken : st.dashboardToken ≠ "") (hr : (machine st).Reach h s) :
    Accepted st h sessionId now ↔
      Lease.Valid (SessionStore.Alive st.ttlSecs) (leaseLog h) sessionId now := by
  constructor
  · rintro ⟨h₁, r, q, createdAt, h₂, rfl, -, -, hlogout, hage⟩
    refine ⟨leaseLog h₁, createdAt, leaseLog h₂, ?_, fun hmem ↦ ?_, hage⟩
    · rw [leaseLog_append]
      rfl
    · obtain ⟨r', hmem⟩ := revoke_mem_leaseLog.mp hmem
      exact hlogout r' hmem
  · rintro ⟨log₁, t, log₂, heq, hrev, hage⟩
    obtain ⟨h₁, h₂, rfl, rfl, htail⟩ := List.filterMap_eq_append_iff.mp heq
    obtain ⟨h₃, e, h₄, rfl, -, he, rfl⟩ := List.filterMap_eq_cons_iff.mp htail
    cases e with
    | issued r id t' =>
      cases he
      rw [← List.append_assoc] at hr ⊢
      obtain ⟨q, harr, hq⟩ := login_of_issued htoken hr
      exact ⟨_, r, q, t, h₄, rfl, harr, hq,
        fun r' hmem ↦ hrev (revoke_mem_leaseLog.mpr ⟨r', hmem⟩), hage⟩
    | _ => cases he

theorem exists_reach_of_checked
    (hr : (machine st).Reach (h₁ ++ .checked r q now ok :: h₂) s) : ∃ v,
      (machine st).Reach h₁ v ∧ now = v.clock ∧
        ok = (isAuthenticated st v.store q v.clock).verdict := by
  obtain ⟨h₀, v, a, w, es₁, es₂, h', hv, hstep, -, rfl, -⟩ := Machine.Steps.split hr
  have hmem : .checked r q now ok ∈ es₁ ++ .checked r q now ok :: es₂ :=
    List.mem_append_right _ List.mem_cons_self
  generalize hes : es₁ ++ .checked r q now ok :: es₂ = es at hstep hmem
  cases step_transition hstep with
  | authenticate =>
    cases es₁ with
    | nil =>
      rw [List.nil_append, List.cons.injEq, Event.checked.injEq] at hes
      obtain ⟨⟨rfl, rfl, rfl, rfl⟩, rfl⟩ := hes
      exact ⟨v, by rwa [List.append_nil], rfl, rfl⟩
    | cons e es₁ => simp at hes
  | elapse | arrive | create | remove | logout | reply => simp at hmem

theorem accepted_of_checked (henabled : st.authEnabled = true) (htoken : st.dashboardToken ≠ "")
    (hr : (machine st).Reach (h₁ ++ .checked r q now ok :: h₂) s) : ok = true ↔
      ∃ sessionId, extractSessionId q.headers = some sessionId ∧
        Accepted st h₁ sessionId now := by
  obtain ⟨v, hv, rfl, rfl⟩ := exists_reach_of_checked hr
  have hi : Sessions st h₁ v := .of_reach hv
  rw [verdict_iff henabled]
  refine exists_congr fun sessionId ↦ ?_
  rw [accepted_iff htoken hv, hi.tracks.valid_iff, hi.ttl, exists_and_left]

theorem isData_plainReply {view : View} (hguarded : q.endpoint.guarded = true) :
    (plainReply st q ok view).isData = ok := by
  rw [plainReply]
  cases hq : q.endpoint with
  | status | clients | metrics => cases ok <;> rfl
  | login | logout | authCheck =>
    rw [hq] at hguarded
    cases hguarded

/-- The answer to a request for data says what the check has said. -/
theorem checked_of_replied {reply : Reply} (hguarded : q.endpoint.guarded = true)
    (hr : (machine st).Reach h s) (hmem : .replied r q reply ∈ h) : ∃ h₁ now h₂,
      h = h₁ ++ .checked r q now reply.isData :: h₂ ∧ .replied r q reply ∈ h₂ := by
  obtain ⟨h₁, h₂, rfl⟩ := List.append_of_mem hmem
  obtain ⟨h₀, v, a, w, es₁, es₂, h', hv, hstep, -, rfl, rfl⟩ := Machine.Steps.split hr
  have hmem' : .replied r q reply ∈ es₁ ++ .replied r q reply :: es₂ :=
    List.mem_append_right _ List.mem_cons_self
  generalize es₁ ++ .replied r q reply :: es₂ = es at hstep hmem'
  cases step_transition hstep with
  | @reply r' q' p _ view ok hq hp =>
    rw [List.mem_singleton, Event.replied.injEq] at hmem'
    obtain ⟨rfl, rfl, rfl⟩ := hmem'
    rw [isData_plainReply hguarded]
    rcases hp with rfl | ⟨-, hasks⟩
    · obtain ⟨now, hchecked⟩ := ((Sessions.of_reach hv).request r q _ hq).decided ok rfl
      obtain ⟨l₁, l₂, rfl⟩ := List.append_of_mem hchecked
      refine ⟨l₁, now, l₂ ++ (es₁ ++ .replied r q (plainReply st q ok view) :: (es₂ ++ h')), ?_, ?_⟩
      · simp [List.append_assoc]
      · exact List.mem_append_right _ (List.mem_append_right _ List.mem_cons_self)
    · cases hep : q.endpoint with
      | status | clients | metrics =>
        rw [hep] at hasks
        cases hasks
      | login | logout | authCheck =>
        rw [hep] at hguarded
        cases hguarded
  | @create _ q' _ _ _ _ _ hlogin =>
    simp only [List.mem_cons, Event.replied.injEq, reduceCtorEq, List.not_mem_nil, or_false,
      false_or] at hmem'
    rw [hmem'.2.1, hlogin] at hguarded
    cases hguarded
  | @logout _ q' _ _ _ _ _ _ hlogout =>
    simp only [List.mem_cons, Event.replied.injEq, reduceCtorEq, List.not_mem_nil, or_false,
      false_or] at hmem'
    rw [hmem'.2.1, hlogout] at hguarded
    cases hguarded
  | elapse | arrive | authenticate | remove => simp at hmem'

/-- What the dashboard gives out, and to whom. -/
structure SessionsSound (st : DashboardState) (h : List Event) : Prop where
  /-- Data is the answer exactly when the session id of the request was accepted at the moment the
  handler asked. -/
  data : ∀ r q reply, .replied r q reply ∈ h → q.endpoint.guarded = true → ∃ h₁ now h₂,
    h = h₁ ++ .checked r q now reply.isData :: h₂ ∧ .replied r q reply ∈ h₂ ∧
      (reply.isData = true ↔ ∃ sessionId, extractSessionId q.headers = some sessionId ∧
        Accepted st h₁ sessionId now)
  /-- An id that was issued and then refused is refused for ever. -/
  final : ∀ h₁ r q now h₂ r' q' now' ok' sessionId, h = h₁ ++ .checked r q now false :: h₂ →
    .checked r' q' now' ok' ∈ h₂ → extractSessionId q.headers = some sessionId →
    extractSessionId q'.headers = some sessionId → (∃ r₀ t, .issued r₀ sessionId t ∈ h₁) →
    ok' = false

theorem refused_of_refused {r' : ReqId} {q' : Request} {now' : ℕ} {ok' : Bool}
    (henabled : st.authEnabled = true) (htoken : st.dashboardToken ≠ "")
    (hr : (machine st).Reach (h₁ ++ .checked r q now false :: h₂) s)
    (hmem : .checked r' q' now' ok' ∈ h₂) (hid : extractSessionId q.headers = some sessionId)
    (hid' : extractSessionId q'.headers = some sessionId)
    (hissued : ∃ r₀ t, .issued r₀ sessionId t ∈ h₁) : ok' = false := by
  obtain ⟨l₁, l₂, rfl⟩ := List.append_of_mem hmem
  have hr' : (machine st).Reach
      ((h₁ ++ .checked r q now false :: l₁) ++ .checked r' q' now' ok' :: l₂) s := by
    simpa using hr
  obtain ⟨u, hu, -, -⟩ := exists_reach_of_checked hr
  obtain ⟨v, hv, hnow, -⟩ := exists_reach_of_checked hr'
  have hi : Sessions st _ v := .of_reach hv
  have hlog : leaseLog (h₁ ++ .checked r q now false :: l₁) = leaseLog h₁ ++ leaseLog l₁ := by
    rw [leaseLog_append]
    rfl
  by_contra hne
  obtain ⟨id, hext, hacc⟩ := (accepted_of_checked henabled htoken hr').mp (by simpa using hne)
  rw [hid', Option.some.injEq] at hext
  subst hext
  rw [accepted_iff htoken hv, hlog] at hacc
  have hle : now ≤ now' := by
    rw [hnow]
    exact hi.clock r q now false (List.mem_append_right _ List.mem_cons_self)
  have hissued' : sessionId ∈ Lease.issued (leaseLog h₁) := by
    obtain ⟨r₀, t, hmem⟩ := hissued
    exact Lease.mem_issued.mpr ⟨t, issue_mem_leaseLog.mpr ⟨r₀, hmem⟩⟩
  have hvalid := hacc.of_later (alive_antitone _) (hlog ▸ hi.tracks.once) hissued' hle
  have htrue := (accepted_of_checked henabled htoken hr).mpr
    ⟨sessionId, hid, (accepted_iff htoken hu).mpr hvalid⟩
  cases htrue

/-- **Data is for accepted sessions only**, whatever requests come, and the end of a session is
final. -/
theorem sessions_sound (config : ServerConfig) (auth : DashboardAuthConfig) (controlPort : UInt16)
    (h : List Event) (s : State) (htoken : auth.token ≠ "")
    (hr : (machine (.ofConfig config auth controlPort)).Reach h s) :
    SessionsSound (.ofConfig config auth controlPort) h := by
  have henabled : (DashboardState.ofConfig config auth controlPort).authEnabled = true :=
    DashboardAuthConfig.dashboardAuthEnabled_iff.mpr htoken
  refine ⟨fun r q reply hmem hguarded ↦ ?_,
    fun h₁ r q now h₂ r' q' now' ok' sessionId heq hmem hid hid' hissued ↦
      refused_of_refused henabled htoken (heq ▸ hr) hmem hid hid' hissued⟩
  obtain ⟨h₁, now, h₂, rfl, hafter⟩ := checked_of_replied hguarded hr hmem
  exact ⟨h₁, now, h₂, rfl, hafter, accepted_of_checked henabled htoken hr⟩

/-- The header `Cookie: a=b; zo-session=k1`. -/
def sampleCookie : List (String × HeaderValue) :=
  [("cookie", ⟨[97, 61, 98, 59, 32, 122, 111, 45, 115, 101, 115, 115, 105, 111, 110, 61, 107, 49],
    by decide +kernel⟩)]

/-- A login, a request for the status, a logout, and a request for the metrics. -/
def sampleRun : List Act :=
  [.arrive 0 ⟨[], .login (some "pw")⟩, .authenticate 0, .respond 0 "k1" {}, .elapse second,
    .arrive 1 ⟨sampleCookie, .status⟩, .authenticate 1, .respond 1 "" {},
    .arrive 2 ⟨sampleCookie, .logout⟩, .respond 2 "" {},
    .arrive 3 ⟨sampleCookie, .metrics⟩, .authenticate 3, .respond 3 "" {}]

/-- The first request gets data, the second one is refused. -/
theorem sessions_sound_logout : ∃ h s,
    (machine (.ofConfig {} { token := "pw" } 6200)).run
      (start (.ofConfig {} { token := "pw" } 6200)) sampleRun = some (s, h) ∧
    .replied 1 ⟨sampleCookie, .status⟩
      (.status (statusResponse (.ofConfig {} { token := "pw" } 6200) {})) ∈ h ∧
    .replied 3 ⟨sampleCookie, .metrics⟩ .unauthorized ∈ h ∧
    SessionsSound (.ofConfig {} { token := "pw" } 6200) h := by
  have hrun : ((machine (.ofConfig {} { token := "pw" } 6200)).run
      (start (.ofConfig {} { token := "pw" } 6200)) sampleRun).map (fun p ↦
        decide (.replied 1 ⟨sampleCookie, .status⟩
          (.status (statusResponse (.ofConfig {} { token := "pw" } 6200) {})) ∈ p.2) &&
        decide (.replied 3 ⟨sampleCookie, .metrics⟩ .unauthorized ∈ p.2)) = some true := by
    decide +kernel
  obtain ⟨⟨s, h⟩, hsh, hmem⟩ := Option.map_eq_some_iff.mp hrun
  rw [Bool.and_eq_true, decide_eq_true_eq, decide_eq_true_eq] at hmem
  exact ⟨h, s, hsh, hmem.1, hmem.2, sessions_sound {} { token := "pw" } 6200 h s (by decide)
    (.of_run hsh)⟩

end Dashboard

end ZoTunnel
