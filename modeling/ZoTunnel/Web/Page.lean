import ZoTunnel.Web.ClientsTable

/-!
# The dashboard page

The page shows either its login form or the dashboard, and asks for new data every two seconds as
long as it is the dashboard. Whether it may, it learns from the answers: `checkAuth` when the page
is loaded, `handleLogin` and `handleLogout` for the two buttons, and any request for data that is
answered with status 401.

Handlers run to their next `await` without a break, and then wait for their requests, which are
answered in any order, or fail. A refresh makes three requests and waits for all of them. So a
handler can go on when the page has changed its mind several times since, and the timer that it
starts or stops is not the one that it has seen.

In an answer that is JSON, a field that is not there is false. A request for data is never answered
with the data of another one; in the model that is a failure. What the page does with an element of
its markup is left out where nothing reads it.
-/

namespace ZoTunnel

namespace DashboardPage

open Dashboard (Endpoint Reply ClientInfo StatusResponse MetricsSnapshot)

abbrev TimerId := ℕ
abbrev FetchId := ℕ
abbrev RefreshId := ℕ

/-! ## Answers -/

/-- What a call of `fetch` comes to. -/
inductive Response
  | failed
  | answer (reply : Reply)
  /-- An answer that is not JSON, of something between the page and the server. -/
  | foreign (status : ℕ)
  deriving DecidableEq

/-- The fields `authenticated`, `auth_required` and `tls_enabled`, unless `json` throws. -/
def Response.authCheck : Response → Option (Bool × Bool × Bool)
  | failed | foreign _ | answer .rejected => none
  | answer (.authCheck authenticated authRequired tlsEnabled) =>
    some (authenticated, authRequired, tlsEnabled)
  | answer _ => some (false, false, false)

/-- The fields `success` and `message`, unless `json` throws. -/
def Response.login : Response → Option (Bool × String)
  | failed | foreign _ | answer .rejected => none
  | answer (.login _ _ success message) => some (success, message)
  | answer _ => some (false, "")

/-- Status 401, for a request for data. -/
def Response.unauthorized : Response → Bool
  | answer .unauthorized => true
  | foreign status => status == 401
  | _ => false

/-- The three requests of a refresh. -/
inductive Part
  | status
  | clients
  | metrics
  deriving DecidableEq, Repr

def Part.endpoint : Part → Endpoint
  | status => .status
  | clients => .clients
  | metrics => .metrics

/-- The results that `Promise.all` has so far. -/
structure Refresh where
  status : Option StatusResponse := none
  clients : Option (List ClientInfo) := none
  metrics : Option MetricsSnapshot := none

def Refresh.has (rf : Refresh) : Part → Bool
  | .status => rf.status.isSome
  | .clients => rf.clients.isSome
  | .metrics => rf.metrics.isSome

/-- An answer to one of the requests. -/
def Refresh.put (rf : Refresh) : Part → Response → Option Refresh
  | .status, .answer (.status data) => some { rf with status := some data }
  | .clients, .answer (.clients data) => some { rf with clients := some data }
  | .metrics, .answer (.metrics data) => some { rf with metrics := some data }
  | _, _ => none

/-! ## The page -/

/-- The handler that waits for a request. -/
inductive Await
  | checkAuth
  | login
  | logout
  | refresh (n : RefreshId) (part : Part)
  deriving DecidableEq, Repr

structure State where
  loginShown : Bool
  dashboardShown : Bool
  refreshInterval : Option TimerId
  timers : List TimerId
  nextTimer : TimerId
  tlsWarning : Bool
  loginError : String
  disabled : Bool
  /-- What the numbers above the table are those of. -/
  stats : Option (StatusResponse × MetricsSnapshot)
  table : ClientsTable.Page
  /-- The requests that are not answered, and who waits for them. -/
  fetches : FetchId → Option Await
  nextFetch : FetchId
  refreshes : RefreshId → Option Refresh
  nextRefresh : RefreshId

inductive Act
  | submit (token : String)
  | logout
  | tick (id : TimerId)
  /-- A request is answered, or fails. -/
  | settle (f : FetchId) (r : Response)

inductive Event
  | fetch (f : FetchId) (e : Endpoint)
  /-- A request for data was answered with status 401. -/
  | unauthorized (f : FetchId)
  deriving DecidableEq

/-- What `trim` removes. -/
def isSpace (c : Char) : Bool :=
  9 ≤ c.toNat && c.toNat ≤ 13 || c.toNat == 32 || c.toNat == 160 || c.toNat == 5760 ||
    8192 ≤ c.toNat && c.toNat ≤ 8202 || c.toNat == 8232 || c.toNat == 8233 || c.toNat == 8239 ||
    c.toNat == 8287 || c.toNat == 12288 || c.toNat == 65279

def trim (text : String) : String :=
  String.ofList ((text.toList.dropWhile isSpace).rdropWhile isSpace)

/-- A call of `fetch`, up to the `await`. -/
def call (s : State) (w : Await) (e : Endpoint) : State × List Event :=
  ({ s with
    fetches := Function.update s.fetches s.nextFetch (some w)
    nextFetch := s.nextFetch + 1 }, [.fetch s.nextFetch e])

/-- `clearInterval(refreshInterval)`, if there is one. -/
def clearTimer (s : State) : State :=
  { s with
    timers := match s.refreshInterval with
      | some id => s.timers.erase id
      | none => s.timers }

/-- `refresh`, up to the `await`. -/
def startRefresh (s : State) : State × List Event :=
  let n := s.nextRefresh
  let s := { s with
    refreshes := Function.update s.refreshes n (some {})
    nextRefresh := n + 1 }
  let (s, es₁) := call s (.refresh n .status) .status
  let (s, es₂) := call s (.refresh n .clients) .clients
  let (s, es₃) := call s (.refresh n .metrics) .metrics
  (s, es₁ ++ es₂ ++ es₃)

def showLogin (s : State) : State :=
  { clearTimer s with loginShown := true, dashboardShown := false, refreshInterval := none }

def showDashboard (s : State) : State × List Event :=
  let (s, es) := startRefresh { s with loginShown := false, dashboardShown := true }
  let s := clearTimer s
  ({ s with
    refreshInterval := some s.nextTimer
    timers := s.nextTimer :: s.timers
    nextTimer := s.nextTimer + 1 }, es)

/-- The rest of `checkAuth`. -/
def onAuthCheck (s : State) (r : Response) : State × List Event :=
  match r.authCheck with
  | none => (showLogin s, [])
  | some (authenticated, authRequired, tlsEnabled) =>
    let s := { s with tlsWarning := !tlsEnabled }
    if !authRequired || authenticated then showDashboard s else (showLogin s, [])

/-- The rest of `handleLogin`. -/
def onLogin (s : State) (r : Response) : State × List Event :=
  let (s, es) := match r.login with
    | none => ({ s with loginError := "Connection error. Please try again." }, [])
    | some (true, _) => showDashboard s
    | some (false, message) =>
      ({ s with loginError := if message = "" then "Login failed" else message }, [])
  ({ s with disabled := false }, es)

/-- `Promise.all` of a refresh is rejected. -/
def reject (s : State) (n : RefreshId) (offline : Bool) : State :=
  match s.refreshes n with
  | none => s
  | some _ =>
    { s with
      refreshes := Function.update s.refreshes n none
      table := if offline then ClientsTable.refresh s.table .failed else s.table }

/-- The rest of a refresh, once all three answers are there. -/
def complete (s : State) (n : RefreshId) (rf : Refresh) : State :=
  match rf.status, rf.clients, rf.metrics with
  | some status, some clients, some metrics =>
    { s with
      refreshes := Function.update s.refreshes n none
      stats := some (status, metrics)
      table := ClientsTable.refresh s.table (.clients clients) }
  | _, _, _ => { s with refreshes := Function.update s.refreshes n (some rf) }

/-- The rest of `fetchJSON`, and what a refresh makes of it. -/
def onData (s : State) (f : FetchId) (n : RefreshId) (part : Part) (r : Response) :
    State × List Event :=
  if r.unauthorized then (reject (showLogin s) n false, [.unauthorized f])
  else
    match s.refreshes n with
    | none => (s, [])
    | some rf =>
      match rf.put part r with
      | none => (reject s n true, [])
      | some rf => (complete s n rf, [])

/-- A request is answered: its handler goes on. -/
def settle (s : State) (f : FetchId) (r : Response) : Await → State × List Event
  | .checkAuth => onAuthCheck s r
  | .login => onLogin s r
  | .logout => (showLogin s, [])
  | .refresh n part => onData s f n part r

/-- `handleLogin`, up to the `await`. A button that is disabled submits nothing. -/
def submit (s : State) (token : String) : State × List Event :=
  if trim token = "" then ({ s with loginError := "Please enter your admin token" }, [])
  else call { s with disabled := true, loginError := "" } .login (.login (some (trim token)))

def step (s : State) : Act → Option (State × List Event)
  | .submit token => if s.disabled then none else some (submit s token)
  | .logout => some (call s .logout .logout)
  | .tick id => if id ∈ s.timers then some (startRefresh s) else none
  | .settle f r =>
    match s.fetches f with
    | none => none
    | some w => some (settle { s with fetches := Function.update s.fetches f none } f r w)

/-- The page as it is delivered. -/
def State.initial : State where
  loginShown := true
  dashboardShown := false
  refreshInterval := none
  timers := []
  nextTimer := 1
  tlsWarning := true
  loginError := ""
  disabled := false
  stats := none
  table := .initial
  fetches _ := none
  nextFetch := 0
  refreshes _ := none
  nextRefresh := 0

/-- The page once it is loaded: `checkAuth` has made its request. -/
def load : State × List Event := call .initial .checkAuth .authCheck

def machine : Machine State Act Event where
  init := load.1
  step := step

variable {s t : State} {a : Act} {es h : List Event} {f : FetchId} {r : Response} {w : Await}
  {n : RefreshId} {part : Part}

/-! ## What a step can do -/

/-- The answer does not let its handler show the dashboard. -/
def Response.refuses (r : Response) : Await → Bool
  | .checkAuth =>
    match r.authCheck with
    | some (authenticated, authRequired, _) => authRequired && !authenticated
    | none => true
  | .login =>
    match r.login with
    | some (success, _) => !success
    | none => true
  | .logout | .refresh .. => true

/-- The ways in which a handler can go on. -/
inductive Settled (s : State) (f : FetchId) (r : Response) : Await → State → List Event → Prop
  | toLogin {w : Await} {tlsWarning : Bool} (hw : w = .checkAuth ∨ w = .logout) :
      Settled s f r w (showLogin { s with tlsWarning }) []
  | checked {tlsWarning : Bool} (hr : r.refuses .checkAuth = false) :
      Settled s f r .checkAuth (showDashboard { s with tlsWarning }).1
        (showDashboard { s with tlsWarning }).2
  | loggedIn (hr : r.refuses .login = false) :
      Settled s f r .login { (showDashboard s).1 with disabled := false } (showDashboard s).2
  | notLoggedIn {loginError : String} :
      Settled s f r .login { s with loginError, disabled := false } []
  | unauthorized {n : RefreshId} {part : Part} (hr : r.unauthorized = true) :
      Settled s f r (.refresh n part) (reject (showLogin s) n false) [.unauthorized f]
  | late {n : RefreshId} {part : Part} (hn : s.refreshes n = none) :
      Settled s f r (.refresh n part) s []
  | broken {n : RefreshId} {part : Part} {rf : Refresh} (hn : s.refreshes n = some rf) :
      Settled s f r (.refresh n part) (reject s n true) []
  | got {n : RefreshId} {part : Part} {rf rf' : Refresh} (hn : s.refreshes n = some rf)
      (hput : rf.put part r = some rf') :
      Settled s f r (.refresh n part) (complete s n rf') []

private theorem toLogin_of (hw : w = .checkAuth ∨ w = .logout) :
    Settled s f r w (showLogin s) [] := by
  have h : Settled s f r w (showLogin { s with tlsWarning := s.tlsWarning }) [] := .toLogin hw
  exact h

theorem settle_settled (s : State) (f : FetchId) (r : Response) (w : Await) :
    Settled s f r w (settle s f r w).1 (settle s f r w).2 := by
  cases w with
  | checkAuth =>
    simp only [settle, onAuthCheck]
    split
    · exact toLogin_of (.inl rfl)
    · rename_i authenticated authRequired tlsEnabled hr
      split
      · rename_i hadm
        refine .checked ?_
        rw [Response.refuses, hr]
        cases authRequired <;> cases authenticated <;> simp_all
      · exact .toLogin (.inl rfl)
  | login =>
    simp only [settle, onLogin]
    split
    · exact .notLoggedIn
    · rename_i hr
      refine .loggedIn ?_
      rw [Response.refuses, hr]
      rfl
    · exact .notLoggedIn
  | logout => exact toLogin_of (.inr rfl)
  | refresh n part =>
    simp only [settle, onData]
    split
    · rename_i hr
      exact .unauthorized hr
    · split
      · rename_i hn
        exact .late hn
      · rename_i rf hn
        split
        · exact .broken hn
        · rename_i rf' hput
          exact .got hn hput

/-- The request is not under way any more. -/
def State.settled (s : State) (f : FetchId) : State :=
  { s with fetches := Function.update s.fetches f none }

/-- What a step can do. -/
inductive Transition (s : State) : Act → State → List Event → Prop
  | blank {token : String} (hbutton : s.disabled = false) :
      Transition s (.submit token) { s with loginError := "Please enter your admin token" } []
  | submit {token : String} (hbutton : s.disabled = false) (htoken : trim token ≠ "") :
      Transition s (.submit token)
        (call { s with disabled := true, loginError := "" } .login
          (.login (some (trim token)))).1
        [.fetch s.nextFetch (.login (some (trim token)))]
  | logout : Transition s .logout (call s .logout .logout).1 [.fetch s.nextFetch .logout]
  | tick {id : TimerId} (hid : id ∈ s.timers) :
      Transition s (.tick id) (startRefresh s).1 (startRefresh s).2
  | settle {f : FetchId} {r : Response} {w : Await} {t : State} {es : List Event}
      (hf : s.fetches f = some w) (ht : Settled (s.settled f) f r w t es) :
      Transition s (.settle f r) t es

/-- **Inversion.** Every step is one of the transitions. -/
theorem step_transition (hstep : step s a = some (t, es)) : Transition s a t es := by
  cases a with
  | submit token =>
    simp only [step] at hstep
    split at hstep
    · cases hstep
    · rename_i hbutton
      rw [Bool.not_eq_true] at hbutton
      by_cases htoken : trim token = ""
      · rw [submit, if_pos htoken] at hstep
        obtain ⟨rfl, rfl⟩ := Prod.mk.inj (Option.some.inj hstep)
        exact .blank hbutton
      · rw [submit, if_neg htoken] at hstep
        obtain ⟨rfl, rfl⟩ := Prod.mk.inj (Option.some.inj hstep)
        exact .submit hbutton htoken
  | logout =>
    obtain ⟨rfl, rfl⟩ := Prod.mk.inj (Option.some.inj hstep)
    exact .logout
  | tick id =>
    simp only [step] at hstep
    split at hstep
    · rename_i hid
      obtain ⟨rfl, rfl⟩ := Prod.mk.inj (Option.some.inj hstep)
      exact .tick hid
    · cases hstep
  | settle f r =>
    simp only [step] at hstep
    split at hstep
    · cases hstep
    · rename_i w hf
      obtain ⟨rfl, rfl⟩ := Prod.mk.inj (Option.some.inj hstep)
      exact .settle hf (settle_settled (s.settled f) f r w)

/-! ## Screens and timers -/

/-- What is shown, and what runs. -/
structure Ui (s : State) : Prop where
  screens : s.loginShown = !s.dashboardShown
  timers : s.timers = s.refreshInterval.toList
  polls : s.refreshInterval.isSome = s.dashboardShown

namespace Ui

theorem clearTimer (hs : Ui s) : (clearTimer s).timers = [] := by
  rw [DashboardPage.clearTimer, hs.timers]
  cases s.refreshInterval <;> simp

theorem showLogin (hs : Ui s) : Ui (showLogin s) := ⟨rfl, hs.clearTimer, rfl⟩

theorem showDashboard (hs : Ui s) : Ui (showDashboard s).1 :=
  ⟨rfl, congrArg _ hs.clearTimer, rfl⟩

theorem congr (hs : Ui s) (hlogin : t.loginShown = s.loginShown)
    (hdashboard : t.dashboardShown = s.dashboardShown)
    (hinterval : t.refreshInterval = s.refreshInterval) (htimers : t.timers = s.timers) : Ui t :=
  ⟨by rw [hlogin, hdashboard, hs.screens], by rw [htimers, hinterval, hs.timers],
    by rw [hinterval, hdashboard, hs.polls]⟩

theorem complete (hs : Ui s) (n : RefreshId) (rf : Refresh) : Ui (complete s n rf) := by
  rw [DashboardPage.complete]
  split <;> exact hs.congr rfl rfl rfl rfl

theorem reject (hs : Ui s) (n : RefreshId) (offline : Bool) : Ui (reject s n offline) := by
  rw [DashboardPage.reject]
  split
  · exact hs
  · exact hs.congr rfl rfl rfl rfl

theorem settled (hs : Ui s) (ht : Settled s f r w t es) : Ui t := by
  cases ht with
  | toLogin => exact showLogin (hs.congr rfl rfl rfl rfl)
  | checked => exact showDashboard (hs.congr rfl rfl rfl rfl)
  | loggedIn => exact hs.showDashboard.congr rfl rfl rfl rfl
  | notLoggedIn => exact hs.congr rfl rfl rfl rfl
  | unauthorized => exact hs.showLogin.reject _ _
  | late => exact hs
  | broken => exact hs.reject _ _
  | got => exact hs.complete _ _

theorem step (hs : Ui s) (hstep : step s a = some (t, es)) : Ui t := by
  cases step_transition hstep with
  | blank | submit | logout | tick => exact hs.congr rfl rfl rfl rfl
  | @settle f _ _ _ _ _ ht => exact settled (hs.congr (t := s.settled f) rfl rfl rfl rfl) ht

theorem of_reach (hr : machine.Reach h s) : Ui s :=
  hr.invariant (P := fun _ s ↦ Ui s) ⟨rfl, rfl, rfl⟩ fun _ _ _ _ _ _ hs hstep ↦ hs.step hstep

end Ui

/-! ## Requests and who waits for them -/

/-- Somebody waits as `w` for a request. -/
def Awaited (s : State) (w : Await) : Prop := ∃ f, s.fetches f = some w

theorem call_fetches (s : State) (w : Await) (e : Endpoint) (f : FetchId) :
    (call s w e).1.fetches f = if f = s.nextFetch then some w else s.fetches f :=
  Function.update_apply ..

theorem settled_fetches (s : State) (f f' : FetchId) :
    (s.settled f).fetches f' = if f' = f then none else s.fetches f' :=
  Function.update_apply ..

/-- The requests that are under way. Only logouts can be under way more than once. -/
structure Fetches (s : State) : Prop where
  fresh : ∀ f w, s.fetches f = some w → f < s.nextFetch
  once : ∀ f f' w, w ≠ .logout → s.fetches f = some w → s.fetches f' = some w → f = f'

namespace Fetches

theorem call (hs : Fetches s) (e : Endpoint) (hw : w = .logout ∨ ¬Awaited s w) :
    Fetches (call s w e).1 := by
  have hcall : ∀ f w', (DashboardPage.call s w e).1.fetches f = some w' →
      f = s.nextFetch ∧ w' = w ∨ s.fetches f = some w' := by
    intro f w' hf
    rw [call_fetches] at hf
    split at hf
    · rename_i hnew
      exact .inl ⟨hnew, (Option.some.inj hf).symm⟩
    · exact .inr hf
  refine ⟨fun f w' hf ↦ ?_, fun f f' w' hne hf hf' ↦ ?_⟩
  · rcases hcall f w' hf with ⟨rfl, -⟩ | hold
    · exact Nat.lt_succ_self _
    · exact Nat.lt_succ_of_lt (hs.fresh f w' hold)
  · rcases hcall f w' hf with ⟨rfl, rfl⟩ | hold <;> rcases hcall f' w' hf' with ⟨rfl, hww⟩ | hold'
    · rfl
    · exact absurd ⟨f', hold'⟩ (hw.resolve_left hne)
    · exact absurd ⟨f, hww ▸ hold⟩ (hw.resolve_left (hww ▸ hne))
    · exact hs.once f f' w' hne hold hold'

theorem awaited_call (hs : Fetches s) (e : Endpoint) (w' : Await) :
    Awaited (DashboardPage.call s w e).1 w' ↔ Awaited s w' ∨ w' = w := by
  constructor
  · rintro ⟨f, hf⟩
    rw [call_fetches] at hf
    split at hf
    · exact .inr (Option.some.inj hf).symm
    · exact .inl ⟨f, hf⟩
  · rintro (⟨f, hf⟩ | rfl)
    · exact ⟨f, by rw [call_fetches, if_neg (hs.fresh f w' hf).ne, hf]⟩
    · exact ⟨s.nextFetch, by rw [call_fetches, if_pos rfl]⟩

theorem settled (hs : Fetches s) (f : FetchId) : Fetches (s.settled f) := by
  have hsettled : ∀ f' w, (s.settled f).fetches f' = some w → s.fetches f' = some w := by
    intro f' w hf'
    rw [settled_fetches] at hf'
    split at hf'
    · cases hf'
    · exact hf'
  exact ⟨fun f' w hf' ↦ hs.fresh f' w (hsettled f' w hf'), fun f₁ f₂ w hne h₁ h₂ ↦
    hs.once f₁ f₂ w hne (hsettled f₁ w h₁) (hsettled f₂ w h₂)⟩

/-- Nobody waits any more as somebody has waited for what is answered. -/
theorem awaited_settled (hs : Fetches s) (hf : s.fetches f = some w) {w' : Await}
    (hne : w' ≠ .logout) : Awaited (s.settled f) w' ↔ Awaited s w' ∧ w' ≠ w := by
  constructor
  · rintro ⟨f', hf'⟩
    rw [settled_fetches] at hf'
    split at hf'
    · cases hf'
    · rename_i hff
      refine ⟨⟨f', hf'⟩, fun hww ↦ hff ?_⟩
      exact hs.once f' f w' hne hf' (hww ▸ hf)
  · rintro ⟨⟨f', hf'⟩, hww⟩
    have hff : f' ≠ f := fun heq ↦ hww (Option.some.inj (hf'.symm.trans (heq ▸ hf)))
    exact ⟨f', by rw [settled_fetches, if_neg hff, hf']⟩

end Fetches

/-- Somebody waits as `w` for a request, or is about to go on as `o`. -/
def Pending (s : State) (o : Option Await) (w : Await) : Prop := Awaited s w ∨ o = some w

/-- The button and the refreshes stand for requests, while the handler `o` is about to go on. -/
structure Tasks (s : State) (o : Option Await) : Prop where
  fetches : Fetches s
  gone : ∀ w, o = some w → w ≠ .logout → ¬Awaited s w
  button : s.disabled = true ↔ Pending s o .login
  known : ∀ n part, Awaited s (.refresh n part) → n < s.nextRefresh
  waits : ∀ n rf, s.refreshes n = some rf → n < s.nextRefresh ∧ (∃ part, rf.has part = false) ∧
    ∀ part, rf.has part = false ↔ Pending s o (.refresh n part)

namespace Tasks

variable {o : Option Await}

theorem congr (hs : Tasks s o) (hfetches : t.fetches = s.fetches)
    (hnext : t.nextFetch = s.nextFetch) (hdisabled : t.disabled = s.disabled)
    (hrefreshes : t.refreshes = s.refreshes) (hnextRefresh : t.nextRefresh = s.nextRefresh) :
    Tasks t o := by
  obtain ⟨⟨hfresh, honce⟩, hgone, hbutton, hknown, hwaits⟩ := hs
  refine ⟨⟨?_, ?_⟩, ?_, ?_, ?_, ?_⟩
  · rwa [hfetches, hnext]
  · rwa [hfetches]
  · simpa only [Awaited, hfetches] using hgone
  · simpa only [Pending, Awaited, hfetches, hdisabled] using hbutton
  · simpa only [Awaited, hfetches, hnextRefresh] using hknown
  · simpa only [Pending, Awaited, hfetches, hrefreshes, hnextRefresh] using hwaits

theorem settled (hs : Tasks s none) (hf : s.fetches f = some w) : Tasks (s.settled f) (some w) := by
  have hpending : ∀ w' ≠ .logout, Pending (s.settled f) (some w) w' ↔ Pending s none w' := by
    intro w' hne
    rw [Pending, Pending, hs.fetches.awaited_settled hf hne, Option.some.injEq]
    by_cases hww : w' = w
    · subst hww
      simp only [ne_eq, not_true_eq_false, and_false, or_true, true_iff]
      exact .inl ⟨f, hf⟩
    · simp [hww, Ne.symm hww]
  refine ⟨hs.fetches.settled f, fun w' hw' hne hawaited ↦ ?_, ?_, fun n part hawaited ↦ ?_,
    fun n rf hn ↦ ?_⟩
  · exact ((hs.fetches.awaited_settled hf hne).mp hawaited).2 (Option.some.inj hw').symm
  · exact hs.button.trans (hpending _ (by simp)).symm
  · exact hs.known n part ((hs.fetches.awaited_settled hf (by simp)).mp hawaited).1
  · obtain ⟨hlt, hmissing, hall⟩ := hs.waits n rf hn
    exact ⟨hlt, hmissing, fun part ↦ (hall part).trans (hpending _ (by simp)).symm⟩

/-- The handler that goes on is neither that of the button nor a refresh that waits. -/
theorem idle (hs : Tasks s (some w)) (hlogin : w ≠ .login)
    (hrefresh : ∀ n part, w = .refresh n part → s.refreshes n = none) : Tasks s none := by
  refine ⟨hs.fetches, fun w' h ↦ (by cases h), ?_, hs.known, fun n rf hn ↦ ?_⟩
  · rw [hs.button, Pending, Pending, Option.some.injEq]
    simp [hlogin]
  · obtain ⟨hlt, hmissing, hall⟩ := hs.waits n rf hn
    refine ⟨hlt, hmissing, fun part ↦ (hall part).trans ?_⟩
    rw [Pending, Pending, Option.some.injEq]
    have hne : w ≠ .refresh n part := fun heq ↦ by
      rw [hrefresh n part heq] at hn
      cases hn
    simp [hne]

theorem startRefresh (hs : Tasks s o) (ho : ∀ part, o ≠ some (.refresh s.nextRefresh part)) :
    Tasks (startRefresh s).1 o := by
  have hnew : ∀ part, ¬Awaited s (.refresh s.nextRefresh part) := fun part hawaited ↦
    absurd (hs.known _ part hawaited) (lt_irrefl _)
  -- The three calls, one after the other.
  obtain ⟨hfetches, hawaited⟩ : Fetches (DashboardPage.startRefresh s).1 ∧ ∀ w,
      Awaited (DashboardPage.startRefresh s).1 w ↔
        Awaited s w ∨ ∃ part, w = .refresh s.nextRefresh part := by
    have h₀ : Fetches { s with
        refreshes := Function.update s.refreshes s.nextRefresh (some {})
        nextRefresh := s.nextRefresh + 1 } := ⟨hs.fetches.fresh, hs.fetches.once⟩
    have h₁ := h₀.call (w := .refresh s.nextRefresh .status) .status (.inr (hnew .status))
    have hw₁ := h₀.awaited_call (w := .refresh s.nextRefresh .status) .status
    have h₂ := h₁.call (w := .refresh s.nextRefresh .clients) .clients (.inr fun hold ↦ by
      rcases (hw₁ _).mp hold with hold | heq
      · exact hnew .clients hold
      · cases heq)
    have hw₂ := h₁.awaited_call (w := .refresh s.nextRefresh .clients) .clients
    have h₃ := h₂.call (w := .refresh s.nextRefresh .metrics) .metrics (.inr fun hold ↦ by
      rcases (hw₂ _).mp hold with hold | heq
      · rcases (hw₁ _).mp hold with hold | heq
        · exact hnew .metrics hold
        · cases heq
      · cases heq)
    have hw₃ := h₂.awaited_call (w := .refresh s.nextRefresh .metrics) .metrics
    refine ⟨h₃, fun w ↦ (hw₃ w).trans ?_⟩
    rw [hw₂, hw₁]
    constructor
    · rintro (((hold | rfl) | rfl) | rfl)
      · exact .inl hold
      · exact .inr ⟨_, rfl⟩
      · exact .inr ⟨_, rfl⟩
      · exact .inr ⟨_, rfl⟩
    · rintro (hold | ⟨_ | _ | _, rfl⟩)
      · exact .inl (.inl (.inl hold))
      · exact .inl (.inl (.inr rfl))
      · exact .inl (.inr rfl)
      · exact .inr rfl
  have hpending : ∀ w, (∀ part, w ≠ .refresh s.nextRefresh part) →
      (Pending (DashboardPage.startRefresh s).1 o w ↔ Pending s o w) := by
    intro w hne
    rw [Pending, Pending, hawaited]
    simp [hne]
  refine ⟨hfetches, fun w hw hne hold ↦ ?_, ?_, fun n part hold ↦ ?_, fun n rf hn ↦ ?_⟩
  · rcases (hawaited w).mp hold with hold | ⟨part, rfl⟩
    · exact hs.gone w hw hne hold
    · exact ho part hw
  · exact hs.button.trans (hpending _ fun part h ↦ (by cases h)).symm
  · rcases (hawaited _).mp hold with hold | ⟨part', heq⟩
    · exact Nat.lt_succ_of_lt (hs.known n part hold)
    · rw [(Await.refresh.inj heq).1]
      exact Nat.lt_succ_self _
  · change Function.update s.refreshes s.nextRefresh (some {}) n = some rf at hn
    rw [Function.update_apply] at hn
    split at hn
    · rename_i hnn
      obtain rfl := Option.some.inj hn
      refine ⟨hnn ▸ Nat.lt_succ_self _, ⟨.status, rfl⟩, fun part ↦ ?_⟩
      rw [hnn, Pending, hawaited]
      have hhas : ({} : Refresh).has part = false := by cases part <;> rfl
      simp [hhas]
    · rename_i hnn
      obtain ⟨hlt, hmissing, hall⟩ := hs.waits n rf hn
      refine ⟨Nat.lt_succ_of_lt hlt, hmissing, fun part ↦ (hall part).trans (hpending _ ?_).symm⟩
      exact fun part' heq ↦ hnn (Await.refresh.inj heq).1

theorem showDashboard (hs : Tasks s o) (ho : ∀ part, o ≠ some (.refresh s.nextRefresh part)) :
    Tasks (showDashboard s).1 o :=
  have hs : Tasks { s with loginShown := false, dashboardShown := true } o :=
    hs.congr rfl rfl rfl rfl rfl
  (hs.startRefresh ho).congr rfl rfl rfl rfl rfl

theorem enable (hs : Tasks s (some .login)) : Tasks { s with disabled := false } none := by
  refine ⟨⟨hs.fetches.fresh, hs.fetches.once⟩, fun w' h ↦ (by cases h), ?_, hs.known,
    fun n rf hn ↦ ?_⟩
  · have hgone := hs.gone .login rfl (by simp)
    simp only [Bool.false_eq_true, false_iff]
    rintro (⟨f, hf⟩ | h)
    · exact hgone ⟨f, hf⟩
    · cases h
  · obtain ⟨hlt, hmissing, hall⟩ := hs.waits n rf hn
    refine ⟨hlt, hmissing, fun part ↦ (hall part).trans ?_⟩
    rw [Pending, Pending]
    simp [Awaited]

theorem drop (hs : Tasks s (some (.refresh n part))) (hfetches : t.fetches = s.fetches)
    (hnext : t.nextFetch = s.nextFetch) (hdisabled : t.disabled = s.disabled)
    (hrefreshes : t.refreshes = Function.update s.refreshes n none)
    (hnextRefresh : t.nextRefresh = s.nextRefresh) : Tasks t none := by
  have hdropped : Tasks { s with refreshes := Function.update s.refreshes n none }
      (some (.refresh n part)) := by
    refine ⟨⟨hs.fetches.fresh, hs.fetches.once⟩, hs.gone, hs.button, hs.known, fun n' rf hn ↦ ?_⟩
    change Function.update s.refreshes n none n' = some rf at hn
    rw [Function.update_apply] at hn
    split at hn
    · cases hn
    · exact hs.waits n' rf hn
  refine (hdropped.idle (by simp) fun n' part' heq ↦ ?_).congr hfetches hnext hdisabled hrefreshes
    hnextRefresh
  rw [← (Await.refresh.inj heq).1]
  exact Function.update_self ..

theorem reject (hs : Tasks s (some (.refresh n part))) (offline : Bool) :
    Tasks (reject s n offline) none := by
  rw [DashboardPage.reject]
  split
  · rename_i hn
    exact hs.idle (by simp) fun n' part' heq ↦ (Await.refresh.inj heq).1 ▸ hn
  · exact hs.drop rfl rfl rfl rfl rfl

end Tasks

theorem has_put {rf rf' : Refresh} (hput : rf.put part r = some rf') (part' : Part) :
    rf'.has part' = (rf.has part' || decide (part' = part)) := by
  rw [Refresh.put.eq_def] at hput
  split at hput <;> cases hput <;> cases part' <;> simp [Refresh.has]

theorem Tasks.complete {rf rf' : Refresh} (hs : Tasks s (some (.refresh n part)))
    (hn : s.refreshes n = some rf) (hput : rf.put part r = some rf') :
    Tasks (complete s n rf') none := by
  rw [DashboardPage.complete]
  split
  · exact hs.drop rfl rfl rfl rfl rfl
  · -- The refresh still lacks a part, or `complete` would have taken the other branch.
    rename_i hsome
    obtain ⟨hlt, -, hall⟩ := hs.waits n rf hn
    have hmissing : ∃ part, rf'.has part = false := by
      by_contra hall
      simp only [not_exists, Bool.not_eq_false] at hall
      obtain ⟨status, hstatus⟩ := Option.isSome_iff_exists.mp (hall .status)
      obtain ⟨clients, hclients⟩ := Option.isSome_iff_exists.mp (hall .clients)
      obtain ⟨metrics, hmetrics⟩ := Option.isSome_iff_exists.mp (hall .metrics)
      exact hsome status clients metrics hstatus hclients hmetrics
    refine ⟨⟨hs.fetches.fresh, hs.fetches.once⟩, fun w h ↦ (by cases h), ?_, hs.known,
      fun n' rf₀ hn' ↦ ?_⟩
    · refine hs.button.trans ?_
      rw [Pending, Pending]
      simp [Awaited]
    · change Function.update s.refreshes n (some rf') n' = some rf₀ at hn'
      rw [Function.update_apply] at hn'
      split at hn'
      · rename_i hnn
        subst hnn
        obtain rfl := Option.some.inj hn'
        refine ⟨hlt, hmissing, fun part' ↦ ?_⟩
        -- The part that has come is not awaited any more, the others are where they were.
        have hgone := hs.gone _ rfl (by simp)
        have hold := hall part'
        rw [Pending, Option.some.injEq, Await.refresh.injEq] at hold
        rw [has_put hput, Bool.or_eq_false_iff, hold, Pending, decide_eq_false_iff_not]
        constructor
        · rintro ⟨hawaited | ⟨-, rfl⟩, hne⟩
          · exact .inl hawaited
          · exact absurd rfl hne
        · rintro (hawaited | h)
          · exact ⟨.inl hawaited, fun heq ↦ hgone (heq ▸ hawaited)⟩
          · cases h
      · rename_i hnn
        obtain ⟨hlt', hmissing', hall'⟩ := hs.waits n' rf₀ hn'
        refine ⟨hlt', hmissing', fun part' ↦ (hall' part').trans ?_⟩
        rw [Pending, Pending, Option.some.injEq, Await.refresh.injEq]
        simp [Ne.symm hnn, Awaited]

namespace Tasks

theorem settle (hs : Tasks s (some w)) (ht : Settled s f r w t es) : Tasks t none := by
  cases ht with
  | toLogin hw =>
    refine (hs.idle ?_ fun n part heq ↦ ?_).congr rfl rfl rfl rfl rfl
    · rcases hw with rfl | rfl <;> simp
    · rcases hw with rfl | rfl <;> cases heq
  | @checked tlsWarning hr =>
    have hs : Tasks { s with tlsWarning } none :=
      (hs.idle (by simp) fun n part heq ↦ by cases heq).congr rfl rfl rfl rfl rfl
    exact hs.showDashboard fun part h ↦ by cases h
  | loggedIn => exact (hs.showDashboard fun part h ↦ by cases h).enable
  | notLoggedIn => exact hs.enable.congr rfl rfl rfl rfl rfl
  | unauthorized =>
    have hs : Tasks (showLogin s) _ := hs.congr rfl rfl rfl rfl rfl
    exact hs.reject false
  | late hn => exact hs.idle (by simp) fun n' part' heq ↦ (Await.refresh.inj heq).1 ▸ hn
  | broken => exact hs.reject true
  | got hn hput => exact hs.complete hn hput

theorem call (hs : Tasks s none) (e : Endpoint) {disabled : Bool} {loginError : String}
    (hw : w = .logout ∨ ¬Awaited s w) (hrefresh : ∀ n part, w ≠ .refresh n part)
    (hbutton : disabled = true ↔ Awaited s .login ∨ w = .login) :
    Tasks (call { s with disabled, loginError } w e).1 none := by
  have hfetches : Fetches { s with disabled, loginError } := ⟨hs.fetches.fresh, hs.fetches.once⟩
  have hawaited := hfetches.awaited_call (w := w) e
  have hkept : ∀ n part, Pending (DashboardPage.call { s with disabled, loginError } w e).1 none
      (.refresh n part) ↔ Pending s none (.refresh n part) := by
    intro n part
    rw [Pending, hawaited]
    simp [Ne.symm (hrefresh n part), Pending, Awaited]
  refine ⟨hfetches.call e hw, fun w' h ↦ (by cases h), ?_, fun n part hold ↦ ?_, fun n rf hn ↦ ?_⟩
  · rw [Pending, hawaited]
    refine hbutton.trans ?_
    simp [Awaited, eq_comm]
  · exact hs.known n part (((hkept n part).mp (.inl hold)).resolve_right fun h ↦ by cases h)
  · obtain ⟨hlt, hmissing, hall⟩ := hs.waits n rf hn
    exact ⟨hlt, hmissing, fun part ↦ (hall part).trans (hkept n part).symm⟩

theorem awaited_login (hs : Tasks s none) : s.disabled = true ↔ Awaited s .login :=
  hs.button.trans ⟨fun h ↦ h.resolve_right fun h ↦ (by cases h), .inl⟩

/-- **The step lemma.** -/
theorem step (hs : Tasks s none) (hstep : step s a = some (t, es)) : Tasks t none := by
  cases step_transition hstep with
  | blank => exact hs.congr rfl rfl rfl rfl rfl
  | submit hbutton =>
    refine hs.call _ (.inr fun hawaited ↦ ?_) (fun n part h ↦ by cases h) (by simp)
    rw [← hs.awaited_login, hbutton] at hawaited
    cases hawaited
  | logout =>
    have hcall : Tasks (DashboardPage.call { s with
        disabled := s.disabled, loginError := s.loginError } .logout .logout).1 none :=
      hs.call _ (.inl rfl) (fun n part h ↦ by cases h) (hs.awaited_login.trans (by simp))
    exact hcall
  | tick => exact hs.startRefresh fun part h ↦ by cases h
  | settle hf ht => exact (hs.settled hf).settle ht

theorem of_reach (hr : machine.Reach h s) : Tasks s none := by
  refine hr.invariant (P := fun _ s ↦ Tasks s none) ?_ fun _ _ _ _ _ _ hs hstep ↦ hs.step hstep
  have hnone : ∀ w, ¬Awaited .initial w := fun w ⟨f, hf⟩ ↦ by cases hf
  have hinit : Tasks .initial none := by
    refine ⟨⟨fun f w hf ↦ (by cases hf), fun f f' w _ hf ↦ (by cases hf)⟩, fun w h ↦ (by cases h),
      ⟨fun h ↦ (by cases h), fun h ↦ ?_⟩, fun n part hold ↦ absurd hold (hnone _),
      fun n rf hn ↦ by cases hn⟩
    exact absurd (h.resolve_right fun h ↦ by cases h) (hnone _)
  have hload : Tasks (DashboardPage.call { State.initial with
      disabled := false, loginError := "" } .checkAuth .authCheck).1 none :=
    hinit.call .authCheck (.inr (hnone _)) (fun n part h ↦ by cases h)
      ⟨fun h ↦ (by cases h), fun h ↦ absurd h (by simp [hnone])⟩
  exact hload

end Tasks

/-! ## When the page asks for data -/

/-- Data is asked for by the dashboard, and not behind the login form. -/
theorem dashboardShown_of_fetch {e : Endpoint} (hs : Ui s) (hstep : step s a = some (t, es))
    (hmem : .fetch f e ∈ es) (he : e.guarded = true) : t.dashboardShown = true := by
  cases step_transition hstep with
  | blank => cases hmem
  | submit | logout =>
    obtain ⟨-, rfl⟩ := Event.fetch.inj (List.mem_singleton.mp hmem)
    cases he
  | @tick id hid =>
    rw [hs.timers, Option.mem_toList] at hid
    have hpolls := hs.polls
    rw [hid] at hpolls
    exact hpolls.symm
  | settle _ ht =>
    cases ht with
    | checked | loggedIn => rfl
    | unauthorized =>
      rw [List.mem_singleton] at hmem
      cases hmem
    | toLogin | notLoggedIn | late | broken | got => cases hmem

/-- No answer lets its handler show the dashboard. -/
def refusing (s : State) : Act → Bool
  | .settle f r =>
    match s.fetches f with
    | some w => r.refuses w
    | none => true
  | .submit _ | .logout | .tick _ => true

theorem loginShown_reject (s : State) (n : RefreshId) (offline : Bool) :
    (reject s n offline).loginShown = s.loginShown := by
  rw [reject]
  split <;> rfl

theorem loginShown_complete (s : State) (n : RefreshId) (rf : Refresh) :
    (complete s n rf).loginShown = s.loginShown := by
  rw [complete]
  split <;> rfl

theorem loginShown_of_step (hrefusing : refusing s a = true) (hstep : step s a = some (t, es))
    (hs : s.loginShown = true) : t.loginShown = true := by
  cases step_transition hstep with
  | blank | submit | logout | tick => exact hs
  | settle hf ht =>
    rw [refusing, hf] at hrefusing
    cases ht with
    | toLogin => rfl
    | checked hr | loggedIn hr =>
      dsimp only at hrefusing
      rw [hrefusing] at hr
      cases hr
    | notLoggedIn | late => exact hs
    | unauthorized => exact loginShown_reject _ _ _
    | broken => exact (loginShown_reject _ _ _).trans hs
    | got => exact (loginShown_complete _ _ _).trans hs

theorem loginShown_of_unauthorized (hstep : step s a = some (t, es))
    (hmem : .unauthorized f ∈ es) : t.loginShown = true ∧ es = [.unauthorized f] := by
  cases step_transition hstep with
  | blank | submit | logout => simp at hmem
  | tick => simp [startRefresh, call] at hmem
  | settle _ ht =>
    cases ht with
    | checked | loggedIn => simp [showDashboard, startRefresh, call] at hmem
    | unauthorized =>
      rw [List.mem_singleton.mp hmem]
      exact ⟨loginShown_reject _ _ _, rfl⟩
    | toLogin | notLoggedIn | late | broken | got => cases hmem

theorem loginShown_of_steps (hst : (machine.guard refusing).Steps s h t)
    (hs : s.loginShown = true) : t.loginShown = true :=
  hst.preserves (P := fun s ↦ s.loginShown = true) (fun _ _ _ _ hs hstep ↦
    loginShown_of_step (Machine.guard_step_eq_some.mp hstep).1
      (Machine.guard_step_eq_some.mp hstep).2 hs) hs

theorem ui_of_steps (hst : (machine.guard refusing).Steps s h t) (hs : Ui s) : Ui t :=
  hst.preserves (P := Ui) (fun _ _ _ _ hs hstep ↦
    hs.step (Machine.guard_step_eq_some.mp hstep).2) hs

/-- A page that shows its login form and is refused asks for no data. -/
theorem not_guarded_of_steps {e : Endpoint} (hst : (machine.guard refusing).Steps s h t)
    (hui : Ui s) (hs : s.loginShown = true) (hmem : .fetch f e ∈ h) : e.guarded = false := by
  obtain ⟨h₁, h₂, rfl⟩ := List.append_of_mem hmem
  obtain ⟨h₀, v, a, u, es₁, es₂, h', hv, hstep, -, -, -⟩ := Machine.Steps.split hst
  have hu := loginShown_of_steps (hv.tail hstep) hs
  have huiu := ui_of_steps (hv.tail hstep) hui
  by_contra he
  have hshown := dashboardShown_of_fetch (ui_of_steps hv hui)
    (Machine.guard_step_eq_some.mp hstep).2 (List.mem_append_right es₁ List.mem_cons_self)
    (Bool.of_not_eq_false he)
  have hscreens := huiu.screens
  rw [hu, hshown] at hscreens
  cases hscreens

/-! ## The page as a whole -/

/-- What can be relied on, however requests are answered. -/
structure Sound (s : State) : Prop where
  /-- One screen is shown. There is a timer behind the dashboard, the one that the page knows of,
  and no other one runs. -/
  ui : Ui s
  /-- The button is disabled for as long as a login is under way, and there is one at most. -/
  button : s.disabled = true ↔ ∃ f, s.fetches f = some .login
  login : ∀ f f', s.fetches f = some .login → s.fetches f' = some .login → f = f'
  /-- A refresh that waits lacks something, and waits for exactly the requests that it lacks. -/
  refreshes : ∀ n rf, s.refreshes n = some rf → (∃ part, rf.has part = false) ∧
    ∀ part, rf.has part = false ↔ ∃ f, s.fetches f = some (.refresh n part)
  /-- Data is asked for by the dashboard only. -/
  polls : ∀ a t es f e, step s a = some (t, es) → .fetch f e ∈ es → e.guarded = true →
    t.dashboardShown = true
  /-- A page that is refused stays at its login form, however late the answers come. -/
  locked : ∀ h t, (machine.guard refusing).Steps s h t →
    (s.loginShown = true ∨ ∃ f, .unauthorized f ∈ h) → t.loginShown = true ∧ t.timers = []
  /-- From its first answer with status 401 on, it asks for no data. -/
  silent : ∀ h₁ h₂ t f f' e, (machine.guard refusing).Steps s (h₁ ++ .unauthorized f :: h₂) t →
    .fetch f' e ∈ h₂ → e.guarded = false

/-- **The page is sound** in every reachable state, whatever the answers are and in which order they
come. -/
theorem page_sound (h : List Event) (s : State) (hr : machine.Reach h s) : Sound s := by
  have hui : Ui s := .of_reach hr
  have htasks : Tasks s none := .of_reach hr
  have hpending : ∀ w, Pending s none w ↔ ∃ f, s.fetches f = some w :=
    fun w ↦ ⟨fun h ↦ h.resolve_right fun h ↦ (by cases h), .inl⟩
  -- What happens at an answer with status 401.
  have hsplit : ∀ h₁ h₂ t f, (machine.guard refusing).Steps s (h₁ ++ .unauthorized f :: h₂) t →
      ∃ u, Ui u ∧ u.loginShown = true ∧ (machine.guard refusing).Steps u h₂ t := by
    intro h₁ h₂ t f hst
    obtain ⟨h₀, v, a, u, es₁, es₂, h', hv, hstep, hu, -, rfl⟩ := Machine.Steps.split hst
    obtain ⟨hshown, hes⟩ := loginShown_of_unauthorized (Machine.guard_step_eq_some.mp hstep).2
      (List.mem_append_right es₁ List.mem_cons_self)
    have hnil : es₂ = [] := by
      have hlen := congrArg List.length hes
      simp only [List.length_append, List.length_cons, List.length_nil] at hlen
      exact List.length_eq_zero_iff.mp (by omega)
    exact ⟨u, ui_of_steps (hv.tail hstep) hui, hshown, by rwa [hnil, List.nil_append]⟩
  refine ⟨hui, htasks.awaited_login, fun f f' ↦ htasks.fetches.once f f' _ (by simp),
    fun n rf hn ↦ ?_, fun a t es f e hstep hmem he ↦ dashboardShown_of_fetch hui hstep hmem he,
    fun h' t hst hor ↦ ?_, fun h₁ h₂ t f f' e hst hmem ↦ ?_⟩
  · obtain ⟨-, hmissing, hall⟩ := htasks.waits n rf hn
    exact ⟨hmissing, fun part ↦ (hall part).trans (hpending _)⟩
  · have hlogin : t.loginShown = true := by
      rcases hor with hs | ⟨f, hmem⟩
      · exact loginShown_of_steps hst hs
      · obtain ⟨h₁, h₂, rfl⟩ := List.append_of_mem hmem
        obtain ⟨u, -, hu, hrest⟩ := hsplit h₁ h₂ t f hst
        exact loginShown_of_steps hrest hu
    have huit := ui_of_steps hst hui
    refine ⟨hlogin, ?_⟩
    have hpolls := huit.polls
    have hscreens := huit.screens
    rw [hlogin] at hscreens
    rw [show t.dashboardShown = false by simpa using hscreens.symm, Option.isSome_eq_false_iff,
      Option.isNone_iff_eq_none] at hpolls
    rw [huit.timers, hpolls]
    rfl
  · obtain ⟨u, huiu, hu, hrest⟩ := hsplit h₁ h₂ t f hst
    exact not_guarded_of_steps hrest huiu hu hmem

/-- A page without a session, a login, a refresh on the timer while the first one is still out, and
the end of the session in the answers to both. -/
def sampleRun : List Act :=
  [.settle 0 (.answer (.authCheck false true true)), .submit " pw ",
    .settle 1 (.answer (.login 200 none true "Login successful")), .tick 1,
    .settle 5 (.answer .unauthorized), .settle 2 .failed, .settle 3 (.answer .unauthorized)]

theorem page_sound_expired : ∃ h s, machine.run load.1 sampleRun = some (s, h) ∧
    .unauthorized 5 ∈ h ∧ s.loginShown = true ∧ Sound s := by
  have hrun : (machine.run load.1 sampleRun).map
      (fun p ↦ decide (.unauthorized 5 ∈ p.2) && p.1.loginShown) = some true := by
    decide +kernel
  obtain ⟨⟨s, h⟩, hsh, heq⟩ := Option.map_eq_some_iff.mp hrun
  rw [Bool.and_eq_true, decide_eq_true_eq] at heq
  exact ⟨h, s, hsh, heq.1, heq.2, page_sound h s (.of_run hsh)⟩

end DashboardPage

end ZoTunnel
