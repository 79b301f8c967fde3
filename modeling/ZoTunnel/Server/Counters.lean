import ZoTunnel.Lib.Tally
import ZoTunnel.Server.Delivery

/-!
# The counters of the proxy

`Metrics` has three counters that requests move, and every session has two of its own. What they
are for is told by the *standing* of each request: the dashboard's affair, received, limited,
answered without a session, active with a session, or no longer active with it. The counters are
the numbers of requests of some standing, modulo `2 ^ 64`, and this is what the invariant `Books`
says.

A request whose future is dropped while it is active keeps its standing, since nobody undoes the
two increments. So the gauges count the requests in flight and, for ever, those that were dropped.
-/

namespace ZoTunnel

namespace Proxy

variable {serde : SerdeJson} {config : ServerConfig} {routes : RouteFiles} {h h' : List Event}
  {s t : State} {a : Act} {es : List Event} {r : ReqId} {q : Request} {c : ConnId}

/-! ## Standings -/

/-- What the counters know of a request. -/
inductive Standing
  | unknown
  | dashboard
  | pending
  | limited
  /-- It was answered as unroutable or offline. -/
  | astray
  /-- It counts as active with the session of a connection. -/
  | active (c : ConnId)
  | settled (c : ConnId)
  deriving DecidableEq, Repr

namespace Standing

/-- The request is one of `total_requests`. -/
def received : Standing → Bool
  | unknown | dashboard => false
  | _ => true

/-- The session that has the request among its `active_streams`. -/
def activeWith : Standing → Option ConnId
  | active c => some c
  | _ => none

/-- The session that has the request among its `requests`. -/
def countedWith : Standing → Option ConnId
  | active c | settled c => some c
  | _ => none

end Standing

/-- The phases between the arrival at the proxy and the call of `open_stream`. There is no point
among them at which the future waits. -/
def Phase.firstSegment : Phase → Bool
  | unroutable | limiting .. | looking .. | found _ => true
  | dashboard | opening _ | marking .. | handshaking .. | building .. | sending .. | answered _
  | dropped => false

/-- The session that a request in flight counts as active with. -/
def Phase.activeWith : Phase → Option ConnId
  | opening t | marking t _ | handshaking t _ | building t _ | sending t _ => some t.client.handle
  | dashboard | unroutable | limiting .. | looking .. | found _ | answered _ | dropped => none

/-- The answers to a request that counts as active. -/
inductive Concluded : Reply → Prop
  | connection (clientId : String) : Concluded (connectionReply clientId)
  | handshake : Concluded handshakeReply
  | build : Concluded buildReply
  | forwarded : Concluded .forwarded
  | silent (clientId : String) : Concluded (silentReply clientId)

/-- The standings that a request can have, by its phase and the history. -/
inductive Stands (config : ServerConfig) (h : List Event) (r : ReqId) :
    Option Phase → Standing → Prop
  | absent : Stands config h r none .unknown
  | dashboard (hd : .toDashboard r ∈ h) : Stands config h r (some .dashboard) .dashboard
  | shown (hd : .toDashboard r ∈ h) :
      Stands config h r (some (.answered .dashboard)) .dashboard
  | dashboardDropped (hd : .toDashboard r ∈ h) : Stands config h r (some .dropped) .dashboard
  | pending {p : Phase} (hp : p.firstSegment = true) : Stands config h r (some p) .pending
  | limited : Stands config h r (some (.answered limitedReply)) .limited
  | unroutable (ids : List String) :
      Stands config h r (some (.answered (hintReply config.domain ids))) .astray
  | offline (clientId : String) :
      Stands config h r (some (.answered (offlineReply clientId))) .astray
  | active {p : Phase} {c : ConnId} (hp : p.activeWith = some c) (hc : .contacted r c ∈ h) :
      Stands config h r (some p) (.active c)
  | dropped {c : ConnId} (hc : .contacted r c ∈ h) : Stands config h r (some .dropped) (.active c)
  | concluded {reply : Reply} {c : ConnId} (hreply : Concluded reply) (hc : .contacted r c ∈ h) :
      Stands config h r (some (.answered reply)) (.settled c)

namespace Stands

variable {p : Option Phase} {k : Standing}

theorem append (hk : Stands config h r p k) : Stands config (h ++ h') r p k := by
  cases hk with
  | absent => exact .absent
  | dashboard hd => exact .dashboard (List.mem_append_left _ hd)
  | shown hd => exact .shown (List.mem_append_left _ hd)
  | dashboardDropped hd => exact .dashboardDropped (List.mem_append_left _ hd)
  | pending hp => exact .pending hp
  | limited => exact .limited
  | unroutable ids => exact .unroutable ids
  | offline clientId => exact .offline clientId
  | active hp hc => exact .active hp (List.mem_append_left _ hc)
  | dropped hc => exact .dropped (List.mem_append_left _ hc)
  | concluded hreply hc => exact .concluded hreply (List.mem_append_left _ hc)

theorem eq_unknown (hk : Stands config h r none k) : k = .unknown := by
  cases hk
  rfl

theorem eq_pending {p : Phase} (hk : Stands config h r (some p) k)
    (hp : p.firstSegment = true) : k = .pending := by
  cases hk with
  | pending => rfl
  | active ha =>
    cases p with
    | opening | marking | handshaking | building | sending => cases hp
    | _ => cases ha
  | _ => cases hp

theorem eq_active {p : Phase} (hk : Stands config h r (some p) k)
    (hp : p.activeWith = some c) : k = .active c ∧ .contacted r c ∈ h := by
  cases hk with
  | active hp' hc =>
    rw [hp, Option.some.injEq] at hp'
    exact ⟨by rw [hp'], hp' ▸ hc⟩
  | pending hf =>
    cases p with
    | unroutable | limiting | looking | found => cases hp
    | _ => cases hf
  | _ => cases hp

theorem of_dashboard (hk : Stands config h r (some .dashboard) k) :
    k = .dashboard ∧ .toDashboard r ∈ h := by
  cases hk with
  | dashboard hd => exact ⟨rfl, hd⟩
  | pending hp | active hp => cases hp

theorem received (hk : Stands config h r p k) (hp : p ≠ none) (hd : .toDashboard r ∉ h) :
    k.received = true := by
  cases hk with
  | absent => exact absurd rfl hp
  | dashboard hd' | shown hd' | dashboardDropped hd' => exact absurd hd' hd
  | _ => rfl

end Stands

/-! ## Postings

What a change of standing does to the counters. -/

/-- The counters after a request has changed its standing. -/
inductive Posting (m : Metrics) (b : ConnId → ClientMetrics) :
    Standing → Standing → Metrics → (ConnId → ClientMetrics) → Prop
  | stay (k : Standing) : Posting m b k k m b
  | dashboard : Posting m b .unknown .dashboard m b
  | receive : Posting m b .unknown .pending { m with totalRequests := m.totalRequests + 1 } b
  | limit : Posting m b .pending .limited { m with rateLimited := m.rateLimited + 1 } b
  | astray : Posting m b .pending .astray m b
  | track (c : ConnId) : Posting m b .pending (.active c)
      { m with activeConnections := m.activeConnections + 1 }
      (Function.update b c { b c with
        requests := (b c).requests + 1, activeStreams := (b c).activeStreams + 1 })
  | untrack (c : ConnId) : Posting m b (.active c) (.settled c)
      { m with activeConnections := m.activeConnections - 1 }
      (Function.update b c { b c with activeStreams := (b c).activeStreams - 1 })

theorem Posting.eq_dashboard {m m' : Metrics} {b b' : ConnId → ClientMetrics} {k : Standing}
    (hp : Posting m b .dashboard k m' b') : k = .dashboard := by
  cases hp
  rfl

/-- The phase of a request. -/
def State.phase (s : State) (r : ReqId) : Option Phase := (s.requests r).map Request.phase

theorem phase_eq_some {p : Phase} :
    s.phase r = some p ↔ ∃ q, s.requests r = some q ∧ q.phase = p := Option.map_eq_some_iff

@[simp] theorem phase_setRequest (s : State) (r : ReqId) (q : Request) :
    (s.setRequest r q).phase r = some q.phase := by
  rw [State.phase, setRequest_requests, if_pos rfl]
  rfl

@[simp] theorem phase_setPhase (s : State) (r : ReqId) (q : Request) (p : Phase) :
    (s.setPhase r q p).phase r = some p := phase_setRequest ..

/-- A step moves one request, and its counters are posted. -/
structure Posted (config : ServerConfig) (h es : List Event) (a : Act) (r : ReqId) (s t : State) :
    Prop where
  known : t.requests r ≠ none
  drop : t.phase r = some .dropped → a = .drop r
  frame : ∀ r', r' ≠ r → t.requests r' = s.requests r'
  post : ∀ k, Stands config h r (s.phase r) k → ∃ k', Stands config (h ++ es) r (t.phase r) k' ∧
    Posting s.metrics s.sessions k k' t.metrics t.sessions

section RequestStep

variable {p : Phase} {tg : Target} {s₀ : State}

private theorem posted_of (hdrop : p = .dropped → a = .drop r)
    (hrequests : s₀.requests = s.requests)
    (hpost : ∀ k, Stands config h r (s.phase r) k → ∃ k', Stands config (h ++ es) r (some p) k' ∧
      Posting s.metrics s.sessions k k' s₀.metrics s₀.sessions) :
    Posted config h es a r s (s₀.setPhase r q p) where
  known := by
    rw [State.setPhase, setRequest_requests, if_pos rfl]
    exact Option.some_ne_none _
  drop hp := by
    rw [phase_setPhase, Option.some.injEq] at hp
    exact hdrop hp
  frame r' hne := by
    rw [State.setPhase, setRequest_requests, if_neg hne, hrequests]
  post k hk := by
    rw [phase_setPhase]
    exact hpost k hk

private theorem posted_pending (hr : s.requests r = some q) (hp : q.phase.firstSegment = true)
    (hdrop : p ≠ .dropped) (hrequests : s₀.requests = s.requests) {k' : Standing}
    (hk' : Stands config (h ++ es) r (some p) k')
    (hpost : Posting s.metrics s.sessions .pending k' s₀.metrics s₀.sessions) :
    Posted config h es a r s (s₀.setPhase r q p) := by
  refine posted_of (fun hp' ↦ absurd hp' hdrop) hrequests fun k hk ↦ ⟨k', hk', ?_⟩
  rw [phase_eq_some.mpr ⟨q, hr, rfl⟩] at hk
  rwa [hk.eq_pending hp]

private theorem posted_active (hr : s.requests r = some q) (hp : q.phase.activeWith = some c)
    (hp' : p.activeWith = some c) : Posted config h es a r s (s.setPhase r q p) := by
  refine posted_of (fun hd ↦ ?_) rfl fun k hk ↦ ?_
  · rw [hd] at hp'
    cases hp'
  rw [phase_eq_some.mpr ⟨q, hr, rfl⟩] at hk
  obtain ⟨rfl, hc⟩ := hk.eq_active hp
  exact ⟨_, .active hp' (List.mem_append_left _ hc), .stay _⟩

private theorem posted_conclude {reply : Reply} (hr : s.requests r = some q)
    (hp : q.phase.activeWith = some tg.client.handle) (hreply : Concluded reply) :
    Posted config h es a r s (s.conclude r q tg reply) := by
  refine posted_of nofun rfl fun k hk ↦ ?_
  rw [phase_eq_some.mpr ⟨q, hr, rfl⟩] at hk
  obtain ⟨rfl, hc⟩ := hk.eq_active hp
  exact ⟨_, .concluded hreply (List.mem_append_left _ hc), .untrack _⟩

private theorem posted_dropped (hr : s.requests r = some q) (hp : q.phase.activeWith = some c)
    (hrequests : s₀.requests = s.requests) (hm : s₀.metrics = s.metrics)
    (hs : s₀.sessions = s.sessions) :
    Posted config h es (.drop r) r s (s₀.setPhase r q .dropped) := by
  refine posted_of (fun _ ↦ rfl) hrequests fun k hk ↦ ?_
  rw [phase_eq_some.mpr ⟨q, hr, rfl⟩] at hk
  obtain ⟨rfl, hc⟩ := hk.eq_active hp
  rw [hm, hs]
  exact ⟨_, .dropped (List.mem_append_left _ hc), .stay _⟩

private theorem posted_dashboard (hr : s.requests r = some q) (hp : q.phase = .dashboard)
    (hdrop : p = .dropped → a = .drop r)
    (hp' : .toDashboard r ∈ h → Stands config (h ++ es) r (some p) .dashboard) :
    Posted config h es a r s (s.setPhase r q p) := by
  refine posted_of hdrop rfl fun k hk ↦ ?_
  rw [phase_eq_some.mpr ⟨q, hr, hp⟩] at hk
  obtain ⟨rfl, hd⟩ := hk.of_dashboard
  exact ⟨_, hp' hd, .stay _⟩

private theorem posted_of_requestStep (hr : s.requests r = some q) (ha : a.req = some r)
    (hstep : requestStep serde config s r q a = some (t, es)) : Posted config h es a r s t := by
  cases a with
  | control => cases hstep
  | arrive => cases hstep
  | dashboardReply r' =>
    simp only [requestStep] at hstep
    split at hstep
    · rename_i hp
      rw [Option.some.injEq, Prod.mk.injEq] at hstep
      obtain ⟨rfl, rfl⟩ := hstep
      exact posted_dashboard hr hp (fun h ↦ by cases h) fun hd ↦ .shown (List.mem_append_left _ hd)
    · cases hstep
  | hint r' ids =>
    simp only [requestStep] at hstep
    split at hstep
    · rename_i hp
      split at hstep
      · rw [Option.some.injEq, Prod.mk.injEq] at hstep
        obtain ⟨rfl, rfl⟩ := hstep
        exact posted_pending hr (by rw [hp]; rfl) (fun h ↦ by cases h) rfl (.unroutable ids) .astray
      · cases hstep
    · cases hstep
  | limit r' now =>
    simp only [requestStep] at hstep
    split at hstep
    · rename_i clientId path hp
      split at hstep
      · rw [Option.some.injEq, Prod.mk.injEq] at hstep
        obtain ⟨rfl, rfl⟩ := hstep
        exact posted_pending hr (by rw [hp]; rfl) (fun h ↦ by cases h) rfl (.pending rfl) (.stay _)
      · rw [Option.some.injEq, Prod.mk.injEq] at hstep
        obtain ⟨rfl, rfl⟩ := hstep
        exact posted_pending hr (by rw [hp]; rfl) (fun h ↦ by cases h) rfl .limited .limit
    · cases hstep
  | lookup r' =>
    simp only [requestStep] at hstep
    split at hstep
    · rename_i clientId path hp
      split at hstep
      · rw [Option.some.injEq, Prod.mk.injEq] at hstep
        obtain ⟨rfl, rfl⟩ := hstep
        exact posted_pending hr (by rw [hp]; rfl) (fun h ↦ by cases h) rfl (.offline clientId)
          .astray
      · rw [Option.some.injEq, Prod.mk.injEq] at hstep
        obtain ⟨rfl, rfl⟩ := hstep
        exact posted_pending hr (by rw [hp]; rfl) (fun h ↦ by cases h) rfl (.pending rfl) (.stay _)
    · cases hstep
  | openStream r' =>
    rw [Act.req, Option.some.injEq] at ha
    subst ha
    simp only [requestStep] at hstep
    split at hstep
    · rename_i tg hp
      split at hstep
      · cases hstep
      · rw [Option.some.injEq, Prod.mk.injEq] at hstep
        obtain ⟨rfl, rfl⟩ := hstep
        exact posted_pending hr (by rw [hp]; rfl) (fun h ↦ by cases h) rfl
          (.active rfl (List.mem_append_right _ List.mem_cons_self)) (.track _)
    · cases hstep
  | opened r' =>
    simp only [requestStep] at hstep
    split at hstep
    · rename_i tg hp
      split at hstep
      · cases hstep
      · rw [Option.some.injEq, Prod.mk.injEq] at hstep
        obtain ⟨rfl, rfl⟩ := hstep
        exact posted_conclude hr (by rw [hp]; rfl) (.connection _)
      · split at hstep <;>
        · rw [Option.some.injEq, Prod.mk.injEq] at hstep
          obtain ⟨rfl, rfl⟩ := hstep
          exact posted_active hr (by rw [hp]; rfl) rfl
    · cases hstep
  | mark r' ok =>
    simp only [requestStep] at hstep
    split at hstep
    · rename_i hp
      split at hstep
      · rw [Option.some.injEq, Prod.mk.injEq] at hstep
        obtain ⟨rfl, rfl⟩ := hstep
        exact posted_active hr (by rw [hp]; rfl) rfl
      · rw [Option.some.injEq, Prod.mk.injEq] at hstep
        obtain ⟨rfl, rfl⟩ := hstep
        exact posted_conclude hr (by rw [hp]; rfl) (.connection _)
    · cases hstep
  | handshake r' ok =>
    simp only [requestStep] at hstep
    split at hstep
    · rename_i hp
      split at hstep
      · rw [Option.some.injEq, Prod.mk.injEq] at hstep
        obtain ⟨rfl, rfl⟩ := hstep
        exact posted_active hr (by rw [hp]; rfl) rfl
      · rw [Option.some.injEq, Prod.mk.injEq] at hstep
        obtain ⟨rfl, rfl⟩ := hstep
        exact posted_conclude hr (by rw [hp]; rfl) .handshake
    · cases hstep
  | build r' ok =>
    simp only [requestStep] at hstep
    split at hstep
    · rename_i hp
      split at hstep
      · rw [Option.some.injEq, Prod.mk.injEq] at hstep
        obtain ⟨rfl, rfl⟩ := hstep
        exact posted_active hr (by rw [hp]; rfl) rfl
      · rw [Option.some.injEq, Prod.mk.injEq] at hstep
        obtain ⟨rfl, rfl⟩ := hstep
        exact posted_conclude hr (by rw [hp]; rfl) .build
    · cases hstep
  | send r' ok =>
    simp only [requestStep] at hstep
    split at hstep
    · rename_i hp
      rw [Option.some.injEq, Prod.mk.injEq] at hstep
      obtain ⟨rfl, rfl⟩ := hstep
      refine posted_conclude hr (by rw [hp]; rfl) ?_
      cases ok
      · exact .silent _
      · exact .forwarded
    · cases hstep
  | drop r' =>
    rw [Act.req, Option.some.injEq] at ha
    subst ha
    simp only [requestStep] at hstep
    split at hstep
    · rename_i hp
      rw [Option.some.injEq, Prod.mk.injEq] at hstep
      obtain ⟨rfl, rfl⟩ := hstep
      exact posted_dashboard hr hp (fun _ ↦ rfl) fun hd ↦
        .dashboardDropped (List.mem_append_left _ hd)
    -- From here on the request is active, and stays so.
    iterate 3
      · rename_i hp
        rw [Option.some.injEq, Prod.mk.injEq] at hstep
        obtain ⟨rfl, rfl⟩ := hstep
        exact posted_dropped hr (by rw [hp]; rfl) rfl rfl rfl
    · rename_i hp
      split at hstep
      · rw [Option.some.injEq, Prod.mk.injEq] at hstep
        obtain ⟨rfl, rfl⟩ := hstep
        exact posted_dropped hr (by rw [hp]; rfl) rfl rfl rfl
      · rw [Option.some.injEq, Prod.mk.injEq] at hstep
        obtain ⟨rfl, rfl⟩ := hstep
        exact posted_dropped hr (by rw [hp]; rfl) rfl rfl rfl
    · cases hstep

end RequestStep

theorem firstSegment_onRouting (x : Option (String × String)) :
    (onRouting x).firstSegment = true := by
  cases x <;> rfl

private theorem posted_of_arrive {req : HttpRequest} (hr : s.requests r = none) :
    Posted config h (arrive config s r req).2 (.arrive r req) r s (arrive config s r req).1 := by
  have hnone : s.phase r = none := by rw [State.phase, hr, Option.map_none]
  have hdrop : ∀ {p : Phase} {s₀ : State}, p ≠ .dropped →
      (s₀.setRequest r ⟨req, p⟩).phase r = some .dropped → Act.arrive r req = .drop r := by
    intro p s₀ hne hp
    rw [phase_setRequest, Option.some.injEq] at hp
    exact absurd hp hne
  rw [arrive]
  cases serveHttp req config.domain with
  | dashboard =>
    refine ⟨by simp [setRequest_requests], hdrop (fun h ↦ by cases h),
      fun r' hne ↦ (setRequest_requests ..).trans (if_neg hne), fun k hk ↦ ?_⟩
    rw [hnone] at hk
    rw [hk.eq_unknown, phase_setRequest]
    exact ⟨_, .dashboard (List.mem_append_right _ (by simp)), .dashboard⟩
  | proxy =>
    have hfirst := firstSegment_onRouting (extractRouting req config.domain)
    refine ⟨by simp [setRequest_requests], hdrop fun heq ↦ ?_,
      fun r' hne ↦ (setRequest_requests ..).trans (if_neg hne), fun k hk ↦ ?_⟩
    · rw [heq] at hfirst
      cases hfirst
    · rw [hnone] at hk
      rw [hk.eq_unknown, phase_setRequest]
      exact ⟨_, .pending hfirst, .receive⟩

/-- **The step of a request.** -/
theorem posted_of_step (hstep : step serde config s a = some (t, es)) (ha : a.req = some r) :
    Posted config h es a r s t := by
  cases a with
  | control => cases ha
  | arrive r' req =>
    rw [Act.req, Option.some.injEq] at ha
    subst ha
    simp only [step] at hstep
    split at hstep
    · cases hstep
    · rename_i hr
      rw [Option.some.injEq] at hstep
      have hpost : Posted config h _ (.arrive r' req) r' s _ := posted_of_arrive hr
      rwa [hstep] at hpost
  | _ =>
    simp only [step, Act.req] at hstep
    rw [Act.req, Option.some.injEq] at ha
    subst ha
    split at hstep
    · cases hstep
    · rename_i hr
      exact posted_of_requestStep hr rfl hstep

/-- **The step of the control channel.** It moves no request and no counter of the proxy. -/
theorem frame_of_control (hstep : step serde config s a = some (t, es)) (ha : a.req = none) :
    t.requests = s.requests ∧ t.metrics = s.metrics ∧ t.sessions = s.sessions ∧
      ∃ es' : List Control.Event, es = es'.map .control := by
  cases a with
  | control b =>
    simp only [step] at hstep
    split at hstep
    · split at hstep
      · cases hstep
      · rw [Option.some.injEq, Prod.mk.injEq] at hstep
        obtain ⟨rfl, rfl⟩ := hstep
        exact ⟨rfl, rfl, rfl, _, rfl⟩
    · cases hstep
  | _ => cases ha

/-! ## The books -/

/-- The requests that have arrived. -/
def arrivals (h : List Event) : Finset ReqId :=
  (h.filterMap fun | .arrived r _ => some r | _ => none).toFinset

/-- The requests that have arrived at `handle_proxy_request`. -/
def proxied (h : List Event) : Finset ReqId := (arrivals h).filter fun r ↦ .toDashboard r ∉ h

theorem mem_arrivals : r ∈ arrivals h ↔ ∃ req, .arrived r req ∈ h := by
  rw [arrivals, List.mem_toFinset, List.mem_filterMap]
  constructor
  · rintro ⟨e, he, heq⟩
    cases e with
    | arrived r' req =>
      rw [Option.some.injEq] at heq
      exact ⟨req, heq ▸ he⟩
    | _ => cases heq
  · rintro ⟨req, hmem⟩
    exact ⟨_, hmem, rfl⟩

theorem mem_arrivals_iff (hi : Delivery config h s) : r ∈ arrivals h ↔ s.requests r ≠ none := by
  rw [mem_arrivals]
  constructor
  · rintro ⟨req, hmem⟩
    obtain ⟨q, hq, -⟩ := hi.arrived r req hmem
    rw [hq]
    exact Option.some_ne_none q
  · intro hr
    obtain ⟨q, hq⟩ := Option.ne_none_iff_exists'.mp hr
    exact ⟨q.req, (hi.request r q hq).arrived⟩

/-- The counters are the tallies of the standings. -/
structure Tallied (S : Finset ReqId) (f : ReqId → Standing) (m : Metrics)
    (b : ConnId → ClientMetrics) : Prop where
  total : m.totalRequests = .ofNat (Tally.count S f Standing.received)
  limited : m.rateLimited = .ofNat (Tally.count S f (· == .limited))
  active : m.activeConnections = .ofNat (Tally.count S f fun k ↦ k.activeWith.isSome)
  streams : ∀ c, (b c).activeStreams = .ofNat (Tally.count S f fun k ↦ k.activeWith == some c)
  requests : ∀ c, (b c).requests = .ofNat (Tally.count S f fun k ↦ k.countedWith == some c)

section Tallied

variable {S : Finset ReqId} {f : ReqId → Standing} {k k' : Standing} {p : Standing → Bool}
  {x : UInt64} {m m' : Metrics} {b b' : ConnId → ClientMetrics}

private theorem counter_stay (hx : x = .ofNat (Tally.count S f p)) (hf : f r = k)
    (hout : r ∉ S → k = .unknown) (hzero : p .unknown = false) (hp : p k = p k') :
    x = .ofNat (Tally.count (insert r S) (Function.update f r k') p) := by
  rw [hx, Tally.count_stay (by rw [hf, hp])]
  intro hr
  rw [hf, hout hr, hzero]

private theorem counter_enter (hx : x = .ofNat (Tally.count S f p)) (hf : f r = k)
    (hp : p k = false) (hp' : p k' = true) :
    x + 1 = .ofNat (Tally.count (insert r S) (Function.update f r k') p) := by
  rw [hx, Tally.count_enter (by rw [hf, hp]) hp', UInt64.ofNat_add]
  rfl

private theorem counter_leave (hx : x = .ofNat (Tally.count S f p)) (hf : f r = k) (hr : r ∈ S)
    (hp : p k = true) (hp' : p k' = false) :
    x - 1 = .ofNat (Tally.count (insert r S) (Function.update f r k') p) := by
  rw [hx, ← Tally.count_leave hr (by rw [hf, hp]) hp', UInt64.ofNat_add]
  exact UInt64.add_sub_cancel _ _

/-- **A posting keeps the tallies.** -/
theorem Tallied.post (ht : Tallied S f m b) (hf : f r = k) (hout : r ∉ S → k = .unknown)
    (hpost : Posting m b k k' m' b') :
    Tallied (insert r S) (Function.update f r k') m' b' := by
  have hother : ∀ {c c' : ConnId}, c' ≠ c → (some c == some c') = false :=
    fun hne ↦ beq_eq_false_iff_ne.mpr fun heq ↦ hne (Option.some.inj heq).symm
  have hself : ∀ c : ConnId, (some c == some c) = true := fun c ↦ beq_self_eq_true _
  cases hpost with
  | stay | dashboard | astray =>
    exact ⟨counter_stay ht.total hf hout rfl rfl, counter_stay ht.limited hf hout rfl rfl,
      counter_stay ht.active hf hout rfl rfl, fun c ↦ counter_stay (ht.streams c) hf hout rfl rfl,
      fun c ↦ counter_stay (ht.requests c) hf hout rfl rfl⟩
  | receive =>
    exact ⟨counter_enter ht.total hf rfl rfl, counter_stay ht.limited hf hout rfl rfl,
      counter_stay ht.active hf hout rfl rfl, fun c ↦ counter_stay (ht.streams c) hf hout rfl rfl,
      fun c ↦ counter_stay (ht.requests c) hf hout rfl rfl⟩
  | limit =>
    exact ⟨counter_stay ht.total hf hout rfl rfl, counter_enter ht.limited hf rfl rfl,
      counter_stay ht.active hf hout rfl rfl, fun c ↦ counter_stay (ht.streams c) hf hout rfl rfl,
      fun c ↦ counter_stay (ht.requests c) hf hout rfl rfl⟩
  | track c =>
    refine ⟨counter_stay ht.total hf hout rfl rfl, counter_stay ht.limited hf hout rfl rfl,
      counter_enter ht.active hf rfl rfl, fun c' ↦ ?_, fun c' ↦ ?_⟩
    · by_cases hc : c' = c
      · subst hc
        rw [Function.update_self]
        exact counter_enter (ht.streams c') hf rfl (hself c')
      · rw [Function.update_of_ne hc]
        exact counter_stay (ht.streams c') hf hout rfl (hother hc).symm
    · by_cases hc : c' = c
      · subst hc
        rw [Function.update_self]
        exact counter_enter (ht.requests c') hf rfl (hself c')
      · rw [Function.update_of_ne hc]
        exact counter_stay (ht.requests c') hf hout rfl (hother hc).symm
  | untrack c =>
    -- Who leaves a gauge is counted in it, so it is one of the requests that are tallied.
    have hr : r ∈ S := by
      by_contra hr
      cases hout hr
    refine ⟨counter_stay ht.total hf hout rfl rfl, counter_stay ht.limited hf hout rfl rfl,
      counter_leave ht.active hf hr rfl rfl, fun c' ↦ ?_, fun c' ↦ ?_⟩
    · by_cases hc : c' = c
      · subst hc
        rw [Function.update_self]
        exact counter_leave (ht.streams c') hf hr (hself c') rfl
      · rw [Function.update_of_ne hc]
        exact counter_stay (ht.streams c') hf hout rfl (hother hc)
    · have hsame : (Function.update b c { b c with activeStreams := (b c).activeStreams - 1 }
          c').requests = (b c').requests := by
        by_cases hc : c' = c
        · rw [hc, Function.update_self]
        · rw [Function.update_of_ne hc]
      rw [hsame]
      exact counter_stay (ht.requests c') hf hout rfl rfl

end Tallied

/-- The standings of all requests, and the counters they make. -/
structure Books (config : ServerConfig) (h : List Event) (s : State) (f : ReqId → Standing) :
    Prop where
  stands : ∀ r, Stands config h r (s.phase r) (f r)
  dashboard : ∀ r, .toDashboard r ∈ h → f r = .dashboard
  tallied : Tallied (arrivals h) f s.metrics s.sessions

theorem toDashboard_of_step (hstep : step serde config s a = some (t, es))
    (hmem : .toDashboard r ∈ es) : s.requests r = none ∧ t.phase r = some .dashboard := by
  cases step_transition hstep with
  | toDashboard hr =>
    simp only [List.mem_cons, reduceCtorEq, Event.toDashboard.injEq, List.not_mem_nil, or_false,
      false_or] at hmem
    subst hmem
    exact ⟨hr, phase_setRequest ..⟩
  | control | dropCall => simp at hmem
  | openStream => simp at hmem
  | toProxy | move | found | gotStream | marked | handshaken => simp at hmem

namespace Books

variable {f : ReqId → Standing}

theorem start : Books config [] (start config routes) fun _ ↦ .unknown where
  stands r := .absent
  dashboard r hmem := by cases hmem
  tallied := ⟨rfl, rfl, rfl, fun c ↦ rfl, fun c ↦ rfl⟩

theorem unknown_of_notMem (hb : Books config h s f) (hi : Delivery config h s)
    (hr : r ∉ arrivals h) : f r = .unknown := by
  have hnone : s.requests r = none := by
    by_contra hne
    exact hr ((mem_arrivals_iff hi).mpr hne)
  have hk := hb.stands r
  rw [State.phase, hnone] at hk
  exact hk.eq_unknown

private theorem step_control (hb : Books config h s f)
    (hstep : Proxy.step serde config s a = some (t, es)) (ha : a.req = none) :
    Books config (h ++ es) t f := by
  obtain ⟨hrequests, hm, hs, es, rfl⟩ := frame_of_control hstep ha
  have harr : arrivals (h ++ es.map .control) = arrivals h := by
    ext r
    simp [mem_arrivals]
  refine ⟨fun r ↦ ?_, fun r hmem ↦ hb.dashboard r (by simpa using hmem), ?_⟩
  · rw [State.phase, hrequests]
    exact (hb.stands r).append
  · rw [harr, hm, hs]
    exact hb.tallied

private theorem step_request (hb : Books config h s f) (hi : Delivery config h s)
    (hstep : Proxy.step serde config s a = some (t, es)) (ha : a.req = some r) :
    ∃ f', Books config (h ++ es) t f' := by
  have hp : Posted config h es a r s t := posted_of_step hstep ha
  have hi' : Delivery config (h ++ es) t := hi.step hstep
  obtain ⟨k', hk', hpost⟩ := hp.post (f r) (hb.stands r)
  have harr : arrivals (h ++ es) = insert r (arrivals h) := by
    ext r'
    rw [Finset.mem_insert, mem_arrivals_iff hi', mem_arrivals_iff hi]
    by_cases hr : r' = r
    · subst hr
      simp [hp.known]
    · simp [hr, hp.frame r' hr]
  refine ⟨Function.update f r k', fun r' ↦ ?_, fun r' hmem ↦ ?_, ?_⟩
  · by_cases hr : r' = r
    · subst hr
      rwa [Function.update_self]
    · rw [Function.update_of_ne hr, State.phase, hp.frame r' hr]
      exact (hb.stands r').append
  · by_cases hr : r' = r
    · subst hr
      rw [Function.update_self]
      rcases List.mem_append.mp hmem with hmem | hmem
      · -- From this standing there is no other.
        rw [hb.dashboard r' hmem] at hpost
        exact hpost.eq_dashboard
      · rw [(toDashboard_of_step hstep hmem).2] at hk'
        exact hk'.of_dashboard.1
    · rw [Function.update_of_ne hr]
      rcases List.mem_append.mp hmem with hmem | hmem
      · exact hb.dashboard r' hmem
      · obtain ⟨hnone, hsome⟩ := toDashboard_of_step hstep hmem
        rw [State.phase, hp.frame r' hr, hnone] at hsome
        cases hsome
  · rw [harr]
    exact hb.tallied.post rfl (hb.unknown_of_notMem hi) hpost

/-- **The step lemma.** -/
theorem step (hb : Books config h s f) (hi : Delivery config h s)
    (hstep : Proxy.step serde config s a = some (t, es)) : ∃ f', Books config (h ++ es) t f' := by
  cases ha : a.req with
  | none => exact ⟨f, hb.step_control hstep ha⟩
  | some r => exact hb.step_request hi hstep ha

/-- **The run lemma.** -/
theorem of_reach (hr : (machine serde config routes).Reach h s) : ∃ f, Books config h s f := by
  refine hr.invariant (P := fun h s ↦ ∃ f, Books config h s f) ⟨_, start⟩ ?_
  rintro h s a t es hr ⟨f, hb⟩ hstep
  exact hb.step (.of_reach hr) hstep

end Books

/-! ## The counters as numbers

As long as fewer than `2 ^ 64` requests have come in, no counter has wrapped. -/

section Numbers

variable {f : ReqId → Standing} {p : Standing → Bool} {x : UInt64}

private theorem toNat_add_one (hx : x.toNat + 1 < 2 ^ 64) : (x + 1).toNat = x.toNat + 1 := by
  rw [UInt64.toNat_add]
  exact Nat.mod_eq_of_lt hx

private theorem toNat_sub_one (hx : 0 < x.toNat) : (x - 1).toNat + 1 = x.toNat := by
  rw [UInt64.toNat_sub_of_le]
  · exact Nat.sub_add_cancel hx
  · exact UInt64.le_iff_toNat_le.mpr hx

namespace Books

theorem received_le (hb : Books config h s f) :
    Tally.count (arrivals h) f Standing.received ≤ (proxied h).card := by
  refine Finset.card_le_card fun r hr ↦ ?_
  obtain ⟨hr, hrec⟩ := Finset.mem_filter.mp hr
  refine Finset.mem_filter.mpr ⟨hr, fun hd ↦ ?_⟩
  rw [hb.dashboard r hd] at hrec
  cases hrec

theorem toNat_counter (hb : Books config h s f) (hfit : (proxied h).card < 2 ^ 64)
    (hx : x = .ofNat (Tally.count (arrivals h) f p)) (hp : ∀ k, p k = true → k.received = true) :
    x.toNat = Tally.count (arrivals h) f p := by
  have hle : Tally.count (arrivals h) f p ≤ (proxied h).card :=
    (Tally.count_mono fun _ _ ↦ hp _).trans hb.received_le
  rw [hx]
  exact UInt64.toNat_ofNat_of_lt' (hle.trans_lt hfit)

theorem active_toNat (hb : Books config h s f) (hfit : (proxied h).card < 2 ^ 64) :
    s.metrics.activeConnections.toNat =
      Tally.count (arrivals h) f fun k ↦ k.activeWith.isSome := by
  refine hb.toNat_counter hfit hb.tallied.active fun k hk ↦ ?_
  cases k with
  | active => rfl
  | _ => cases hk

theorem streams_toNat (hb : Books config h s f) (hfit : (proxied h).card < 2 ^ 64) (c : ConnId) :
    (s.sessions c).activeStreams.toNat =
      Tally.count (arrivals h) f fun k ↦ k.activeWith == some c := by
  refine hb.toNat_counter hfit (hb.tallied.streams c) fun k hk ↦ ?_
  cases k with
  | active => rfl
  | _ => cases hk

theorem requests_toNat (hb : Books config h s f) (hfit : (proxied h).card < 2 ^ 64) (c : ConnId) :
    (s.sessions c).requests.toNat =
      Tally.count (arrivals h) f fun k ↦ k.countedWith == some c := by
  refine hb.toNat_counter hfit (hb.tallied.requests c) fun k hk ↦ ?_
  cases k with
  | active | settled => rfl
  | _ => cases hk

theorem total_toNat (hb : Books config h s f) (hfit : (proxied h).card < 2 ^ 64) :
    s.metrics.totalRequests.toNat = Tally.count (arrivals h) f Standing.received :=
  hb.toNat_counter hfit hb.tallied.total fun _ hk ↦ hk

theorem limited_toNat (hb : Books config h s f) (hfit : (proxied h).card < 2 ^ 64) :
    s.metrics.rateLimited.toNat = Tally.count (arrivals h) f (· == .limited) := by
  refine hb.toNat_counter hfit hb.tallied.limited fun k hk ↦ ?_
  rw [eq_of_beq hk]
  rfl

end Books

/-! ### The sessions behind the gauges -/

/-- The connections whose sessions were ever registered, replaced ones included. -/
def registeredConns (h : List Event) : Finset ConnId :=
  (h.filterMap fun | .control (.swapped c _ _) => some c | _ => none).toFinset

theorem mem_registeredConns {k : String} {sessionId : UInt64}
    (hmem : .control (.swapped c k sessionId) ∈ h) : c ∈ registeredConns h := by
  rw [registeredConns, List.mem_toFinset, List.mem_filterMap]
  exact ⟨_, hmem, rfl⟩

theorem registered_of_contacted (hr : (machine serde config routes).Reach h s)
    (hmem : .contacted r c ∈ h) : c ∈ registeredConns h := by
  obtain ⟨h₁, h₂, rfl⟩ := List.append_of_mem hmem
  obtain ⟨-, clientId, -, client, -, -, -, hlook, rfl⟩ := lookedUp_of_contacted hr
  exact mem_registeredConns (registered_of_lookedUp hr (List.mem_append_left _ hlook)).2

theorem Stands.contacted {p : Option Phase} {k : Standing} (hk : Stands config h r p k)
    (hc : k.countedWith = some c) : .contacted r c ∈ h := by
  cases hk with
  | active _ hmem | dropped hmem | concluded _ hmem =>
    cases hc
    exact hmem
  | _ => cases hc

theorem countedWith_of_activeWith {k : Standing} (hk : k.activeWith = some c) :
    k.countedWith = some c := by
  cases k with
  | active => exact hk
  | _ => cases hk

theorem sum_streams (hb : Books config h s f) (hr : (machine serde config routes).Reach h s)
    (hfit : (proxied h).card < 2 ^ 64) : s.metrics.activeConnections.toNat =
      ∑ c ∈ registeredConns h, (s.sessions c).activeStreams.toNat := by
  have hT : ∀ r ∈ arrivals h, ∀ c, (f r).activeWith = some c → c ∈ registeredConns h :=
    fun r _ c hc ↦ registered_of_contacted hr
      ((hb.stands r).contacted (countedWith_of_activeWith hc))
  rw [hb.active_toNat hfit, ← Tally.sum_count_owner hT]
  exact Finset.sum_congr rfl fun c _ ↦ (hb.streams_toNat hfit c).symm

theorem sum_requests (hb : Books config h s f) (hr : (machine serde config routes).Reach h s)
    (hfit : (proxied h).card < 2 ^ 64) :
    Tally.count (arrivals h) f (fun k ↦ k.countedWith.isSome) =
      ∑ c ∈ registeredConns h, (s.sessions c).requests.toNat := by
  have hT : ∀ r ∈ arrivals h, ∀ c, (f r).countedWith = some c → c ∈ registeredConns h :=
    fun r _ c hc ↦ registered_of_contacted hr ((hb.stands r).contacted hc)
  rw [← Tally.sum_count_owner hT]
  exact Finset.sum_congr rfl fun c _ ↦ (hb.requests_toNat hfit c).symm

/-- The request has looked up its client and is not yet answered. -/
def State.inFlight (s : State) (r : ReqId) : Bool := ((s.phase r).bind Phase.activeWith).isSome

theorem inFlight_le (hb : Books config h s f) (hfit : (proxied h).card < 2 ^ 64) :
    ((arrivals h).filter fun r ↦ s.inFlight r).card ≤ s.metrics.activeConnections.toNat := by
  rw [hb.active_toNat hfit]
  refine Finset.card_le_card fun r hr ↦ ?_
  obtain ⟨hr, hfl⟩ := Finset.mem_filter.mp hr
  refine Finset.mem_filter.mpr ⟨hr, ?_⟩
  obtain ⟨c, hc⟩ := Option.isSome_iff_exists.mp hfl
  obtain ⟨p, hp, hact⟩ := Option.bind_eq_some_iff.mp hc
  have hk := hb.stands r
  rw [hp] at hk
  rw [(hk.eq_active hact).1]
  rfl

/-! ### Where the requests have gone -/

/-- The answers to a request that no session has seen, the rate limit apart. -/
inductive AstrayReply (config : ServerConfig) : Reply → Prop
  | unroutable (ids : List String) : AstrayReply config (hintReply config.domain ids)
  | offline (clientId : String) : AstrayReply config (offlineReply clientId)

/-- The request was answered as unroutable or offline. -/
def Astray (config : ServerConfig) (s : State) (r : ReqId) : Prop :=
  ∃ reply, AstrayReply config reply ∧ s.phase r = some (.answered reply)

/-- The status of an answer of the proxy's own. -/
def Reply.status : Reply → Option ℕ
  | error status _ => some status
  | forwarded | dashboard => none

/-- The last character of the message of such an answer. -/
def Reply.lastChar : Reply → Option Char
  | error _ msg => msg.toList.getLast?
  | forwarded | dashboard => none

theorem status_hintReply (domain : String) (ids : List String) :
    (hintReply domain ids).status = some 503 ∨ (hintReply domain ids).status = some 404 := by
  unfold hintReply
  split
  · exact .inl rfl
  · exact .inr rfl

private theorem getLast?_append_literal (k : String) {m : String} {ch : Char}
    (hm : m.toList.getLast? = some ch) : ("Tunnel '" ++ k ++ m).toList.getLast? = some ch := by
  rw [String.toList_append, List.getLast?_append, hm]
  rfl

theorem lastChar_offlineReply (clientId : String) :
    (offlineReply clientId).lastChar = some 'e' := getLast?_append_literal clientId rfl

theorem Concluded.lastChar {reply : Reply} (hreply : Concluded reply) :
    reply.lastChar ≠ some 'e' := by
  cases hreply with
  | connection clientId =>
    rw [show (connectionReply clientId).lastChar = some 'r' from
      getLast?_append_literal clientId rfl]
    decide
  | handshake | build | forwarded => decide
  | silent clientId =>
    rw [show (silentReply clientId).lastChar = some 'd' from
      getLast?_append_literal clientId rfl]
    decide

theorem Concluded.status {reply : Reply} (hreply : Concluded reply) :
    reply.status ≠ some 503 ∧ reply.status ≠ some 404 := by
  cases hreply with
  | connection | handshake | build | forwarded | silent => exact ⟨nofun, nofun⟩

theorem AstrayReply.not_concluded {reply : Reply} (hreply : AstrayReply config reply) :
    ¬Concluded reply := by
  intro hc
  cases hreply with
  | unroutable ids => exact (status_hintReply _ ids).elim hc.status.1 hc.status.2
  | offline clientId => exact hc.lastChar (lastChar_offlineReply clientId)

theorem AstrayReply.ne {reply : Reply} (hreply : AstrayReply config reply) :
    reply ≠ .dashboard ∧ reply ≠ limitedReply := by
  cases hreply with
  | unroutable ids =>
    have hstatus := status_hintReply config.domain ids
    constructor
    · intro heq
      rw [heq] at hstatus
      exact hstatus.elim nofun nofun
    · intro heq
      rw [heq] at hstatus
      exact hstatus.elim (by decide) (by decide)
  | offline clientId =>
    refine ⟨nofun, fun heq ↦ ?_⟩
    have hstatus : some 502 = some 429 := congrArg Reply.status heq
    cases hstatus

theorem astray_iff (hb : Books config h s f) : f r = .astray ↔ Astray config s r := by
  constructor
  · intro hf
    have hk := hb.stands r
    rw [hf] at hk
    generalize hp : s.phase r = p at hk
    cases hk with
    | unroutable ids => exact ⟨_, .unroutable ids, hp⟩
    | offline clientId => exact ⟨_, .offline clientId, hp⟩
  · rintro ⟨reply, hreply, hp⟩
    have hk := hb.stands r
    rw [hp] at hk
    generalize f r = k at hk
    generalize hq : some (Phase.answered reply) = p at hk
    cases hk with
    | unroutable | offline => rfl
    | absent | dashboard | dashboardDropped | dropped => cases hq
    | shown =>
      cases hq
      exact absurd rfl hreply.ne.1
    | limited =>
      rw [Option.some.injEq, Phase.answered.injEq] at hq
      exact absurd hq hreply.ne.2
    | pending hp | active hp =>
      cases hq
      cases hp
    | concluded hc =>
      cases hq
      exact absurd hc hreply.not_concluded

open Classical in
theorem total_eq (hb : Books config h s f) (hr : (machine serde config routes).Reach h s)
    (hfit : (proxied h).card < 2 ^ 64)
    (hseg : ∀ r p, s.phase r = some p → p.firstSegment = false) :
    s.metrics.totalRequests.toNat = s.metrics.rateLimited.toNat +
      ∑ c ∈ registeredConns h, (s.sessions c).requests.toNat +
      ((arrivals h).filter fun r ↦ Astray config s r).card := by
  have hastray : Tally.count (arrivals h) f (· == .astray) =
      ((arrivals h).filter fun r ↦ Astray config s r).card := by
    rw [Tally.count]
    congr 1
    refine Finset.filter_congr fun r _ ↦ ?_
    rw [beq_iff_eq, astray_iff hb]
  rw [hb.total_toNat hfit, hb.limited_toNat hfit, ← sum_requests hb hr hfit, ← hastray,
    Tally.count_add, Tally.count_add]
  · refine Tally.count_congr fun r _ ↦ ?_
    have hk := hb.stands r
    generalize hp : s.phase r = p at hk
    generalize f r = k at hk
    cases hk with
    | pending hfirst =>
      rw [hseg r _ hp] at hfirst
      cases hfirst
    | _ => rfl
  · intro r _ hk
    generalize f r = k at hk
    cases k with
    | astray => cases hk
    | _ => rfl
  · intro r _ hk
    rw [eq_of_beq hk]
    rfl

/-! ### The steps of the gauges -/

/-- What a step does to the two gauges, as numbers. A request counts as active with the session
that it contacts, and what is taken back later is taken back from that session. -/
inductive GaugeMove (h es : List Event) (a : Act) (s t : State) : Prop
  | same (hactive : t.metrics.activeConnections = s.metrics.activeConnections)
      (hstreams : ∀ c, (t.sessions c).activeStreams = (s.sessions c).activeStreams)
  | up (r : ReqId) (c : ConnId) (ha : a.req = some r) (hcont : .contacted r c ∈ es)
      (hactive : t.metrics.activeConnections.toNat = s.metrics.activeConnections.toNat + 1)
      (hstreams : (t.sessions c).activeStreams.toNat = (s.sessions c).activeStreams.toNat + 1)
      (hother : ∀ c', c' ≠ c → (t.sessions c').activeStreams = (s.sessions c').activeStreams)
  | down (r : ReqId) (c : ConnId) (ha : a.req = some r) (hcont : .contacted r c ∈ h)
      (hanswered : ∃ reply, t.phase r = some (.answered reply))
      (hactive : t.metrics.activeConnections.toNat + 1 = s.metrics.activeConnections.toNat)
      (hstreams : (t.sessions c).activeStreams.toNat + 1 = (s.sessions c).activeStreams.toNat)
      (hother : ∀ c', c' ≠ c → (t.sessions c').activeStreams = (s.sessions c').activeStreams)

theorem not_contacted_of_pending (hi : Delivery config h s)
    (hk : Stands config h r (s.phase r) .pending) : .contacted r c ∉ h := by
  intro hmem
  obtain ⟨q, hq, ho⟩ := hi.contacted r c hmem
  rw [phase_eq_some.mpr ⟨q, hq, rfl⟩] at hk
  generalize q.phase = p at hk ho
  cases hk with
  | pending hp =>
    cases p with
    | unroutable | limiting | looking | found => cases ho
    | _ => cases hp

/-- One request that pends leaves room for one more that is active. -/
theorem active_lt (hb : Books config h s f) (hfit : (proxied h).card < 2 ^ 64)
    (hr : r ∈ arrivals h) (hf : f r = .pending) :
    Tally.count (arrivals h) f (fun k ↦ k.activeWith.isSome) + 1 < 2 ^ 64 := by
  have hpos : 0 < Tally.count (arrivals h) f (· == .pending) :=
    Tally.count_pos hr (by rw [hf]; rfl)
  have hadd : Tally.count (arrivals h) f (fun k ↦ k.activeWith.isSome) +
      Tally.count (arrivals h) f (· == .pending) ≤ (proxied h).card := by
    rw [Tally.count_add]
    · refine (Tally.count_mono fun r _ hk ↦ ?_).trans hb.received_le
      generalize f r = k at hk
      cases k with
      | unknown | dashboard => cases hk
      | _ => rfl
    · intro r _ hk
      generalize f r = k at hk
      cases k with
      | active => rfl
      | _ => cases hk
  omega

theorem gauge_step (hb : Books config h s f) (hi : Delivery config h s)
    (hfit : (proxied h).card < 2 ^ 64) (hstep : step serde config s a = some (t, es)) :
    GaugeMove h es a s t := by
  cases ha : a.req with
  | none =>
    obtain ⟨-, hm, hs, -⟩ := frame_of_control hstep ha
    exact .same (by rw [hm]) fun c ↦ by rw [hs]
  | some r =>
    have hk := hb.stands r
    have hmem : f r ≠ .unknown → r ∈ arrivals h := by
      intro hne
      by_contra hr
      exact hne (hb.unknown_of_notMem hi hr)
    obtain ⟨k', hk', hpost⟩ := (posted_of_step (h := h) hstep ha).post (f r) hk
    generalize hf : f r = k at hk hpost
    generalize hm : t.metrics = m at hpost
    generalize hs : t.sessions = b at hpost
    cases hpost with
    | stay | dashboard | receive | limit | astray =>
      exact .same (by rw [hm]) fun c ↦ by rw [hs]
    | track c =>
      have hr : r ∈ arrivals h := hmem (by rw [hf]; exact nofun)
      have hlt := active_lt hb hfit hr hf
      have hcont : .contacted r c ∈ es := by
        refine (List.mem_append.mp (hk'.contacted rfl)).resolve_left ?_
        exact not_contacted_of_pending hi hk
      refine .up r c ha hcont ?_ ?_ fun c' hne ↦ ?_
      · rw [hm]
        exact toNat_add_one (by rwa [hb.active_toNat hfit])
      · rw [hs, Function.update_self]
        refine toNat_add_one ((Nat.succ_le_succ ?_).trans_lt hlt)
        rw [hb.streams_toNat hfit]
        refine Tally.count_mono fun r _ hk ↦ ?_
        rw [eq_of_beq hk]
        rfl
      · rw [hs, Function.update_of_ne hne]
    | untrack c =>
      have hr : r ∈ arrivals h := hmem (by rw [hf]; exact nofun)
      refine .down r c ha (hk.contacted rfl) ?_ ?_ ?_ fun c' hne ↦ ?_
      · generalize hp : t.phase r = p at hk'
        cases hk' with
        | concluded => exact ⟨_, rfl⟩
      · rw [hm]
        refine toNat_sub_one ?_
        rw [hb.active_toNat hfit]
        exact Tally.count_pos hr (by rw [hf]; rfl)
      · rw [hs, Function.update_self]
        refine toNat_sub_one ?_
        rw [hb.streams_toNat hfit]
        exact Tally.count_pos hr (by rw [hf]; exact beq_self_eq_true _)
      · rw [hs, Function.update_of_ne hne]

end Numbers

/-! ## The counters in every run -/

open Classical in
/-- How the counters hang together. -/
structure CountersSound (serde : SerdeJson) (config : ServerConfig) (h : List Event) (s : State) :
    Prop where
  /-- The server's gauge is the sum of the gauges of all sessions ever registered. -/
  gauges : s.metrics.activeConnections.toNat =
    ∑ c ∈ registeredConns h, (s.sessions c).activeStreams.toNat
  inFlight : ((arrivals h).filter fun r ↦ s.inFlight r).card ≤
    s.metrics.activeConnections.toNat
  /-- No decrement wraps, and each is that of a request in the session that it contacted. -/
  step : ∀ a t es, Proxy.step serde config s a = some (t, es) → GaugeMove h es a s t
  once : ∀ r c c', .contacted r c ∈ h → .contacted r c' ∈ h → c = c'
  /-- Between the segments of the handlers, every request is accounted for. -/
  total : (∀ r p, s.phase r = some p → p.firstSegment = false) →
    s.metrics.totalRequests.toNat = s.metrics.rateLimited.toNat +
      ∑ c ∈ registeredConns h, (s.sessions c).requests.toNat +
      ((arrivals h).filter fun r ↦ Astray config s r).card

/-- **Conservation.** In every reachable state, up to `2 ^ 64` requests. -/
theorem counters_sound (serde : SerdeJson) (config : ServerConfig) (routes : RouteFiles)
    (h : List Event) (s : State) (hfit : (proxied h).card < 2 ^ 64)
    (hr : (machine serde config routes).Reach h s) : CountersSound serde config h s := by
  have hi : Delivery config h s := .of_reach hr
  obtain ⟨f, hb⟩ := Books.of_reach hr
  exact ⟨sum_streams hb hr hfit, inFlight_le hb hfit, fun a t es ↦ gauge_step hb hi hfit, hi.once,
    total_eq hb hr hfit⟩

/-- A request stays with its session while that is taken over, and is then in flight with it. -/
theorem counters_sound_takeover : ∃ h s,
    (machine compactSerde Control.sampleConfig fun _ ↦ none).run
      (start Control.sampleConfig fun _ ↦ none)
      ((Control.answerSegments 0 ⟨"app", "t", some "1"⟩ ++
          Control.registerSegments 0 0).map .control ++
        [.arrive 0 (hostRequest appHost), .limit 0 0, .lookup 0] ++
        (Control.answerSegments 1 ⟨"app", "t", some "1"⟩ ++
          Control.registerSegments 1 0).map .control ++ [.openStream 0]) = some (s, h) ∧
    .contacted 0 0 ∈ h ∧ CountersSound compactSerde Control.sampleConfig h s := by
  have hrun : ((machine compactSerde Control.sampleConfig fun _ ↦ none).run
      (start Control.sampleConfig fun _ ↦ none)
      ((Control.answerSegments 0 ⟨"app", "t", some "1"⟩ ++
          Control.registerSegments 0 0).map .control ++
        [.arrive 0 (hostRequest appHost), .limit 0 0, .lookup 0] ++
        (Control.answerSegments 1 ⟨"app", "t", some "1"⟩ ++
          Control.registerSegments 1 0).map .control ++ [.openStream 0])).map
      (fun p ↦ (decide (.contacted 0 0 ∈ p.2), (proxied p.2).card)) = some (true, 1) := by
    decide +kernel
  obtain ⟨⟨s, h⟩, hsh, heq⟩ := Option.map_eq_some_iff.mp hrun
  rw [Prod.mk.injEq, decide_eq_true_eq] at heq
  obtain ⟨hmem, hcard⟩ := heq
  refine ⟨h, s, hsh, hmem, counters_sound _ _ _ h s ?_ (.of_run hsh)⟩
  rw [show (proxied h).card = 1 from hcard]
  decide

/-! ### The counters go round

A request without a `Host` header is received and answered as unroutable, and changes nothing but
`total_requests`. After `2 ^ 64` of them that counter is where it was. -/

section Wrap

private abbrev sample : Machine State Act Event :=
  machine compactSerde Control.sampleConfig fun _ ↦ none

/-- A request without a `Host` header. -/
def noHost : HttpRequest := ⟨[], "/"⟩

/-- Such a request from its arrival to its answer, with no client connected. -/
def unroutableSegments (r : ReqId) : List Act := [.arrive r noHost, .hint r []]

theorem run_unroutableSegments (hr : s.requests r = none)
    (hids : s.control.registry.ids = []) : ∃ t,
    sample.run s (unroutableSegments r) = some (t, [.arrived r noHost]) ∧
      t.control = s.control ∧ t.sessions = s.sessions ∧
      t.metrics = { s.metrics with totalRequests := s.metrics.totalRequests + 1 } ∧
      t.requests = Function.update s.requests r
        (some ⟨noHost, .answered (hintReply Control.sampleConfig.domain [])⟩) := by
  have harrive : sample.step s (.arrive r noHost) =
      some (({ s with metrics := { s.metrics with
        totalRequests := s.metrics.totalRequests + 1 } }.setRequest r ⟨noHost, .unroutable⟩),
        [.arrived r noHost]) := by
    have hserve : serveHttp noHost Control.sampleConfig.domain = .proxy := by decide +kernel
    have hroute : extractRouting noHost Control.sampleConfig.domain = none := by decide +kernel
    simp [machine, step, hr, arrive, hserve, hroute, onRouting]
  have hhint : ∀ {s₀ : State}, s₀.control = s.control →
      s₀.requests r = some ⟨noHost, .unroutable⟩ → sample.step s₀ (.hint r []) =
        some (s₀.setPhase r ⟨noHost, .unroutable⟩
          (.answered (hintReply Control.sampleConfig.domain [])), []) := by
    intro s₀ hcontrol hr₀
    simp [machine, step, Act.req, hr₀, requestStep, hcontrol, hids]
  refine ⟨_, Machine.run_cons_eq_some.mpr ⟨_, _, _, harrive,
    Machine.run_singleton (hhint ?_ ?_), rfl⟩, ?_, ?_, ?_, ?_⟩
  · rfl
  · simp [State.setRequest]
  · rfl
  · rfl
  · rfl
  · simp [State.setPhase, State.setRequest]

theorem run_unroutable_range (n : ℕ) : ∀ (a : ℕ) (s : State),
    (∀ i < n, s.requests (a + i) = none) → s.control.registry.ids = [] → ∃ t,
      sample.run s ((List.range' a n).flatMap unroutableSegments) =
        some (t, (List.range' a n).map fun r ↦ .arrived r noHost) ∧
      t.metrics.totalRequests = s.metrics.totalRequests + .ofNat n ∧
      t.metrics.rateLimited = s.metrics.rateLimited ∧ t.sessions = s.sessions ∧
      (∀ r ∈ List.range' a n,
        t.phase r = some (.answered (hintReply Control.sampleConfig.domain []))) ∧
      ∀ r ∉ List.range' a n, t.requests r = s.requests r := by
  induction n with
  | zero =>
    intro a s _ _
    exact ⟨s, rfl, (UInt64.add_zero _).symm, rfl, rfl, nofun, fun _ _ ↦ rfl⟩
  | succ n ih =>
    intro a s hfresh hids
    obtain ⟨t, hrun, hcontrol, hsessions, hmetrics, hrequests⟩ :=
      run_unroutableSegments (hfresh 0 n.succ_pos) hids
    have hne : ∀ {r : ReqId}, r ≠ a → t.requests r = s.requests r := by
      intro r hr
      rw [hrequests]
      exact Function.update_of_ne hr _ _
    obtain ⟨u, hrun', htotal, hlimited, hsessions', hphase, hother⟩ := ih (a + 1) t
      (fun i hi ↦ by
        rw [hne (by show (a + 1 + i : ℕ) ≠ a; omega), Nat.add_assoc, Nat.add_comm 1 i]
        exact hfresh (i + 1) (by omega))
      (by rw [hcontrol, hids])
    refine ⟨u, ?_, ?_, ?_, ?_, fun r hr ↦ ?_, fun r hr ↦ ?_⟩
    · rw [List.range'_succ, List.flatMap_cons, List.map_cons]
      exact Machine.run_append_eq_some.mpr ⟨t, _, _, hrun, hrun', rfl⟩
    · rw [htotal, hmetrics, Nat.add_comm n 1, UInt64.ofNat_add, ← UInt64.add_assoc]
      rfl
    · rw [hlimited, hmetrics]
    · rw [hsessions', hsessions]
    · rw [List.range'_succ, List.mem_cons] at hr
      by_cases hmem : r ∈ List.range' (a + 1) n
      · exact hphase r hmem
      · obtain rfl := hr.resolve_right hmem
        rw [State.phase, hother r hmem, hrequests]
        exact congrArg _ (Function.update_self ..)
    · rw [List.range'_succ, List.mem_cons, not_or] at hr
      rw [hother r hr.2, hne hr.1]

open Classical in
/-- **After `2 ^ 64` unroutable requests, none is accounted for.** -/
theorem counters_wrap : ∃ h s,
    (machine compactSerde Control.sampleConfig fun _ ↦ none).run
      (start Control.sampleConfig fun _ ↦ none)
      ((List.range' 0 (2 ^ 64)).flatMap unroutableSegments) = some (s, h) ∧
    (∀ r p, s.phase r = some p → p.firstSegment = false) ∧
    s.metrics.totalRequests.toNat ≠ s.metrics.rateLimited.toNat +
      ∑ c ∈ registeredConns h, (s.sessions c).requests.toNat +
      ((arrivals h).filter fun r ↦ Astray Control.sampleConfig s r).card := by
  obtain ⟨s, hrun, htotal, hlimited, hsessions, hphase, hother⟩ :=
    run_unroutable_range (2 ^ 64) 0 (start Control.sampleConfig fun _ ↦ none) (fun _ _ ↦ rfl) rfl
  refine ⟨_, s, hrun, fun r p hp ↦ ?_, ?_⟩
  · by_cases hr : r ∈ List.range' 0 (2 ^ 64)
    · rw [hphase r hr, Option.some.injEq] at hp
      rw [← hp]
      rfl
    · rw [State.phase, hother r hr] at hp
      cases hp
  · have hzero : s.metrics.totalRequests = 0 := by
      rw [htotal]
      decide
    have harr : arrivals ((List.range' 0 (2 ^ 64)).map fun r ↦ .arrived r noHost) =
        (List.range' 0 (2 ^ 64)).toFinset := by
      ext r
      simp [mem_arrivals, List.mem_toFinset]
    have hastray : (arrivals ((List.range' 0 (2 ^ 64)).map fun r ↦ .arrived r noHost)).filter
        (fun r ↦ Astray Control.sampleConfig s r) = (List.range' 0 (2 ^ 64)).toFinset := by
      rw [harr]
      refine Finset.filter_true_of_mem fun r hr ↦ ?_
      exact ⟨_, .unroutable [], hphase r (List.mem_toFinset.mp hr)⟩
    rw [hastray, List.toFinset_card_of_nodup List.nodup_range', List.length_range', hzero]
    exact (Nat.add_pos_right _ (Nat.two_pow_pos 64)).ne

end Wrap

/-! ## Gauges at rest -/

/-- The step does not drop the future of a request in flight. -/
def sparesInFlight (s : State) : Act → Bool
  | .drop r => !s.inFlight r
  | _ => true

theorem inFlight_of_phase {p : Phase} (hp : s.phase r = some p) :
    s.inFlight r = p.activeWith.isSome := by
  rw [State.inFlight, hp]
  rfl

/-- Only the dashboard's requests and those in flight have a point at which they can be dropped. -/
theorem phase_of_drop (hstep : step serde config s (.drop r) = some (t, es)) :
    s.phase r = some .dashboard ∨ s.inFlight r = true := by
  simp only [step, Act.req] at hstep
  split at hstep
  · cases hstep
  · rename_i q hq
    have hphase : s.phase r = some q.phase := phase_eq_some.mpr ⟨q, hq, rfl⟩
    rw [inFlight_of_phase hphase, hphase]
    simp only [requestStep] at hstep
    cases hp : q.phase with
    | dashboard => exact .inl rfl
    | opening | marking | handshaking | sending => exact .inr rfl
    | _ =>
      rw [hp] at hstep
      cases hstep

theorem dashboard_of_dropped (hr : ((machine serde config routes).guard sparesInFlight).Reach h s)
    (hp : s.phase r = some .dropped) : .toDashboard r ∈ h := by
  refine Machine.Reach.invariant
    (P := fun h s ↦ ∀ r, s.phase r = some .dropped → .toDashboard r ∈ h)
    nofun (fun h s a t es hr ih hstep r hp ↦ ?_) hr r hp
  obtain ⟨hspares, hstep⟩ := Machine.guard_step_eq_some.mp hstep
  have hr' : (machine serde config routes).Reach h s := hr.of_guard
  have hother : t.requests r = s.requests r → .toDashboard r ∈ h ++ es := by
    intro heq
    refine List.mem_append_left _ (ih r ?_)
    rwa [State.phase, ← heq]
  cases ha : a.req with
  | none =>
    obtain ⟨hrequests, -⟩ := frame_of_control hstep ha
    exact hother (by rw [hrequests])
  | some r' =>
    obtain ⟨f, hb⟩ := Books.of_reach hr'
    have hpost : Posted config h es a r' s t := posted_of_step hstep ha
    by_cases hne : r = r'
    · subst hne
      -- The step is the drop itself.
      have hdrop := hpost.drop hp
      subst hdrop
      rw [sparesInFlight, Bool.not_eq_true'] at hspares
      have hdash : s.phase r = some .dashboard :=
        (phase_of_drop hstep).resolve_right (by rw [hspares]; exact Bool.false_ne_true)
      have hk := hb.stands r
      rw [hdash] at hk
      exact List.mem_append_left _ hk.of_dashboard.2
    · exact hother (hpost.frame r hne)

/-- **The gauges come back to zero.** When no request in flight is ever dropped, both gauges are
zero in every state in which none is in flight. -/
theorem gauges_zero_at_rest (serde : SerdeJson) (config : ServerConfig) (routes : RouteFiles)
    (h : List Event) (s : State)
    (hr : ((machine serde config routes).guard sparesInFlight).Reach h s)
    (hrest : ∀ r, s.inFlight r = false) :
    s.metrics.activeConnections = 0 ∧ ∀ c, (s.sessions c).activeStreams = 0 := by
  obtain ⟨f, hb⟩ := Books.of_reach hr.of_guard
  have hnone : ∀ r, (f r).activeWith = none := by
    intro r
    have hk := hb.stands r
    generalize hp : s.phase r = p at hk
    generalize hf : f r = k at hk
    cases hk with
    | active hact =>
      have hfl := hrest r
      rw [inFlight_of_phase hp, hact] at hfl
      cases hfl
    | dropped =>
      rw [hb.dashboard r (dashboard_of_dropped hr hp)] at hf
      cases hf
    | _ => rfl
  constructor
  · rw [hb.tallied.active, Tally.count_eq_zero fun r _ ↦ by rw [hnone r]; rfl]
    rfl
  · intro c
    rw [hb.tallied.streams c, Tally.count_eq_zero fun r _ ↦ by rw [hnone r]; rfl]
    rfl

section Runs

/-- A session registers, and a request asks it for a stream. -/
def openingRun : List Act :=
  (Control.answerSegments 0 ⟨"app", "t", some "1"⟩ ++ Control.registerSegments 0 0).map .control ++
    [.arrive 0 (hostRequest appHost), .limit 0 0, .lookup 0, .openStream 0]

/-- The session opens the stream, and the client answers the request. -/
def answeringRun : List Act :=
  openingRun ++ [.control (.driver 0 (.send 0)), .control (.driver 0 .recvCmd),
    .control (.driver 0 .outboundOk), .opened 0, .mark 0 true, .handshake 0 true, .build 0 true,
    .send 0 true]

/-- In a run with one request, that is the only one whose phase matters. -/
theorem phase_of_single (hr : (machine serde config routes).Reach h s)
    (harr : arrivals h = {0}) {p : Phase} (hp : s.phase r = some p) : s.phase 0 = some p := by
  have hmem : r ∈ arrivals h := by
    refine (mem_arrivals_iff (.of_reach hr)).mpr fun hnone ↦ ?_
    rw [State.phase, hnone] at hp
    cases hp
  rw [harr, Finset.mem_singleton] at hmem
  rwa [hmem] at hp

/-- A request that is answered by its session. -/
theorem gauges_zero_at_rest_answered : ∃ h s,
    ((machine compactSerde Control.sampleConfig fun _ ↦ none).guard sparesInFlight).run
      (start Control.sampleConfig fun _ ↦ none) answeringRun = some (s, h) ∧
    .handshaken 0 0 0 ∈ h ∧
    s.metrics.activeConnections = 0 ∧ ∀ c, (s.sessions c).activeStreams = 0 := by
  have hrun : (((machine compactSerde Control.sampleConfig fun _ ↦ none).guard sparesInFlight).run
      (start Control.sampleConfig fun _ ↦ none) answeringRun).map
      (fun p ↦ (p.1.phase 0, arrivals p.2, decide (.handshaken 0 0 0 ∈ p.2))) =
      some (some (.answered .forwarded), {0}, true) := by decide +kernel
  obtain ⟨⟨s, h⟩, hsh, heq⟩ := Option.map_eq_some_iff.mp hrun
  simp only [Prod.mk.injEq, decide_eq_true_eq] at heq
  obtain ⟨hphase, harr, hmem⟩ := heq
  have hr : ((machine compactSerde Control.sampleConfig fun _ ↦ none).guard sparesInFlight).Reach
      h s := .of_run hsh
  refine ⟨h, s, hsh, hmem, gauges_zero_at_rest _ _ _ h s hr fun r ↦ ?_⟩
  cases hp : s.phase r with
  | none =>
    rw [State.inFlight, hp]
    rfl
  | some p =>
    have hsingle := phase_of_single hr.of_guard harr hp
    rw [hphase, Option.some.injEq] at hsingle
    rw [inFlight_of_phase hp, ← hsingle]
    rfl

/-- **The gauges leak.** The public client goes away while the stream is being opened; nothing is
in flight any more, and both gauges stay at one. -/
theorem gauges_leak : ∃ h s,
    (machine compactSerde Control.sampleConfig fun _ ↦ none).run
      (start Control.sampleConfig fun _ ↦ none) (openingRun ++ [.drop 0]) = some (s, h) ∧
    (∀ r p, s.phase r = some p → p = .dropped) ∧
    s.metrics.activeConnections = 1 ∧ (s.sessions 0).activeStreams = 1 := by
  have hrun : ((machine compactSerde Control.sampleConfig fun _ ↦ none).run
      (start Control.sampleConfig fun _ ↦ none) (openingRun ++ [.drop 0])).map
      (fun p ↦ (p.1.phase 0, arrivals p.2, p.1.metrics.activeConnections,
        (p.1.sessions 0).activeStreams)) = some (some .dropped, {0}, 1, 1) := by decide +kernel
  obtain ⟨⟨s, h⟩, hsh, heq⟩ := Option.map_eq_some_iff.mp hrun
  simp only [Prod.mk.injEq] at heq
  obtain ⟨hphase, harr, hactive, hstreams⟩ := heq
  refine ⟨h, s, hsh, fun r p hp ↦ ?_, hactive, hstreams⟩
  have hsingle := phase_of_single (.of_run hsh) harr hp
  rw [hphase, Option.some.injEq] at hsingle
  exact hsingle.symm

end Runs

end Proxy

end ZoTunnel
