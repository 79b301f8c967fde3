import Mathlib.Data.Set.Card
import ZoTunnel.Server.Counters
import ZoTunnel.Server.Granting

/-!
# Requests on one session

The configuration has a limit of connections for each client, and no function reads it: a request
that finds its client opens a stream on the session, however many others are there. Two requests are
enough to exceed a limit of one (`limit_exceeded`).

A request is on a session from the return of `open_stream` to its answer. While a client is online,
one more request for it can get there at any time (`can_run`), so no limit whatever is kept
(`connection_limit_never`).
-/

namespace ZoTunnel

namespace Proxy

/-- The session of a request that has got its stream and has no answer. -/
def Phase.streaming : Phase → Option ConnId
  | marking t _ | handshaking t _ | building t _ | sending t _ => some t.client.handle
  | _ => none

/-- A request is on the stream of a session. -/
def Running (s : State) (c : ConnId) (r : ReqId) : Prop :=
  ∃ q, s.requests r = some q ∧ q.phase.streaming = some c

/-- Client `clientId` is registered as `e`, and the driver of its session runs. -/
structure Online (s : State) (clientId : String) (e : ClientEntry) : Prop where
  slot : s.control.registry.get clientId = some e
  running : ∃ conn d, s.control.conns e.handle = some conn ∧ conn.driver = some d ∧ d.ended = none

variable {serde : SerdeJson} {config : ServerConfig} {routes : RouteFiles} {h : List Event}
  {s s₀ : State} {r : ReqId} {q : Request} {req : HttpRequest} {clientId path : String}
  {e : ClientEntry} {c : ConnId}

theorem finite_running (hr : (machine serde config routes).Reach h s) (c : ConnId) :
    {r | Running s c r}.Finite := by
  refine (arrivals h).finite_toSet.subset ?_
  rintro r ⟨q, hq, -⟩
  exact Finset.mem_coe.mpr ((mem_arrivals_iff (.of_reach hr)).mpr
    fun hnone ↦ Option.some_ne_none q (hq.symm.trans hnone))

/-! ## One more request -/

/-- Request `r` is at `q`, its client has a driver, and no other request has moved since `s₀`. -/
structure Waits (s₀ s : State) (clientId : String) (e : ClientEntry) (r : ReqId) (q : Request) :
    Prop where
  slot : s.control.registry.get clientId = some e
  muxed : ∃ conn d, s.control.conns e.handle = some conn ∧ conn.driver = some d
  request : s.requests r = some q
  others : ∀ r' ≠ r, s.requests r' = s₀.requests r'

theorem Waits.drive {b : Driver.Act} {d' : Driver} {ds : List Driver.Event}
    (hw : Waits s₀ s clientId e r q) (hb : b.Granting r)
    (hstep : (s.control.driverAt e.handle).step b = some (d', ds)) :
    ∃ t es, step serde config s (.control (.driver e.handle b)) = some (t, es) ∧
      t.control.driverAt e.handle = d' ∧ Waits s₀ t clientId e r q := by
  obtain ⟨conn, d, hc, hd⟩ := hw.muxed
  rw [Control.driverAt_eq hc hd] at hstep
  have hcontrol := Control.step_granting serde config hc hd hb hstep
  have hown : ownStep (.driver e.handle b) = true := by rcases hb with rfl | rfl | rfl <;> rfl
  refine ⟨{ s with control := s.control.setConn e.handle { conn with driver := some d' } }, _,
    by simp only [step, hown, hcontrol, if_true]; rfl, ?_, hw.slot,
    ⟨_, d', Control.setConn_self .., rfl⟩, hw.request, hw.others⟩
  exact Control.driverAt_eq (Control.setConn_self ..) rfl

theorem can_of_step {a : Act} {es : List Event} {t : State} {P : State → Prop}
    (hstep : step serde config s a = some (t, es))
    (hcan : (machine serde config routes).Can (fun _ ↦ True) P t) :
    (machine serde config routes).Can (fun _ ↦ True) P s :=
  .next trivial hstep hcan

theorem can_wait (hr : (machine serde config routes).Reach h s)
    (hproxy : serveHttp req config.domain = .proxy)
    (hroute : extractRouting req config.domain = some (clientId, path))
    (hon : Online s clientId e) (hnone : s.requests r = none) :
    (machine serde config routes).Can (fun _ ↦ True)
      (fun t ↦ Waits s t clientId e r ⟨req, .opening ⟨clientId, path, e⟩⟩ ∧
        (t.control.driverAt e.handle).ended = none ∧
        (t.control.driverAt e.handle).calls r = some .sending) s := by
  obtain ⟨hget, conn, d, hc, hd, hrun⟩ := hon
  -- The request is new to the driver, as it has not arrived yet.
  have hfresh : d.calls r = none := by
    by_contra hne
    have hdelivery : Delivery config h s := .of_reach hr
    obtain ⟨q, hq, -⟩ := hdelivery.contacted r _ (hdelivery.calls e.handle conn d r hc hd hne)
    rw [hnone] at hq
    cases hq
  obtain ⟨now, limiter, hcheck⟩ := s.limiter.exists_check clientId
  obtain ⟨control, conn', d', hcall, hreg, hc', hd', hrun', hsending⟩ :=
    Control.call_new serde config hc hd hrun hfresh
  refine can_of_step (step_arrive hnone hproxy hroute) ?_
  refine can_of_step (step_limit (Function.update_self ..) hcheck) ?_
  refine can_of_step (step_lookup (Function.update_self ..) hget) ?_
  refine can_of_step (step_openStream (Function.update_self ..) hcall) (.here ⟨?_, ?_⟩)
  · refine ⟨(congrArg (Registry.get · clientId) hreg).trans hget, ⟨conn', d', hc', hd'⟩,
      Function.update_self .., fun r' hne ↦ ?_⟩
    simp only [State.setPhase, State.setRequest, State.track, Function.update_of_ne hne]
  · rw [← Control.driverAt_eq hc' hd'] at hrun' hsending
    exact ⟨hrun', hsending⟩

/-- **One more at any time.** While a client is online, a new request for it can get a stream of its
session, and all others are where they were. -/
theorem can_run (hr : (machine serde config routes).Reach h s)
    (hproxy : serveHttp req config.domain = .proxy)
    (hroute : extractRouting req config.domain = some (clientId, path))
    (hon : Online s clientId e) (hnone : s.requests r = none) :
    (machine serde config routes).Can (fun _ ↦ True)
      (fun t ↦ Online t clientId e ∧ Running t e.handle r ∧
        ∀ r' ≠ r, t.requests r' = s.requests r') s := by
  refine (can_wait hr hproxy hroute hon hnone).and_then fun s₁ hs₁ ↦ ?_
  obtain ⟨hw, hrun, hsending⟩ := hs₁
  have hgrant : (Driver.machine true 0).Can (Driver.Act.Granting r)
      (fun d ↦ d.ended = none ∧ ∃ st, d.calls r = some (.returned (.ok st)))
      (s₁.control.driverAt e.handle) := Driver.can_grant hrun hsending
  refine (Machine.Can.lift (M := machine serde config routes)
    (I := fun t ↦ Waits s t clientId e r ⟨req, .opening ⟨clientId, path, e⟩⟩)
    (f := fun t ↦ t.control.driverAt e.handle) (g := fun b ↦ .control (.driver e.handle b)) ?_
    hgrant hw).and_then fun s₂ hs₂ ↦ ?_
  · intro s₁ b d es hw hb hstep
    obtain ⟨t, es', ht, hd, hw'⟩ := hw.drive hb hstep
    exact ⟨t, es', trivial, ht, hd, hw'⟩
  · obtain ⟨⟨hrun, st, hcall⟩, hw⟩ := hs₂
    obtain ⟨conn, d, hc, hd⟩ := hw.muxed
    rw [Control.driverAt_eq hc hd] at hrun hcall
    obtain ⟨p, hstep, hp⟩ : ∃ p, step serde config s₂ (.opened r) =
        some (s₂.setPhase r ⟨req, .opening ⟨clientId, path, e⟩⟩ p, []) ∧
          p.streaming = some e.handle := by
      have hres : openResult s₂ r e.handle = some (.ok st) := by simp [openResult, hc, hd, hcall]
      by_cases hsup : e.supportsHeartbeat = true
      · exact ⟨.marking _ st, by
          simp [step, Act.req, hw.request, requestStep, hres, hsup]; rfl, rfl⟩
      · exact ⟨.handshaking _ st, by
          simp [step, Act.req, hw.request, requestStep, hres, hsup]; rfl, rfl⟩
    refine can_of_step hstep
      (.here ⟨⟨hw.slot, conn, d, hc, hd, hrun⟩, ⟨_, Function.update_self .., hp⟩, fun r' hne ↦ ?_⟩)
    exact (Function.update_of_ne hne ..).trans (hw.others r' hne)

/-! ## Any number of them -/

theorem ncard_lt_of_running {t : State} (hr : (machine serde config routes).Reach h t)
    (hnone : s.requests r = none) (hrunning : Running t c r)
    (hothers : ∀ r' ≠ r, t.requests r' = s.requests r') :
    {r | Running s c r}.ncard < {r | Running t c r}.ncard := by
  have hnot : ¬Running s c r := by
    rintro ⟨q, hq, -⟩
    rw [hnone] at hq
    cases hq
  refine Set.ncard_lt_ncard ⟨?_, fun hsub ↦ hnot (hsub hrunning)⟩ (finite_running hr c)
  rintro r' ⟨q, hq, hstreaming⟩
  have hne : r' ≠ r := by
    rintro rfl
    exact hnot ⟨q, hq, hstreaming⟩
  exact ⟨q, (hothers r' hne).trans hq, hstreaming⟩

theorem can_exceed (hr : (machine serde config routes).Reach h s)
    (hproxy : serveHttp req config.domain = .proxy)
    (hroute : extractRouting req config.domain = some (clientId, path))
    (hon : Online s clientId e) (n : ℕ) :
    (machine serde config routes).Can (fun _ ↦ True)
      (fun t ↦ Online t clientId e ∧ n ≤ {r | Running t e.handle r}.ncard) s := by
  induction n with
  | zero => exact .here ⟨hon, Nat.zero_le _⟩
  | succ n ih =>
    refine (ih.and_reach hr).and_then fun t ht ↦ ?_
    obtain ⟨⟨hon, hn⟩, h₁, hr₁⟩ := ht
    obtain ⟨r, hr'⟩ := Infinite.exists_notMem_finset (arrivals h₁)
    have hnone : t.requests r = none :=
      not_not.mp fun hne ↦ hr' ((mem_arrivals_iff (.of_reach hr₁)).mpr hne)
    refine ((can_run hr₁ hproxy hroute hon hnone).and_reach hr₁).mono fun u hu ↦ ?_
    obtain ⟨⟨hon, hrunning, hothers⟩, h₂, hr₂⟩ := hu
    refine ⟨hon, ?_⟩
    exact Nat.succ_le_of_lt (hn.trans_lt (ncard_lt_of_running hr₂ hnone hrunning hothers))

/-- **The limit is never kept.** Whatever the configuration allows, from every reachable state in
which a client is online a run leads to more requests on its session, as soon as there is a host
that is routed to it. -/
theorem connection_limit_never (serde : SerdeJson) (config : ServerConfig) (routes : RouteFiles)
    (h : List Event) (s : State) (hr : (machine serde config routes).Reach h s)
    (clientId : String) (e : ClientEntry) (hon : Online s clientId e) (req : HttpRequest)
    (path : String) (hproxy : serveHttp req config.domain = .proxy)
    (hroute : extractRouting req config.domain = some (clientId, path)) :
    ¬∀ as t h', (machine serde config routes).run s as = some (t, h') →
      {r | Running t e.handle r}.ncard ≤ config.rateLimit.maxConnectionsPerClient.toNat := by
  intro hlimit
  obtain ⟨as, t, h', -, hrun, -, hn⟩ := can_exceed hr hproxy hroute hon
    (config.rateLimit.maxConnectionsPerClient.toNat + 1)
  exact absurd (hlimit as t h' hrun) (Nat.not_le.mpr hn)

/-- A configuration that allows one connection for each client. -/
def narrowConfig : ServerConfig :=
  { Control.sampleConfig with rateLimit := { maxConnectionsPerClient := 1 } }

/-- The session of the first connection opens the stream that a request has asked for. -/
def openedSegments (r : ReqId) : List Act :=
  [.control (.driver 0 (.send r)), .control (.driver 0 .recvCmd), .control (.driver 0 .outboundOk),
    .opened r]

/-- Whether a request is on the stream of a session, and which one. -/
def State.streaming (s : State) (r : ReqId) : Option ConnId :=
  (s.requests r).bind fun q ↦ q.phase.streaming

theorem running_iff : Running s c r ↔ s.streaming r = some c := by
  rw [Running, State.streaming, Option.bind_eq_some_iff]

/-- A client is online, and a limit of one is not kept. -/
theorem connection_limit_never_one : ∃ h s,
    (machine compactSerde narrowConfig fun _ ↦ none).run (start narrowConfig fun _ ↦ none)
      openingRun = some (s, h) ∧
    ¬∀ as t h', (machine compactSerde narrowConfig fun _ ↦ none).run s as = some (t, h') →
      {r | Running t 0 r}.ncard ≤ 1 := by
  have hrun : ((machine compactSerde narrowConfig fun _ ↦ none).run
      (start narrowConfig fun _ ↦ none) openingRun).map (fun p ↦
        (p.1.control.registry.get "app").any (fun e ↦ decide (e.handle = 0)) &&
          (p.1.control.conns 0).any fun conn ↦ conn.driver.any fun d ↦ d.ended.isNone) =
      some true := by
    decide +kernel
  obtain ⟨⟨s, h⟩, hsh, heq⟩ := Option.map_eq_some_iff.mp hrun
  simp only [Bool.and_eq_true, Option.any_eq_true, decide_eq_true_iff,
    Option.isNone_iff_eq_none] at heq
  obtain ⟨⟨e, hget, hhandle⟩, conn, hc, d, hd, hrun⟩ := heq
  exact ⟨h, s, hsh, hhandle ▸ connection_limit_never _ _ _ h s (.of_run hsh) "app" e
    ⟨hget, conn, d, hhandle ▸ hc, hd, hrun⟩ (hostRequest appHost) "/" (by decide +kernel)
    (by decide +kernel)⟩

/-- **The limit is not kept**: two requests are on one session, which may have one. -/
theorem limit_exceeded : ¬∀ (serde : SerdeJson) (config : ServerConfig) (routes : RouteFiles)
    (h : List Event) (s : State), (machine serde config routes).Reach h s →
      1 ≤ config.rateLimit.maxConnectionsPerClient → ∀ c,
        {r | Running s c r}.ncard ≤ config.rateLimit.maxConnectionsPerClient.toNat := by
  intro hclaim
  have hrun : ((machine compactSerde narrowConfig fun _ ↦ none).run
      (start narrowConfig fun _ ↦ none) (openingRun ++ openedSegments 0 ++
        [.arrive 1 (hostRequest appHost), .limit 1 0, .lookup 1, .openStream 1] ++
        openedSegments 1)).map (fun p ↦ (p.1.streaming 0, p.1.streaming 1)) =
      some (some 0, some 0) := by decide +kernel
  obtain ⟨⟨u, h⟩, hsh, heq⟩ := Option.map_eq_some_iff.mp hrun
  obtain ⟨h₀, h₁⟩ := Prod.mk.inj heq
  have hreach := Machine.Reach.of_run hsh
  have hle : {r | Running u 0 r}.ncard ≤ 1 := hclaim _ _ _ h u hreach (by decide) 0
  exact absurd ((Set.ncard_le_one (finite_running hreach 0)).mp hle 0 (running_iff.mpr h₀) 1
    (running_iff.mpr h₁)) (by decide)

end Proxy

end ZoTunnel
