import ZoTunnel.Server.Proxy

/-!
# Delivery

Which session a public request reaches. The control channel inside the server runs as it does by
itself, so what was proved of it holds here. A request carries what it has found out, and the
invariant ties that to its host: the client id comes from the host, the entry was in the slot of
that id at lookup time, and the stream is asked for from the session of that entry, once.

Whatever becomes of the slot after the lookup, the request stays with the session it has found.
-/

namespace ZoTunnel

namespace Proxy

variable {serde : SerdeJson} {config : ServerConfig} {routes : RouteFiles} {h h' : List Event}
  {s t : State} {a : Act} {es : List Event} {r : ReqId} {q : Request} {c : ConnId}
  {clientId path : String} {client : ClientEntry}

/-! ## The control channel inside the server -/

@[simp] theorem controlEvents_append :
    controlEvents (h ++ h') = controlEvents h ++ controlEvents h' := List.flatMap_append

@[simp] theorem controlEvents_map (es : List Control.Event) :
    controlEvents (es.map .control) = es := by
  rw [controlEvents, List.flatMap_map]
  exact List.flatMap_singleton' es

theorem mem_controlEvents {e : Control.Event} : e ∈ controlEvents h ↔ .control e ∈ h := by
  rw [controlEvents, List.mem_flatMap]
  constructor
  · rintro ⟨e', he', hmem⟩
    cases e' <;> simp_all
  · intro hmem
    exact ⟨_, hmem, List.mem_singleton_self _⟩

/-- **Projection.** Seen from the control channel, a run of the server is one of its own runs. -/
theorem control_steps (hst : (machine serde config routes).Steps s h t) :
    (Control.machine serde config routes).Steps s.control (controlEvents h) t.control := by
  refine Machine.Steps.project State.control _ (fun s a t es hstep ↦ ?_) hst
  have hsingle : ∀ {b : Control.Act} {control : Control.State} {es : List Control.Event},
      Control.step serde config s.control b = some (control, es) →
      (Control.machine serde config routes).Steps s.control (controlEvents (es.map .control))
        control := by
    intro b control es hs
    rw [controlEvents_map]
    exact .single hs
  cases step_transition hstep with
  | control _ hs | openStream _ _ hs | dropCall _ _ hs => exact hsingle hs
  | toDashboard | toProxy | found | gotStream | marked | handshaken => exact .refl _
  | move _ hcontrol =>
    rw [← hcontrol]
    exact .refl _

theorem control_reach (hr : (machine serde config routes).Reach h s) :
    (Control.machine serde config routes).Reach (controlEvents h) s.control := control_steps hr

/-! ## What a step does to a request -/

theorem setRequest_requests (s : State) (r r' : ReqId) (q : Request) :
    (s.setRequest r q).requests r' = if r' = r then some q else s.requests r' :=
  Function.update_apply ..

/-- How a request moves on in one step. -/
inductive RequestMove (r : ReqId) (es : List Event) (q q' : Request) : Prop
  | later (hlater : q.phase.Later q'.phase)
  | found {clientId path : String} {client : ClientEntry}
      (hphase : q.phase = .looking clientId path)
      (hphase' : q'.phase = .found ⟨clientId, path, client⟩)
      (hes : .lookedUp r clientId client ∈ es)
  | opening {t : Target} (hphase : q.phase = .found t) (hphase' : q'.phase = .opening t)

theorem request_of_step (hstep : step serde config s a = some (t, es))
    (hr : s.requests r = some q) :
    ∃ q', t.requests r = some q' ∧ q'.req = q.req ∧ RequestMove r es q q' := by
  have hsame : RequestMove r es q q := .later (Phase.later_of_eq rfl rfl rfl id)
  have hset : ∀ {r₀ : ReqId} {q₀ q' : Request} {s₀ : State}, s₀.requests = s.requests →
      s.requests r₀ = some q₀ → q'.req = q₀.req → RequestMove r₀ es q₀ q' →
      ∃ q'', (s₀.setRequest r₀ q').requests r = some q'' ∧ q''.req = q.req ∧
        RequestMove r es q q'' := by
    intro r₀ q₀ q' s₀ hs₀ hr₀ hreq hm
    rw [setRequest_requests, hs₀]
    by_cases hrr : r = r₀
    · subst hrr
      rw [hr, Option.some.injEq] at hr₀
      subst hr₀
      exact ⟨q', if_pos rfl, hreq, hm⟩
    · exact ⟨q, by rw [if_neg hrr, hr], rfl, hsame⟩
  have hne : ∀ {r₀ : ReqId}, s.requests r₀ = none → r ≠ r₀ := by
    rintro r₀ hr₀ rfl
    rw [hr] at hr₀
    cases hr₀
  cases step_transition hstep with
  | control => exact ⟨q, hr, rfl, hsame⟩
  | toDashboard hr₀ | toProxy hr₀ =>
    rw [setRequest_requests, if_neg (hne hr₀)]
    exact ⟨q, hr, rfl, hsame⟩
  | move hr₀ _ hrequests hlater => exact hset hrequests hr₀ rfl (.later hlater)
  | found hr₀ hphase => exact hset rfl hr₀ rfl (.found hphase rfl (List.mem_singleton_self _))
  | openStream hr₀ hphase => exact hset (by rfl) hr₀ rfl (.opening hphase rfl)
  | gotStream hr₀ hphase _ hnext =>
    refine hset rfl hr₀ rfl (.later ?_)
    rw [hnext]
    split <;> exact hphase ▸ Phase.later_of_eq rfl rfl rfl nofun
  | marked hr₀ hphase | handshaken hr₀ hphase =>
    exact hset rfl hr₀ rfl (.later (hphase ▸ Phase.later_of_eq rfl rfl rfl fun _ ↦ rfl))
  | dropCall hr₀ => exact hset (by rfl) hr₀ rfl (.later (Phase.later_dropped _))

theorem arrived_of_step {q' : Request} (hstep : step serde config s a = some (t, es))
    (hr : s.requests r = none) (hr' : t.requests r = some q') :
    (serveHttp q'.req config.domain = .dashboard ∧ q'.phase = .dashboard ∧
      es = [.arrived r q'.req, .toDashboard r]) ∨
    (serveHttp q'.req config.domain = .proxy ∧
      q'.phase = onRouting (extractRouting q'.req config.domain) ∧ es = [.arrived r q'.req]) := by
  have hno : ∀ {r₀ : ReqId} {q₀ q'' : Request} {s₀ : State}, s₀.requests = s.requests →
      s.requests r₀ = some q₀ → (s₀.setRequest r₀ q'').requests r ≠ some q' := by
    intro r₀ q₀ q'' s₀ hs₀ hr₀ heq
    rw [setRequest_requests, hs₀, if_neg, hr] at heq
    · cases heq
    · rintro rfl
      rw [hr] at hr₀
      cases hr₀
  cases step_transition hstep with
  | control =>
    rw [show _ = s.requests r from rfl, hr] at hr'
    cases hr'
  | toDashboard _ hserve =>
    rw [setRequest_requests] at hr'
    split at hr'
    · rename_i hrr
      rw [Option.some.injEq] at hr'
      subst hr' hrr
      exact .inl ⟨hserve, rfl, rfl⟩
    · rw [hr] at hr'
      cases hr'
  | toProxy _ hserve =>
    rw [setRequest_requests] at hr'
    split at hr'
    · rename_i hrr
      rw [Option.some.injEq] at hr'
      subst hr' hrr
      exact .inr ⟨hserve, rfl, rfl⟩
    · rw [show _ = s.requests r from rfl, hr] at hr'
      cases hr'
  | move hr₀ _ hrequests => exact absurd hr' (hno hrequests hr₀)
  | found hr₀ | gotStream hr₀ | marked hr₀ | handshaken hr₀ => exact absurd hr' (hno rfl hr₀)
  | openStream hr₀ | dropCall hr₀ => exact absurd hr' (hno (by rfl) hr₀)

/-! What a reported event says about the request. -/

theorem reported_of_step (hstep : step serde config s a = some (t, es)) :
    (∀ r req, .arrived r req ∈ es → ∃ q, t.requests r = some q ∧ q.req = req) ∧
    (∀ r, .toDashboard r ∈ es →
      ∃ q, t.requests r = some q ∧ serveHttp q.req config.domain = .dashboard) ∧
    (∀ r clientId client, .lookedUp r clientId client ∈ es →
      s.control.registry.get clientId = some client) ∧
    ∀ r c, .contacted r c ∈ es → ∃ q tg, s.requests r = some q ∧ q.phase = .found tg ∧
      tg.client.handle = c ∧ ∃ q', t.requests r = some q' ∧ q'.phase.opened = true := by
  cases step_transition hstep with
  | control | dropCall => simp
  | move | gotStream | marked | handshaken => simp
  | toDashboard _ hserve => simp [setRequest_requests, hserve]
  | toProxy => simp [setRequest_requests]
  | found _ _ hget =>
    simp only [List.mem_singleton, reduceCtorEq, false_imp_iff, implies_true, true_and, and_true,
      Event.lookedUp.injEq]
    rintro _ _ _ ⟨-, rfl, rfl⟩
    exact hget
  | @openStream r q tg _ _ hr hphase =>
    simp only [List.mem_cons, Event.contacted.injEq, reduceCtorEq, List.mem_map,
      and_false, exists_false, false_imp_iff, implies_true, true_and, or_false]
    rintro _ _ ⟨rfl, rfl⟩
    refine ⟨q, tg, hr, hphase, rfl, { q with phase := .opening tg }, ?_, rfl⟩
    exact (setRequest_requests ..).trans (if_pos rfl)

/-! ## The invariant -/

/-- What a request has behind it. -/
structure RequestInv (config : ServerConfig) (h : List Event) (r : ReqId) (q : Request) :
    Prop where
  arrived : .arrived r q.req ∈ h
  dashboard : serveHttp q.req config.domain = .dashboard → .toDashboard r ∈ h
  route : ∀ x, q.phase.route = some x →
    serveHttp q.req config.domain = .proxy ∧ extractRouting q.req config.domain = some x
  target : ∀ tg, q.phase.target = some tg → .lookedUp r tg.clientId tg.client ∈ h

theorem RequestInv.move {q' : Request} (hi : RequestInv config h r q) (hreq : q'.req = q.req)
    (hm : RequestMove r es q q') : RequestInv config (h ++ es) r q' where
  arrived := List.mem_append_left _ (hreq ▸ hi.arrived)
  dashboard hserve := List.mem_append_left _ (hi.dashboard (hreq ▸ hserve))
  route x hx := by
    rw [hreq]
    cases hm with
    | later hlater => exact hi.route x (hlater.route x hx)
    | found hphase hphase' =>
      rw [hphase'] at hx
      exact hi.route x (by rw [hphase, ← hx]; rfl)
    | opening hphase hphase' =>
      rw [hphase'] at hx
      exact hi.route x (by rw [hphase, ← hx]; rfl)
  target tg htg := by
    cases hm with
    | later hlater => exact List.mem_append_left _ (hi.target tg (hlater.target tg htg))
    | found hphase hphase' hes =>
      rw [hphase', Phase.target, Option.some.injEq] at htg
      exact List.mem_append_right _ (htg ▸ hes)
    | opening hphase hphase' =>
      rw [hphase'] at htg
      exact List.mem_append_left _ (hi.target tg (by rw [hphase, ← htg]; rfl))

theorem RequestMove.written {q' : Request} (hm : RequestMove r es q q')
    (hw : q.phase.written = true) : q'.phase.written = true := by
  cases hm with
  | later hlater => exact hlater.written hw
  | found hphase | opening hphase =>
    rw [hphase] at hw
    cases hw

theorem RequestMove.opened {q' : Request} (hm : RequestMove r es q q')
    (ho : q.phase.opened = true) : q'.phase.opened = true := by
  cases hm with
  | later hlater => exact hlater.opened ho
  | found hphase | opening hphase =>
    rw [hphase] at ho
    cases ho

/-- The requests and the sessions that they have reached. -/
structure Delivery (config : ServerConfig) (h : List Event) (s : State) : Prop where
  request : ∀ r q, s.requests r = some q → RequestInv config h r q
  arrived : ∀ r req, .arrived r req ∈ h → ∃ q, s.requests r = some q ∧ q.req = req
  dashboard : ∀ r, .toDashboard r ∈ h →
    ∃ q, s.requests r = some q ∧ serveHttp q.req config.domain = .dashboard
  contacted : ∀ r c, .contacted r c ∈ h → ∃ q, s.requests r = some q ∧ q.phase.opened = true
  once : ∀ r c c', .contacted r c ∈ h → .contacted r c' ∈ h → c = c'
  calls : ∀ c conn d r, s.control.conns c = some conn → conn.driver = some d →
    d.calls r ≠ none → .contacted r c ∈ h

namespace Delivery

theorem start : Delivery config [] (start config routes) where
  request r q hr := by cases hr
  arrived r req hmem := by cases hmem
  dashboard r hmem := by cases hmem
  contacted r c hmem := by cases hmem
  once r c c' hmem := by cases hmem
  calls c conn d r hc := by cases hc

private theorem step_calls (hi : Delivery config h s)
    (hstep : step serde config s a = some (t, es)) :
    ∀ c conn d r, t.control.conns c = some conn → conn.driver = some d → d.calls r ≠ none →
      .contacted r c ∈ h ++ es := by
  intro c conn' d' r hc' hd' hr'
  rw [List.mem_append]
  -- The driver knew the call before, or this step is the one that makes it.
  have hcall : ∀ {b : Control.Act} {control : Control.State} {es' : List Control.Event},
      Control.step serde config s.control b = some (control, es') →
      control.conns c = some conn' → .contacted r c ∈ h ∨ b = .driver c (.call r) := by
    intro b control es' hs hc
    exact (Control.call_of_step hs hc hd' hr').imp_left
      fun ⟨conn, d, hc, hd, hr⟩ ↦ hi.calls c conn d r hc hd hr
  cases step_transition hstep with
  | control hown hs =>
    refine (hcall hs hc').imp_right fun hb ↦ ?_
    rw [hb] at hown
    cases hown
  | dropCall _ _ hs =>
    refine (hcall hs hc').imp_right fun hb ↦ ?_
    cases hb
  | openStream _ _ hs =>
    refine (hcall hs hc').imp_right fun hb ↦ ?_
    cases hb
    exact List.mem_cons_self
  | toDashboard | toProxy | found | gotStream | marked | handshaken =>
    exact .inl (hi.calls c conn' d' r hc' hd' hr')
  | move _ hcontrol =>
    exact .inl (hi.calls c conn' d' r (hcontrol ▸ hc') hd' hr')

/-- **The step lemma.** -/
theorem step (hi : Delivery config h s) (hstep : step serde config s a = some (t, es)) :
    Delivery config (h ++ es) t := by
  obtain ⟨harr, hdash, -, hcont⟩ := reported_of_step hstep
  -- A request with a stream to ask for has not asked for one.
  have hfresh : ∀ r c c', .contacted r c ∈ h → .contacted r c' ∉ es := by
    intro r c c' hmem hmem'
    obtain ⟨q, hr, ho⟩ := hi.contacted r c hmem
    obtain ⟨q', tg, hr', hphase, -⟩ := hcont r c' hmem'
    rw [hr, Option.some.injEq] at hr'
    rw [hr', hphase] at ho
    cases ho
  refine ⟨fun r q' hr' ↦ ?_, fun r req hmem ↦ ?_, fun r hmem ↦ ?_, fun r c hmem ↦ ?_,
    fun r c c' hmem hmem' ↦ ?_, hi.step_calls hstep⟩
  · cases hr : s.requests r with
    | some q =>
      obtain ⟨q'', hr'', hreq, hm⟩ := request_of_step hstep hr
      rw [hr', Option.some.injEq] at hr''
      exact hr'' ▸ (hi.request r q hr).move hreq hm
    | none =>
      rcases arrived_of_step hstep hr hr' with ⟨hserve, hphase, rfl⟩ | ⟨hserve, hphase, rfl⟩
      · refine ⟨by simp, fun _ ↦ by simp, fun x hx ↦ ?_, fun tg htg ↦ ?_⟩
        · rw [hphase] at hx
          cases hx
        · rw [hphase] at htg
          cases htg
      · refine ⟨by simp, fun hd ↦ ?_, fun x hx ↦ ⟨hserve, ?_⟩, fun tg htg ↦ ?_⟩
        · rw [hserve] at hd
          cases hd
        · rw [hphase] at hx
          cases hroute : extractRouting q'.req config.domain with
          | none =>
            rw [hroute] at hx
            cases hx
          | some y =>
            rw [hroute] at hx
            exact hx
        · rw [hphase] at htg
          cases hroute : extractRouting q'.req config.domain with
          | none | some _ =>
            rw [hroute] at htg
            cases htg
  · rcases List.mem_append.mp hmem with hmem | hmem
    · obtain ⟨q, hr, rfl⟩ := hi.arrived r req hmem
      obtain ⟨q', hr', hreq, -⟩ := request_of_step hstep hr
      exact ⟨q', hr', hreq⟩
    · exact harr r req hmem
  · rcases List.mem_append.mp hmem with hmem | hmem
    · obtain ⟨q, hr, hserve⟩ := hi.dashboard r hmem
      obtain ⟨q', hr', hreq, -⟩ := request_of_step hstep hr
      exact ⟨q', hr', hreq ▸ hserve⟩
    · exact hdash r hmem
  · rcases List.mem_append.mp hmem with hmem | hmem
    · obtain ⟨q, hr, ho⟩ := hi.contacted r c hmem
      obtain ⟨q', hr', -, hm⟩ := request_of_step hstep hr
      exact ⟨q', hr', hm.opened ho⟩
    · obtain ⟨-, -, -, -, -, hopened⟩ := hcont r c hmem
      exact hopened
  · rcases List.mem_append.mp hmem with hmem | hmem
    · exact (List.mem_append.mp hmem').elim (hi.once r c c' hmem)
        fun hmem' ↦ absurd hmem' (hfresh r c c' hmem)
    · rcases List.mem_append.mp hmem' with hmem' | hmem'
      · exact absurd hmem (hfresh r c' c hmem')
      · obtain ⟨q, tg, hr, hphase, rfl, -⟩ := hcont r c hmem
        obtain ⟨q', tg', hr', hphase', rfl, -⟩ := hcont r c' hmem'
        rw [hr, Option.some.injEq] at hr'
        rw [← hr', hphase, Phase.found.injEq] at hphase'
        rw [hphase']

/-- **The run lemma.** -/
theorem of_reach (hr : (machine serde config routes).Reach h s) : Delivery config h s :=
  hr.invariant start fun _ _ _ _ _ _ hi hstep ↦ hi.step hstep

end Delivery

/-! ## Isolation -/

/-- An entry that a lookup finds is that of a session registered under the id looked up. -/
theorem registered_of_lookedUp (hr : (machine serde config routes).Reach h s)
    (hmem : .lookedUp r clientId client ∈ h) :
    client.clientId = clientId ∧
      .control (.swapped client.handle clientId client.sessionId) ∈ h := by
  obtain ⟨h₁, h₂, rfl⟩ := List.append_of_mem hmem
  obtain ⟨h₀, v, a, w, es₁, es₂, h₃, hv, hstep, -, rfl, -⟩ := Machine.Steps.split hr
  have hget := (reported_of_step hstep).2.2.1 r clientId client
    (List.mem_append_right _ List.mem_cons_self)
  have hg : Control.Gate serde config (controlEvents h₀) v.control := .of_reach (control_reach hv)
  obtain ⟨hid, conn, auth, hc, hheld, hauth, -⟩ := hg.entry clientId client hget
  obtain ⟨l₁, l₂, heq, -⟩ := (hg.conn _ conn hc).held auth _ hheld
  refine ⟨hid, ?_⟩
  rw [← hauth, List.append_assoc]
  refine List.mem_append_left _ (mem_controlEvents.mp ?_)
  rw [heq]
  exact List.mem_append_right _ List.mem_cons_self

/-- A request that contacts a session has looked it up under the id in its host. -/
theorem lookedUp_of_contacted {h₁ h₂ : List Event}
    (hr : (machine serde config routes).Reach (h₁ ++ .contacted r c :: h₂) s) :
    ∃ req clientId path client, .arrived r req ∈ h₁ ∧
      serveHttp req config.domain = .proxy ∧
      extractRouting req config.domain = some (clientId, path) ∧
      .lookedUp r clientId client ∈ h₁ ∧ client.handle = c := by
  obtain ⟨h₀, v, a, w, es₁, es₂, h₃, hv, hstep, -, rfl, -⟩ := Machine.Steps.split hr
  obtain ⟨q, tg, hq, hphase, rfl, -⟩ := (reported_of_step hstep).2.2.2 r c
    (List.mem_append_right _ List.mem_cons_self)
  have hi := (Delivery.of_reach hv).request r q hq
  obtain ⟨hserve, hroute⟩ := hi.route (tg.clientId, tg.path) (by rw [hphase]; rfl)
  exact ⟨q.req, tg.clientId, tg.path, tg.client, List.mem_append_left _ hi.arrived, hserve, hroute,
    List.mem_append_left _ (hi.target tg (by rw [hphase]; rfl)), rfl⟩

/-- What `serve_http` decides for a request is what happens to it. -/
theorem toDashboard_iff {req : HttpRequest} (hr : (machine serde config routes).Reach h s)
    (harr : .arrived r req ∈ h) :
    .toDashboard r ∈ h ↔ serveHttp req config.domain = .dashboard := by
  have hi : Delivery config h s := .of_reach hr
  obtain ⟨q, hq, rfl⟩ := hi.arrived r req harr
  refine ⟨fun hd ↦ ?_, (hi.request r q hq).dashboard⟩
  obtain ⟨q', hq', hserve⟩ := hi.dashboard r hd
  rw [hq, Option.some.injEq] at hq'
  exact hq' ▸ hserve

theorem not_contacted_of_toDashboard (hr : (machine serde config routes).Reach h s)
    (hd : .toDashboard r ∈ h) : .contacted r c ∉ h := by
  intro hmem
  obtain ⟨h₁, h₂, rfl⟩ := List.append_of_mem hmem
  obtain ⟨req, clientId, path, client, harr, hproxy, -⟩ := lookedUp_of_contacted hr
  rw [toDashboard_iff hr (List.mem_append_left _ harr), hproxy] at hd
  cases hd

/-- Where public requests go, in the history so far and in every step that may come next. -/
structure RoutingSound (serde : SerdeJson) (config : ServerConfig) (h : List Event) (s : State) :
    Prop where
  /-- The dashboard gets the requests whose host has a text that names it. -/
  dashboard : ∀ r req, .arrived r req ∈ h → (.toDashboard r ∈ h ↔ ∃ host, req.host = some host ∧
    (hostNoPort host = config.domain ∨ hostNoPort host = "dashboard." ++ config.domain))
  /-- A session is contacted for another request only, whose host names a client, and only the
  session that the lookup found in the slot of that client. -/
  contacted : ∀ h₁ r c h₂, h = h₁ ++ .contacted r c :: h₂ → .toDashboard r ∉ h ∧
    ∃ req host clientId client, .arrived r req ∈ h₁ ∧ req.host = some host ∧
      hostNoPort host = clientId ++ "." ++ config.domain ∧ clientId ≠ "" ∧
      .lookedUp r clientId client ∈ h₁ ∧ client.handle = c
  lookup : ∀ a t es r clientId client, step serde config s a = some (t, es) →
    .lookedUp r clientId client ∈ es → s.control.registry.get clientId = some client
  /-- The session is registered under the id in the host, and under no other. -/
  named : ∀ r c k sessionId, .contacted r c ∈ h → .control (.swapped c k sessionId) ∈ h →
    ∃ req host, .arrived r req ∈ h ∧ req.host = some host ∧
      hostNoPort host = k ++ "." ++ config.domain
  /-- A request contacts one session only, whatever becomes of the slot. -/
  once : ∀ r c c', .contacted r c ∈ h → .contacted r c' ∈ h → c = c'
  /-- A driver knows no other calls than those of the requests that contacted its session. -/
  calls : ∀ c conn d r, s.control.conns c = some conn → conn.driver = some d →
    d.calls r ≠ none → .contacted r c ∈ h
  /-- What `serve_http` takes for the dashboard, `extract_routing` gives to nobody. -/
  agree : ∀ req clientId path, serveHttp req config.domain = .dashboard →
    extractRouting req config.domain = some (clientId, path) →
    s.control.registry.get clientId = none

/-- **A request reaches the session that its host names, or none**, in every reachable state. -/
theorem routing_sound (serde : SerdeJson) (config : ServerConfig) (routes : RouteFiles)
    (h : List Event) (s : State) (hdomain : config.domain ≠ "")
    (hr : (machine serde config routes).Reach h s) : RoutingSound serde config h s := by
  have hi : Delivery config h s := .of_reach hr
  refine ⟨fun r req hmem ↦ (toDashboard_iff hr hmem).trans (serveHttp_eq_dashboard hdomain),
    fun h₁ r c h₂ heq ↦ ?_, fun a t es r clientId client hstep ↦
      (reported_of_step hstep).2.2.1 r clientId client,
    fun r c k sessionId hmem hsw ↦ ?_, hi.once, hi.calls, fun req clientId path hd hroute ↦ ?_⟩
  · obtain ⟨req, clientId, path, client, harr, hproxy, hroute, hlook, hhandle⟩ :=
      lookedUp_of_contacted (heq ▸ hr)
    obtain ⟨⟨host, hhost, hname⟩, hne, -⟩ := extractRouting_eq_some.mp hroute
    refine ⟨fun hd ↦ not_contacted_of_toDashboard (c := c) hr hd ?_, req, host, clientId, client,
      harr, hhost, hname, hne, hlook, hhandle⟩
    rw [heq]
    exact List.mem_append_right _ List.mem_cons_self
  · obtain ⟨h₁, h₂, rfl⟩ := List.append_of_mem hmem
    obtain ⟨req, clientId, path, client, harr, -, hroute, hlook, rfl⟩ := lookedUp_of_contacted hr
    obtain ⟨⟨host, hhost, hname⟩, -, -⟩ := extractRouting_eq_some.mp hroute
    -- The session has been swapped in under the id looked up, and a connection has one id.
    have hsw' := (registered_of_lookedUp hr (List.mem_append_left _ hlook)).2
    have hk : k = clientId := Control.clientId_unique (control_reach hr)
      (mem_controlEvents.mpr hsw) (mem_controlEvents.mpr hsw')
    exact ⟨req, host, List.mem_append_left _ harr, hhost, hk ▸ hname⟩
  · have hid := clientId_of_dashboard hdomain hd hroute
    by_contra hne
    obtain ⟨e, he⟩ := Option.ne_none_iff_exists'.mp hne
    have hg : Control.Gate serde config (controlEvents h) s.control := .of_reach (control_reach hr)
    exact hg.unreserved he (hid ▸ by decide)

/-- A request that consists of its host. -/
def hostRequest (v : HeaderValue) : HttpRequest := ⟨[("host", v)], "/"⟩

/-- The host `app.d.io:80`. -/
def appHost : HeaderValue := ⟨[97, 112, 112, 46, 100, 46, 105, 111, 58, 56, 48], by decide +kernel⟩

/-- A session is registered, looked up by a request, taken over, and then contacted. -/
theorem routing_sound_takeover : ∃ h s,
    (machine compactSerde Control.sampleConfig fun _ ↦ none).run
      (start Control.sampleConfig fun _ ↦ none)
      ((Control.answerSegments 0 ⟨"app", "t", some "1"⟩ ++
          Control.registerSegments 0 0).map .control ++
        [.arrive 0 (hostRequest appHost), .limit 0 0, .lookup 0] ++
        (Control.answerSegments 1 ⟨"app", "t", some "1"⟩ ++
          Control.registerSegments 1 0).map .control ++ [.openStream 0]) = some (s, h) ∧
    .contacted 0 0 ∈ h ∧ RoutingSound compactSerde Control.sampleConfig h s := by
  have hrun : ((machine compactSerde Control.sampleConfig fun _ ↦ none).run
      (start Control.sampleConfig fun _ ↦ none)
      ((Control.answerSegments 0 ⟨"app", "t", some "1"⟩ ++
          Control.registerSegments 0 0).map .control ++
        [.arrive 0 (hostRequest appHost), .limit 0 0, .lookup 0] ++
        (Control.answerSegments 1 ⟨"app", "t", some "1"⟩ ++
          Control.registerSegments 1 0).map .control ++ [.openStream 0])).map
      (fun p ↦ decide (.contacted 0 0 ∈ p.2)) = some true := by decide +kernel
  obtain ⟨⟨s, h⟩, hsh, hmem⟩ := Option.map_eq_some_iff.mp hrun
  rw [decide_eq_true_eq] at hmem
  exact ⟨h, s, hsh, hmem, routing_sound _ _ _ h s (by decide) (.of_run hsh)⟩

/-- The host `d.io:` with one more byte that is not ASCII. -/
def opaqueHost : HeaderValue := ⟨[100, 46, 105, 111, 58, 233], by decide +kernel⟩

/-- **Not every host that names the domain up to its first colon reaches the dashboard**: a value
that is not ASCII behind it counts as absent. -/
theorem opaque_host_not_dashboard : ∃ h s,
    (machine compactSerde Control.sampleConfig fun _ ↦ none).run
      (start Control.sampleConfig fun _ ↦ none) [.arrive 0 (hostRequest opaqueHost)] = some (s, h) ∧
    (hostRequest opaqueHost).header "host" = some opaqueHost ∧
    (opaqueHost.bytes.takeWhile fun b ↦ b != 58) = Framing.utf8 Control.sampleConfig.domain ∧
    .arrived 0 (hostRequest opaqueHost) ∈ h ∧ .toDashboard 0 ∉ h := by
  have hrun : ((machine compactSerde Control.sampleConfig fun _ ↦ none).run
      (start Control.sampleConfig fun _ ↦ none) [.arrive 0 (hostRequest opaqueHost)]).map
      (fun p ↦ p.2) = some [.arrived 0 (hostRequest opaqueHost)] := by decide +kernel
  obtain ⟨⟨s, h⟩, hsh, heq⟩ := Option.map_eq_some_iff.mp hrun
  replace heq : h = _ := heq
  refine ⟨h, s, hsh, rfl, by decide +kernel, ?_, ?_⟩ <;> simp [heq]

end Proxy

end ZoTunnel
