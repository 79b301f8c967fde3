import ZoTunnel.Server.Delivery
import ZoTunnel.Server.Heartbeat
import ZoTunnel.Server.OpenStream
import ZoTunnel.Server.Sessions

/-!
# Streams of the server

What the server knows about a stream before any byte is written to it: who got it from the driver,
and whether the session was opened by a client that reads markers. Three places have that knowledge,
the driver, the entry that a request looks up and the request in the first frame, and here they are
the same.
-/

namespace ZoTunnel

namespace Driver

theorem mem_handedTo_call {h : List Event} {c : CallId} {st : StreamId} :
    (st, .call c) ∈ handedTo h ↔ .answered c (.ok st) ∈ h := by
  rw [handedTo, List.mem_filterMap]
  constructor
  · rintro ⟨e, he, heq⟩
    split at heq <;> simp only [Option.some.injEq, Prod.mk.injEq, Owner.call.injEq, reduceCtorEq,
      and_false] at heq
    obtain ⟨rfl, rfl⟩ := heq
    exact he
  · intro he
    exact ⟨_, he, rfl⟩

theorem mem_handedTo_probe {h : List Event} {st : StreamId} :
    (st, .probe) ∈ handedTo h ↔ .probeStarted st ∈ h := by
  rw [handedTo, List.mem_filterMap]
  constructor
  · rintro ⟨e, he, heq⟩
    split at heq <;> simp only [Option.some.injEq, Prod.mk.injEq, reduceCtorEq, and_false,
      and_true] at heq
    subst heq
    exact he
  · intro he
    exact ⟨_, he, rfl⟩

end Driver

namespace Control

variable {serde : SerdeJson} {config : ServerConfig} {routes : RouteFiles} {h h' : List Event}
  {s t : State} {a : Act} {es : List Event} {c : ConnId} {conn : Conn} {d : Driver} {b b' : Bool}
  {r : CallId} {st : StreamId}

/-! ## Heartbeat support -/

variable (serde) in
/-- Whether the request in the first frame of a connection carries a version. -/
def Supports (s : State) (c : ConnId) (b : Bool) : Prop :=
  ∃ conn auth, s.conns c = some conn ∧ FirstFrame serde conn auth ∧ auth.supportsHeartbeat = b

theorem Supports.unique (hb : Supports serde s c b) (hb' : Supports serde s c b') : b = b' := by
  obtain ⟨conn, auth, hc, hf, rfl⟩ := hb
  obtain ⟨conn', auth', hc', hf', rfl⟩ := hb'
  rw [hc, Option.some.injEq] at hc'
  subst hc'
  rw [hf.unique hf']

theorem Supports.steps (hb : Supports serde s c b)
    (hst : (machine serde config routes).Steps s h t) : Supports serde t c b := by
  refine hst.preserves (P := fun s ↦ Supports serde s c b) (fun s a t es hb hstep ↦ ?_) hb
  obtain ⟨conn, auth, hc, hf, rfl⟩ := hb
  obtain ⟨conn', hc', hf'⟩ := firstFrame_of_step hf hc hstep
  exact ⟨conn', auth, hc', hf', rfl⟩

theorem supports_of_entry {k : String} {e : ClientEntry} (hg : Gate serde config h s)
    (he : s.registry.get k = some e) : Supports serde s e.handle e.supportsHeartbeat := by
  obtain ⟨-, conn, auth, hc, hheld, -, hs⟩ := hg.entry k e he
  have hadm :=
    Task.admitted_of_answered (Task.answered_of_unreserved (Task.unreserved_of_held hheld))
  exact ⟨conn, auth, hc, ((hg.conn _ conn hc).first auth hadm).1, hs.symm⟩

/-! ## Who got a stream -/

/-- The streams that the driver of a connection has handed out, with their owners. -/
def handedStreams (c : ConnId) (h : List Event) : List (StreamId × Driver.Owner) :=
  Driver.handedTo (driverEvents c h)

@[simp] theorem handedStreams_append :
    handedStreams c (h ++ h') = handedStreams c h ++ handedStreams c h' := by
  rw [handedStreams, driverEvents_append, Driver.handedTo_append]
  rfl

/-- A connection whose driver has handed out a stream has that driver. -/
private theorem driver_of_handed (hr : (machine serde config routes).Reach h s)
    (hne : handedStreams c h ≠ []) : ∃ conn d, s.conns c = some conn ∧ conn.driver = some d := by
  by_contra hnone
  refine hne ?_
  have hsilent := (Sessions.of_reach hr).silent c fun conn hc ↦ by
    by_contra hd
    obtain ⟨d, hd⟩ := Option.ne_none_iff_exists'.mp hd
    exact hnone ⟨conn, d, hc, hd⟩
  rw [handedStreams, hsilent]
  rfl

theorem handed_nodup (hr : (machine serde config routes).Reach h s) (c : ConnId) :
    ((handedStreams c h).map Prod.fst).Nodup := by
  by_cases hnil : handedStreams c h = []
  · rw [hnil]
    exact List.nodup_nil
  · obtain ⟨conn, d, hc, hd⟩ := driver_of_handed hr hnil
    obtain ⟨auth, now, -, hdr⟩ := driver_reach hr hc hd
    have hacc := Driver.Accounts.of_reach hdr
    rw [handedStreams, hacc.owned]
    exact hacc.granted_nodup

theorem owner_unique {o o' : Driver.Owner} (hr : (machine serde config routes).Reach h s)
    (ho : (st, o) ∈ handedStreams c h) (ho' : (st, o') ∈ handedStreams c h) : o = o' := by
  have := List.inj_on_of_nodup_map (handed_nodup hr c) ho ho' rfl
  exact congrArg Prod.snd this

/-- The driver knows the support, and starts no probe without it. -/
theorem supports_of_handed {o : Driver.Owner} (hr : (machine serde config routes).Reach h s)
    (ho : (st, o) ∈ handedStreams c h) :
    ∃ b, Supports serde s c b ∧ (o = .probe → b = true) := by
  obtain ⟨conn, d, hc, hd⟩ := driver_of_handed hr (List.ne_nil_of_mem ho)
  obtain ⟨auth, now, hf, hdr⟩ := driver_reach hr hc hd
  refine ⟨_, ⟨conn, auth, hc, hf, rfl⟩, ?_⟩
  rintro rfl
  by_contra hs
  rw [Bool.not_eq_true, ← Driver.supportsHeartbeat_of_reach hdr] at hs
  exact ((Driver.Counts.of_reach hdr).silent hs).2.2.2 st (Driver.mem_handedTo_probe.mp ho)

theorem handed_of_call (hr : (machine serde config routes).Reach h s) (hc : s.conns c = some conn)
    (hd : conn.driver = some d) (hcall : d.calls r = some (.returned (.ok st))) :
    (st, .call r) ∈ handedStreams c h := by
  obtain ⟨auth, now, -, hdr⟩ := driver_reach hr hc hd
  exact Driver.mem_handedTo_call.mpr ((Driver.Accounts.of_reach hdr).got r st hcall)

end Control

namespace Proxy

variable {serde : SerdeJson} {config : ServerConfig} {routes : RouteFiles} {h : List Event}
  {s t : State} {a : Act} {es : List Event} {r : ReqId} {q : Request} {c : ConnId}
  {st : StreamId} {tg : Target}

/-- The entry that a request has looked up knows the support. -/
theorem supports_of_target (hr : (machine serde config routes).Reach h s)
    (hq : s.requests r = some q) (htg : q.phase.target = some tg) :
    Control.Supports serde s.control tg.client.handle tg.client.supportsHeartbeat := by
  have hmem := ((Delivery.of_reach hr).request r q hq).target tg htg
  obtain ⟨h₁, h₂, rfl⟩ := List.append_of_mem hmem
  obtain ⟨h₀, v, a, w, es₁, es₂, h₃, hv, hstep, hw, -, -⟩ := Machine.Steps.split hr
  have hget := (reported_of_step hstep).2.2.1 r tg.clientId tg.client
    (List.mem_append_right _ List.mem_cons_self)
  exact ((Control.supports_of_entry (.of_reach (control_reach hv)) hget).steps
    (control_steps (.single hstep))).steps (control_steps hw)

/-- A request with a stream got it from the driver of its session. -/
theorem handed_of_openResult (hr : (machine serde config routes).Reach h s)
    (hres : openResult s r c = some (.ok st)) :
    (st, .call r) ∈ Control.handedStreams c (controlEvents h) := by
  rw [openResult] at hres
  split at hres
  · rename_i conn hc
    split at hres
    · rename_i d hd
      split at hres
      · rename_i res hcall
        rw [Option.some.injEq] at hres
        exact Control.handed_of_call (control_reach hr) hc hd (hres ▸ hcall)
      · cases hres
    · cases hres
  · cases hres

/-! ## Which request a stream event is about -/

theorem marked_of_step (hstep : step serde config s a = some (t, es)) (he : .marked r c st ∈ es) :
    es = [.marked r c st] ∧ ∃ q tg, s.requests r = some q ∧ q.phase = .marking tg st ∧
      tg.client.handle = c ∧ ∃ q', t.requests r = some q' ∧ q'.phase = .handshaking tg st := by
  cases step_transition hstep with
  | @marked r₀ q tg st₀ hr hphase =>
    rw [List.mem_singleton, Event.marked.injEq] at he
    obtain ⟨rfl, rfl, rfl⟩ := he
    refine ⟨rfl, q, tg, hr, hphase, rfl, { q with phase := .handshaking tg st }, ?_, rfl⟩
    exact (setRequest_requests ..).trans (if_pos rfl)
  | _ => simp at he

theorem handshaken_of_step (hstep : step serde config s a = some (t, es))
    (he : .handshaken r c st ∈ es) :
    es = [.handshaken r c st] ∧ ∃ q tg, s.requests r = some q ∧ q.phase = .handshaking tg st ∧
      tg.client.handle = c ∧ ∃ q', t.requests r = some q' ∧ q'.phase = .building tg st := by
  cases step_transition hstep with
  | @handshaken r₀ q tg st₀ hr hphase =>
    rw [List.mem_singleton, Event.handshaken.injEq] at he
    obtain ⟨rfl, rfl, rfl⟩ := he
    refine ⟨rfl, q, tg, hr, hphase, rfl, { q with phase := .building tg st }, ?_, rfl⟩
    exact (setRequest_requests ..).trans (if_pos rfl)
  | _ => simp at he

/-- Where a request that is about to write to its stream comes from. -/
inductive EarlyMove (s : State) (r : ReqId) (es : List Event) (p p' : Phase) : Prop
  | same (hp : p' = p)
  | gotStream {tg : Target} {st : StreamId} (hp : p = .opening tg)
      (hres : openResult s r tg.client.handle = some (.ok st))
      (hp' : p' = if tg.client.supportsHeartbeat then .marking tg st else .handshaking tg st)
      (hes : es = [])
  | marked {tg : Target} {st : StreamId} (hp : p = .marking tg st) (hp' : p' = .handshaking tg st)
      (hes : es = [.marked r tg.client.handle st])
  | opening {tg : Target} (hp : p = .found tg) (hp' : p' = .opening tg)

theorem early_of_step {q' : Request} (hstep : step serde config s a = some (t, es))
    (hr' : t.requests r = some q') (hearly : q'.phase.early = true) :
    ∃ q, s.requests r = some q ∧ EarlyMove s r es q.phase q'.phase := by
  have hset : ∀ {r₀ : ReqId} {q₀ : Request} {s₀ : State} {phase : Phase},
      s₀.requests = s.requests → s.requests r₀ = some q₀ →
      (s₀.setPhase r₀ q₀ phase).requests r = some q' →
      (phase.early = true → EarlyMove s r₀ es q₀.phase phase) →
      ∃ q, s.requests r = some q ∧ EarlyMove s r es q.phase q'.phase := by
    intro r₀ q₀ s₀ phase hs₀ hr₀ heq hm
    rw [State.setPhase, setRequest_requests, hs₀] at heq
    split at heq
    · rename_i hrr
      rw [Option.some.injEq] at heq
      subst hrr heq
      exact ⟨q₀, hr₀, hm hearly⟩
    · exact ⟨q', heq, .same rfl⟩
  have hnew : ∀ {r₀ : ReqId} {q₀ : Request} {s₀ : State}, s₀.requests = s.requests →
      q₀.phase.early = false → (s₀.setRequest r₀ q₀).requests r = some q' →
      ∃ q, s.requests r = some q ∧ EarlyMove s r es q.phase q'.phase := by
    intro r₀ q₀ s₀ hs₀ hphase heq
    rw [setRequest_requests, hs₀] at heq
    split at heq
    · rw [Option.some.injEq] at heq
      rw [← heq, hphase] at hearly
      cases hearly
    · exact ⟨q', heq, .same rfl⟩
  cases step_transition hstep with
  | control => exact ⟨q', hr', .same rfl⟩
  | toDashboard => exact hnew (by rfl) rfl hr'
  | @toProxy r₀ req =>
    refine hnew (by rfl) ?_ hr'
    cases extractRouting req config.domain <;> rfl
  | move hr₀ _ hrequests _ hphase =>
    refine hset hrequests hr₀ hr' fun he ↦ ?_
    rw [hphase] at he
    cases he
  | found hr₀ => exact hset (by rfl) hr₀ hr' nofun
  | openStream hr₀ hphase => exact hset (by rfl) hr₀ hr' fun _ ↦ .opening hphase rfl
  | gotStream hr₀ hphase hres hnext =>
    exact hset (by rfl) hr₀ hr' fun _ ↦ .gotStream hphase hres hnext rfl
  | marked hr₀ hphase => exact hset (by rfl) hr₀ hr' fun _ ↦ .marked hphase rfl rfl
  | handshaken hr₀ | dropCall hr₀ => exact hset (by rfl) hr₀ hr' nofun

end Proxy

end ZoTunnel
