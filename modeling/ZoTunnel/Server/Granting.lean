import ZoTunnel.Lib.Progress
import ZoTunnel.Server.Proxy

/-!
# How a request gets its stream

Nothing that is queued in front of a call keeps a running driver from it (`Driver.can_grant`), and
no counter keeps a request from its session: the limiter lets it pass sooner or later, the registry
shows it the entry of its client, and `open_stream` puts its call to the driver.
-/

namespace ZoTunnel

namespace Driver

variable {d d' : Driver} {r : CallId} {supportsHeartbeat : Bool} {now : ℕ}

/-- The steps between a call and its stream. -/
def Act.Granting (r : CallId) (a : Act) : Prop := a = .send r ∨ a = .recvCmd ∨ a = .outboundOk

/-- What is in front of a call in the command channel, and what is pending. -/
def toGrant (d : Driver) : ℕ := 2 * d.queue.length + d.pendingOpen.toList.length

theorem reply_of_sending {calls : CallId → Option CallState} {c : CallId}
    (res : Except OpenError StreamId) (hr : calls r = some .sending) :
    reply calls c res r = some .sending := by
  rw [reply]
  split
  · rename_i hc
    rw [Function.update_of_ne, hr]
    rintro rfl
    rw [hr] at hc
    cases hc
  · exact hr

theorem step_outboundOk {c : CallId} (hrun : d.ended = none) (hp : d.pendingOpen = some c) :
    d.step .outboundOk = some
      ({ d with
          nextStream := d.nextStream + 1
          pendingOpen := none
          calls := reply d.calls c (.ok d.nextStream) },
        [.granted d.nextStream, .answered c (.ok d.nextStream)]) := by
  simp [step, isClosed, hrun, loopStep, wantOutbound, onOutboundOk, hp]

theorem step_recvCmd {c : CallId} {cs : List CallId} (hrun : d.ended = none)
    (hp : d.pendingOpen = none) (hq : d.queue = c :: cs) :
    d.step .recvCmd = some ({ d with queue := cs, pendingOpen := some c }, [.taken c]) := by
  simp [step, isClosed, hrun, loopStep, hp, hq]

private theorem drains (hrun : d.ended = none) (hr : d.calls r = some .sending)
    (hne : ¬(d.pendingOpen = none ∧ d.queue = [])) :
    ∃ a d' es, Act.Granting r a ∧ d.step a = some (d', es) ∧
      (d'.ended = none ∧ d'.calls r = some .sending) ∧ d'.toGrant < d.toGrant := by
  cases hp : d.pendingOpen with
  | some c =>
    refine ⟨.outboundOk, _, _, .inr (.inr rfl), step_outboundOk hrun hp,
      ⟨hrun, reply_of_sending _ hr⟩, ?_⟩
    simp [toGrant, hp]
  | none =>
    cases hq : d.queue with
    | nil => exact absurd ⟨hp, hq⟩ hne
    | cons c cs =>
      refine ⟨.recvCmd, _, _, .inr (.inl rfl), step_recvCmd hrun hp hq, ⟨hrun, hr⟩, ?_⟩
      simp only [toGrant, hp, hq, List.length_cons, Option.toList_some, Option.toList_none,
        List.length_nil]
      omega

/-- **A call gets its stream**, whatever is in front of it. -/
theorem can_grant (hrun : d.ended = none) (hr : d.calls r = some .sending) :
    (machine supportsHeartbeat now).Can (Act.Granting r)
      (fun d' ↦ d'.ended = none ∧ ∃ st, d'.calls r = some (.returned (.ok st))) d := by
  have hdrain : (machine supportsHeartbeat now).Can (Act.Granting r)
      (fun d ↦ (d.ended = none ∧ d.calls r = some .sending) ∧ d.pendingOpen = none ∧ d.queue = [])
      d := by
    refine Machine.Can.of_rank (I := fun d ↦ d.ended = none ∧ d.calls r = some .sending) toGrant
      (fun d hd hnot ↦ ?_) ⟨hrun, hr⟩
    exact drains hd.1 hd.2 fun hempty ↦ hnot ⟨hd, hempty⟩
  refine hdrain.and_then fun d hd ↦ ?_
  obtain ⟨⟨hrun, hr⟩, hp, hq⟩ := hd
  have hsend : d.step (.send r) = some ({ d with
      queue := [r], calls := Function.update d.calls r (some .waiting) }, [.sent r]) := by
    simp [step, isClosed, hrun, hr, hq, cmdCapacity]
  refine .next (M := machine supportsHeartbeat now) (.inl rfl) hsend ?_
  refine .next (M := machine supportsHeartbeat now) (.inr (.inl rfl))
    (step_recvCmd hrun hp (Eq.refl [r])) ?_
  refine .next (M := machine supportsHeartbeat now) (.inr (.inr rfl))
    (step_outboundOk hrun (Eq.refl (some r))) (.here ⟨hrun, d.nextStream, ?_⟩)
  simp [reply]

end Driver

theorem Control.call_new (serde : SerdeJson) (config : ServerConfig) {s : Control.State}
    {c : ConnId} {conn : Control.Conn} {d : Driver} {r : CallId} (hc : s.conns c = some conn)
    (hd : conn.driver = some d) (hrun : d.ended = none) (hr : d.calls r = none) :
    ∃ t conn' d', Control.step serde config s (.driver c (.call r)) = some (t, []) ∧
      t.registry = s.registry ∧ t.conns c = some conn' ∧ conn'.driver = some d' ∧
      d'.ended = none ∧ d'.calls r = some .sending := by
  refine ⟨s.setConn c { conn with driver := some { d with
    calls := Function.update d.calls r (some .sending) } }, _, _, ?_, rfl,
    Control.setConn_self .., rfl, hrun, Function.update_self ..⟩
  simp [Control.step, Control.Act.conn, hc, hd, Driver.step, hr, Driver.isClosed, hrun]

/-- The driver of a connection. -/
def Control.State.driverAt (s : Control.State) (c : ConnId) : Driver :=
  ((s.conns c).bind (·.driver)).getD (.spawn false 0)

theorem Control.driverAt_eq {s : Control.State} {c : ConnId} {conn : Control.Conn} {d : Driver}
    (hc : s.conns c = some conn) (hd : conn.driver = some d) : s.driverAt c = d := by
  rw [State.driverAt, hc, Option.bind_some, hd, Option.getD_some]

/-- A step of a driver, on the way of a call to its stream. -/
theorem Control.step_granting (serde : SerdeJson) (config : ServerConfig) {s : Control.State}
    {c : ConnId} {conn : Control.Conn} {d d' : Driver} {r : CallId} {b : Driver.Act}
    {es : List Driver.Event} (hc : s.conns c = some conn) (hd : conn.driver = some d)
    (hb : b.Granting r) (hstep : d.step b = some (d', es)) :
    Control.step serde config s (.driver c b) =
      some (s.setConn c { conn with driver := some d' }, es.map (.driver c)) := by
  have hne : b ≠ .abort := by rcases hb with rfl | rfl | rfl <;> simp
  simp [Control.step, Control.Act.conn, hc, hd, hne, hstep]

theorem RateLimiter.exists_check (rl : RateLimiter) (key : String) :
    ∃ now rl', rl.check key now = (true, rl') := by
  by_cases hmax : rl.maxPerSecond = 0
  · exact ⟨0, rl, by rw [check, if_pos hmax]⟩
  · cases hentry : rl.counters key with
    | none =>
      have hpos : 0 < rl.maxPerSecond := UInt32.pos_iff_ne_zero.mpr hmax
      exact ⟨0, _, by simp [check, hmax, hentry, window, hpos]; rfl⟩
    | some v => exact ⟨v.1 + window, _, by simp [check, hmax, hentry]; rfl⟩

namespace Proxy

variable {serde : SerdeJson} {config : ServerConfig} {s : State} {r : ReqId} {req : HttpRequest}
  {clientId path : String}

/-! ## The request asks for it -/

theorem step_arrive (hnone : s.requests r = none) (hproxy : serveHttp req config.domain = .proxy)
    (hroute : extractRouting req config.domain = some (clientId, path)) :
    step serde config s (.arrive r req) =
      some (({ s with metrics := { s.metrics with
        totalRequests := s.metrics.totalRequests + 1 } } : State).setRequest r
          ⟨req, .limiting clientId path⟩, [.arrived r req]) := by
  simp [step, hnone, arrive, hproxy, hroute, onRouting]

theorem step_limit {now : ℕ} {limiter : RateLimiter}
    (hq : s.requests r = some ⟨req, .limiting clientId path⟩)
    (hcheck : s.limiter.check clientId now = (true, limiter)) :
    step serde config s (.limit r now) =
      some (({ s with limiter } : State).setPhase r ⟨req, .limiting clientId path⟩
        (.looking clientId path), []) := by
  simp [step, Act.req, hq, requestStep, hcheck]

theorem step_lookup {client : ClientEntry}
    (hq : s.requests r = some ⟨req, .looking clientId path⟩)
    (hget : s.control.registry.get clientId = some client) :
    step serde config s (.lookup r) =
      some (s.setPhase r ⟨req, .looking clientId path⟩ (.found ⟨clientId, path, client⟩),
        [.lookedUp r clientId client]) := by
  simp [step, Act.req, hq, requestStep, hget]

theorem step_openStream {tg : Target} {control : Control.State}
    (hq : s.requests r = some ⟨req, .found tg⟩)
    (hcall : Control.step serde config s.control (.driver tg.client.handle (.call r)) =
      some (control, [])) :
    step serde config s (.openStream r) =
      some ((({ s with control } : State).track tg.client.handle).setPhase r ⟨req, .found tg⟩
        (.opening tg), [.contacted r tg.client.handle]) := by
  simp [step, Act.req, hq, requestStep, hcall]

end Proxy

end ZoTunnel
