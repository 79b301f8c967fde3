import ZoTunnel.Lib.Progress
import ZoTunnel.Server.Counters
import ZoTunnel.Server.FailedAuth
import ZoTunnel.Server.Phases
import ZoTunnel.Server.Streams

/-!
# Coming to rest

No task of the server is ever stuck. Whatever has happened so far, the server can come to rest
without anything new from outside: no connection is accepted, no byte comes in, no request arrives
and none is dropped. Drivers end, since a peer may close its connection at any time. Then every
`handle_client` finds its way to its end, one connection after the other, and every request gets an
answer.

A server at rest has nobody registered and no caller of `open_stream` waiting.
-/

namespace ZoTunnel

namespace Control

variable {serde : SerdeJson} {config : ServerConfig} {routes : RouteFiles} {h : List Event}
  {s t : State} {a : Act} {es : List Event} {c : ConnId} {conn : Conn}

/-- Actions that bring nothing new to the server. -/
def Act.winding : Act → Bool
  | accept _ | recv .. | driver _ (.call _) | driver _ (.dropCall _) => false
  | _ => true

/-- The task and the driver of a connection are over. -/
def Conn.Over (conn : Conn) : Prop :=
  (∃ o, conn.task = .done o) ∧ ∀ d, conn.driver = some d → d.ended ≠ none

/-- How many segments are between a task and its end, on the way that is taken here. -/
def Task.toGo : Task → ℕ
  | done _ => 0
  | reading | rejected _ | refused _ | leaving .. => 1
  | rejecting _ | serving .. => 2
  | routing .. => 3
  | registered .. => 4
  | numbered .. => 5
  | checked _ => 6
  | registering _ => 7
  | accepted _ => 8
  | accepting _ => 9

/-- The same for a connection, whose driver is to end as well. -/
def Conn.toGo (conn : Conn) : ℕ :=
  2 * conn.task.toGo + if (conn.driver.map Driver.isClosed).getD true then 0 else 1

/-! ## One connection -/

variable (serde config) in
/-- A step brings connection `c` closer to its end. -/
def Advances (s : State) (c : ConnId) (conn : Conn) : Prop :=
  ∃ a t es conn', a.winding = true ∧ step serde config s a = some (t, es) ∧
    t.conns c = some conn' ∧ conn'.toGo < conn.toGo

theorem toGo_of_task (conn : Conn) {task : Task} (ht : task.toGo < conn.task.toGo) :
    ({ conn with task } : Conn).toGo < conn.toGo :=
  Nat.add_lt_add_right ((Nat.mul_lt_mul_left two_pos).mpr ht) _

theorem Advances.of_setConn {s₀ : State} {conn' : Conn} (ha : a.winding = true)
    (hstep : step serde config s a = some (s₀.setConn c conn', es))
    (hlt : conn'.toGo < conn.toGo) : Advances serde config s c conn :=
  ⟨a, _, es, conn', ha, hstep, setConn_self .., hlt⟩

theorem Advances.of_task {s₀ : State} {task : Task} (ha : a.winding = true)
    (hstep : step serde config s a = some (s₀.setConn c { conn with task }, es))
    (hlt : task.toGo < conn.task.toGo) : Advances serde config s c conn :=
  .of_setConn ha hstep (toGo_of_task conn hlt)

private theorem advances_of_running {d : Driver} (hc : s.conns c = some conn)
    (hd : conn.driver = some d) (hrun : d.ended = none) : Advances serde config s c conn := by
  have hstep : d.step .inboundClosed = some (d.finish .closed) := by
    simp [Driver.step, Driver.isClosed, hrun, Driver.loopStep]
  have hstep' : step serde config s (.driver c .inboundClosed) =
      some (s.setConn c { conn with driver := some (d.finish .closed).1 },
        (d.finish .closed).2.map (.driver c)) := by
    simp [step, Act.conn, hc, hd, hstep]
  refine .of_setConn rfl hstep' ?_
  simp [Conn.toGo, hd, Driver.isClosed, hrun, Driver.finish]

/-- An answer is written, or it does not fit into a frame. -/
private theorem advances_of_answer {res : AuthRes} {task : Task} (hc : s.conns c = some conn)
    (hans : answer config conn.task = some (res, task)) (hlt : task.toGo < conn.task.toGo)
    (hpos : 0 < conn.task.toGo) : Advances serde config s c conn := by
  cases hw : writeMessage serde (.authRes res) with
  | error e =>
    have hstep : step serde config s (.writeAnswer c) =
        some (s.setConn c { conn with task := .done .writeFailed }, []) := by
      simp [step, Act.conn, hc, taskStep, hans, hw]
    exact .of_task rfl hstep hpos
  | ok frame =>
    have hstep : step serde config s (.writeAnswer c) =
        some (s.setConn c { conn with outbound := conn.outbound ++ frame, task },
          [.answered c res]) := by
      simp [step, Act.conn, hc, taskStep, hans, hw]
    exact .of_setConn rfl hstep (toGo_of_task conn hlt)

theorem toGo_abortDriver (conn : Conn) : conn.abortDriver.toGo = conn.toGo := by
  rw [Conn.toGo, Conn.toGo, Conn.abortDriver, Option.map_map]
  rfl

theorem Advances.of_abortDriver {s₀ : State} {o : ConnId} {task : Task} (ha : a.winding = true)
    (hstep : step serde config s a =
      some ((s₀.setConn c { conn with task }).abortDriver o, es))
    (hlt : task.toGo < conn.task.toGo) : Advances serde config s c conn := by
  have hc : (s₀.setConn c { conn with task }).conns c = some { conn with task } := setConn_self ..
  have hgo := toGo_of_task conn hlt
  by_cases hco : c = o
  · refine ⟨a, _, es, _, ha, hstep, by rw [abortDriver_conns, if_pos hco, hc]; rfl, ?_⟩
    rwa [toGo_abortDriver]
  · exact ⟨a, _, es, _, ha, hstep, by rw [abortDriver_conns, if_neg hco, hc], hgo⟩

/-- **Nobody is stuck.** A connection that is not over can make a step towards its end. -/
theorem advances (hdr : Drivers h s) (hc : s.conns c = some conn) (hover : ¬conn.Over) :
    Advances serde config s c conn := by
  -- A driver that runs is ended first; then the task has a step of its own in every state.
  by_cases hrun : ∃ d, conn.driver = some d ∧ d.ended = none
  · obtain ⟨d, hd, hrun⟩ := hrun
    exact advances_of_running hc hd hrun
  have hended : ∀ d, conn.driver = some d → d.ended ≠ none := fun d hd hn ↦ hrun ⟨d, hd, hn⟩
  cases ht : conn.task with
  | reading =>
    have hstep : step serde config s (.authTimeout c) =
        some (s.setConn c { conn with task := .done .timedOut }, []) := by
      simp [step, Act.conn, hc, taskStep, ht]
    exact .of_task rfl hstep (by simp [ht, Task.toGo])
  | rejecting auth | accepting auth =>
    exact advances_of_answer hc (by rw [ht]; rfl) (by simp [ht, Task.toGo])
      (by simp [ht, Task.toGo])
  | rejected auth =>
    have hstep : step serde config s (.countFailed c) = some
        ({ s with metrics := { s.metrics with failedAuth := s.metrics.failedAuth + 1 } }.setConn c
          { conn with task := .done .invalidToken }, []) := by
      simp [step, Act.conn, hc, taskStep, ht]
    exact .of_task rfl hstep (by simp [ht, Task.toGo])
  | accepted auth =>
    have hstep : step serde config s (.spawnDriver c 0) = some
        (s.setConn c { conn with
          driver := some (Driver.spawn auth.supportsHeartbeat 0), task := .registering auth },
          []) := by
      simp [step, Act.conn, hc, taskStep, ht]
    refine .of_setConn rfl hstep ?_
    simp only [Conn.toGo, ht, Task.toGo]
    split <;> split <;> omega
  | registering auth =>
    by_cases hres : auth.clientId ∈ reservedSubdomains
    · have hstep : step serde config s (.checkId c) =
          some (s.setConn c { conn with task := .refused auth }, [.refused c auth.clientId]) := by
        simp [step, Act.conn, hc, taskStep, ht, Registry.checkId, hres]
      exact .of_task rfl hstep (by simp [ht, Task.toGo])
    · have hstep : step serde config s (.checkId c) =
          some (s.setConn c { conn with task := .checked auth }, []) := by
        simp [step, Act.conn, hc, taskStep, ht, Registry.checkId, hres]
      exact .of_task rfl hstep (by simp [ht, Task.toGo])
  | checked auth =>
    have hstep : step serde config s (.fetchSession c) = some
        ({ s with registry := s.registry.fetchSession.2 }.setConn c
          { conn with task := .numbered auth s.registry.nextSession },
          [.numbered c s.registry.nextSession]) := by
      simp [step, Act.conn, hc, taskStep, ht, Registry.fetchSession]
    exact .of_task rfl hstep (by simp [ht, Task.toGo])
  | numbered auth sessionId =>
    rcases hins : s.registry.insertEntry ⟨auth.clientId, sessionId, c, auth.supportsHeartbeat⟩ with
      ⟨registry, _ | old⟩
    · have hstep : step serde config s (.insertEntry c) = some
          ({ s with registry }.setConn c { conn with task := .registered auth sessionId },
            [.swapped c auth.clientId sessionId]) := by
        simp [step, Act.conn, hc, taskStep, ht, hins]
      exact .of_task rfl hstep (by simp [ht, Task.toGo])
    · have hstep : step serde config s (.insertEntry c) = some
          (({ s with registry }.setConn c
            { conn with task := .registered auth sessionId }).abortDriver old,
            [.swapped c auth.clientId sessionId, .aborted old]) := by
        simp [step, Act.conn, hc, taskStep, ht, hins]
      exact .of_abortDriver rfl hstep (by simp [ht, Task.toGo])
  | refused auth =>
    have hstep : step serde config s (.abortOwn c) = some
        ((s.setConn c { conn with task := .done .registrationFailed }).abortDriver c,
          [.aborted c]) := by
      simp [step, Act.conn, hc, taskStep, ht]
    exact .of_abortDriver rfl hstep (by simp [ht, Task.toGo])
  | registered auth sessionId =>
    have hstep : ∃ task es, task.toGo < 4 ∧ step serde config s (.readRoute c) =
        some (s.setConn c { conn with task }, es) := by
      by_cases hen : config.traefik.enabled = true
      · by_cases hup : (manager config).upToDate s.routes auth.clientId = true
        · exact ⟨.serving auth sessionId, _, by simp [Task.toGo], by
            simp [step, Act.conn, hc, taskStep, ht, hen, hup]; rfl⟩
        · exact ⟨.routing auth sessionId, _, by simp [Task.toGo], by
            simp [step, Act.conn, hc, taskStep, ht, hen, hup]; rfl⟩
      · exact ⟨.serving auth sessionId, _, by simp [Task.toGo], by
          simp [step, Act.conn, hc, taskStep, ht, hen]; rfl⟩
    obtain ⟨task, es, hlt, hstep⟩ := hstep
    exact .of_task rfl hstep (by rw [ht]; exact hlt)
  | routing auth sessionId =>
    have hstep : step serde config s (.writeRoute c .written) = some
        ({ s with routes := (manager config).writeRoute s.routes auth.clientId .written }.setConn c
          { conn with task := .serving auth sessionId }, []) := by
      simp [step, Act.conn, hc, taskStep, ht]
    exact .of_task rfl hstep (by simp [ht, Task.toGo])
  | serving auth sessionId =>
    -- `driver_task.await` returns, as the driver is there and over.
    have hsome : conn.driver.isSome = true := by rw [(hdr.conn c conn hc).spawned, ht]; rfl
    obtain ⟨d, hd⟩ := Option.isSome_iff_exists.mp hsome
    have hclosed : d.isClosed = true := Option.isSome_iff_ne_none.mpr (hended d hd)
    have hstep : step serde config s (.join c) =
        some (s.setConn c { conn with task := .leaving auth sessionId }, []) := by
      simp [step, Act.conn, hc, taskStep, ht, hd, hclosed]
    exact .of_task rfl hstep (by simp [ht, Task.toGo])
  | leaving auth sessionId =>
    have hstep : step serde config s (.unregister c) = some
        ({ s with registry := (s.registry.unregister auth.clientId sessionId).1 }.setConn c
          { conn with task := .done .disconnected },
          [.unregistered c auth.clientId sessionId
            (s.registry.unregister auth.clientId sessionId).2]) := by
      simp [step, Act.conn, hc, taskStep, ht]
    exact .of_task rfl hstep (by simp [ht, Task.toGo])
  | done o => exact absurd ⟨⟨o, ht⟩, hended⟩ hover

/-! ## All connections -/

/-- A driver that runs after a step has run before, or its task has just spawned it. -/
theorem running_of_step {conn' : Conn} {d' : Driver} (hstep : step serde config s a = some (t, es))
    (hc : s.conns c = some conn) (hc' : t.conns c = some conn') (hd' : conn'.driver = some d')
    (hrun : d'.ended = none) :
    (∃ d, conn.driver = some d ∧ d.ended = none) ∨ ∃ auth, conn.task = .accepted auth := by
  obtain ⟨conn₁, o, ds, hm, -⟩ := step_conns hstep
  -- The connection before an abort, if one is asked for.
  obtain ⟨conn₂, d₂, hc₂, hd₂, hrun₂⟩ : ∃ conn₂ d₂,
      (if c = a.conn then some conn₁ else s.conns c) = some conn₂ ∧ conn₂.driver = some d₂ ∧
        d₂.ended = none := by
    rw [hm.conns] at hc'
    split at hc'
    · obtain ⟨conn₂, hc₂, rfl⟩ := Option.map_eq_some_iff.mp hc'
      obtain ⟨d₂, hd₂, rfl⟩ := Option.map_eq_some_iff.mp hd'
      exact ⟨conn₂, d₂, hc₂, hd₂, hrun⟩
    · exact ⟨conn', d', hc', hd', hrun⟩
  split at hc₂
  · rename_i hca
    obtain rfl := Option.some.inj hc₂
    cases hm.driver conn (hca ▸ hc) with
    | same hsame => exact .inl ⟨d₂, hsame ▸ hd₂, hrun₂⟩
    | spawned ht => exact .inr ⟨_, ht⟩
    | stepped _ _ hd hdstep hconn =>
      rw [hconn] at hd₂
      obtain rfl := Option.some.inj hd₂
      exact .inl ⟨_, hd, Driver.running_of_step hdstep hrun₂⟩
  · obtain rfl := Option.some.inj (hc.symm.trans hc₂)
    exact .inl ⟨d₂, hd₂, hrun₂⟩

theorem over_of_step {conn' : Conn} (hstep : step serde config s a = some (t, es))
    (hc : s.conns c = some conn) (hc' : t.conns c = some conn') (hover : conn.Over) :
    conn'.Over := by
  obtain ⟨⟨o, ht⟩, hended⟩ := hover
  refine ⟨⟨o, ?_⟩, fun d hd hrun ↦ ?_⟩
  · obtain ⟨conn'', hc'', heq | ⟨-, hm⟩⟩ := task_of_step hstep hc
    · obtain rfl := Option.some.inj (hc''.symm.trans hc')
      rw [heq, ht]
    · rw [ht] at hm
      generalize conn''.task = task at hm
      cases hm with
      | answered hans | writeEnds hans => cases hans
  · rcases running_of_step hstep hc hc' hd hrun with ⟨d₀, hd₀, hrun₀⟩ | ⟨auth, ht'⟩
    · exact hended d₀ hd₀ hrun₀
    · rw [ht] at ht'
      cases ht'

/-- Every connection that is there is over. -/
def State.Over (s : State) : Prop := ∀ c conn, s.conns c = some conn → conn.Over

private theorem conn_stays {conn' : Conn} (hi : ∀ conn, s.conns c = some conn → conn.Over)
    (ha : ∀ c, a ≠ .accept c) (hstep : step serde config s a = some (t, es))
    (hc' : t.conns c = some conn') : conn'.Over := by
  cases hc : s.conns c with
  | some conn => exact over_of_step hstep hc hc' (hi conn hc)
  | none =>
    -- Only `accept` makes a connection.
    exfalso
    by_cases hca : c = a.conn
    · cases a with
      | accept => exact ha _ rfl
      | _ => simp [step, ← hca, hc] at hstep
    · obtain ⟨conn₁, o, ds, hm, -⟩ := step_conns hstep
      rw [hm.conns, if_neg hca, hc] at hc'
      split at hc' <;> cases hc'

theorem State.Over.step (hover : s.Over) (ha : ∀ c, a ≠ .accept c)
    (hstep : Control.step serde config s a = some (t, es)) : t.Over :=
  fun c _ hc' ↦ conn_stays (hover c) ha hstep hc'

theorem ne_accept_of_winding (ha : a.winding = true) (c : ConnId) : a ≠ .accept c := by
  rintro rfl
  cases ha

/-- **The control channel can come to rest.** -/
theorem can_settle (hr : (machine serde config routes).Reach h s) :
    (machine serde config routes).Can (fun a ↦ a.winding = true)
      (fun t ↦ (∃ h', (machine serde config routes).Reach h' t) ∧ t.Over) s := by
  refine Machine.Can.forall_of_finite
    (P := fun (c : ConnId) (s : State) ↦ ∀ conn, s.conns c = some conn → conn.Over)
    (fun s a t es ⟨h, hr⟩ _ hstep ↦ ⟨_, hr.step hstep⟩) ?_ ?_ ⟨h, hr⟩ ?_
  · exact fun c s a t es _ hi ha hstep conn' hc' ↦
      conn_stays hi (ne_accept_of_winding ha) hstep hc'
  · intro c s hr
    refine Machine.Can.of_rank (I := fun s ↦ ∃ h, (machine serde config routes).Reach h s)
      (fun s ↦ ((s.conns c).map Conn.toGo).getD 0) (fun s ⟨h, hr⟩ hnot ↦ ?_) hr
    simp only [not_forall] at hnot
    obtain ⟨conn, hc, hover⟩ := hnot
    obtain ⟨a, t, es, conn', ha, hstep, hc', hlt⟩ := advances (.of_reach hr) hc hover
    exact ⟨a, t, es, ha, hstep, ⟨_, hr.step hstep⟩, by simpa [hc, hc'] using hlt⟩
  · refine (FailedAuth.of_reach hr).finite.subset fun c hc hnone ↦ hc fun conn hc' ↦ ?_
    rw [hnone] at hc'
    cases hc'

theorem get_of_over (hr : (machine serde config routes).Reach h s) (hover : s.Over) (k : String) :
    s.registry.get k = none := by
  by_contra hne
  obtain ⟨e, he⟩ := Option.ne_none_iff_exists'.mp hne
  obtain ⟨-, conn, auth, hc, hheld, -⟩ := (Gate.of_reach hr).entry k e he
  obtain ⟨⟨o, ht⟩, -⟩ := hover e.handle conn hc
  rw [ht] at hheld
  cases hheld

/-! ## Calls of `open_stream` -/

/-- The driver of a connection in a step: it makes a step of its own or none, and may be asked to
abort. -/
theorem driver_of_step {d : Driver} (hdr : Drivers h s)
    (hstep : step serde config s a = some (t, es)) (hc : s.conns c = some conn)
    (hd : conn.driver = some d) : ∃ conn' d₁ d', t.conns c = some conn' ∧
      conn'.driver = some d' ∧ (d₁ = d ∨ ∃ b ds, a = .driver c b ∧ d.step b = some (d₁, ds)) ∧
      d'.calls = d₁.calls := by
  obtain ⟨conn₁, o, ds, hm, -⟩ := step_conns hstep
  -- The connection before an abort, if one is asked for.
  obtain ⟨conn₂, d₁, hc₂, hd₁, hor⟩ : ∃ conn₂ d₁,
      (if c = a.conn then some conn₁ else s.conns c) = some conn₂ ∧ conn₂.driver = some d₁ ∧
        (d₁ = d ∨ ∃ b ds, a = .driver c b ∧ d.step b = some (d₁, ds)) := by
    by_cases hca : c = a.conn
    · refine ⟨conn₁, ?_⟩
      rw [if_pos hca]
      cases hm.driver conn (hca ▸ hc) with
      | same hsame => exact ⟨d, rfl, hsame ▸ hd, .inl rfl⟩
      | spawned ht =>
        have hspawned := (hdr.conn c conn hc).spawned
        rw [hd, ht] at hspawned
        cases hspawned
      | stepped ha _ hd' hdstep hconn =>
        obtain rfl := Option.some.inj (hd.symm.trans hd')
        exact ⟨_, rfl, by rw [hconn], .inr ⟨_, _, by rw [hca, ha]; rfl, hdstep⟩⟩
    · rw [if_neg hca]
      exact ⟨conn, d, hc, hd, .inl rfl⟩
  rw [hm.conns, hc₂]
  split
  · exact ⟨_, d₁, { d₁ with abortRequested := true }, rfl, by rw [Conn.abortDriver, hd₁]; rfl, hor,
      rfl⟩
  · exact ⟨conn₂, d₁, d₁, rfl, hd₁, hor, rfl⟩

end Control

/-- A call that was made, by a caller that has not gone away. -/
def CallState.Known (o : Option CallState) : Prop := o ≠ none ∧ o ≠ some .dropped

namespace Driver

open CallState (Known)

variable {d d' : Driver} {a : Act} {es : List Event} {r c : CallId}

theorem known_update {calls : CallId → Option CallState} {o : CallState} (ho : o ≠ .dropped)
    (hr : Known (calls r)) : Known (Function.update calls c (some o) r) := by
  rw [Function.update_apply]
  split
  · exact ⟨Option.some_ne_none _, fun h ↦ ho (Option.some.inj h)⟩
  · exact hr

theorem known_reply {calls : CallId → Option CallState} (res : Except OpenError StreamId)
    (hr : Known (calls r)) : Known (reply calls c res r) := by
  rw [reply]
  split
  · exact known_update (fun h ↦ by cases h) hr
  · exact hr

theorem known_finish (reason : EndReason) (hr : Known (d.calls r)) :
    Known ((d.finish reason).1.calls r) := by
  simp only [finish]
  split
  · exact ⟨Option.some_ne_none _, fun h ↦ by cases h⟩
  · split <;> exact ⟨Option.some_ne_none _, fun h ↦ by cases h⟩
  · exact hr

theorem known_miss (hr : Known (d.calls r)) : Known (d.miss.1.calls r) := by
  rcases d.miss_cases with ⟨-, hm⟩ | ⟨-, hm⟩ <;> rw [hm]
  · exact hr
  · exact known_finish _ hr

theorem known_of_step (hstep : d.step a = some (d', es)) (ha : a ≠ .dropCall r)
    (hr : Known (d.calls r)) : Known (d'.calls r) := by
  cases step_transition hstep with
  | call _ hs =>
    refine known_update ?_ hr
    rw [hs]
    split <;> exact fun h ↦ by cases h
  | send => exact known_update (fun h ↦ by cases h) hr
  | @dropCall c =>
    have hrc : r ≠ c := fun heq ↦ ha (by rw [heq])
    change Known (Function.update d.calls c (some .dropped) r)
    rw [Function.update_of_ne hrc]
    exact hr
  | stop => exact known_finish _ hr
  | grantCall | refuseCall => exact known_reply _ hr
  | refuseBoth _ _ _ hd₀ => exact known_miss (hd₀ ▸ known_reply _ hr)
  | refuseProbe _ _ _ hd₀ | failure _ _ hd₀ => exact known_miss (hd₀ ▸ hr)
  | _ => exact hr

theorem known_of_call (hstep : d.step (.call r) = some (d', es)) : Known (d'.calls r) := by
  cases step_transition hstep with
  | @call _ o _ ho =>
    change Known (Function.update d.calls r (some o) r)
    rw [Function.update_self]
    refine ⟨Option.some_ne_none _, fun h ↦ ?_⟩
    rw [ho, Option.some.injEq] at h
    split at h <;> cases h
  | stop _ ha => simp at ha

end Driver

namespace Control

variable {serde : SerdeJson} {config : ServerConfig} {routes : RouteFiles} {h : List Event}
  {s t : State} {a : Act} {es : List Event} {c : ConnId} {r : CallId}

/-- The driver of a connection was spawned. -/
def Muxed (s : State) (c : ConnId) : Prop := ∃ conn d, s.conns c = some conn ∧ conn.driver = some d

/-- The driver of a connection knows a call. -/
def Knows (s : State) (c : ConnId) (r : CallId) : Prop :=
  ∃ conn d, s.conns c = some conn ∧ conn.driver = some d ∧ CallState.Known (d.calls r)

theorem Muxed.step (hm : Muxed s c) (hdr : Drivers h s)
    (hstep : Control.step serde config s a = some (t, es)) : Muxed t c := by
  obtain ⟨conn, d, hc, hd⟩ := hm
  obtain ⟨conn', -, d', hc', hd', -⟩ := driver_of_step hdr hstep hc hd
  exact ⟨conn', d', hc', hd'⟩

theorem Knows.step (hk : Knows s c r) (hdr : Drivers h s)
    (hstep : Control.step serde config s a = some (t, es)) (ha : a ≠ .driver c (.dropCall r)) :
    Knows t c r := by
  obtain ⟨conn, d, hc, hd, hr⟩ := hk
  obtain ⟨conn', d₁, d', hc', hd', hor, hcalls⟩ := driver_of_step hdr hstep hc hd
  refine ⟨conn', d', hc', hd', ?_⟩
  rw [hcalls]
  rcases hor with rfl | ⟨b, ds, rfl, hb⟩
  · exact hr
  · exact Driver.known_of_step hb (fun heq ↦ ha (by rw [heq])) hr

theorem knows_of_call (hstep : Control.step serde config s (.driver c (.call r)) = some (t, es)) :
    Knows t c r := by
  simp only [Control.step, Act.conn] at hstep
  split at hstep
  · cases hstep
  · split at hstep
    · cases hstep
    · rename_i conn hc d hd
      rw [if_neg fun h ↦ by cases h] at hstep
      split at hstep
      · cases hstep
      · rename_i d' ds hb
        obtain ⟨rfl, -⟩ := Prod.mk.inj (Option.some.inj hstep)
        exact ⟨_, d', setConn_self .., rfl, Driver.known_of_call hb⟩

/-- The driver of a connection takes a call that it does not know yet. -/
theorem exists_call {conn : Conn} {d : Driver} (hc : s.conns c = some conn)
    (hd : conn.driver = some d) (hr : d.calls r = none) :
    ∃ t es, Control.step serde config s (.driver c (.call r)) = some (t, es) := by
  simp [Control.step, Act.conn, hc, hd, Driver.step, hr]

end Control

namespace Proxy

variable {serde : SerdeJson} {config : ServerConfig} {routes : RouteFiles} {h : List Event}
  {s t : State} {a : Act} {es : List Event} {r : ReqId} {q : Request} {tg : Target}

/-- Actions that bring nothing new to the server, and end no request from outside. -/
def Act.winding : Act → Bool
  | control b => b.winding
  | arrive .. | drop _ => false
  | _ => true

/-- The request is over. -/
def Phase.Over (p : Phase) : Prop := (∃ reply, p = .answered reply) ∨ p = .dropped

/-- How many segments are between a request and its end. -/
def Phase.toGo : Phase → ℕ
  | answered _ | dropped => 0
  | dashboard | unroutable | sending .. => 1
  | building .. => 2
  | handshaking .. => 3
  | marking .. => 4
  | opening _ => 5
  | found _ => 6
  | looking .. => 7
  | limiting .. => 8

/-! ## The session of a request -/

/-- The session that a request has looked up has a driver, which knows the call once it is made. -/
structure Reached (s : State) : Prop where
  target : ∀ r q tg, s.requests r = some q → q.phase.target = some tg →
    Control.Muxed s.control tg.client.handle
  opening : ∀ r q tg, s.requests r = some q → q.phase = .opening tg →
    Control.Knows s.control tg.client.handle r

namespace Reached

private theorem set (hi : Reached s) {s₀ : State} {q' : Request}
    (hmuxed : ∀ c, Control.Muxed s.control c → Control.Muxed s₀.control c)
    (hknows : ∀ c r', r' ≠ r → Control.Knows s.control c r' → Control.Knows s₀.control c r')
    (hrequests : s₀.requests = s.requests)
    (htarget : ∀ tg, q'.phase.target = some tg → Control.Muxed s₀.control tg.client.handle)
    (hopening : ∀ tg, q'.phase = .opening tg → Control.Knows s₀.control tg.client.handle r) :
    Reached (s₀.setRequest r q') where
  target r' q tg hq htg := by
    rw [setRequest_requests] at hq
    split at hq
    · exact htarget tg (Option.some.inj hq ▸ htg)
    · exact hmuxed _ (hi.target r' q tg (hrequests ▸ hq) htg)
  opening r' q tg hq htg := by
    rw [setRequest_requests] at hq
    split at hq
    · rename_i hrr
      exact hrr ▸ hopening tg (Option.some.inj hq ▸ htg)
    · rename_i hrr
      exact hknows _ r' hrr (hi.opening r' q tg (hrequests ▸ hq) htg)

private theorem setPhase (hi : Reached s) {s₀ : State} (phase : Phase)
    (hcontrol : s₀.control = s.control) (hrequests : s₀.requests = s.requests)
    (htarget : ∀ tg, phase.target = some tg → Control.Muxed s.control tg.client.handle)
    (hopening : ∀ tg, phase ≠ .opening tg) : Reached (s₀.setPhase r q phase) := by
  refine hi.set (fun c hm ↦ ?_) (fun c r' _ hk ↦ ?_) hrequests (fun tg htg ↦ ?_) fun tg htg ↦
    absurd htg (hopening tg)
  · rwa [hcontrol]
  · rwa [hcontrol]
  · rw [hcontrol]
    exact htarget tg htg

/-- **The step lemma.** -/
theorem step (hi : Reached s) (hr : (machine serde config routes).Reach h s)
    (hstep : Proxy.step serde config s a = some (t, es)) : Reached t := by
  have hdr : Control.Drivers (controlEvents h) s.control := .of_reach (control_reach hr)
  cases step_transition hstep with
  | @control b control _ hown hb =>
    refine ⟨fun r q tg hq htg ↦ (hi.target r q tg hq htg).step hdr hb, fun r q tg hq htg ↦
      (hi.opening r q tg hq htg).step hdr hb ?_⟩
    rintro rfl
    cases hown
  | toDashboard hr₀ =>
    exact hi.set (fun _ hm ↦ hm) (fun _ _ _ hk ↦ hk) rfl (fun tg htg ↦ by cases htg)
      fun tg htg ↦ by cases htg
  | @toProxy r req m hr₀ =>
    have hphase : ∀ o, (onRouting o).target = none ∧ ∀ tg, onRouting o ≠ .opening tg := by
      intro o
      rcases o with _ | ⟨k, path⟩
      · exact ⟨rfl, fun tg htg ↦ by cases htg⟩
      · exact ⟨rfl, fun tg htg ↦ by cases htg⟩
    refine hi.set (fun _ hm ↦ hm) (fun _ _ _ hk ↦ hk) rfl
      (fun tg htg ↦ ?_) fun tg htg ↦ absurd htg ((hphase _).2 tg)
    rw [(hphase _).1] at htg
    cases htg
  | @move a r q s₀ phase hr₀ hcontrol hrequests hlater hearly =>
    refine hi.setPhase phase hcontrol hrequests
      (fun tg htg ↦ hi.target r q tg hr₀ (hlater.target tg htg)) ?_
    rintro tg rfl
    cases hearly
  | @found r q k path client hr₀ hphase hget =>
    refine hi.setPhase _ rfl rfl (fun tg htg ↦ ?_) fun tg htg ↦ by cases htg
    obtain rfl := Option.some.inj htg
    -- Whoever has a slot has a connection, and its driver was spawned before it registered.
    obtain ⟨-, conn, auth, hc, hheld, -⟩ :=
      (Control.Gate.of_reach (control_reach hr)).entry k _ hget
    have hsome := (hdr.conn _ conn hc).spawned
    rw [Control.Task.spawned_of_settled (Control.Task.settled_of_held hheld)] at hsome
    obtain ⟨d, hd⟩ := Option.isSome_iff_exists.mp hsome
    exact ⟨conn, d, hc, hd⟩
  | @openStream r q tg control _ hr₀ hphase hb =>
    refine hi.set (fun c hm ↦ hm.step hdr hb)
      (fun c r' hrr hk ↦ hk.step hdr hb fun heq ↦ by cases heq)
      rfl (fun tg' htg ↦ ?_) fun tg' htg ↦ ?_
    · obtain rfl := Option.some.inj htg
      exact (hi.target r q tg hr₀ (by rw [hphase]; rfl)).step hdr hb
    · obtain rfl := Phase.opening.inj htg
      exact Control.knows_of_call hb
  | @gotStream r q tg st phase hr₀ hphase hres hnext =>
    subst hnext
    refine hi.setPhase _ rfl rfl (fun tg' htg ↦ hi.target r q tg' hr₀ ?_) fun tg' htg ↦ ?_
    · split at htg <;> exact hphase ▸ htg
    · split at htg <;> cases htg
  | marked hr₀ hphase | handshaken hr₀ hphase =>
    exact hi.setPhase _ rfl rfl (fun tg' htg ↦ hi.target _ _ tg' hr₀ (hphase ▸ htg))
      fun tg' htg ↦ by cases htg
  | @dropCall r q tg control _ hr₀ hphase hb =>
    refine hi.set (fun c hm ↦ hm.step hdr hb) (fun c r' hrr hk ↦ hk.step hdr hb fun heq ↦ ?_) rfl
      (fun tg' htg ↦ by cases htg) fun tg' htg ↦ by cases htg
    simp only [Control.Act.driver.injEq, Driver.Act.dropCall.injEq] at heq
    exact hrr heq.2.symm

theorem of_reach (hr : (machine serde config routes).Reach h s) : Reached s :=
  hr.invariant (P := fun _ s ↦ Reached s)
    ⟨fun r q tg hq ↦ (by cases hq), fun r q tg hq ↦ (by cases hq)⟩
    fun _ _ _ _ _ hr hi hstep ↦ hi.step hr hstep

end Reached

/-! ## One request -/

variable (serde config) in
/-- A step brings request `r` closer to its end. -/
def Advances (s : State) (r : ReqId) (q : Request) : Prop :=
  ∃ a t es q', a.winding = true ∧ step serde config s a = some (t, es) ∧
    t.requests r = some q' ∧ q'.phase.toGo < q.phase.toGo

theorem Advances.of_setPhase {s₀ : State} {phase : Phase} (ha : a.winding = true)
    (hstep : step serde config s a = some (s₀.setPhase r q phase, es))
    (hlt : phase.toGo < q.phase.toGo) : Advances serde config s r q :=
  ⟨a, _, es, { q with phase }, ha, hstep, Function.update_self .., hlt⟩

/-- **No request is stuck.** With all drivers over, streams do not open and nothing can be written
to them. -/
theorem advances (hr : (machine serde config routes).Reach h s) (hover : s.control.Over)
    (hq : s.requests r = some q) (hnot : ¬q.phase.Over) : Advances serde config s r q := by
  cases hphase : q.phase with
  | dashboard =>
    have hstep : step serde config s (.dashboardReply r) =
        some (s.setPhase r q (.answered .dashboard), []) := by
      simp [step, Act.req, hq, requestStep, hphase]
    exact .of_setPhase rfl hstep (by simp [hphase, Phase.toGo])
  | unroutable =>
    have hstep : step serde config s (.hint r s.control.registry.ids) =
        some (s.setPhase r q (.answered (hintReply config.domain s.control.registry.ids)), []) := by
      simp [step, Act.req, hq, requestStep, hphase]
    exact .of_setPhase rfl hstep (by simp [hphase, Phase.toGo])
  | limiting k path =>
    rcases hcheck : s.limiter.check k 0 with ⟨_ | _, limiter⟩
    · have hstep : step serde config s (.limit r 0) =
          some ({ s with limiter, metrics := { s.metrics with
            rateLimited := s.metrics.rateLimited + 1 } }.setPhase r q (.answered limitedReply),
            []) := by
        simp [step, Act.req, hq, requestStep, hphase, hcheck]
      exact .of_setPhase rfl hstep (by simp [hphase, Phase.toGo])
    · have hstep : step serde config s (.limit r 0) =
          some ({ s with limiter }.setPhase r q (.looking k path), []) := by
        simp [step, Act.req, hq, requestStep, hphase, hcheck]
      exact .of_setPhase rfl hstep (by simp [hphase, Phase.toGo])
  | looking k path =>
    cases hget : s.control.registry.get k with
    | none =>
      have hstep : step serde config s (.lookup r) =
          some (s.setPhase r q (.answered (offlineReply k)), []) := by
        simp [step, Act.req, hq, requestStep, hphase, hget]
      exact .of_setPhase rfl hstep (by simp [hphase, Phase.toGo])
    | some client =>
      have hstep : step serde config s (.lookup r) =
          some (s.setPhase r q (.found ⟨k, path, client⟩), [.lookedUp r k client]) := by
        simp [step, Act.req, hq, requestStep, hphase, hget]
      exact .of_setPhase rfl hstep (by simp [hphase, Phase.toGo])
  | found tg =>
    obtain ⟨conn, d, hc, hd⟩ := (Reached.of_reach hr).target r q tg hq (by rw [hphase]; rfl)
    have hnone : d.calls r = none := by
      by_contra hcall
      have hi : Delivery config h s := .of_reach hr
      obtain ⟨q', hq', hopened⟩ := hi.contacted r _ (hi.calls _ conn d r hc hd hcall)
      obtain rfl := Option.some.inj (hq.symm.trans hq')
      rw [hphase] at hopened
      cases hopened
    obtain ⟨control, ces, hcall⟩ : ∃ control ces, Control.step serde config s.control
        (.driver tg.client.handle (.call r)) = some (control, ces) :=
      Control.exists_call hc hd hnone
    have hstep : step serde config s (.openStream r) =
        some (({ s with control }.track tg.client.handle).setPhase r q (.opening tg),
          .contacted r tg.client.handle :: ces.map .control) := by
      simp [step, Act.req, hq, requestStep, hphase, hcall]
    exact .of_setPhase rfl hstep (by simp [hphase, Phase.toGo])
  | opening tg =>
    obtain ⟨conn, d, hc, hd, hknown⟩ := (Reached.of_reach hr).opening r q tg hq hphase
    -- The driver is over, so the call has returned.
    obtain ⟨res, hcall⟩ : ∃ res, d.calls r = some (.returned res) := by
      obtain ⟨auth, now, -, hdr⟩ := Control.driver_reach (control_reach hr) hc hd
      obtain ⟨hsending, hwaiting⟩ :=
        (Driver.Accounts.of_reach hdr).nobody_waits ((hover _ conn hc).2 d hd) r
      obtain ⟨o, ho⟩ := Option.ne_none_iff_exists'.mp hknown.1
      cases o with
      | sending => exact absurd ho hsending
      | waiting => exact absurd ho hwaiting
      | returned res => exact ⟨res, ho⟩
      | dropped => exact absurd ho hknown.2
    have hres : openResult s r tg.client.handle = some res := by
      simp [openResult, hc, hd, hcall]
    cases res with
    | error e =>
      have hstep : step serde config s (.opened r) =
          some (s.conclude r q tg (connectionReply tg.clientId), []) := by
        simp [step, Act.req, hq, requestStep, hphase, hres]
      exact .of_setPhase rfl hstep (by simp [hphase, Phase.toGo])
    | ok st =>
      by_cases hbeat : tg.client.supportsHeartbeat = true
      · have hstep : step serde config s (.opened r) =
            some (s.setPhase r q (.marking tg st), []) := by
          simp [step, Act.req, hq, requestStep, hphase, hres, hbeat]
        exact .of_setPhase rfl hstep (by simp [hphase, Phase.toGo])
      · have hstep : step serde config s (.opened r) =
            some (s.setPhase r q (.handshaking tg st), []) := by
          simp [step, Act.req, hq, requestStep, hphase, hres, hbeat]
        exact .of_setPhase rfl hstep (by simp [hphase, Phase.toGo])
  | marking tg st =>
    have hstep : step serde config s (.mark r false) =
        some (s.conclude r q tg (connectionReply tg.clientId), []) := by
      simp [step, Act.req, hq, requestStep, hphase]
    exact .of_setPhase rfl hstep (by simp [hphase, Phase.toGo])
  | handshaking tg st =>
    have hstep : step serde config s (.handshake r false) =
        some (s.conclude r q tg handshakeReply, []) := by
      simp [step, Act.req, hq, requestStep, hphase]
    exact .of_setPhase rfl hstep (by simp [hphase, Phase.toGo])
  | building tg st =>
    have hstep : step serde config s (.build r true) =
        some (s.setPhase r q (.sending tg st), []) := by
      simp [step, Act.req, hq, requestStep, hphase]
    exact .of_setPhase rfl hstep (by simp [hphase, Phase.toGo])
  | sending tg st =>
    have hstep : step serde config s (.send r false) =
        some (s.conclude r q tg (silentReply tg.clientId), []) := by
      simp [step, Act.req, hq, requestStep, hphase]
    exact .of_setPhase rfl hstep (by simp [hphase, Phase.toGo])
  | answered reply => exact absurd (.inl ⟨reply, hphase⟩) hnot
  | dropped => exact absurd (.inr hphase) hnot

/-! ## The whole server -/

/-- Every request that is there is over. -/
def State.Served (s : State) : Prop := ∀ r q, s.requests r = some q → q.phase.Over

/-- A server at rest. -/
structure Rest (s : State) : Prop where
  /-- All tasks and all drivers are over. -/
  conns : s.control.Over
  requests : s.Served
  registry : ∀ k, s.control.registry.get k = none
  /-- No caller of `open_stream` waits. -/
  calls : ∀ c conn d r, s.control.conns c = some conn → conn.driver = some d →
    d.calls r ≠ some .sending ∧ d.calls r ≠ some .waiting

/-- A request that is over stays over, and one that is not dropped is dropped by `drop` only. -/
theorem over_of_step {q' : Request} (hstep : step serde config s a = some (t, es))
    (hq : s.requests r = some q) (hq' : t.requests r = some q') (ha : a.winding = true) :
    (q.phase.Over → q'.phase.Over) ∧ (q.phase ≠ .dropped → q'.phase ≠ .dropped) := by
  have hsame : ∀ {rs : ReqId → Option Request}, t.requests = rs → rs r = some q →
      (q.phase.Over → q'.phase.Over) ∧ (q.phase ≠ .dropped → q'.phase ≠ .dropped) := by
    intro rs hrs hr
    rw [hrs, hr, Option.some.injEq] at hq'
    exact hq' ▸ ⟨id, id⟩
  cases shift_of_step hstep with
  | control _ hrequests => exact hsame hrequests hq
  | arrive hact =>
    rw [hact] at ha
    cases ha
  | @hop r₀ q₀ hact hr₀ hops =>
    obtain ⟨⟨p, hop, hrequests⟩, -, -⟩ := hops
    by_cases hrr : r = r₀
    · subst hrr
      obtain rfl := Option.some.inj (hq.symm.trans hr₀)
      rw [hrequests, Function.update_self, Option.some.injEq] at hq'
      rw [← hq']
      refine ⟨fun hover ↦ ?_, fun _ hp ↦ ?_⟩
      · generalize q.phase = p₀ at hop hover
        rcases hover with ⟨reply, rfl⟩ | rfl <;> cases hop with
        | dropped hp => simp at hp
      · change p = .dropped at hp
        subst hp
        generalize q.phase = p₀ at hop
        cases hop with
        | dropped => cases ha
        | opened _ hp => simp at hp
    · exact hsame hrequests (by rw [Function.update_of_ne hrr, hq])

theorem request_stays (hstep : step serde config s a = some (t, es)) (ha : a.winding = true) :
    t.requests r = none ↔ s.requests r = none := by
  cases shift_of_step hstep with
  | control _ hrequests => rw [hrequests]
  | arrive hact =>
    rw [hact] at ha
    cases ha
  | @hop r₀ q₀ _ hr₀ hops =>
    obtain ⟨⟨p, -, hrequests⟩, -, -⟩ := hops
    rw [hrequests, Function.update_apply]
    split
    · rename_i hrr
      rw [hrr, hr₀]
      simp
    · rfl

/-- The control channel of a server whose control tasks are over stays so. -/
private theorem control_over_of_step (hover : s.control.Over)
    (hstep : step serde config s a = some (t, es)) (ha : a.winding = true) : t.control.Over := by
  cases step_transition hstep with
  | control _ hb => exact hover.step (Control.ne_accept_of_winding ha) hb
  | openStream _ _ hb | dropCall _ _ hb => exact hover.step (fun c h ↦ by cases h) hb
  | move _ hcontrol => exact hcontrol ▸ hover
  | _ => exact hover

/-- The requests come to their end, once the control channel has. -/
private theorem can_serve (hr : (machine serde config routes).Reach h s)
    (hover : s.control.Over) :
    (machine serde config routes).Can (fun a ↦ a.winding = true)
      (fun t ↦ ((∃ h', (machine serde config routes).Reach h' t) ∧ t.control.Over) ∧
        t.Served) s := by
  have hkeep : ∀ (s : State) a t es, ((∃ h, (machine serde config routes).Reach h s) ∧
      s.control.Over) → a.winding = true → (machine serde config routes).step s a = some (t, es) →
      (∃ h, (machine serde config routes).Reach h t) ∧ t.control.Over :=
    fun s a t es ⟨⟨h, hr⟩, hover⟩ ha hstep ↦
      ⟨⟨_, hr.step hstep⟩, control_over_of_step hover hstep ha⟩
  refine Machine.Can.forall_of_finite
    (P := fun (r : ReqId) (s : State) ↦ ∀ q, s.requests r = some q → q.phase.Over)
    hkeep ?_ ?_ ⟨⟨h, hr⟩, hover⟩ ?_
  · intro r s a t es _ hi ha hstep q' hq'
    cases hq : s.requests r with
    | none =>
      rw [(request_stays hstep ha).mpr hq] at hq'
      cases hq'
    | some q => exact (over_of_step hstep hq hq' ha).1 (hi q hq)
  · intro r s hs
    refine Machine.Can.of_rank
      (I := fun s ↦ (∃ h, (machine serde config routes).Reach h s) ∧ s.control.Over)
      (fun s ↦ ((s.requests r).map fun q ↦ q.phase.toGo).getD 0) (fun s hs hnot ↦ ?_) hs
    obtain ⟨⟨h, hr⟩, hover⟩ := hs
    simp only [not_forall] at hnot
    obtain ⟨q, hq, hnot⟩ := hnot
    obtain ⟨a, t, es, q', ha, hstep, hq', hlt⟩ := advances hr hover hq hnot
    exact ⟨a, t, es, ha, hstep, hkeep s a t es ⟨⟨h, hr⟩, hover⟩ ha hstep,
      by simpa [hq, hq'] using hlt⟩
  · refine (arrivals h).finite_toSet.subset fun r hnot ↦ ?_
    refine (mem_arrivals_iff (.of_reach hr)).mpr fun hnone ↦ hnot fun q hq ↦ ?_
    rw [hnone] at hq
    cases hq

/-- **The server can come to rest**, from wherever it is, and without dropping a request. -/
theorem can_rest (serde : SerdeJson) (config : ServerConfig) (routes : RouteFiles)
    (h : List Event) (s : State) (hr : (machine serde config routes).Reach h s) :
    (machine serde config routes).Can (fun a ↦ a.winding = true) (fun t ↦ Rest t ∧
      ∀ r q, s.requests r = some q → q.phase ≠ .dropped →
        ∃ q' reply, t.requests r = some q' ∧ q'.phase = .answered reply) s := by
  have hcontrol := Control.can_settle (control_reach hr)
  have hrest : (machine serde config routes).Can (fun a ↦ a.winding = true)
      (fun t ↦ ((∃ h', (machine serde config routes).Reach h' t) ∧ t.control.Over) ∧
        t.Served) s := by
    refine (Machine.Can.lift (I := fun s ↦ ∃ h, (machine serde config routes).Reach h s)
      (f := State.control) (g := Act.control) (fun s b u es hs hb hstep ↦ ?_) hcontrol
      ⟨h, hr⟩).and_then fun t ht ↦ ?_
    · obtain ⟨h, hr⟩ := hs
      have hown : ownStep b = true := by
        cases b with
        | driver c d => cases d <;> first | rfl | cases hb
        | _ => rfl
      have hstep' : step serde config s (.control b) =
          some ({ s with control := u }, es.map .control) := by
        simp only [step, hown, if_true]
        rw [show Control.step serde config s.control b = some (u, es) from hstep]
      exact ⟨_, _, hb, hstep', rfl, _, Machine.Reach.step (a := .control b) hr hstep'⟩
    · obtain ⟨⟨-, hover⟩, h', hr'⟩ := ht
      exact can_serve hr' hover
  refine (hrest.and_preserved (I := fun t ↦ ∀ r q, s.requests r = some q → q.phase ≠ .dropped →
    ∃ q', t.requests r = some q' ∧ q'.phase ≠ .dropped) (fun u a v es hi ha hstep r q hq hne ↦ ?_)
    fun r q hq hne ↦ ⟨q, hq, hne⟩).mono fun t ht ↦ ?_
  · obtain ⟨q', hq', hne'⟩ := hi r q hq hne
    cases hv : v.requests r with
    | none =>
      rw [(request_stays hstep ha).mp hv] at hq'
      cases hq'
    | some q'' => exact ⟨q'', rfl, (over_of_step hstep hq' hv ha).2 hne'⟩
  · obtain ⟨⟨⟨⟨h', hr'⟩, hover⟩, hserved⟩, hi⟩ := ht
    refine ⟨⟨hover, hserved, Control.get_of_over (control_reach hr') hover,
      fun c conn d r hc hd ↦ ?_⟩, fun r q hq hne ↦ ?_⟩
    · obtain ⟨auth, now, -, hdr⟩ := Control.driver_reach (control_reach hr') hc hd
      exact (Driver.Accounts.of_reach hdr).nobody_waits ((hover c conn hc).2 d hd) r
    · obtain ⟨q', hq', hne'⟩ := hi r q hq hne
      rcases hserved r q' hq' with ⟨reply, hreply⟩ | hdropped
      · exact ⟨q', reply, hq', hreply⟩
      · exact absurd hdropped hne'

/-- A session registers, and a request asks it for a stream that it never opens. -/
theorem can_rest_opening : ∃ h s,
    (machine compactSerde Control.sampleConfig fun _ ↦ none).run
      (start Control.sampleConfig fun _ ↦ none) openingRun = some (s, h) ∧
    (machine compactSerde Control.sampleConfig fun _ ↦ none).Can (fun a ↦ a.winding = true)
      (fun t ↦ Rest t ∧ ∀ r q, s.requests r = some q → q.phase ≠ .dropped →
        ∃ q' reply, t.requests r = some q' ∧ q'.phase = .answered reply) s := by
  have hrun : ((machine compactSerde Control.sampleConfig fun _ ↦ none).run
      (start Control.sampleConfig fun _ ↦ none) openingRun).isSome = true := by decide +kernel
  obtain ⟨⟨s, h⟩, hsh⟩ := Option.isSome_iff_exists.mp hrun
  exact ⟨h, s, hsh, can_rest _ _ _ h s (.of_run hsh)⟩

end Proxy

end ZoTunnel
