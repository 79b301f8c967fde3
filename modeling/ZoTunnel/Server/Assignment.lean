import ZoTunnel.Server.Admission

/-!
# The assigned route

A successful answer assigns a route, and the client announces it. The answer is written before
`register` is called, and `register` has a reason of its own to refuse: the id may be reserved. The
token check does not know about reserved ids, so the answer is a promise that is kept exactly for
the others.

A task that keeps its promise has at most four segments left before its session has the slot, and
no other task can disable any of them.
-/

namespace ZoTunnel

namespace Control

variable {serde : SerdeJson} {config : ServerConfig} {routes : RouteFiles} {h h' : List Event}
  {s t : State} {a : Act} {es : List Event} {c : ConnId} {conn : Conn} {auth : AuthReq}
  {sessionId : UInt64}

/-! ## The segments from the answer to the slot -/

theorem step_spawnDriver (now : ℕ) (hc : s.conns c = some conn) (ht : conn.task = .accepted auth) :
    step serde config s (.spawnDriver c now) = some (s.setConn c { conn with
      driver := some (Driver.spawn auth.supportsHeartbeat now)
      task := .registering auth }, []) := by
  simp [step, taskStep, Act.conn, hc, ht]

theorem step_checkId (hc : s.conns c = some conn) (ht : conn.task = .registering auth)
    (hres : auth.clientId ∉ reservedSubdomains) : step serde config s (.checkId c) =
      some (s.setConn c { conn with task := .checked auth }, []) := by
  simp [step, taskStep, Act.conn, hc, ht, (Registry.checkId_eq_ok _).mpr hres]

theorem step_fetchSession (hc : s.conns c = some conn) (ht : conn.task = .checked auth) :
    step serde config s (.fetchSession c) =
      some ({ s with registry := s.registry.fetchSession.2 }.setConn c
        { conn with task := .numbered auth s.registry.nextSession },
        [.numbered c s.registry.nextSession]) := by
  simp [step, taskStep, Act.conn, hc, ht, Registry.fetchSession]

variable (serde config) in
theorem step_insertEntry (hc : s.conns c = some conn) (ht : conn.task = .numbered auth sessionId) :
    ∃ t es, step serde config s (.insertEntry c) = some (t, es) ∧
      .swapped c auth.clientId sessionId ∈ es := by
  simp only [step, taskStep, Act.conn, hc, ht]
  split
  · exact ⟨_, _, rfl, List.mem_singleton_self _⟩
  · exact ⟨_, _, rfl, List.mem_cons_self⟩

/-! ## The promise -/

/-- The session of a connection has been swapped in under an id. -/
def Registered (h : List Event) (c : ConnId) (k : String) : Prop :=
  ∃ sessionId, .swapped c k sessionId ∈ h

/-- Where a task can be that has written its successful answer. -/
inductive OnTheWay (h : List Event) (c : ConnId) (auth : AuthReq) : Task → Prop
  | accepted : OnTheWay h c auth (.accepted auth)
  | registering : OnTheWay h c auth (.registering auth)
  | checked (hres : auth.clientId ∉ reservedSubdomains) : OnTheWay h c auth (.checked auth)
  | numbered {sessionId : UInt64} (hres : auth.clientId ∉ reservedSubdomains) :
      OnTheWay h c auth (.numbered auth sessionId)
  | refused (hres : auth.clientId ∈ reservedSubdomains) : OnTheWay h c auth (.refused auth)
  | failed (hres : auth.clientId ∈ reservedSubdomains) :
      OnTheWay h c auth (.done .registrationFailed)
  | registered {t : Task} (hr : Registered h c auth.clientId) : OnTheWay h c auth t

theorem Registered.append {k : String} (hr : Registered h c k) : Registered (h ++ h') c k := by
  obtain ⟨sessionId, hmem⟩ := hr
  exact ⟨sessionId, List.mem_append_left _ hmem⟩

namespace OnTheWay

variable {task task' : Task}

theorem append (ho : OnTheWay h c auth task) : OnTheWay (h ++ h') c auth task := by
  cases ho with
  | accepted => exact .accepted
  | registering => exact .registering
  | checked hres => exact .checked hres
  | numbered hres => exact .numbered hres
  | refused hres => exact .refused hres
  | failed hres => exact .failed hres
  | registered hr => exact .registered hr.append

theorem move (ho : OnTheWay h c auth task) (hm : TaskMove config s c task task' es) :
    OnTheWay (h ++ es) c auth task' := by
  cases ho with
  | accepted =>
    cases hm with
    | spawnDriver => exact .registering
    | answered hans | writeEnds hans => cases hans
  | registering =>
    cases hm with
    | refuse hres => exact .refused hres
    | check hres => exact .checked hres
    | answered hans | writeEnds hans => cases hans
  | checked hres =>
    cases hm with
    | fetchSession => exact .numbered hres
    | answered hans | writeEnds hans => cases hans
  | numbered hres =>
    cases hm with
    | insertVacant | insertOccupied =>
      exact .registered ⟨_, List.mem_append_right _ List.mem_cons_self⟩
    | answered hans | writeEnds hans => cases hans
  | refused hres =>
    cases hm with
    | abortOwn => exact .failed hres
    | answered hans | writeEnds hans => cases hans
  | failed hres =>
    cases hm with
    | answered hans | writeEnds hans => cases hans
  | registered hr => exact .registered hr.append

end OnTheWay

/-- Every successful answer was written for a request whose task is on the way to the slot, or has
been refused it, as the id decides. No reserved id is ever registered. -/
structure Promises (config : ServerConfig) (h : List Event) (s : State) : Prop where
  promised : ∀ c res, .answered c res ∈ h → res.success = true →
    ∃ auth conn, res = successRes config auth ∧ s.conns c = some conn ∧
      OnTheWay h c auth conn.task
  unreserved : ∀ c k, Registered h c k → k ∉ reservedSubdomains

namespace Promises

theorem step (hi : Promises config h s) (hg : Gate serde config h s)
    (hstep : step serde config s a = some (t, es)) : Promises config (h ++ es) t where
  promised c res hres hsucc := by
    rcases List.mem_append.mp hres with hres | hres
    · obtain ⟨auth, conn, heq, hc, ho⟩ := hi.promised c res hres hsucc
      obtain ⟨conn', hc', ht | ⟨-, hm⟩⟩ := task_of_step hstep hc
      · exact ⟨auth, conn', heq, hc', ht ▸ ho.append⟩
      · exact ⟨auth, conn', heq, hc', ho.move hm⟩
    · obtain ⟨conn, conn', hc, hc', hans⟩ := answered_of_step hstep hres
      rcases answer_eq_some hans with ⟨auth, -, rfl, ht'⟩ | ⟨auth, -, rfl, -⟩
      · exact ⟨auth, conn', rfl, hc', ht' ▸ .accepted⟩
      · cases hsucc
  unreserved c k hr := by
    obtain ⟨sessionId, hmem⟩ := hr
    rcases List.mem_append.mp hmem with hmem | hmem
    · exact hi.unreserved c k ⟨sessionId, hmem⟩
    · obtain ⟨conn, -, auth, hc, -, ht, -, rfl⟩ := swapped_of_step hstep hmem
      exact (hg.conn c conn hc).unreserved auth (by rw [ht]; rfl)

theorem of_reach (hr : (machine serde config routes).Reach h s) : Promises config h s :=
  hr.invariant ⟨fun _ _ hmem ↦ (List.not_mem_nil hmem).elim,
    fun _ _ ⟨_, hmem⟩ ↦ (List.not_mem_nil hmem).elim⟩
    fun _ _ _ _ _ hr hi hstep ↦ hi.step (.of_reach hr) hstep

end Promises

/-! ## Keeping it -/

variable (serde config routes) in
private theorem completes_numbered (hc : s.conns c = some conn)
    (ht : conn.task = .numbered auth sessionId) : ∃ t h', (machine serde config routes).run s
      [.insertEntry c] = some (t, h') ∧ Registered h' c auth.clientId := by
  obtain ⟨t, es, hstep, hmem⟩ := step_insertEntry serde config hc ht
  exact ⟨t, es, Machine.run_singleton hstep, sessionId, hmem⟩

variable (serde config routes) in
private theorem completes_checked (hc : s.conns c = some conn) (ht : conn.task = .checked auth) :
    ∃ t h', (machine serde config routes).run s [.fetchSession c, .insertEntry c] = some (t, h') ∧
      Registered h' c auth.clientId := by
  obtain ⟨t, h', hrun, sessionId, hmem⟩ :=
    completes_numbered serde config routes
      (s := { s with registry := s.registry.fetchSession.2 }.setConn c
        { conn with task := .numbered auth s.registry.nextSession }) (setConn_self ..) rfl
  exact ⟨t, _, Machine.run_cons_eq_some.mpr ⟨_, _, h', step_fetchSession hc ht, hrun, rfl⟩,
    sessionId, List.mem_append_right _ hmem⟩

variable (serde config routes) in
private theorem completes_registering (hc : s.conns c = some conn)
    (ht : conn.task = .registering auth) (hres : auth.clientId ∉ reservedSubdomains) :
    ∃ t h', (machine serde config routes).run s [.checkId c, .fetchSession c, .insertEntry c] =
      some (t, h') ∧ Registered h' c auth.clientId := by
  obtain ⟨t, h', hrun, hreg⟩ :=
    completes_checked serde config routes
      (s := s.setConn c { conn with task := .checked auth }) (setConn_self ..) rfl
  exact ⟨t, h', Machine.run_cons_eq_some.mpr ⟨_, [], h', step_checkId hc ht hres, hrun, rfl⟩, hreg⟩

variable (serde config routes) in
/-- A task on the way to the slot gets there by its remaining segments. -/
theorem OnTheWay.completes (ho : OnTheWay h c auth conn.task) (hc : s.conns c = some conn)
    (hres : auth.clientId ∉ reservedSubdomains) (now : ℕ) : Registered h c auth.clientId ∨
      ∃ as t h', as <:+ registerSegments c now ∧
        (machine serde config routes).run s as = some (t, h') ∧ Registered h' c auth.clientId := by
  generalize ht : conn.task = task at ho
  cases ho with
  | accepted =>
    obtain ⟨t, h', hrun, hreg⟩ :=
      completes_registering serde config routes
        (s := s.setConn c { conn with
          driver := some (Driver.spawn auth.supportsHeartbeat now), task := .registering auth })
        (setConn_self ..) rfl hres
    exact .inr ⟨_, t, h', List.suffix_refl _,
      Machine.run_cons_eq_some.mpr ⟨_, [], h', step_spawnDriver now hc ht, hrun, rfl⟩, hreg⟩
  | registering =>
    obtain ⟨t, h', hrun, hreg⟩ := completes_registering serde config routes hc ht hres
    exact .inr ⟨_, t, h', ⟨[.spawnDriver c now], rfl⟩, hrun, hreg⟩
  | checked =>
    obtain ⟨t, h', hrun, hreg⟩ := completes_checked serde config routes hc ht
    exact .inr ⟨_, t, h', ⟨[.spawnDriver c now, .checkId c], rfl⟩, hrun, hreg⟩
  | numbered =>
    obtain ⟨t, h', hrun, hreg⟩ := completes_numbered serde config routes hc ht
    exact .inr ⟨_, t, h', ⟨[.spawnDriver c now, .checkId c, .fetchSession c], rfl⟩, hrun, hreg⟩
  | refused hres' | failed hres' => exact absurd hres' hres
  | registered hr => exact .inl hr

/-- The task of a connection goes on to register its session under an id: whatever happens around
it, the session has been swapped in, or the task's own remaining segments lead there. -/
def GoesOnToRegister (serde : SerdeJson) (config : ServerConfig) (routes : RouteFiles)
    (h : List Event) (s : State) (c : ConnId) (k : String) : Prop :=
  ∀ h' t, (machine serde config routes).Steps s h' t → Registered (h ++ h') c k ∨
    ∃ now as u h'', as <:+ registerSegments c now ∧
      (machine serde config routes).run t as = some (u, h'') ∧ Registered h'' c k

theorem unreserved_of_goesOn {k : String} (hr : (machine serde config routes).Reach h s)
    (hgo : GoesOnToRegister serde config routes h s c k) : k ∉ reservedSubdomains := by
  rcases hgo [] s (.refl s) with hreg | ⟨_, as, u, h'', -, hrun, hreg⟩
  · exact (Promises.of_reach hr).unreserved c k (by simpa using hreg)
  · have hr' := hr.trans (.of_run hrun)
    obtain ⟨sessionId, hmem⟩ := hreg
    exact (Promises.of_reach hr').unreserved c k ⟨sessionId, List.mem_append_right _ hmem⟩

/-- **The promise, exactly.** After a successful answer with an assigned route, the task goes on to
register under that route if and only if the route is not a reserved subdomain. -/
theorem assigned_route_registered_iff (serde : SerdeJson) (config : ServerConfig)
    (routes : RouteFiles) (h : List Event) (s : State) (c : ConnId) (res : AuthRes) (r : String)
    (hr : (machine serde config routes).Reach h s) (hans : .answered c res ∈ h)
    (hsucc : res.success = true) (hroute : res.assignedRoute = some r) :
    GoesOnToRegister serde config routes h s c r ↔ r ∉ reservedSubdomains := by
  refine ⟨unreserved_of_goesOn hr, fun hres h' t hst ↦ ?_⟩
  obtain ⟨auth, conn, rfl, hc, ho⟩ := (Promises.of_reach (hr.trans hst)).promised c res
    (List.mem_append_left _ hans) hsucc
  rw [successRes, Option.some.injEq] at hroute
  subst hroute
  rcases ho.completes serde config routes hc hres 0 with
    hreg | ⟨as, u, h'', has, hrun, hreg⟩
  · exact .inl hreg
  · exact .inr ⟨0, as, u, h'', has, hrun, hreg⟩

/-- An id that is not reserved. -/
theorem assigned_route_registered_iff_app : ∃ h s,
    (machine compactSerde sampleConfig fun _ ↦ none).run (start fun _ ↦ none)
      (answerSegments 0 ⟨"app", "t", none⟩) = some (s, h) ∧
    GoesOnToRegister compactSerde sampleConfig (fun _ ↦ none) h s 0 "app" := by
  have hrun : ((machine compactSerde sampleConfig fun _ ↦ none).run (start fun _ ↦ none)
      (answerSegments 0 ⟨"app", "t", none⟩)).map (fun p ↦ p.2) =
      some [.answered 0 (successRes sampleConfig ⟨"app", "t", none⟩)] := by decide +kernel
  obtain ⟨⟨s, h⟩, hsh, heq⟩ := Option.map_eq_some_iff.mp hrun
  replace heq : h = _ := heq
  have hmem : .answered 0 (successRes sampleConfig ⟨"app", "t", none⟩) ∈ h := by
    rw [heq]
    exact List.mem_cons_self
  exact ⟨h, s, hsh, (assigned_route_registered_iff _ _ _ h s 0 _ "app" (.of_run hsh) hmem rfl
    rfl).mpr (by decide)⟩

/-- **The promise is broken** for a reserved id: the client is told that it owns the route of the
dashboard, and is then refused. -/
theorem promise_broken : ∃ h s,
    (machine compactSerde sampleConfig fun _ ↦ none).run (start fun _ ↦ none)
      (answerSegments 0 ⟨"dashboard", "t", some "1"⟩ ++
        [.spawnDriver 0 0, .checkId 0, .abortOwn 0]) = some (s, h) ∧
    (∃ res, .answered 0 res ∈ h ∧ res.success = true ∧ res.assignedRoute = some "dashboard") ∧
    .refused 0 "dashboard" ∈ h ∧
    ¬GoesOnToRegister compactSerde sampleConfig (fun _ ↦ none) h s 0 "dashboard" := by
  have hrun : ((machine compactSerde sampleConfig fun _ ↦ none).run (start fun _ ↦ none)
      (answerSegments 0 ⟨"dashboard", "t", some "1"⟩ ++
        [.spawnDriver 0 0, .checkId 0, .abortOwn 0])).map (fun p ↦ p.2) =
      some [.answered 0 (successRes sampleConfig ⟨"dashboard", "t", some "1"⟩),
        .refused 0 "dashboard", .aborted 0] := by decide +kernel
  obtain ⟨⟨s, h⟩, hsh, heq⟩ := Option.map_eq_some_iff.mp hrun
  replace heq : h = _ := heq
  refine ⟨h, s, hsh, ⟨_, by rw [heq]; exact List.mem_cons_self, rfl, rfl⟩, ?_, fun hgo ↦ ?_⟩
  · rw [heq]
    exact List.mem_cons_of_mem _ List.mem_cons_self
  · exact unreserved_of_goesOn (.of_run hsh) hgo (by decide)

end Control

end ZoTunnel
