import ZoTunnel.Server.Assignment
import ZoTunnel.Server.Exclusive

/-!
# Session numbers run out

A session unregisters by its number, and the counter of the numbers has 64 bits. Once it has gone
round, two sessions of one id have the same number, and the older of them takes the slot away from
the younger when it leaves. The younger one is live and no longer in the map, so the next session
of the id is swapped in beside it and aborts nobody.

The run that shows it is explicit. Between its first session and the second one with the same
number, `2 ^ 64 - 1` connections come and are given theirs.
-/

namespace ZoTunnel

namespace Control

/-- The request of all connections in the run. -/
def appAuth : AuthReq := ⟨"app", "t", some "1"⟩

/-- A connection from `accept` to its session number. -/
def numberSegments (c : ConnId) : List Act :=
  answerSegments c appAuth ++ [.spawnDriver c 0, .checkId c, .fetchSession c]

/-- A session whose driver was aborted, up to the end of its task. -/
def leaveSegments (c : ConnId) : List Act :=
  [.driver c .cancelled, .readRoute c, .join c, .unregister c]

section Steps

variable {serde : SerdeJson} {config : ServerConfig} {s : State} {c : ConnId} {conn : Conn}

variable (serde config) in
theorem step_accept (hc : s.conns c = none) : ∃ m, step serde config s (.accept c) =
    some ({ s with metrics := m }.setConn c {}, []) := by
  rw [step, Act.conn, hc]
  exact ⟨_, rfl⟩

variable (serde config) in
theorem step_recv {bs : Bytes} (hc : s.conns c = some conn) (hopen : conn.closed = false) :
    step serde config s (.recv c bs) =
      some (s.setConn c { conn with inbound := conn.inbound ++ bs }, []) := by
  simp [step, Act.conn, hc, hopen]

variable (config) in
theorem step_readFrame {m : Message} (hc : s.conns c = some conn) (ht : conn.task = .reading)
    (hread : (readMessage serde conn.inbound).1 = .ok m) : step serde config s (.readFrame c) =
      some (s.setConn c { conn with task := onFirstFrame config (.ok m) }, []) := by
  simp [step, taskStep, Act.conn, hc, ht, canRead, hread]

theorem step_writeAnswer {res : AuthRes} {task : Task} {frame : Bytes}
    (hc : s.conns c = some conn) (hans : answer config conn.task = some (res, task))
    (hframe : writeMessage serde (.authRes res) = .ok frame) :
    step serde config s (.writeAnswer c) = some (s.setConn c
      { conn with outbound := conn.outbound ++ frame, task }, [.answered c res]) := by
  simp [step, taskStep, Act.conn, hc, hans, hframe]

variable (serde config) in
theorem step_insertVacant {auth : AuthReq} {sessionId : UInt64} (hc : s.conns c = some conn)
    (ht : conn.task = .numbered auth sessionId) (hslot : s.registry.get auth.clientId = none) :
    step serde config s (.insertEntry c) = some (
      { s with registry := (s.registry.insertEntry
          ⟨auth.clientId, sessionId, c, auth.supportsHeartbeat⟩).1 }.setConn c
        { conn with task := .registered auth sessionId },
      [.swapped c auth.clientId sessionId]) := by
  simp [step, taskStep, Act.conn, hc, ht, Registry.insertEntry_snd, hslot]

variable (serde config) in
theorem step_insertOccupied {auth : AuthReq} {sessionId : UInt64} {old : ClientEntry}
    (hc : s.conns c = some conn) (ht : conn.task = .numbered auth sessionId)
    (hslot : s.registry.get auth.clientId = some old) :
    step serde config s (.insertEntry c) = some (
      ({ s with registry := (s.registry.insertEntry
          ⟨auth.clientId, sessionId, c, auth.supportsHeartbeat⟩).1 }.setConn c
        { conn with task := .registered auth sessionId }).abortDriver old.handle,
      [.swapped c auth.clientId sessionId, .aborted old.handle]) := by
  simp [step, taskStep, Act.conn, hc, ht, Registry.insertEntry_snd, hslot]

variable (serde config) in
theorem step_driverAct {b : Driver.Act} {d d' : Driver} {es : List Driver.Event}
    (hc : s.conns c = some conn) (hd : conn.driver = some d) (hb : b ≠ .abort)
    (hstep : d.step b = some (d', es)) : step serde config s (.driver c b) =
      some (s.setConn c { conn with driver := some d' }, es.map (.driver c)) := by
  simp [step, Act.conn, hc, hd, hb, hstep]

variable (serde) in
theorem step_readRoute {auth : AuthReq} {sessionId : UInt64} (hc : s.conns c = some conn)
    (ht : conn.task = .registered auth sessionId) (henabled : config.traefik.enabled = false) :
    step serde config s (.readRoute c) =
      some (s.setConn c { conn with task := .serving auth sessionId }, []) := by
  simp [step, taskStep, Act.conn, hc, ht, henabled]

variable (serde config) in
theorem step_join {auth : AuthReq} {sessionId : UInt64} {d : Driver} (hc : s.conns c = some conn)
    (ht : conn.task = .serving auth sessionId) (hd : conn.driver = some d)
    (hclosed : d.isClosed = true) : step serde config s (.join c) =
      some (s.setConn c { conn with task := .leaving auth sessionId }, []) := by
  simp [step, taskStep, Act.conn, hc, ht, hd, hclosed]

variable (serde config) in
theorem step_unregister {auth : AuthReq} {sessionId : UInt64} (hc : s.conns c = some conn)
    (ht : conn.task = .leaving auth sessionId) : step serde config s (.unregister c) =
      some ({ s with registry := (s.registry.unregister auth.clientId sessionId).1 }.setConn c
        { conn with task := .done .disconnected },
        [.unregistered c auth.clientId sessionId
          (s.registry.unregister auth.clientId sessionId).2]) := by
  simp [step, taskStep, Act.conn, hc, ht]

end Steps

section Segments

variable {h : List Event} {s : State} {a b c : ConnId} {conn : Conn} {sessionId : UInt64}

private abbrev sample : Machine State Act Event := machine compactSerde sampleConfig fun _ ↦ none

theorem run_answerSegments (hc : s.conns c = none) : ∃ t h conn,
    sample.run s (answerSegments c appAuth) = some (t, h) ∧ t.registry = s.registry ∧
      t.conns = Function.update s.conns c (some conn) ∧ conn.task = .accepted appAuth := by
  have hread : readMessage compactSerde (authFrame appAuth) = (.ok (.authReq appAuth), []) := by
    decide +kernel
  have htask : onFirstFrame sampleConfig (.ok (.authReq appAuth)) = .accepting appAuth := by decide
  obtain ⟨frame, hframe⟩ : ∃ frame,
      writeMessage compactSerde (.authRes (successRes sampleConfig appAuth)) = .ok frame := by
    cases hw : writeMessage compactSerde (.authRes (successRes sampleConfig appAuth)) with
    | ok frame => exact ⟨frame, rfl⟩
    | error =>
      have hok : (writeMessage compactSerde
          (.authRes (successRes sampleConfig appAuth))).toOption.isSome = true := by decide +kernel
      rw [hw] at hok
      cases hok
  obtain ⟨m, haccept⟩ := step_accept compactSerde sampleConfig hc
  refine ⟨_, _, { inbound := authFrame appAuth, outbound := frame, task := .accepted appAuth },
    Machine.run_cons_eq_some.mpr ⟨_, _, _, haccept,
    Machine.run_cons_eq_some.mpr ⟨_, _, _,
      step_recv compactSerde sampleConfig (setConn_self ..) rfl,
    Machine.run_cons_eq_some.mpr ⟨_, _, _,
      step_readFrame sampleConfig (setConn_self ..) rfl (congrArg _ hread),
    Machine.run_singleton (step_writeAnswer (setConn_self ..) (congrArg _ htask) hframe), rfl⟩,
    rfl⟩, rfl⟩, rfl, ?_, rfl⟩
  simp [State.setConn]

theorem run_numberSegments (hc : s.conns c = none) : ∃ t h conn,
    sample.run s (numberSegments c) = some (t, h) ∧ t.registry = s.registry.fetchSession.2 ∧
      t.conns = Function.update s.conns c (some conn) ∧
      conn.task = .numbered appAuth s.registry.nextSession ∧
      conn.driver = some (Driver.spawn true 0) := by
  obtain ⟨t, h, conn, hrun, hreg, hconns, ht⟩ := run_answerSegments hc
  have hc' : t.conns c = some conn := by rw [hconns, Function.update_self]
  have hrest : sample.run t [.spawnDriver c 0, .checkId c, .fetchSession c] = some (_, _) :=
    Machine.run_cons_eq_some.mpr ⟨_, _, _, step_spawnDriver 0 hc' ht,
      Machine.run_cons_eq_some.mpr ⟨_, _, _, step_checkId (setConn_self ..) rfl (by decide),
      Machine.run_singleton (step_fetchSession (setConn_self ..) rfl), rfl⟩, rfl⟩
  refine ⟨_, _, { conn with
      driver := some (Driver.spawn true 0), task := .numbered appAuth s.registry.nextSession },
    Machine.run_append_eq_some.mpr ⟨t, h, _, hrun, hrest, rfl⟩, ?_, ?_, rfl, rfl⟩
  · exact congrArg (fun r ↦ r.fetchSession.2) hreg
  · simp [State.setConn, hconns, hreg, appAuth, AuthReq.supportsHeartbeat]

theorem run_numberSegments_range (n : ℕ) : ∀ (a : ℕ) (s : State),
    (∀ i < n, s.conns (a + i) = none) → ∃ t h,
      sample.run s ((List.range' a n).flatMap numberSegments) = some (t, h) ∧
      (∀ k, t.registry.get k = s.registry.get k) ∧
      t.registry.nextSession = s.registry.nextSession + UInt64.ofNat n ∧
      ∀ c : ℕ, c < a ∨ a + n ≤ c → t.conns c = s.conns c := by
  induction n with
  | zero =>
    intro a s _
    exact ⟨s, [], rfl, fun _ ↦ rfl, by simp, fun _ _ ↦ rfl⟩
  | succ n ih =>
    intro a s hfresh
    obtain ⟨t, h, conn, hrun, hreg, hconns, -⟩ := run_numberSegments (hfresh 0 n.succ_pos)
    obtain ⟨u, h', hrun', hget, hnext, hother⟩ := ih (a + 1) t fun i hi ↦ by
      have hne : (a + 1 + i : ℕ) ≠ a + 0 := by omega
      rw [hconns, Function.update_of_ne hne]
      have := hfresh (i + 1) (by omega)
      rwa [show a + 1 + i = a + (i + 1) by omega]
    refine ⟨u, h ++ h', ?_, fun k ↦ ?_, ?_, fun c hc ↦ ?_⟩
    · rw [List.range'_succ, List.flatMap_cons]
      exact Machine.run_append_eq_some.mpr ⟨t, h, h', hrun, hrun', rfl⟩
    · rw [hget, hreg, Registry.get_fetchSession]
    · rw [hnext, hreg, Registry.fetchSession]
      rw [UInt64.ofNat_add, UInt64.add_comm (UInt64.ofNat n), ← UInt64.add_assoc]
      rfl
    · have hne : c ≠ a + 0 := by omega
      rw [hother c (by omega), hconns, Function.update_of_ne hne]

theorem run_register_vacant (hc : s.conns c = none) (hslot : s.registry.get "app" = none) :
    ∃ t h conn, sample.run s (numberSegments c ++ [.insertEntry c]) = some (t, h) ∧
      t.registry.get "app" = some ⟨"app", s.registry.nextSession, c, true⟩ ∧
      t.registry.nextSession = s.registry.nextSession + 1 ∧
      t.conns = Function.update s.conns c (some conn) ∧
      conn.task = .registered appAuth s.registry.nextSession ∧
      conn.driver = some (Driver.spawn true 0) ∧
      .swapped c "app" s.registry.nextSession ∈ h := by
  obtain ⟨t, h, conn, hrun, hreg, hconns, ht, hd⟩ := run_numberSegments hc
  have hc' : t.conns c = some conn := by rw [hconns, Function.update_self]
  have hslot' : t.registry.get appAuth.clientId = none := by
    rw [hreg, Registry.get_fetchSession]
    exact hslot
  have hstep := step_insertVacant compactSerde sampleConfig hc' ht hslot'
  refine ⟨_, _, { conn with task := .registered appAuth s.registry.nextSession },
    Machine.run_append_eq_some.mpr ⟨t, h, _, hrun, Machine.run_singleton hstep, rfl⟩,
    ?_, ?_, ?_, rfl, hd, ?_⟩
  · exact (Registry.get_insertEntry ..).trans (if_pos rfl)
  · exact (Registry.nextSession_insertEntry ..).trans (congrArg Registry.nextSession hreg)
  · simp [State.setConn, hconns]
  · exact List.mem_append_right _ List.mem_cons_self

theorem run_register_occupied {old : ClientEntry} (hc : s.conns c = none)
    (hslot : s.registry.get "app" = some old) (hne : old.handle ≠ c) :
    ∃ t h conn, sample.run s (numberSegments c ++ [.insertEntry c]) = some (t, h) ∧
      t.registry.get "app" = some ⟨"app", s.registry.nextSession, c, true⟩ ∧
      t.registry.nextSession = s.registry.nextSession + 1 ∧
      t.conns c = some conn ∧ conn.driver = some (Driver.spawn true 0) ∧
      (∀ c', c' ≠ c → c' ≠ old.handle → t.conns c' = s.conns c') ∧
      t.conns old.handle = (s.conns old.handle).map Conn.abortDriver ∧
      .swapped c "app" s.registry.nextSession ∈ h := by
  obtain ⟨t, h, conn, hrun, hreg, hconns, ht, hd⟩ := run_numberSegments hc
  have hc' : t.conns c = some conn := by rw [hconns, Function.update_self]
  have hslot' : t.registry.get appAuth.clientId = some old := by
    rw [hreg, Registry.get_fetchSession]
    exact hslot
  have hstep := step_insertOccupied compactSerde sampleConfig hc' ht hslot'
  refine ⟨_, _, { conn with task := .registered appAuth s.registry.nextSession },
    Machine.run_append_eq_some.mpr ⟨t, h, _, hrun, Machine.run_singleton hstep, rfl⟩,
    ?_, ?_, ?_, hd, fun c' hc₁ hc₂ ↦ ?_, ?_, ?_⟩
  · exact (Registry.get_insertEntry ..).trans (if_pos rfl)
  · exact (Registry.nextSession_insertEntry ..).trans (congrArg Registry.nextSession hreg)
  · rw [abortDriver_conns, if_neg hne.symm, setConn_self]
  · rw [abortDriver_conns, if_neg hc₂, setConn_of_ne hc₁]
    exact (congrFun hconns c').trans (Function.update_of_ne hc₁ _ _)
  · rw [abortDriver_conns, if_pos rfl, setConn_of_ne hne]
    exact congrArg _ ((congrFun hconns _).trans (Function.update_of_ne hne _ _))
  · exact List.mem_append_right _ List.mem_cons_self

/-- A session whose driver was aborted leaves, and takes with it whoever has its number. -/
theorem run_leaveSegments {d : Driver} {e : ClientEntry} (hc : s.conns c = some conn)
    (ht : conn.task = .registered appAuth sessionId) (hd : conn.driver = some d)
    (hended : d.ended = none) (habort : d.abortRequested = true)
    (hslot : s.registry.get "app" = some e) (hnum : e.sessionId = sessionId) :
    ∃ t h, sample.run s (leaveSegments c) = some (t, h) ∧ t.registry.get "app" = none ∧
      t.registry.nextSession = s.registry.nextSession ∧
      ∀ c', c' ≠ c → t.conns c' = s.conns c' := by
  have hcancel : d.step .cancelled = some (d.finish .aborted) := by
    simp [Driver.step, Driver.isClosed, Driver.loopStep, hended, habort]
  have hdriver := step_driverAct compactSerde sampleConfig hc hd (by decide) hcancel
  refine ⟨_, _, Machine.run_cons_eq_some.mpr ⟨_, _, _, hdriver,
    Machine.run_cons_eq_some.mpr ⟨_, _, _, step_readRoute compactSerde (setConn_self ..) ht rfl,
    Machine.run_cons_eq_some.mpr ⟨_, _, _,
      step_join compactSerde sampleConfig (setConn_self ..) rfl rfl rfl,
    Machine.run_singleton (step_unregister compactSerde sampleConfig (setConn_self ..) rfl), rfl⟩,
    rfl⟩, rfl⟩, ?_, ?_, fun c' hne ↦ ?_⟩
  · refine (Registry.get_unregister ..).trans (if_pos ⟨rfl, ?_⟩)
    exact (Registry.unregister_snd ..).mpr ⟨e, hslot, hnum⟩
  · exact Registry.nextSession_unregister ..
  · rw [setConn_of_ne hne]
    exact (setConn_of_ne hne _ _).trans ((setConn_of_ne hne _ _).trans (setConn_of_ne hne _ _))

/-- A number is given out a second time, while the session that has it is registered. -/
theorem run_shared_number (hc : s.conns c = some conn)
    (ht : conn.task = .registered appAuth sessionId)
    (hd : conn.driver = some (Driver.spawn true 0))
    (hslot : s.registry.get "app" = some ⟨"app", sessionId, c, true⟩)
    (hnext : s.registry.nextSession = sessionId) (ha : s.conns a = none) (hb : s.conns b = none)
    (hab : b ≠ a) : ∃ t h,
    sample.run s ((numberSegments a ++ [.insertEntry a]) ++ (leaveSegments c ++
      (numberSegments b ++ [.insertEntry b]))) = some (t, h) ∧
    .swapped a "app" sessionId ∈ h ∧ .swapped b "app" (sessionId + 1) ∈ h ∧
    Live t a ∧ Live t b := by
  have hne : ∀ {o : ConnId}, s.conns o = none → c ≠ o := by
    rintro o ho rfl
    rw [hc] at ho
    cases ho
  obtain ⟨t₁, h₁, conn₁, hrun₁, hslot₁, hnext₁, hc₁, hd₁, hother₁, hold₁, hswap₁⟩ :=
    run_register_occupied ha hslot (hne ha)
  rw [hnext] at hslot₁ hnext₁ hswap₁
  replace hold₁ : t₁.conns c = some conn.abortDriver := hold₁.trans (by rw [hc, Option.map_some])
  have hd' :
      conn.abortDriver.driver = some { Driver.spawn true 0 with abortRequested := true } := by
    rw [Conn.abortDriver, hd, Option.map_some]
  obtain ⟨t₂, h₂, hrun₂, hslot₂, hnext₂, hother₂⟩ :=
    run_leaveSegments hold₁ ht hd' rfl rfl hslot₁ rfl
  have hb₂ : t₂.conns b = none := by
    rw [hother₂ b (hne hb).symm, hother₁ b hab (hne hb).symm, hb]
  obtain ⟨t₃, h₃, conn₃, hrun₃, -, -, hconns₃, -, hd₃, hswap₃⟩ := run_register_vacant hb₂ hslot₂
  rw [hnext₂, hnext₁] at hswap₃
  refine ⟨t₃, h₁ ++ (h₂ ++ h₃), Machine.run_append_eq_some.mpr ⟨t₁, h₁, _, hrun₁,
    Machine.run_append_eq_some.mpr ⟨t₂, h₂, h₃, hrun₂, hrun₃, rfl⟩, rfl⟩,
    List.mem_append_left _ hswap₁, List.mem_append_right _ (List.mem_append_right _ hswap₃),
    ⟨conn₁, _, ?_, hd₁, rfl, rfl⟩, ⟨conn₃, _, ?_, hd₃, rfl, rfl⟩⟩
  · rw [hconns₃, Function.update_of_ne hab.symm, hother₂ a (hne ha).symm, hc₁]
  · rw [hconns₃, Function.update_self]

end Segments

/-- One session registers; connections come until its number is given out again, to a session that
takes over; the first session leaves; a third one registers. -/
def wraparoundRun : List Act :=
  (numberSegments 0 ++ [.insertEntry 0]) ++
    ((List.range' 1 (2 ^ 64 - 1)).flatMap numberSegments ++
      ((numberSegments (2 ^ 64) ++ [.insertEntry (2 ^ 64)]) ++ (leaveSegments 0 ++
        (numberSegments (2 ^ 64 + 1) ++ [.insertEntry (2 ^ 64 + 1)]))))

/-- **With numbers that go round, two sessions of one id are live.** -/
theorem abort_unsound_wraparound : ∃ h s,
    (machine compactSerde sampleConfig fun _ ↦ none).run (start fun _ ↦ none) wraparoundRun =
      some (s, h) ∧
    .swapped (2 ^ 64) "app" 1 ∈ h ∧ .swapped (2 ^ 64 + 1) "app" 2 ∈ h ∧
    Live s (2 ^ 64) ∧ Live s (2 ^ 64 + 1) := by
  obtain ⟨s₁, h₁, conn, hrun₁, hslot₁, hnext₁, hconns₁, ht, hd, -⟩ :=
    run_register_vacant (c := 0) (s := start fun _ ↦ none) rfl rfl
  have hfree : ∀ i : ℕ, s₁.conns (1 + i) = none := by
    intro i
    have hne : (1 + i : ℕ) ≠ 0 := by omega
    rw [hconns₁, Function.update_of_ne hne]
    rfl
  obtain ⟨s₂, h₂, hrun₂, hslot₂, hnext₂, hother₂⟩ :=
    run_numberSegments_range (2 ^ 64 - 1) 1 s₁ fun i _ ↦ hfree i
  have hlast : ∀ i : ℕ, 2 ^ 64 ≤ i → s₂.conns i = none := by
    intro i hi
    rw [hother₂ i (by omega)]
    obtain ⟨j, rfl⟩ := Nat.exists_eq_add_of_le (show 1 ≤ i by omega)
    exact hfree j
  have hzero : s₂.conns 0 = some conn := by
    rw [hother₂ 0 (by omega), hconns₁, Function.update_self]
  have hnext : s₂.registry.nextSession = 1 := by
    rw [hnext₂, hnext₁]
    decide
  obtain ⟨s, h₃, hrun₃, hswap, hswap', hlive, hlive'⟩ := run_shared_number hzero ht hd
    ((hslot₂ _).trans hslot₁) hnext (hlast (2 ^ 64) le_rfl) (hlast (2 ^ 64 + 1) (by omega))
    (Nat.succ_ne_self _)
  exact ⟨h₁ ++ (h₂ ++ h₃), s, Machine.run_append_eq_some.mpr ⟨s₁, h₁, _, hrun₁,
    Machine.run_append_eq_some.mpr ⟨s₂, h₂, h₃, hrun₂, hrun₃, rfl⟩, rfl⟩,
    List.mem_append_right _ (List.mem_append_right _ hswap),
    List.mem_append_right _ (List.mem_append_right _ hswap'), hlive, hlive'⟩

end Control

end ZoTunnel
