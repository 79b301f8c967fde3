import ZoTunnel.Server.RouteText
import ZoTunnel.Server.Takeover

/-!
# The files of live routes

Every registration is followed by `add_client`, which leaves a file for the client behind. The file
is named by the sanitised id, so two ids can share one, and the one who writes last has it. As long
as that does not happen, every registered client has its route whenever no `add_client` is under
way.
-/

namespace ZoTunnel

/-- A file of the dynamic directory defines a router for this host. -/
def HasRoute (files : RouteFiles) (host : String) : Prop :=
  ∃ file content text, files file = some content ∧ Framing.ofUtf8 content = some text ∧
    DefinesHost text host

namespace Control

namespace Task

/-- `register` has returned, and `add_client` has not. -/
def adding : Task → Bool
  | registered .. | routing .. => true
  | _ => false

/-- The request of a task whose `add_client` has returned and whose driver is not known to be over,
or that is about to unregister. -/
def added : Task → Option AuthReq
  | serving auth _ | leaving auth _ => some auth
  | _ => none

end Task

/-- All writes succeed. -/
def allWritten (_ : State) : Act → Bool
  | .writeRoute _ w => w = .written
  | _ => true

/-- Every session registers under an id that can stand in a rule, at a time when all sessions of
other ids with the same file are gone. -/
def SeparateNames (h : List Event) : Prop :=
  ∀ h₁ c k sessionId h₂, h = h₁ ++ .swapped c k sessionId :: h₂ →
    IsRouteName k ∧ ∀ c' k' sessionId', .swapped c' k' sessionId' ∈ h₁ →
      sanitizeId k' = sanitizeId k → k' = k ∨ Unregistered h₁ c' k'

/-- The file of a client holds its route. -/
def Filed (config : ServerConfig) (files : RouteFiles) (k : String) : Prop :=
  ∃ content, files (clientFile (sanitizeId k)) = some content ∧
    Framing.ofUtf8 content = some ((manager config).clientRoute k)

variable {serde : SerdeJson} {config : ServerConfig} {routes : RouteFiles} {h h' : List Event}
  {s t : State} {a : Act} {es : List Event} {c : ConnId} {conn conn' : Conn} {auth : AuthReq}
  {sessionId : UInt64} {k : String}

theorem SeparateNames.of_append (hn : SeparateNames (h ++ h')) : SeparateNames h := by
  rintro h₁ c k sessionId h₂ rfl
  exact hn h₁ c k sessionId (h₂ ++ h') (by rw [List.append_assoc, List.cons_append])

theorem Task.held_of_added {task : Task} (ht : task.added = some auth) :
    ∃ sessionId, task.held = some (auth, sessionId) := by
  cases task with
  | serving auth' sessionId | leaving auth' sessionId =>
    rw [← Option.some.inj ht]
    exact ⟨sessionId, rfl⟩
  | _ => cases ht

/-! ## What a step does to the files -/

theorem routes_of_step (hstep : step serde config s a = some (t, es)) :
    t.routes = s.routes ∨ ∃ c w conn auth sessionId, a = .writeRoute c w ∧
      s.conns c = some conn ∧ conn.task = .routing auth sessionId ∧
      t.routes = (manager config).writeRoute s.routes auth.clientId w := by
  cases step_transition hstep with
  | writeRoute hc ht => exact .inr ⟨_, _, _, _, _, rfl, hc, ht, rfl⟩
  | _ => exact .inl rfl

theorem Task.exists_of_adding {task : Task} (ht : task.adding = true) :
    ∃ auth sessionId, task = .registered auth sessionId ∨ task = .routing auth sessionId := by
  cases task with
  | registered auth sessionId => exact ⟨auth, sessionId, .inl rfl⟩
  | routing auth sessionId => exact ⟨auth, sessionId, .inr rfl⟩
  | _ => cases ht

/-- In `add_client` a task moves on by reading its file or by writing it. -/
private theorem act_of_adding (hstep : step serde config s a = some (t, es))
    (hc : s.conns a.conn = some conn) (hc' : t.conns a.conn = some conn')
    (ht : conn.task.adding = true) (hne : conn'.task ≠ conn.task) :
    (∃ c, a = .readRoute c) ∨ ∃ c w, a = .writeRoute c w := by
  -- The other steps leave the task where it is, or need another one.
  have hsame : ∀ {conn₀ conn₁ : Conn}, s.conns a.conn = some conn₀ → t.conns a.conn = some conn₁ →
      conn₁.task = conn₀.task → conn'.task = conn.task := by
    intro conn₀ conn₁ hc₀ hc₁ htask
    rw [hc, Option.some.injEq] at hc₀
    rw [hc', Option.some.injEq] at hc₁
    rw [hc₁, htask, ← hc₀]
  obtain ⟨auth, sessionId, ht⟩ := Task.exists_of_adding ht
  cases a with
  | readRoute c => exact .inl ⟨c, rfl⟩
  | writeRoute c w => exact .inr ⟨c, w, rfl⟩
  | recv c bs =>
    cases step_transition hstep with
    | recv hc₀ => exact absurd (hsame hc₀ (setConn_self ..) rfl) hne
    | readEnds _ _ ha => rcases ha with ⟨ha, -⟩ | ⟨ha, -⟩ <;> cases ha
    | writeEnds _ _ ha => rcases ha with ha | ⟨n, ha⟩ <;> cases ha
  | peerClose c =>
    cases step_transition hstep with
    | peerClose hc₀ => exact absurd (hsame hc₀ (setConn_self ..) rfl) hne
    | readEnds _ _ ha => rcases ha with ⟨ha, -⟩ | ⟨ha, -⟩ <;> cases ha
    | writeEnds _ _ ha => rcases ha with ha | ⟨n, ha⟩ <;> cases ha
  | driver c b =>
    cases step_transition hstep with
    | driver hc₀ => exact absurd (hsame hc₀ (setConn_self ..) rfl) hne
    | readEnds _ _ ha => rcases ha with ⟨ha, -⟩ | ⟨ha, -⟩ <;> cases ha
    | writeEnds _ _ ha => rcases ha with ha | ⟨n, ha⟩ <;> cases ha
  | _ => rcases ht with ht | ht <;> simp [step, hc, taskStep, ht, answer] at hstep

/-- A task that has read its file goes on to write it, unless it is up to date. -/
private theorem upToDate_of_readRoute (hstep : step serde config s (.readRoute c) = some (t, es))
    (hc : s.conns c = some conn) (ht : conn.task = .registered auth sessionId)
    (hc' : t.conns c = some conn') (ht' : conn'.task = .serving auth sessionId)
    (henabled : config.traefik.enabled = true) :
    (manager config).upToDate s.routes auth.clientId = true := by
  simp only [step, Act.conn, hc, taskStep, ht, if_pos henabled, Option.some.injEq,
    Prod.mk.injEq] at hstep
  obtain ⟨rfl, -⟩ := hstep
  rw [setConn_self, Option.some.injEq] at hc'
  rw [← hc'] at ht'
  by_contra hnot
  rw [Bool.not_eq_true] at hnot
  simp [hnot] at ht'

private theorem added_onFirstFrame {r : Except ProtocolError Message} :
    (onFirstFrame config r).added = none := by
  cases r with
  | error e => rfl
  | ok m =>
    cases m with
    | authReq auth =>
      rw [onFirstFrame]
      split <;> rfl
    | _ => rfl

private theorem added_of_answer {task task' : Task} {res : AuthRes}
    (hans : answer config task = some (res, task')) : task'.added = none := by
  cases task with
  | accepting auth | rejecting auth =>
    rw [← (Prod.mk.inj (Option.some.inj hans)).2]
    rfl
  | _ => cases hans

/-- How a task comes to have its file: it had it, or has found it up to date, or writes it. -/
theorem added_of_step (hstep : step serde config s a = some (t, es))
    (henabled : config.traefik.enabled = true) (hc' : t.conns c = some conn')
    (hadded : conn'.task.added = some auth) :
    ∃ conn sessionId, s.conns c = some conn ∧ conn.task.held = some (auth, sessionId) ∧
      (conn.task.added = some auth ∨
        (manager config).upToDate s.routes auth.clientId = true ∨ ∃ w, a = .writeRoute c w) := by
  rcases conn_of_step hstep hc' with ⟨-, hread⟩ | ⟨conn, hc, htask | ⟨rfl, hm⟩⟩
  · rw [hread] at hadded
    cases hadded
  · rw [htask] at hadded
    obtain ⟨sessionId, hheld⟩ := Task.held_of_added hadded
    exact ⟨conn, sessionId, hc, hheld, .inl hadded⟩
  · generalize ht : conn.task = task at hm
    generalize ht' : conn'.task = task' at hm
    rw [ht'] at hadded
    cases hm with
    | read => rw [added_onFirstFrame] at hadded; cases hadded
    | answered hans => rw [added_of_answer hans] at hadded; cases hadded
    | @readRoute auth₀ sessionId _ _ htask =>
      rcases htask with rfl | rfl
      · obtain rfl := Option.some.inj hadded
        refine ⟨conn, sessionId, hc, by rw [ht]; rfl, .inr (.inl ?_)⟩
        rcases act_of_adding hstep hc hc' (by rw [ht]; rfl) (by rw [ht, ht']; intro h; cases h) with
          ⟨c, rfl⟩ | ⟨c, w, rfl⟩
        · exact upToDate_of_readRoute hstep hc ht hc' ht' henabled
        · simp [step, hc, taskStep, ht] at hstep
      · cases hadded
    | @writeRoute auth₀ sessionId =>
      obtain rfl := Option.some.inj hadded
      refine ⟨conn, sessionId, hc, by rw [ht]; rfl, .inr (.inr ?_)⟩
      rcases act_of_adding hstep hc hc' (by rw [ht]; rfl) (by rw [ht, ht']; intro h; cases h) with
        ⟨c, rfl⟩ | ⟨c, w, rfl⟩
      · simp [step, hc, taskStep, ht] at hstep
      · exact ⟨w, rfl⟩
    | @join auth₀ sessionId =>
      obtain rfl := Option.some.inj hadded
      exact ⟨conn, sessionId, hc, by rw [ht]; rfl, .inl (by rw [ht]; rfl)⟩
    | _ => cases hadded

/-! ## Sessions with the same file -/

theorem done_of_unregistered (hr : (machine serde config routes).Reach h s)
    (hu : Unregistered h c k) :
    ∃ conn, s.conns c = some conn ∧ conn.task = .done .disconnected := by
  refine hr.invariant (P := fun h s ↦ ∀ c k, Unregistered h c k →
    ∃ conn, s.conns c = some conn ∧ conn.task = .done .disconnected) ?_ ?_ c k hu
  · rintro c k ⟨sessionId, removed, hmem⟩
    cases hmem
  · rintro h s a t es - ih hstep c k ⟨sessionId, removed, hmem⟩
    rcases List.mem_append.mp hmem with hmem | hmem
    · obtain ⟨conn, hc, ht⟩ := ih c k ⟨sessionId, removed, hmem⟩
      obtain ⟨conn', hc', hsame | ⟨-, hm⟩⟩ := task_of_step hstep hc
      · exact ⟨conn', hc', hsame.trans ht⟩
      · rw [ht] at hm
        generalize conn'.task = task' at hm
        cases hm with
        | answered hans | writeEnds hans => cases hans
    · obtain ⟨-, conn, conn', auth, hc, hc', ht, ht', -⟩ := unregistered_of_step hstep hmem
      exact ⟨conn', hc', ht'⟩

/-- Two sessions under way whose ids have the same file have the same id. -/
theorem clientId_eq_of_sanitizeId {c₁ c₂ : ConnId} {conn₁ conn₂ : Conn} {auth₁ auth₂ : AuthReq}
    {n₁ n₂ : UInt64} (hr : (machine serde config routes).Reach h s) (hn : SeparateNames h)
    (hc₁ : s.conns c₁ = some conn₁) (hh₁ : conn₁.task.held = some (auth₁, n₁))
    (hc₂ : s.conns c₂ = some conn₂) (hh₂ : conn₂.task.held = some (auth₂, n₂))
    (hsafe : sanitizeId auth₁.clientId = sanitizeId auth₂.clientId) :
    auth₁.clientId = auth₂.clientId := by
  have hg : Gate serde config h s := .of_reach hr
  have hgone : ∀ {c conn auth n}, s.conns c = some conn → conn.task.held = some (auth, n) →
      ∀ h₁ h₂, h = h₁ ++ h₂ → ¬Unregistered h₁ c auth.clientId := by
    rintro c conn auth n hc hheld h₁ h₂ rfl ⟨sessionId, removed, hmem⟩
    obtain ⟨conn', hc', hdone⟩ :=
      done_of_unregistered hr ⟨sessionId, removed, List.mem_append_left h₂ hmem⟩
    rw [hc, Option.some.injEq] at hc'
    rw [hc', hdone] at hheld
    cases hheld
  obtain ⟨h₁, h₁', heq₁, -⟩ := (hg.conn c₁ conn₁ hc₁).held auth₁ n₁ hh₁
  obtain ⟨h₂, h₂', heq₂, -⟩ := (hg.conn c₂ conn₂ hc₂).held auth₂ n₂ hh₂
  -- One of the two registered later, and then the other was already under way.
  rcases List.append_eq_append_iff.mp (heq₁.symm.trans heq₂) with ⟨l, hl, hl'⟩ | ⟨l, hl, hl'⟩
  · cases l with
    | nil =>
      rw [List.nil_append, List.cons.injEq, Event.swapped.injEq] at hl'
      exact hl'.1.2.1
    | cons e l =>
      rw [List.cons_append, List.cons.injEq] at hl'
      obtain ⟨rfl, -⟩ := hl'
      have hmem : .swapped c₁ auth₁.clientId n₁ ∈ h₂ := by simp [hl]
      exact ((hn _ _ _ _ _ heq₂).2 _ _ _ hmem hsafe).resolve_right (hgone hc₁ hh₁ _ _ heq₂)
  · cases l with
    | nil =>
      rw [List.nil_append, List.cons.injEq, Event.swapped.injEq] at hl'
      exact hl'.1.2.1.symm
    | cons e l =>
      rw [List.cons_append, List.cons.injEq] at hl'
      obtain ⟨rfl, -⟩ := hl'
      have hmem : .swapped c₂ auth₂.clientId n₂ ∈ h₁ := by simp [hl]
      exact (((hn _ _ _ _ _ heq₁).2 _ _ _ hmem hsafe.symm).resolve_right
        (hgone hc₂ hh₂ _ _ heq₁)).symm

/-! ## The invariant -/

private theorem filed_of_upToDate (hup : (manager config).upToDate s.routes k = true) :
    Filed config s.routes k := by
  rw [TraefikManager.upToDate] at hup
  split at hup
  · cases hup
  · rename_i content hcontent
    exact ⟨content, hcontent, beq_iff_eq.mp hup⟩

private theorem filed_writeRoute :
    Filed config ((manager config).writeRoute s.routes k .written) k :=
  ⟨_, Function.update_self .., Framing.ofUtf8_utf8 _⟩

theorem clientFile_inj {a b : String} : clientFile a = clientFile b ↔ a = b := by
  rw [clientFile, clientFile, ← String.toList_inj, ← String.toList_inj]
  simp only [String.toList_append, List.append_assoc, List.append_cancel_left_eq,
    List.append_cancel_right_eq]

private theorem filed_writeRoute_of_ne {k' : String} (hfiled : Filed config s.routes k)
    (hne : sanitizeId k ≠ sanitizeId k') :
    Filed config ((manager config).writeRoute s.routes k' .written) k := by
  obtain ⟨content, hfile, htext⟩ := hfiled
  have hfiles : clientFile (sanitizeId k) ≠ clientFile (sanitizeId k') :=
    fun heq ↦ hne (clientFile_inj.mp heq)
  refine ⟨content, ?_, htext⟩
  rw [TraefikManager.writeRoute, Function.update_of_ne hfiles, hfile]

private theorem filed_of_step (hr : (machine serde config routes).Reach h s)
    (hn : SeparateNames h) (hstep : step serde config s a = some (t, es))
    (hw : allWritten s a = true) (hc : s.conns c = some conn)
    (hheld : conn.task.held = some (auth, sessionId))
    (hfiled : Filed config s.routes auth.clientId) :
    Filed config t.routes auth.clientId := by
  rcases routes_of_step hstep with heq | ⟨c₀, w, conn₀, auth₀, n₀, rfl, hc₀, ht₀, heq⟩
  · rwa [heq]
  · obtain rfl : w = .written := of_decide_eq_true hw
    rw [heq]
    by_cases hsafe : sanitizeId auth.clientId = sanitizeId auth₀.clientId
    · have hsame := clientId_eq_of_sanitizeId hr hn hc hheld hc₀ (by rw [ht₀]; rfl) hsafe
      rw [hsame]
      exact filed_writeRoute
    · exact filed_writeRoute_of_ne hfiled hsafe

/-- **The run lemma.** A session whose `add_client` has returned has its file. -/
theorem filed_of_reach (hr : ((machine serde config routes).guard allWritten).Reach h s)
    (henabled : config.traefik.enabled = true) (hn : SeparateNames h)
    (hc : s.conns c = some conn) (ht : conn.task.added = some auth) :
    Filed config s.routes auth.clientId := by
  refine hr.invariant (P := fun h s ↦ SeparateNames h → ∀ c conn auth, s.conns c = some conn →
    conn.task.added = some auth → Filed config s.routes auth.clientId) ?_ ?_ hn c conn auth hc ht
  · intro _ c conn auth hc
    cases hc
  · intro h s a t es hreach ih hstep hn c conn' auth hc' ht'
    obtain ⟨hw, hstep⟩ := Machine.guard_step_eq_some.mp hstep
    have hn₀ := hn.of_append
    have hr₀ : (machine serde config routes).Reach h s := hreach.of_guard
    obtain ⟨conn, sessionId, hc, hheld, hadded | hup | ⟨w, rfl⟩⟩ :=
      added_of_step hstep henabled hc' ht'
    · exact filed_of_step hr₀ hn₀ hstep hw hc hheld (ih hn₀ c conn auth hc hadded)
    · exact filed_of_step hr₀ hn₀ hstep hw hc hheld (filed_of_upToDate hup)
    · obtain rfl : w = .written := of_decide_eq_true hw
      cases step_transition hstep with
      | writeRoute hc₀ ht₀ =>
        rw [hc, Option.some.injEq] at hc₀
        rw [hc₀, ht₀, Task.held, Option.some.injEq, Prod.mk.injEq] at hheld
        rw [← hheld.1]
        exact filed_writeRoute
      | readEnds _ _ ha => rcases ha with ⟨ha, -⟩ | ⟨ha, -⟩ <;> cases ha
      | writeEnds _ _ ha => rcases ha with ha | ⟨n, ha⟩ <;> cases ha

/-! ## Main result -/

/-- **Live clients keep their routes.** In a run in which every write succeeds and all sessions
register under separate names, every registered client has its public route whenever no
`add_client` is under way. -/
theorem live_routes_kept (serde : SerdeJson) (config : ServerConfig) (routes : RouteFiles)
    (h : List Event) (s : State) (hr : ((machine serde config routes).guard allWritten).Reach h s)
    (henabled : config.traefik.enabled = true) (hconfig : config.traefik.IsPlain)
    (hdomain : IsRouteName config.domain) (hn : SeparateNames h)
    (hidle : ∀ c conn, s.conns c = some conn → conn.task.adding = false) (clientId : String)
    (e : ClientEntry) (he : s.registry.get clientId = some e) :
    HasRoute s.routes (clientId ++ "." ++ config.domain) := by
  have hg : Gate serde config h s := .of_reach hr.of_guard
  obtain ⟨-, conn, auth, hc, hheld, hid, -⟩ := hg.entry clientId e he
  -- The session of the entry is past its `add_client`.
  have hadded : conn.task.added = some auth := by
    have hnot := hidle e.handle conn hc
    revert hheld hnot
    cases conn.task with
    | serving auth' n | leaving auth' n =>
      intro hheld _
      exact congrArg some (Prod.mk.inj (Option.some.inj hheld)).1
    | registered auth' n | routing auth' n =>
      intro _ hnot
      cases hnot
    | _ =>
      intro hheld
      cases hheld
  obtain ⟨content, hfile, htext⟩ := filed_of_reach hr henabled hn hc hadded
  obtain ⟨h₁, h₂, rfl, -⟩ := (hg.conn e.handle conn hc).held auth e.sessionId hheld
  obtain ⟨hname, -⟩ := hn _ _ _ _ _ rfl
  rw [hid] at hname hfile htext
  refine ⟨_, content, _, hfile, htext, ?_⟩
  exact (TraefikManager.definesOnly_clientRoute (manager config) clientId hconfig
    ⟨hname, hdomain⟩).definesHost

/-! ## Concrete runs -/

/-- A server that writes routes. -/
def routedConfig : ServerConfig := { sampleConfig with traefik := { enabled := true } }

theorem isPlain_routedConfig : routedConfig.traefik.IsPlain :=
  ⟨TraefikManager.isPlain_sampleManager.1, TraefikManager.isPlain_sampleManager.2⟩

/-- A connection from `accept` to the end of `add_client`. -/
def routeSegments (c : ConnId) (clientId : String) : List Act :=
  answerSegments c ⟨clientId, "t", some "1"⟩ ++ registerSegments c 0 ++
    [.readRoute c, .writeRoute c .written]

/-- A task that no action is about stays where it is. -/
private theorem task_of_run {as : List Act}
    (hrun : ((machine serde config routes).guard allWritten).run s as = some (t, h))
    (hacts : ∀ a ∈ as, a.conn ≠ c) : (t.conns c).map (·.task) = (s.conns c).map (·.task) := by
  refine Machine.run_unchanged (fun s ↦ (s.conns c).map (·.task)) hrun fun a ha s t es hstep ↦ ?_
  obtain ⟨-, hstep⟩ := Machine.guard_step_eq_some.mp hstep
  obtain ⟨conn', o, ds, hm, -⟩ := step_conns hstep
  have hne : c ≠ a.conn := (hacts a ha).symm
  change (t.conns c).map (·.task) = _
  rw [hm.conns, if_neg hne]
  split
  · rw [Option.map_map]
    rfl
  · rfl

private theorem routes_of_run {as : List Act}
    (hrun : ((machine serde config routes).guard allWritten).run s as = some (t, h))
    (hacts : ∀ a ∈ as, ∀ c w, a ≠ .writeRoute c w) : t.routes = s.routes := by
  refine Machine.run_unchanged State.routes hrun fun a ha s t es hstep ↦ ?_
  obtain ⟨-, hstep⟩ := Machine.guard_step_eq_some.mp hstep
  rcases routes_of_step hstep with heq | ⟨c, w, -, -, -, rfl, -⟩
  · exact heq
  · exact absurd rfl (hacts _ ha c w)

/-- A connection that has come to the end of `add_client` has left its file. -/
private theorem filed_of_routeSegments
    (hrun : ((machine serde config routes).guard allWritten).run s (routeSegments c k) =
      some (t, h)) (ht : (t.conns c).map (·.task) = some (.serving auth sessionId)) :
    Filed config t.routes auth.clientId := by
  have hsplit : routeSegments c k = (answerSegments c ⟨k, "t", some "1"⟩ ++ registerSegments c 0 ++
      [.readRoute c]) ++ [.writeRoute c .written] := by simp [routeSegments]
  rw [hsplit] at hrun
  obtain ⟨u, h₁, h₂, -, hlast, -⟩ := Machine.run_append_eq_some.mp hrun
  obtain ⟨v, es, h₃, hstep, hnil, -⟩ := Machine.run_cons_eq_some.mp hlast
  obtain ⟨rfl, -⟩ := Prod.mk.inj (Option.some.inj hnil)
  obtain ⟨-, hstep⟩ := Machine.guard_step_eq_some.mp hstep
  cases step_transition hstep with
  | writeRoute hc ht' =>
    rw [setConn_self, Option.map_some, Option.some.injEq, Task.serving.injEq] at ht
    obtain ⟨rfl, -⟩ := ht
    exact filed_writeRoute
  | readEnds _ _ ha => rcases ha with ⟨ha, -⟩ | ⟨ha, -⟩ <;> cases ha
  | writeEnds _ _ ha => rcases ha with ha | ⟨n, ha⟩ <;> cases ha

/-- A session registers under one of these ids, if it does. -/
def registersAs (ids : List String) : Event → Bool
  | .swapped _ k _ => k ∈ ids
  | _ => true

private theorem mem_of_registersAs {ids : List String} (hall : h.all (registersAs ids) = true)
    (hmem : .swapped c k sessionId ∈ h) : k ∈ ids :=
  of_decide_eq_true (List.all_eq_true.mp hall _ hmem)

private theorem separateNames_singleton (hk : IsRouteName k)
    (hall : h.all (registersAs [k]) = true) : SeparateNames h := by
  rintro h₁ c k' sessionId h₂ rfl
  have hlast := List.mem_singleton.mp
    (mem_of_registersAs hall (List.mem_append_right h₁ List.mem_cons_self))
  refine ⟨hlast ▸ hk, fun c'' k'' sessionId'' hmem _ ↦ .inl ?_⟩
  have hearlier := List.mem_singleton.mp (mem_of_registersAs hall (List.mem_append_left _ hmem))
  rw [hearlier, hlast]

theorem live_routes_kept_app : ∃ h s,
    ((machine compactSerde routedConfig fun _ ↦ none).guard allWritten).run
      (start fun _ ↦ none) (routeSegments 0 "app") = some (s, h) ∧
    HasRoute s.routes ("app" ++ "." ++ routedConfig.domain) := by
  have hrun : (((machine compactSerde routedConfig fun _ ↦ none).guard allWritten).run
      (start fun _ ↦ none) (routeSegments 0 "app")).map
      (fun p ↦ (p.1.registry.get "app", (p.1.conns 0).map (·.task.adding),
        p.2.all (registersAs ["app"]))) =
      some (some ⟨"app", 1, 0, true⟩, some false, true) := by
    decide +kernel
  obtain ⟨⟨s, h⟩, hsh, heq⟩ := Option.map_eq_some_iff.mp hrun
  rw [Prod.mk.injEq, Prod.mk.injEq] at heq
  obtain ⟨he, hconn, hall⟩ := heq
  have happ : IsRouteName "app" := by decide
  have hdomain : IsRouteName routedConfig.domain := by decide
  have hidle : ∀ c conn, s.conns c = some conn → conn.task.adding = false := by
    intro c conn hc
    by_cases hc0 : c = 0
    · rw [hc0] at hc
      rw [hc] at hconn
      exact Option.some.inj hconn
    · have hothers : ∀ a ∈ routeSegments 0 "app", a.conn ≠ c := by
        have hacts : ∀ a ∈ routeSegments 0 "app", a.conn = 0 := by decide
        intro a ha
        rw [hacts a ha]
        exact Ne.symm hc0
      have hnone := task_of_run hsh hothers
      rw [hc] at hnone
      cases hnone
  exact ⟨h, s, hsh, live_routes_kept compactSerde routedConfig _ h s (.of_run hsh) rfl
    isPlain_routedConfig hdomain (separateNames_singleton happ hall) hidle "app" _ he⟩

private theorem file_of_writeRoute {files : RouteFiles} {w : FileWrite} {file : String}
    {content : Bytes} (hfile : (manager config).writeRoute files k w file = some content) :
    file = clientFile (sanitizeId k) ∨ files file = some content := by
  by_cases heq : file = clientFile (sanitizeId k)
  · exact .inl heq
  · right
    cases w with
    | refused => exact hfile
    | written | cut n => rwa [TraefikManager.writeRoute, Function.update_of_ne heq] at hfile

/-- The files of the directory are those it had, and those of sessions. -/
theorem file_of_reach (hr : (machine serde config routes).Reach h s) {file : String}
    {content : Bytes} (hfile : s.routes file = some content) :
    routes file = some content ∨ ∃ c k sessionId, .swapped c k sessionId ∈ h ∧
      file = clientFile (sanitizeId k) := by
  refine hr.invariant (P := fun h s ↦ s.routes file = some content → routes file = some content ∨
    ∃ c k sessionId, .swapped c k sessionId ∈ h ∧ file = clientFile (sanitizeId k)) .inl ?_ hfile
  intro h s a t es hreach ih hstep hfile
  have hback : s.routes file = some content → routes file = some content ∨
      ∃ c k sessionId, .swapped c k sessionId ∈ h ++ es ∧ file = clientFile (sanitizeId k) := by
    intro hfile
    rcases ih hfile with hinit | ⟨c, k, sessionId, hmem, heq⟩
    · exact .inl hinit
    · exact .inr ⟨c, k, sessionId, List.mem_append_left _ hmem, heq⟩
  rcases routes_of_step hstep with hsame | ⟨c, w, conn, auth, n, rfl, hc, ht, hroutes⟩
  · exact hback (hsame ▸ hfile)
  · rw [hroutes] at hfile
    rcases file_of_writeRoute hfile with heq | hfile
    · have hg : Gate serde config h s := .of_reach hreach
      obtain ⟨h₁, h₂, rfl, -⟩ := (hg.conn c conn hc).held auth n (by rw [ht]; rfl)
      exact .inr ⟨c, auth.clientId, n, by simp, heq⟩
    · exact hback hfile

/-- The file is that of another id, so it is written again. -/
private theorem step_readRoute_stale (hc : s.conns c = some conn)
    (ht : conn.task = .registered auth sessionId) (henabled : config.traefik.enabled = true)
    (hstale : (manager config).upToDate s.routes auth.clientId = false) :
    step serde config s (.readRoute c) = some (s.setConn c
      { conn with task := .routing auth sessionId }, [.addClient c auth.clientId]) := by
  simp [step, taskStep, Act.conn, hc, ht, henabled, hstale]

variable (serde) in
private theorem step_writeRoute (hc : s.conns c = some conn)
    (ht : conn.task = .routing auth sessionId) : step serde config s (.writeRoute c .written) =
      some ({ s with routes := (manager config).writeRoute s.routes auth.clientId .written }.setConn
        c { conn with task := .serving auth sessionId }, []) := by
  simp [step, taskStep, Act.conn, hc, ht]

/-- **A live client loses its route** to another one with the same file. -/
theorem live_route_lost : ∃ h s,
    ((machine compactSerde routedConfig fun _ ↦ none).guard allWritten).run
      (start fun _ ↦ none) (routeSegments 0 "a.b" ++ routeSegments 1 "a_b") = some (s, h) ∧
    (∀ c conn, s.conns c = some conn → conn.task.adding = false) ∧
    s.registry.get "a.b" = some ⟨"a.b", 1, 0, true⟩ ∧
    ¬HasRoute s.routes ("a.b" ++ "." ++ routedConfig.domain) := by
  have hrun : (((machine compactSerde routedConfig fun _ ↦ none).guard allWritten).run
      (start fun _ ↦ none) (routeSegments 0 "a.b" ++
        (answerSegments 1 ⟨"a_b", "t", some "1"⟩ ++ registerSegments 1 0))).map
      (fun p ↦ (p.1.registry.get "a.b", (p.1.conns 0).map (·.task), (p.1.conns 1).map (·.task),
        p.2.all (registersAs ["a.b", "a_b"]))) =
      some (some ⟨"a.b", 1, 0, true⟩, some (.serving ⟨"a.b", "t", some "1"⟩ 1),
        some (.registered ⟨"a_b", "t", some "1"⟩ 2), true) := by
    decide +kernel
  obtain ⟨⟨t, h⟩, hth, heq⟩ := Option.map_eq_some_iff.mp hrun
  rw [Prod.mk.injEq, Prod.mk.injEq, Prod.mk.injEq] at heq
  obtain ⟨he, ht₀, ht₁, hall⟩ := heq
  have hsame : sanitizeId "a.b" = sanitizeId "a_b" := by decide +kernel
  have honly : DefinesOnly ((manager routedConfig).clientRoute "a_b") (routerName "a_b")
      ("a_b" ++ "." ++ routedConfig.domain) :=
    TraefikManager.definesOnly_clientRoute (manager routedConfig) "a_b" isPlain_routedConfig
      (by decide)
  -- The first session has written the file, and the second one does not find its own route there.
  obtain ⟨u, h₁, h₂, hfirst, hrest, -⟩ := Machine.run_append_eq_some.mp hth
  have hothers : ∀ a ∈ answerSegments 1 ⟨"a_b", "t", some "1"⟩ ++ registerSegments 1 0,
      a.conn ≠ 0 := by decide
  have hnowrite : ∀ a ∈ answerSegments 1 ⟨"a_b", "t", some "1"⟩ ++ registerSegments 1 0,
      ∀ c w, a ≠ .writeRoute c w := by simp [answerSegments, registerSegments]
  obtain ⟨content, hcontent, htext⟩ : Filed routedConfig t.routes "a.b" := by
    have hfiled := filed_of_routeSegments hfirst ((task_of_run hrest hothers).symm.trans ht₀)
    rwa [← routes_of_run hrest hnowrite] at hfiled
  have hstale : (manager routedConfig).upToDate t.routes "a_b" = false := by
    rw [TraefikManager.upToDate, ← hsame, hcontent]
    change (Framing.ofUtf8 content == some _) = false
    rw [htext, beq_eq_false_iff_ne]
    intro heq
    have hab : DefinesOnly ((manager routedConfig).clientRoute "a.b") (routerName "a.b")
        ("a.b" ++ "." ++ routedConfig.domain) :=
      TraefikManager.definesOnly_clientRoute (manager routedConfig) "a.b" isPlain_routedConfig
        (by decide)
    rw [Option.some.inj heq] at hab
    exact absurd (honly.host_eq hab.definesHost) (by decide)
  -- So it writes its own.
  obtain ⟨s, h', hlast, hreg, hroutes, hs₁, hall'⟩ : ∃ s h',
      ((machine compactSerde routedConfig fun _ ↦ none).guard allWritten).run t
        [.readRoute 1, .writeRoute 1 .written] = some (s, h') ∧ s.registry = t.registry ∧
      s.routes = (manager routedConfig).writeRoute t.routes "a_b" .written ∧
      (s.conns 1).map (·.task) = some (.serving ⟨"a_b", "t", some "1"⟩ 2) ∧
      h'.all (registersAs ["a.b", "a_b"]) = true := by
    obtain ⟨conn, hc, htask⟩ := Option.map_eq_some_iff.mp ht₁
    have hread : step compactSerde routedConfig t (.readRoute 1) = some (_, _) :=
      step_readRoute_stale hc htask rfl hstale
    have hwrite : step compactSerde routedConfig (t.setConn 1
        { conn with task := .routing ⟨"a_b", "t", some "1"⟩ 2 }) (.writeRoute 1 .written) =
          some (_, _) := step_writeRoute compactSerde (setConn_self ..) rfl
    exact ⟨_, _, Machine.run_cons_eq_some.mpr ⟨_, _, _, Machine.guard_step_eq_some.mpr ⟨rfl, hread⟩,
      Machine.run_singleton (Machine.guard_step_eq_some.mpr ⟨rfl, hwrite⟩), rfl⟩, rfl, rfl,
      congrArg _ (setConn_self ..), rfl⟩
  have hsh := Machine.run_trans hth hlast
  have hsplit : routeSegments 0 "a.b" ++ (answerSegments 1 ⟨"a_b", "t", some "1"⟩ ++
      registerSegments 1 0) ++ [.readRoute 1, .writeRoute 1 .written] =
      routeSegments 0 "a.b" ++ routeSegments 1 "a_b" := by
    rw [List.append_assoc]
    rfl
  rw [hsplit] at hsh
  refine ⟨h ++ h', s, hsh, fun c conn hc ↦ ?_, by rw [hreg]; exact he, ?_⟩
  · have htask : (s.conns c).map (·.task) = some conn.task := by rw [hc, Option.map_some]
    by_cases hc₀ : c = 0
    · have hs₀ : (s.conns 0).map (·.task) = _ := (task_of_run hlast (by decide)).trans ht₀
      rw [← hc₀, htask, Option.some.injEq] at hs₀
      rw [hs₀]
      rfl
    · by_cases hc₁ : c = 1
      · rw [← hc₁, htask, Option.some.injEq] at hs₁
        rw [hs₁]
        rfl
      · have hacts : ∀ a ∈ routeSegments 0 "a.b" ++ routeSegments 1 "a_b",
            a.conn = 0 ∨ a.conn = 1 := by decide
        have hothers : ∀ a ∈ routeSegments 0 "a.b" ++ routeSegments 1 "a_b", a.conn ≠ c := by
          rintro a ha rfl
          rcases hacts a ha with h₀ | h₁
          · exact hc₀ h₀
          · exact hc₁ h₁
        have hnone := task_of_run hsh hothers
        rw [hc] at hnone
        cases hnone
  · rintro ⟨file, content', text, hfile, htext', hhost⟩
    -- There is one file, and the second session has written it last.
    obtain hnone | ⟨c, k, n, hmem, rfl⟩ := file_of_reach (Machine.Reach.of_run hsh).of_guard hfile
    · cases hnone
    · have hk : sanitizeId k = sanitizeId "a_b" := by
        have hids := mem_of_registersAs (by rw [List.all_append, hall, hall']; rfl) hmem
        rw [List.mem_pair] at hids
        rcases hids with rfl | rfl
        · exact hsame
        · rfl
      obtain ⟨content'', hlater, htext''⟩ : Filed routedConfig s.routes "a_b" := by
        rw [hroutes]
        exact filed_writeRoute
      rw [hk, hlater, Option.some.injEq] at hfile
      rw [← hfile, htext'', Option.some.injEq] at htext'
      rw [← htext'] at hhost
      exact absurd (honly.host_eq hhost) (by decide)

end Control

end ZoTunnel
