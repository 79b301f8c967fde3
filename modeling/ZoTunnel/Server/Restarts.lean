import ZoTunnel.Server.RouteDir
import ZoTunnel.Server.RouteFiles

/-!
# Routes over restarts

Neither a shutdown nor a start of the server deletes the routes of clients, so that a public host
stays where it is until its client has come back. A start writes the base file. A client that comes
back finds its own route in its file, and then nothing is written: there is no moment at which the
route is missing or half written, be the server killed when it likes.

In between, the directory is as the last server has left it. The server can read its directory, and
nobody else writes there.
-/

namespace ZoTunnel

namespace Control

variable {serde : SerdeJson} {config : ServerConfig} {routes : RouteFiles} {h : List Event}
  {s t : State} {a : Act} {es : List Event} {c : ConnId} {conn conn' : Conn} {auth : AuthReq}
  {sessionId : UInt64} {k : String}

private theorem onFirstFrame_ne_routing {r : Except ProtocolError Message} :
    onFirstFrame config r ≠ .routing auth sessionId := by
  cases r with
  | error e => exact fun h ↦ by cases h
  | ok m =>
    cases m with
    | authReq auth' =>
      rw [onFirstFrame]
      split <;> exact fun h ↦ by cases h
    | _ => exact fun h ↦ by cases h

private theorem ne_routing_of_answer {task task' : Task} {res : AuthRes}
    (hans : answer config task = some (res, task')) : task' ≠ .routing auth sessionId := by
  cases task with
  | accepting | rejecting =>
    rw [← (Prod.mk.inj (Option.some.inj hans)).2]
    exact fun h ↦ by cases h
  | _ => cases hans

/-- A task that finds its route does not go on to write it. -/
private theorem stale_of_step (hstep : step serde config s a = some (t, es))
    (hc : s.conns a.conn = some conn) (ht : conn.task = .registered auth sessionId)
    (hc' : t.conns a.conn = some conn') (ht' : conn'.task = .routing auth sessionId) :
    (manager config).upToDate s.routes auth.clientId = false := by
  -- The other steps leave the task where it is, or need another one.
  have hkept : ∀ {conn₁ : Conn}, t = s.setConn a.conn conn₁ → conn₁.task = conn.task → False := by
    rintro conn₁ rfl heq
    rw [setConn_self, Option.some.injEq] at hc'
    rw [← hc', heq, ht] at ht'
    cases ht'
  cases a with
  | readRoute c =>
    simp only [step, Act.conn] at hc hc' hstep
    simp only [hc, taskStep, ht] at hstep
    split at hstep
    · obtain ⟨rfl, -⟩ := Prod.mk.inj (Option.some.inj hstep)
      rw [setConn_self, Option.some.injEq] at hc'
      rw [← hc'] at ht'
      by_contra hup
      rw [Bool.not_eq_false] at hup
      simp [hup] at ht'
    · obtain ⟨rfl, -⟩ := Prod.mk.inj (Option.some.inj hstep)
      rw [setConn_self, Option.some.injEq] at hc'
      rw [← hc'] at ht'
      cases ht'
  | recv c bs =>
    simp only [step, Act.conn] at hc hstep
    simp only [hc] at hstep
    split at hstep
    · cases hstep
    · exact (hkept (Prod.mk.inj (Option.some.inj hstep)).1.symm rfl).elim
  | peerClose c =>
    simp only [step, Act.conn] at hc hstep
    simp only [hc] at hstep
    exact (hkept (Prod.mk.inj (Option.some.inj hstep)).1.symm rfl).elim
  | driver c b =>
    simp only [step, Act.conn] at hc hstep
    simp only [hc] at hstep
    split at hstep
    · cases hstep
    · split at hstep
      · cases hstep
      · split at hstep
        · cases hstep
        · exact (hkept (Prod.mk.inj (Option.some.inj hstep)).1.symm rfl).elim
  | _ => simp [step, hc, taskStep, ht, answer] at hstep

/-- A task that is to write its file was so before, or has not found its route there. -/
theorem routing_of_step (hstep : step serde config s a = some (t, es))
    (hc' : t.conns c = some conn') (ht' : conn'.task = .routing auth sessionId) :
    ∃ conn, s.conns c = some conn ∧ (conn.task = .routing auth sessionId ∨
      conn.task = .registered auth sessionId ∧
        (manager config).upToDate s.routes auth.clientId = false) := by
  rcases conn_of_step hstep hc' with ⟨-, hread⟩ | ⟨conn, hc, htask | ⟨rfl, hm⟩⟩
  · rw [hread] at ht'
    cases ht'
  · exact ⟨conn, hc, .inl (htask ▸ ht')⟩
  · have ht₀ := ht'
    generalize ht : conn.task = task at hm
    generalize conn'.task = task' at hm ht₀
    refine ⟨conn, hc, .inr ?_⟩
    cases hm with
    | read => exact absurd ht₀ onFirstFrame_ne_routing
    | answered hans => exact absurd ht₀ (ne_routing_of_answer hans)
    | readRoute htask =>
      rcases htask with rfl | rfl
      · cases ht₀
      · obtain ⟨rfl, rfl⟩ := Task.routing.inj ht₀
        exact ⟨ht, stale_of_step hstep hc ht hc' ht'⟩
    | _ => cases ht₀

/-! ## One life -/

/-- What the server writes into the directory when it starts. -/
def startFiles (config : ServerConfig) (files : RouteFiles) (w : FileWrite) : RouteFiles :=
  if config.traefik.enabled then
    let content := Framing.utf8 (manager config).staticRoutes
    match w with
    | .written => Function.update files baseFile (some content)
    | .refused => files
    | .cut n => Function.update files baseFile (some (content.take n))
  else files

theorem startFiles_clientFile (config : ServerConfig) (files : RouteFiles) (w : FileWrite)
    (safeId : String) :
    startFiles config files w (clientFile safeId) = files (clientFile safeId) := by
  have hne := clientFile_ne_baseFile safeId
  rw [startFiles]
  split
  · cases w with
    | written | cut n => exact Function.update_of_ne hne _ _
    | refused => rfl
  · rfl

/-- Whoever registers with the file of `k` is `k`. -/
def OnlyName (h : List Event) (k : String) : Prop :=
  ∀ c k' sessionId, .swapped c k' sessionId ∈ h → sanitizeId k' = sanitizeId k → k' = k

/-- The file of `k` has this content, which is its route, and nobody is about to write it. -/
structure KeepsFile (config : ServerConfig) (k : String) (content : Bytes) (s : State) :
    Prop where
  file : s.routes (clientFile (sanitizeId k)) = some content
  route : Framing.ofUtf8 content = some ((manager config).clientRoute k)
  idle : ∀ c conn auth sessionId, s.conns c = some conn → conn.task = .routing auth sessionId →
    sanitizeId auth.clientId ≠ sanitizeId k

namespace KeepsFile

variable {content : Bytes}

theorem upToDate (hi : KeepsFile config k content s) :
    (manager config).upToDate s.routes k = true := by
  rw [TraefikManager.upToDate, hi.file]
  exact beq_iff_eq.mpr hi.route

/-- **The step lemma.** -/
theorem step (hi : KeepsFile config k content s) (hr : (machine serde config routes).Reach h s)
    (hname : OnlyName h k) (hstep : Control.step serde config s a = some (t, es)) :
    KeepsFile config k content t := by
  refine ⟨?_, hi.route, fun c conn' auth sessionId hc' ht' ↦ ?_⟩
  · rcases routes_of_step hstep with heq | ⟨c, w, conn, auth, n, -, hc, ht, heq⟩
    · rw [heq, hi.file]
    · have hne : clientFile (sanitizeId k) ≠ clientFile (sanitizeId auth.clientId) :=
        fun hfile ↦ hi.idle c conn auth n hc ht (clientFile_inj.mp hfile).symm
      rw [heq]
      cases w with
      | refused => exact hi.file
      | written | cut m =>
        rw [TraefikManager.writeRoute, Function.update_of_ne hne, hi.file]
  · obtain ⟨conn, hc, ht | ⟨ht, hstale⟩⟩ := routing_of_step hstep hc' ht'
    · exact hi.idle c conn auth sessionId hc ht
    · intro hsafe
      -- The session of this task is one of `k`.
      have hg : Gate serde config h s := .of_reach hr
      obtain ⟨h₁, h₂, rfl, -⟩ := (hg.conn c conn hc).held auth sessionId (by rw [ht]; rfl)
      have hk := hname _ _ _ (List.mem_append_right h₁ List.mem_cons_self) hsafe
      rw [hk, hi.upToDate] at hstale
      cases hstale

end KeepsFile

end Control

/-! ## Many lives -/

namespace Restarts

structure State where
  files : RouteFiles
  server : Option (ServerConfig × Control.State)

/-- The directory as Traefik sees it. -/
def State.disk (s : State) : RouteFiles :=
  match s.server with
  | none => s.files
  | some (_, control) => control.routes

inductive Act
  /-- `run`, up to the first connection that is accepted. -/
  | start (config : ServerConfig) (w : FileWrite)
  | control (a : Control.Act)
  | stop

inductive Event
  | started (config : ServerConfig)
  | control (e : Control.Event)
  | stopped

variable (serde : SerdeJson)

def step (s : State) : Act → Option (State × List Event)
  | .start config w =>
    match s.server with
    | some _ => none
    | none =>
      if config.domain = "" then none
      else some ({ s with
        server := some (config, Control.start (Control.startFiles config s.files w)) },
        [.started config])
  | .control a =>
    match s.server with
    | none => none
    | some (config, control) =>
      match Control.step serde config control a with
      | none => none
      | some (control, es) => some ({ s with server := some (config, control) }, es.map .control)
  | .stop =>
    match s.server with
    | none => none
    | some (_, control) => some (⟨control.routes, none⟩, [.stopped])

def machine (files : RouteFiles) : Machine State Act Event where
  init := ⟨files, none⟩
  step := step serde

variable {serde} {files : RouteFiles} {config : ServerConfig} {k : String} {h h' : List Event}
  {s : State}

/-- All servers have the same routes to write. -/
def SameRoutes (h : List Event) (config : ServerConfig) : Prop :=
  ∀ config', .started config' ∈ h →
    config'.traefik = config.traefik ∧ config'.domain = config.domain

/-- Whoever registers with the file of `k`, in whatever life, is `k`. -/
def OnlyName (h : List Event) (k : String) : Prop :=
  ∀ c k' sessionId, .control (.swapped c k' sessionId) ∈ h →
    sanitizeId k' = sanitizeId k → k' = k

/-- The file has kept its content, and the server that runs is not going to change it. -/
structure Kept (serde : SerdeJson) (config : ServerConfig) (k : String) (content : Bytes)
    (h : List Event) (s : State) : Prop where
  file : s.disk (clientFile (sanitizeId k)) = some content
  server : ∀ config' control, s.server = some (config', control) →
    config'.traefik = config.traefik ∧ config'.domain = config.domain ∧
    Control.KeepsFile config' k content control ∧
    ∃ hl routes, (Control.machine serde config' routes).Reach hl control ∧
      ∀ e ∈ hl, .control e ∈ h

theorem kept_of_reach {content : Bytes} (hfile : files (clientFile (sanitizeId k)) = some content)
    (hroute : Framing.ofUtf8 content = some ((Control.manager config).clientRoute k))
    (hr : (machine serde files).Reach h s) (hsame : SameRoutes h config) (hname : OnlyName h k) :
    Kept serde config k content h s := by
  refine hr.invariant (P := fun h s ↦ SameRoutes h config → OnlyName h k →
    Kept serde config k content h s) (fun _ _ ↦ ?_) (fun h s a t es hr ih hstep hsame hname ↦ ?_)
    hsame hname
  · exact ⟨hfile, fun config' control hs ↦ by cases hs⟩
  have hi := ih (fun config' hmem ↦ hsame config' (List.mem_append_left _ hmem))
    fun c k' n hmem ↦ hname c k' n (List.mem_append_left _ hmem)
  have hstep : step serde s a = some (t, es) := hstep
  cases a with
  | start config' w =>
    simp only [step] at hstep
    split at hstep
    · cases hstep
    · rename_i hnone
      split at hstep
      · cases hstep
      · obtain ⟨rfl, rfl⟩ := Prod.mk.inj (Option.some.inj hstep)
        obtain ⟨htraefik, hdomain⟩ := hsame config' (List.mem_append_right _ List.mem_cons_self)
        -- A start rewrites the base file and no file of a client.
        have hfile' : Control.startFiles config' s.files w (clientFile (sanitizeId k)) =
            some content := by
          rw [Control.startFiles_clientFile]
          have hdisk := hi.file
          rwa [State.disk, hnone] at hdisk
        refine ⟨hfile', fun config'' control hs ↦ ?_⟩
        obtain ⟨rfl, rfl⟩ := Prod.mk.inj (Option.some.inj hs)
        refine ⟨htraefik, hdomain, ⟨hfile', ?_, fun c conn auth n hc ↦ (by cases hc)⟩, [], _, .init,
          fun e he ↦ (by cases he)⟩
        rw [hroute, Control.manager, Control.manager, htraefik, hdomain]
  | control a =>
    simp only [step] at hstep
    split at hstep
    · cases hstep
    · rename_i config' control hserver
      split at hstep
      · cases hstep
      · rename_i control' es' hcontrol
        obtain ⟨rfl, rfl⟩ := Prod.mk.inj (Option.some.inj hstep)
        obtain ⟨htraefik, hdomain, hkeeps, hl, routes, hreach, hmem⟩ := hi.server _ _ hserver
        have hkeeps' := hkeeps.step hreach (fun c k' n hin ↦ hname c k' n
          (List.mem_append_left _ (hmem _ hin))) hcontrol
        refine ⟨hkeeps'.file, fun config'' control'' hs ↦ ?_⟩
        obtain ⟨rfl, rfl⟩ := Prod.mk.inj (Option.some.inj hs)
        refine ⟨htraefik, hdomain, hkeeps', hl ++ es', routes, hreach.step hcontrol, fun e he ↦ ?_⟩
        rcases List.mem_append.mp he with he | he
        · exact List.mem_append_left _ (hmem e he)
        · exact List.mem_append_right _ (List.mem_map_of_mem he)
  | stop =>
    simp only [step] at hstep
    split at hstep
    · cases hstep
    · rename_i config' control hserver
      obtain ⟨rfl, rfl⟩ := Prod.mk.inj (Option.some.inj hstep)
      refine ⟨(hi.server _ _ hserver).2.2.1.file, fun config'' control'' hs ↦ by cases hs⟩

/-- **Routes survive restarts.** A client is served when its server stops, and all writes of this
server have succeeded. Then its host has its route ever after, whatever servers start, stop and are
killed, and whatever comes of their writes: the file of the client is not written again. -/
theorem routes_survive (serde : SerdeJson) (config : ServerConfig) (routes : RouteFiles)
    (henabled : config.traefik.enabled = true) (hconfig : config.traefik.IsPlain)
    (hdomain : IsRouteName config.domain) (h₁ : List Control.Event) (control : Control.State)
    (hr₁ : ((Control.machine serde config routes).guard Control.allWritten).Reach h₁ control)
    (hn : Control.SeparateNames h₁) (c : ConnId) (conn : Control.Conn) (auth : AuthReq)
    (hc : control.conns c = some conn) (hadded : conn.task.added = some auth) (h : List Event)
    (s : State) (hr : (machine serde control.routes).Reach h s) (hsame : SameRoutes h config)
    (honly : OnlyName h auth.clientId) :
    s.disk (clientFile (sanitizeId auth.clientId)) =
        control.routes (clientFile (sanitizeId auth.clientId)) ∧
      HasRoute s.disk (auth.clientId ++ "." ++ config.domain) := by
  obtain ⟨content, hfile, hroute⟩ := Control.filed_of_reach hr₁ henabled hn hc hadded
  have hkept := (kept_of_reach hfile hroute hr hsame honly).file
  have hname : IsRouteName auth.clientId := by
    have hg : Control.Gate serde config h₁ control := .of_reach hr₁.of_guard
    obtain ⟨sessionId, hheld⟩ := Control.Task.held_of_added hadded
    obtain ⟨l₁, l₂, rfl, -⟩ := (hg.conn c conn hc).held auth sessionId hheld
    exact (hn _ _ _ _ _ rfl).1
  refine ⟨hkept.trans hfile.symm, _, content, _, hkept, hroute, ?_⟩
  exact (TraefikManager.definesOnly_clientRoute (Control.manager config) auth.clientId hconfig
    ⟨hname, hdomain⟩).definesHost

/-- The server is stopped, the next one is killed with a connection open, and the one after that
cannot write all of its base file. -/
def sampleRun : List Act :=
  [.start Control.routedConfig .written, .control (.accept 0), .stop,
    .start Control.routedConfig (.cut 9)]

theorem routes_survive_app : ∃ h₁ control h s,
    ((Control.machine compactSerde Control.routedConfig fun _ ↦ none).guard Control.allWritten).run
      (Control.start fun _ ↦ none) (Control.routeSegments 0 "app") = some (control, h₁) ∧
    (machine compactSerde control.routes).run ⟨control.routes, none⟩ sampleRun = some (s, h) ∧
    HasRoute s.disk ("app" ++ "." ++ Control.routedConfig.domain) := by
  have hrun : (((Control.machine compactSerde Control.routedConfig fun _ ↦ none).guard
      Control.allWritten).run (Control.start fun _ ↦ none)
        (Control.routeSegments 0 "app")).map (fun p ↦
      ((p.1.conns 0).map (·.task), p.2.all (Control.registersAs ["app"]))) =
      some (some (.serving ⟨"app", "t", some "1"⟩ 1), true) := by
    decide +kernel
  obtain ⟨⟨control, h₁⟩, hsh, heq⟩ := Option.map_eq_some_iff.mp hrun
  obtain ⟨htask, hall⟩ := Prod.mk.inj heq
  obtain ⟨conn, hc, ht⟩ := Option.map_eq_some_iff.mp htask
  have hone : ∀ c k n, .swapped c k n ∈ h₁ → k = "app" := fun c k n hmem ↦
    List.mem_singleton.mp (of_decide_eq_true (List.all_eq_true.mp hall _ hmem))
  have hn : Control.SeparateNames h₁ := by
    rintro l₁ c k n l₂ rfl
    obtain rfl := hone c k n (List.mem_append_right _ List.mem_cons_self)
    exact ⟨by decide, fun c' k' n' hmem _ ↦ .inl (hone c' k' n' (List.mem_append_left _ hmem))⟩
  have hlives : (machine compactSerde control.routes).run ⟨control.routes, none⟩ sampleRun =
      some (_, [.started Control.routedConfig, .stopped, .started Control.routedConfig]) := rfl
  refine ⟨h₁, control, _, _, hsh, hlives, (routes_survive compactSerde Control.routedConfig _ rfl
    Control.isPlain_routedConfig (by decide) h₁ control (.of_run hsh) hn 0 conn _ hc
    (by rw [ht]; rfl) _ _ (.of_run hlives) (fun config' hmem ↦ ?_) fun c k n hmem ↦ ?_).2⟩
  · simp only [List.mem_cons, Event.started.injEq, reduceCtorEq, List.not_mem_nil, or_false,
      false_or, or_self] at hmem
    exact hmem ▸ ⟨rfl, rfl⟩
  · simp at hmem

end Restarts

end ZoTunnel
