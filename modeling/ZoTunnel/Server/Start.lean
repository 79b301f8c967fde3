import ZoTunnel.Lib.Yaml
import ZoTunnel.Server.Admission
import ZoTunnel.Server.Dashboard

/-!
# Starting the server

`run_server` looks for a configuration file. If there is one it is read, and `--force` is what makes
the server write a new one all the same. If there is none, a configuration is made of the arguments,
with random tokens where none are given, and written. The environment has the last word on a few
fields, and it is asked at each start, after the file.

The starts of a server follow one another on one disk, and a disk is what they find in each other's
wake. What a path stands for is an input of each start, so that different paths can lead to one
file; so is what the system refuses to do. The YAML library is a parameter, of which it is assumed
that it reads what it has written, with the comment in front of it that `run_server` puts there.

Two things hold over all starts. Without `--force`, the configuration of the first start stays
(`first_config_kept`). And a server that starts on a disk without a configuration is never open to
everybody (`started_closed`), as long as no write ends half way: a file that ends before its tokens
is a configuration with no tokens, and the next start takes it for what it is.
-/

namespace ZoTunnel

/-! ## Configuration -/

/-- The whole configuration, as the file has it. -/
structure StoredConfig extends ServerConfig where
  controlPort : UInt16 := 6200
  dashboardAuth : DashboardAuthConfig := {}
  clientsDir : String := "/var/lib/zo-tunnel/clients"
  logLevel : String := "info"

namespace Start

/-- The variables that are set to a text. -/
abbrev Env := String → Option String

/-- `PathBuf::join` with a relative path. -/
def joinPath (dir name : String) : String :=
  if dir = "" ∨ dir.toList.getLast? = some '/' then dir ++ name else dir ++ "/" ++ name

/-- Fallback config dir. -/
def dirsFallback (env : Env) : String :=
  match env "XDG_CONFIG_HOME" with
  | some dir => dir
  | none => joinPath ((env "HOME").getD "/tmp") ".config"

/-- Config directory for saving. -/
def configDir (env : Env) (isRoot : Bool) : String :=
  if isRoot then "/etc/zo-tunnel" else joinPath (dirsFallback env) "zo-tunnel"

/-- Full path to the server config file, for saving. -/
def configPath (env : Env) (isRoot : Bool) : String :=
  joinPath (configDir env isRoot) "server.yaml"

/-- The config path for loading: system-wide first, then that of the user. -/
def resolveConfigPath (env : Env) (pathExists : String → Bool) : Option String :=
  let systemPath := "/etc/zo-tunnel/server.yaml"
  let userPath := joinPath (joinPath (dirsFallback env) "zo-tunnel") "server.yaml"
  if pathExists systemPath then some systemPath
  else if pathExists userPath then some userPath
  else none

/-- The Traefik integration is enabled if one of the usual directories is there. -/
def autoDetect (isDir : String → Bool) : TraefikConfig :=
  match ["/etc/traefik/dynamic", "/etc/traefik/conf.d"].find? isDir with
  | some dir => { enabled := true, configDir := dir }
  | none => {}

def hexByte (b : UInt8) : List Char :=
  [Nat.digitChar (b.toNat / 16), Nat.digitChar (b.toNat % 16)]

/-- A random token, from the bytes that it is made of. -/
def generateToken {n : ℕ} (buf : Vector UInt8 n) : String :=
  String.ofList (buf.toList.flatMap hexByte)

structure StartArgs where
  domain : Option String := none
  token : Option String := none
  dashboardToken : Option String := none
  controlPort : UInt16 := 6200
  publicPort : UInt16 := 6210
  config : Option String := none
  force : Bool := false

/-- A process that is started, and what it finds. -/
structure Process (Place : Type*) where
  args : StartArgs
  env : Env
  isRoot : Bool
  isDir : String → Bool
  place : String → Place
  clientBytes : Vector UInt8 24
  dashboardBytes : Vector UInt8 16
  makesDir : Bool
  write : FileWrite
  readable : Bool
  error : String

def buildConfig {Place : Type*} (p : Process Place) (domain : String) : StoredConfig :=
  let clientToken := (p.args.token.filter (· ≠ "")).getD (generateToken p.clientBytes)
  let dashboardToken :=
    (p.args.dashboardToken.filter (· ≠ "")).getD (generateToken p.dashboardBytes)
  { domain
    controlPort := p.args.controlPort
    publicPort := p.args.publicPort
    auth := { tokens := [clientToken] }
    dashboardAuth := { token := dashboardToken }
    traefik := autoDetect p.isDir }

/-- A variable that is set changes the configuration. -/
def override (env : Env) (name : String) (set : StoredConfig → String → StoredConfig)
    (cfg : StoredConfig) : StoredConfig :=
  match env name with
  | some value => set cfg value
  | none => cfg

/-- The fields that the environment has the last word on. -/
def applyEnvOverrides (env : Env) (cfg : StoredConfig) : StoredConfig :=
  let cfg := override env "ZO_TRAEFIK_CONFIG_DIR" (fun cfg dir ↦
    { cfg with traefik := { cfg.traefik with enabled := true, configDir := dir } }) cfg
  let cfg := override env "ZO_TRAEFIK_SERVICE_URL" (fun cfg url ↦
    { cfg with traefik := { cfg.traefik with serviceUrl := url } }) cfg
  let cfg := override env "ZO_TRAEFIK_ENABLED" (fun cfg value ↦
    if value = "true" then { cfg with traefik := { cfg.traefik with enabled := true } }
    else cfg) cfg
  let cfg := override env "ZO_CLIENTS_DIR" (fun cfg dir ↦ { cfg with clientsDir := dir }) cfg
  let cfg := override env "ZO_TOKEN" (fun cfg token ↦
    if token = "" then cfg else { cfg with auth := { tokens := [token] } }) cfg
  override env "ZO_DASHBOARD_TOKEN" (fun cfg token ↦
    if token = "" then cfg
    else { cfg with dashboardAuth := { cfg.dashboardAuth with token } }) cfg

/-! ## The file -/

/-- `serde_yaml`. -/
structure SerdeYaml where
  text : StoredConfig → Except String String
  fromStr : String → Except String StoredConfig

/-- The comment in front of the configuration. -/
def header (path : String) : String :=
  "# Zo Tunnel Server Configuration\n# Config path: " ++ path ++ "\n\n"

/-- What may stand in a comment. -/
def isCommentChar (c : Char) : Bool :=
  Yaml.isPrintable c && !Yaml.isBreak c && c.toNat != 133 && c.toNat != 8232 && c.toNat != 8233

/-- The library reads what it has written, with a comment in front. -/
def SerdeYaml.RoundTrips (yaml : SerdeYaml) : Prop :=
  ∀ cfg text path, yaml.text cfg = .ok text → path.toList.all isCommentChar = true →
    yaml.fromStr (header path ++ text) = .ok cfg

/-- The files of the disk, by the places that they are at. -/
abbrev Files (Place : Type*) := Place → Option Bytes

variable {Place : Type*}

def pathExists (files : Files Place) (p : Process Place) (path : String) : Bool :=
  (files (p.place path)).isSome

/-- The path that a start settles on. -/
def Process.path (p : Process Place) (files : Files Place) : String :=
  (p.args.config.or (resolveConfigPath p.env (pathExists files p))).getD
    (configPath p.env p.isRoot)

/-- Load config from a specific YAML file. -/
def load (yaml : SerdeYaml) (files : Files Place) (p : Process Place) (path : String) :
    Except String StoredConfig :=
  match p.readable, (files (p.place path)).bind Framing.ofUtf8 with
  | true, some content => yaml.fromStr content
  | _, _ => .error p.error

/-- The configuration is written, with its comment. -/
def save [DecidableEq Place] (yaml : SerdeYaml) (files : Files Place) (p : Process Place)
    (path : String) (cfg : StoredConfig) : Files Place × Except String Unit :=
  if !p.makesDir then (files, .error p.error)
  else
    match yaml.text cfg with
    | .error e => (files, .error e)
    | .ok text =>
      let content := Framing.utf8 (header path ++ text)
      match p.write with
      | .refused => (files, .error p.error)
      | .cut n => (Function.update files (p.place path) (some (content.take n)), .error p.error)
      | .written => (Function.update files (p.place path) (some content), .ok ())

/-- The first half of `run_server`: the configuration is loaded, or made and saved. -/
def loadOrCreate [DecidableEq Place] (yaml : SerdeYaml) (files : Files Place) (p : Process Place) :
    Files Place × Except String StoredConfig :=
  let path := p.path files
  if pathExists files p path && !p.args.force then (files, load yaml files p path)
  else
    match p.args.domain with
    | none => (files, .error "❌ --domain (or ZO_DOMAIN) is required on first run")
    | some domain =>
      let cfg := buildConfig p domain
      match save yaml files p path cfg with
      | (files, .error e) => (files, .error e)
      | (files, .ok ()) => (files, .ok cfg)

/-- `run_server`, up to the check with which `Server::run` begins. -/
def runServer [DecidableEq Place] (yaml : SerdeYaml) (files : Files Place) (p : Process Place) :
    Files Place × Except String StoredConfig :=
  match loadOrCreate yaml files p with
  | (files, .error e) => (files, .error e)
  | (files, .ok cfg) =>
    let cfg := applyEnvOverrides p.env cfg
    if cfg.domain = "" then
      (files, .error
        "domain is required — run `zo-tunnel-server setup --domain <domain>` first")
    else (files, .ok cfg)

/-- How a start ends. -/
inductive Event
  | started (cfg : StoredConfig)
  | failed (error : String)

def Event.of : Except String StoredConfig → Event
  | .ok cfg => started cfg
  | .error e => failed e

/-- Starts, one after the other. -/
def machine [DecidableEq Place] (yaml : SerdeYaml) (files : Files Place) :
    Machine (Files Place) (Process Place) Event where
  init := files
  step files p := some ((runServer yaml files p).1, [.of (runServer yaml files p).2])

variable {yaml : SerdeYaml} {files files' : Files Place} {p : Process Place} {cfg : StoredConfig}
  {e : Event}

/-! ## What a start can do -/

/-- The text of a new configuration file. -/
def fileText (path text : String) : Bytes := Framing.utf8 (header path ++ text)

/-- The start is to write its configuration. -/
structure Writes (yaml : SerdeYaml) (files : Files Place) (p : Process Place)
    (domain text : String) : Prop where
  fresh : pathExists files p (p.path files) = true → p.args.force = true
  args : p.args.domain = some domain
  yaml : yaml.text (buildConfig p domain) = .ok text

/-- The ways in which the first half can end. -/
inductive Obtained [DecidableEq Place] (yaml : SerdeYaml) (files : Files Place)
    (p : Process Place) : Files Place → Except String StoredConfig → Prop
  | loaded {cfg : StoredConfig} (hexists : pathExists files p (p.path files) = true)
      (hforce : p.args.force = false) (hload : load yaml files p (p.path files) = .ok cfg) :
      Obtained yaml files p files (.ok cfg)
  | created {domain text : String} (hw : Writes yaml files p domain text)
      (hwrite : p.write = .written) : Obtained yaml files p
        (Function.update files (p.place (p.path files)) (some (fileText (p.path files) text)))
        (.ok (buildConfig p domain))
  | failed {error : String} : Obtained yaml files p files (.error error)
  | cut {domain text error : String} {n : ℕ} (hw : Writes yaml files p domain text)
      (hwrite : p.write = .cut n) : Obtained yaml files p
        (Function.update files (p.place (p.path files))
          (some ((fileText (p.path files) text).take n)))
        (.error error)

/-- **Inversion** of the first half. -/
theorem loadOrCreate_obtained [DecidableEq Place] (yaml : SerdeYaml) (files : Files Place)
    (p : Process Place) :
    Obtained yaml files p (loadOrCreate yaml files p).1 (loadOrCreate yaml files p).2 := by
  simp only [loadOrCreate]
  split
  · rename_i hold
    rw [Bool.and_eq_true, Bool.not_eq_true'] at hold
    cases hload : load yaml files p (p.path files) with
    | error e => exact .failed
    | ok cfg => exact .loaded hold.1 hold.2 hload
  · rename_i hnew
    have hfresh : pathExists files p (p.path files) = true → p.args.force = true := by
      intro hexists
      rw [hexists, Bool.true_and, Bool.not_eq_true', Bool.not_eq_false] at hnew
      exact hnew
    cases hdom : p.args.domain with
    | none => exact .failed
    | some domain =>
      simp only [save]
      by_cases hdir : p.makesDir = true
      · rw [if_neg (by simp [hdir])]
        cases htext : yaml.text (buildConfig p domain) with
        | error e => exact .failed
        | ok text =>
          have hw : Writes yaml files p domain text := ⟨hfresh, hdom, htext⟩
          cases hwrite : p.write with
          | refused => exact .failed
          | cut n => exact .cut hw hwrite
          | written => exact .created hw hwrite
      · rw [if_pos (by simp [hdir])]
        exact .failed

/-- A server that starts has a configuration from the first half, and a domain. -/
theorem runServer_eq_ok [DecidableEq Place] (h : (runServer yaml files p).2 = .ok cfg) :
    ∃ cfg₀, (loadOrCreate yaml files p).2 = .ok cfg₀ ∧ cfg = applyEnvOverrides p.env cfg₀ ∧
      cfg.domain ≠ "" := by
  rw [runServer] at h
  split at h
  · cases h
  · rename_i files' cfg₀ heq
    dsimp only at h
    split at h
    · cases h
    · rename_i hdomain
      obtain rfl := Except.ok.inj h
      exact ⟨cfg₀, by rw [heq], rfl, hdomain⟩

theorem runServer_fst [DecidableEq Place] :
    (runServer yaml files p).1 = (loadOrCreate yaml files p).1 := by
  rw [runServer]
  split
  · rename_i heq
    rw [heq]
  · rename_i heq
    rw [heq]
    dsimp only
    split <;> rfl

/-! ## The environment -/

theorem override_preserves {P : StoredConfig → Prop} {env : Env} {name : String}
    {set : StoredConfig → String → StoredConfig} (hcfg : P cfg)
    (hset : ∀ cfg value, P cfg → env name = some value → P (set cfg value)) :
    P (override env name set cfg) := by
  rw [override]
  split
  · rename_i value hvalue
    exact hset cfg value hcfg hvalue
  · exact hcfg

theorem applyEnvOverrides_preserves {P : StoredConfig → Prop} {env : Env} (hcfg : P cfg)
    (htraefik : ∀ cfg traefik, P cfg → P { cfg with traefik })
    (hclients : ∀ cfg clientsDir, P cfg → P { cfg with clientsDir })
    (htoken : ∀ cfg token, P cfg → env "ZO_TOKEN" = some token → token ≠ "" →
      P { cfg with auth := { tokens := [token] } })
    (hdashboard : ∀ cfg token, P cfg → env "ZO_DASHBOARD_TOKEN" = some token → token ≠ "" →
      P { cfg with dashboardAuth := { cfg.dashboardAuth with token } }) :
    P (applyEnvOverrides env cfg) := by
  rw [applyEnvOverrides]
  refine override_preserves (override_preserves (override_preserves (override_preserves
    (override_preserves (override_preserves hcfg ?_) ?_) ?_) ?_) ?_) ?_
  · exact fun cfg dir hcfg _ ↦ htraefik cfg _ hcfg
  · exact fun cfg url hcfg _ ↦ htraefik cfg _ hcfg
  · intro cfg value hcfg _
    split
    · exact htraefik cfg _ hcfg
    · exact hcfg
  · exact fun cfg dir hcfg _ ↦ hclients cfg dir hcfg
  · intro cfg token hcfg hvalue
    split
    · exact hcfg
    · rename_i hne
      exact htoken cfg token hcfg hvalue hne
  · intro cfg token hcfg hvalue
    split
    · exact hcfg
    · rename_i hne
      exact hdashboard cfg token hcfg hvalue hne

theorem domain_applyEnvOverrides (env : Env) (cfg : StoredConfig) :
    (applyEnvOverrides env cfg).domain = cfg.domain :=
  applyEnvOverrides_preserves (P := fun cfg' ↦ cfg'.domain = cfg.domain) rfl (fun _ _ h ↦ h)
    (fun _ _ h ↦ h) (fun _ _ h _ _ ↦ h) fun _ _ h _ _ ↦ h

/-! ## Open to nobody -/

/-- Neither the control channel nor the dashboard is open to everybody, or to an empty token. -/
structure Closed (cfg : StoredConfig) : Prop where
  tokens : cfg.auth.tokens ≠ []
  token : "" ∉ cfg.auth.tokens
  dashboard : cfg.dashboardAuth.token ≠ ""

theorem generateToken_ne_empty {n : ℕ} (buf : Vector UInt8 (n + 1)) : generateToken buf ≠ "" := by
  intro h
  have hlist : buf.toList.flatMap hexByte = [] := by
    rw [generateToken, ← String.toList_inj, String.toList_ofList] at h
    exact h
  rw [List.flatMap_eq_nil_iff] at hlist
  have hmem : buf[0] ∈ buf.toList := Vector.mem_toList_iff.mpr (Vector.getElem_mem _)
  cases hlist _ hmem

theorem getD_filter_ne {o : Option String} {token : String} (htoken : token ≠ "") :
    (o.filter (· ≠ "")).getD token ≠ "" := by
  cases o with
  | none => exact htoken
  | some given =>
    rw [Option.filter_some]
    split
    · rename_i hgiven
      exact of_decide_eq_true hgiven
    · exact htoken

theorem closed_buildConfig (p : Process Place) (domain : String) :
    Closed (buildConfig p domain) where
  tokens := List.cons_ne_nil _ _
  token := by
    rw [buildConfig, List.mem_singleton]
    exact (getD_filter_ne (generateToken_ne_empty p.clientBytes)).symm
  dashboard := getD_filter_ne (generateToken_ne_empty p.dashboardBytes)

theorem Closed.applyEnvOverrides (hcfg : Closed cfg) (env : Env) :
    Closed (Start.applyEnvOverrides env cfg) := by
  refine applyEnvOverrides_preserves hcfg (fun _ _ h ↦ ⟨h.tokens, h.token, h.dashboard⟩)
    (fun _ _ h ↦ ⟨h.tokens, h.token, h.dashboard⟩) (fun _ token h _ hne ↦ ?_)
    fun _ token h _ hne ↦ ⟨h.tokens, h.token, hne⟩
  refine ⟨List.cons_ne_nil _ _, fun hmem ↦ hne ?_, h.dashboard⟩
  exact (List.mem_singleton.mp hmem).symm

/-- A file that can be read is that of a closed configuration. -/
def FilesClosed (yaml : SerdeYaml) (files : Files Place) : Prop :=
  ∀ place content text cfg, files place = some content → Framing.ofUtf8 content = some text →
    yaml.fromStr text = .ok cfg → Closed cfg

/-- The start writes a file in full or not at all, at a path that can stand in a comment. -/
def whole (files : Files Place) (p : Process Place) : Bool :=
  (p.path files).toList.all isCommentChar &&
    match p.write with
    | .cut _ => false
    | .written | .refused => true

/-- The file of a new configuration is what it was made of. -/
theorem fromStr_fileText (hyaml : yaml.RoundTrips) {domain text : String}
    (hw : Writes yaml files p domain text) (hpath : (p.path files).toList.all isCommentChar = true)
    {text' : String} (htext : Framing.ofUtf8 (fileText (p.path files) text) = some text') :
    yaml.fromStr text' = .ok (buildConfig p domain) := by
  rw [fileText, Framing.ofUtf8_utf8, Option.some.injEq] at htext
  rw [← htext]
  exact hyaml _ _ _ hw.yaml hpath

/-- **The step lemma.** -/
theorem filesClosed_of_start [DecidableEq Place] (hyaml : yaml.RoundTrips)
    (hfiles : FilesClosed yaml files)
    (hp : whole files p = true) : FilesClosed yaml (runServer yaml files p).1 ∧
      ∀ cfg, (runServer yaml files p).2 = .ok cfg → Closed cfg := by
  rw [whole, Bool.and_eq_true] at hp
  obtain ⟨hpath, hwhole⟩ := hp
  have hcfg : FilesClosed yaml (loadOrCreate yaml files p).1 ∧
      ∀ cfg, (loadOrCreate yaml files p).2 = .ok cfg → Closed cfg := by
    have ho := loadOrCreate_obtained yaml files p
    generalize (loadOrCreate yaml files p).1 = files' at ho ⊢
    generalize (loadOrCreate yaml files p).2 = r at ho ⊢
    cases ho with
    | @loaded cfg hexists hforce hload =>
      refine ⟨hfiles, fun cfg' hcfg' ↦ ?_⟩
      obtain rfl := Except.ok.inj hcfg'
      rw [load] at hload
      split at hload
      · rename_i content _ hcontent
        obtain ⟨bs, hbs, htext⟩ := Option.bind_eq_some_iff.mp hcontent
        exact hfiles _ bs content cfg hbs htext hload
      · cases hload
    | @created domain text hw hwrite =>
      -- The file is the text of the new configuration, which is read back as it is.
      refine ⟨fun place content text' cfg' hcontent htext' hcfg' ↦ ?_, fun cfg' hcfg' ↦ ?_⟩
      · rw [Function.update_apply] at hcontent
        split at hcontent
        · obtain rfl := Option.some.inj hcontent
          rw [fromStr_fileText hyaml hw hpath htext'] at hcfg'
          exact Except.ok.inj hcfg' ▸ closed_buildConfig p domain
        · exact hfiles _ _ _ _ hcontent htext' hcfg'
      · exact Except.ok.inj hcfg' ▸ closed_buildConfig p domain
    | failed => exact ⟨hfiles, fun cfg' hcfg' ↦ by cases hcfg'⟩
    | cut _ hwrite =>
      rw [hwrite] at hwhole
      cases hwhole
  refine ⟨by rw [runServer_fst]; exact hcfg.1, fun cfg h ↦ ?_⟩
  obtain ⟨cfg₀, h₀, rfl, -⟩ := runServer_eq_ok h
  exact (hcfg.2 cfg₀ h₀).applyEnvOverrides p.env

/-- Servers that were started have closed configurations. -/
theorem closed_of_reach [DecidableEq Place] {h : List Event} (hyaml : yaml.RoundTrips)
    (hfiles : FilesClosed yaml files)
    (hr : ((machine yaml files).guard whole).Reach h files') : FilesClosed yaml files' ∧
      ∀ cfg, .started cfg ∈ h → Closed cfg := by
  refine hr.invariant (P := fun h files ↦ FilesClosed yaml files ∧
    ∀ cfg, .started cfg ∈ h → Closed cfg) ⟨hfiles, fun cfg hmem ↦ by cases hmem⟩ ?_
  intro h s p t es hr ⟨hs, hstarted⟩ hstep
  obtain ⟨hp, hstep⟩ := Machine.guard_step_eq_some.mp hstep
  obtain ⟨rfl, rfl⟩ := Prod.mk.inj (Option.some.inj hstep)
  obtain ⟨ht, hcfg⟩ := filesClosed_of_start hyaml hs hp
  refine ⟨ht, fun cfg hmem ↦ ?_⟩
  rcases List.mem_append.mp hmem with hmem | hmem
  · exact hstarted cfg hmem
  · rw [List.mem_singleton] at hmem
    cases hres : (runServer yaml s p).2 with
    | error e =>
      rw [hres] at hmem
      cases hmem
    | ok cfg' =>
      rw [hres] at hmem
      obtain rfl := Event.started.inj hmem
      exact hcfg cfg hres

/-- Who gets into a server with this configuration. -/
structure Guarded (serde : SerdeJson) (cfg : StoredConfig) : Prop where
  /-- A session is registered for a client that has presented one of the tokens. -/
  sessions : ∀ routes h s k e, (Control.machine serde cfg.toServerConfig routes).Reach h s →
    s.registry.get k = some e → ∃ conn auth, s.conns e.handle = some conn ∧
      Control.FirstFrame serde conn auth ∧ auth.token ∈ cfg.auth.tokens ∧ auth.token ≠ ""
  /-- The dashboard gives data to a browser whose session came of a login with its token. -/
  dashboard : ∀ h s r q reply, (Dashboard.machine (.ofConfig cfg.toServerConfig cfg.dashboardAuth
      cfg.controlPort)).Reach h s → .replied r q reply ∈ h → q.endpoint.guarded = true →
    reply.isData = true → ∃ sessionId r₀ q₀ now,
      Dashboard.extractSessionId q.headers = some sessionId ∧
      .issued r₀ sessionId now ∈ h ∧ .arrived r₀ q₀ ∈ h ∧
      q₀.endpoint = .login (some cfg.dashboardAuth.token) ∧ cfg.dashboardAuth.token ≠ ""

theorem guarded_of_closed (serde : SerdeJson) (hcfg : Closed cfg) : Guarded serde cfg := by
  refine ⟨fun routes h s k e hr he ↦ ?_, fun h s r q reply hr hmem hguarded hdata ↦ ?_⟩
  · have hg : Control.Gate serde cfg.toServerConfig h s := .of_reach hr
    obtain ⟨-, conn, auth, hc, hheld, -⟩ := hg.entry k e he
    obtain ⟨hfirst, hvalid⟩ := (hg.conn _ conn hc).first auth (Control.Task.admitted_of_answered
      (Control.Task.answered_of_unreserved (Control.Task.unreserved_of_held hheld)))
    have htoken : auth.token ∈ cfg.auth.tokens :=
      ((ServerConfig.validateToken_iff _ _).mp hvalid).resolve_left hcfg.tokens
    exact ⟨conn, auth, hc, hfirst, htoken, fun hempty ↦ hcfg.token (hempty ▸ htoken)⟩
  · have henabled : (Dashboard.DashboardState.ofConfig cfg.toServerConfig cfg.dashboardAuth
        cfg.controlPort).authEnabled = true :=
      DashboardAuthConfig.dashboardAuthEnabled_iff.mpr hcfg.dashboard
    obtain ⟨h₁, now, h₂, rfl, -⟩ := Dashboard.checked_of_replied hguarded hr hmem
    obtain ⟨sessionId, hid, l₁, r₀, q₀, createdAt, l₂, rfl, harr, hlogin, -⟩ :=
      (Dashboard.accepted_of_checked henabled hcfg.dashboard hr).mp hdata
    refine ⟨sessionId, r₀, q₀, createdAt, hid, ?_, ?_, hlogin, hcfg.dashboard⟩
    · exact List.mem_append_left _ (List.mem_append_right _ List.mem_cons_self)
    · exact List.mem_append_left _ (List.mem_append_left _ harr)

/-- **A server is never open to everybody**, whatever starts there have been before its own, if
there was no configuration in the beginning that is. -/
theorem started_closed [DecidableEq Place] (serde : SerdeJson) (yaml : SerdeYaml)
    (hyaml : yaml.RoundTrips) (files files' : Files Place) (hfiles : FilesClosed yaml files)
    (h : List Event) (hr : ((machine yaml files).guard whole).Reach h files')
    (cfg : StoredConfig) (hmem : .started cfg ∈ h) : Closed cfg ∧ Guarded serde cfg :=
  have hcfg := (closed_of_reach hyaml hfiles hr).2 cfg hmem
  ⟨hcfg, guarded_of_closed serde hcfg⟩

/-! ## The first configuration stays -/

/-- The start is not to replace a configuration. -/
def unforced (_ : Files Place) (p : Process Place) : Bool := !p.args.force

/-- A start that is not forced leaves a file that is there. -/
theorem runServer_of_ne_none [DecidableEq Place] {place : Place} (hforce : p.args.force = false)
    (hplace : files place ≠ none) : (runServer yaml files p).1 place = files place := by
  rw [runServer_fst]
  have hother : ∀ {domain text}, Writes yaml files p domain text →
      place ≠ p.place (p.path files) := by
    rintro domain text hw rfl
    have hexists : pathExists files p (p.path files) = true :=
      Option.isSome_iff_ne_none.mpr hplace
    have hforced := hw.fresh hexists
    rw [hforce] at hforced
    cases hforced
  have ho := loadOrCreate_obtained yaml files p
  generalize (loadOrCreate yaml files p).1 = files' at ho ⊢
  generalize (loadOrCreate yaml files p).2 = r at ho
  cases ho with
  | loaded | failed => rfl
  | created hw | cut hw => exact Function.update_of_ne (hother hw) _ _

theorem files_of_unforced [DecidableEq Place] {place : Place} {h : List Event}
    {s t : Files Place} (hst : ((machine yaml files).guard unforced).Steps s h t)
    (hplace : s place ≠ none) : t place = s place := by
  refine (hst.preserves (P := fun u ↦ u place = s place) (fun u p v es hu hstep ↦ ?_) rfl)
  obtain ⟨hforce, hstep⟩ := Machine.guard_step_eq_some.mp hstep
  obtain ⟨rfl, rfl⟩ := Prod.mk.inj (Option.some.inj hstep)
  have hforce : p.args.force = false := (Bool.not_eq_true' _).mp hforce
  exact (runServer_of_ne_none hforce (by rwa [hu])).trans hu

/-- A server that starts, and where its configuration comes from. -/
theorem obtained_of_started [DecidableEq Place] {s t : Files Place}
    (hstep : (machine yaml files).step s p = some (t, [.started cfg])) :
    ∃ cfg₀, Obtained yaml s p t (.ok cfg₀) ∧ cfg₀.domain ≠ "" ∧
      cfg = applyEnvOverrides p.env cfg₀ := by
  obtain ⟨rfl, hevent⟩ := Prod.mk.inj (Option.some.inj hstep)
  cases hres : (runServer yaml s p).2 with
  | error e =>
    rw [hres] at hevent
    cases hevent
  | ok cfg' =>
    rw [hres] at hevent
    obtain rfl := Event.started.inj (List.cons.inj hevent).1
    obtain ⟨cfg₀, h₀, hcfg, hdomain⟩ := runServer_eq_ok hres
    rw [hcfg, domain_applyEnvOverrides] at hdomain
    refine ⟨cfg₀, ?_, hdomain, hcfg⟩
    rw [runServer_fst, ← h₀]
    exact loadOrCreate_obtained yaml s p

/-- A server starts with what the first half comes to. -/
theorem step_of_loadOrCreate [DecidableEq Place] {s t : Files Place} {cfg₀ : StoredConfig}
    (h₀ : loadOrCreate yaml s p = (t, .ok cfg₀)) (hcfg : applyEnvOverrides p.env cfg₀ = cfg)
    (hdomain : cfg.domain ≠ "") : (machine yaml files).step s p = some (t, [.started cfg]) := by
  have hrun : runServer yaml s p = (t, .ok cfg) := by
    simp only [runServer, h₀, hcfg, if_neg hdomain]
  simp only [machine, hrun]
  rfl

theorem start_of_file [DecidableEq Place] {u : Files Place} {text path : String}
    {made : StoredConfig} (hfile : u (p.place (p.path u)) = some (fileText path text))
    (hread : yaml.fromStr (header path ++ text) = .ok made) (hforce : p.args.force = false)
    (hdomain : made.domain ≠ "") :
    (∀ v cfg, (machine yaml files).step u p = some (v, [.started cfg]) →
      v = u ∧ cfg = applyEnvOverrides p.env made) ∧
    (p.readable = true →
      (machine yaml files).step u p = some (u, [.started (applyEnvOverrides p.env made)])) := by
  have hexists : pathExists u p (p.path u) = true := by rw [pathExists, hfile]; rfl
  have hload : loadOrCreate yaml u p = (u, load yaml u p (p.path u)) := by
    rw [loadOrCreate, hexists, hforce]
    rfl
  constructor
  · intro v cfg hstep
    obtain ⟨found, hfound, -, rfl⟩ := obtained_of_started hstep
    cases hfound with
    | loaded _ _ hloaded =>
      refine ⟨rfl, ?_⟩
      rw [load, hfile, Option.bind_some, fileText, Framing.ofUtf8_utf8] at hloaded
      split at hloaded
      · rename_i hcontent
        obtain rfl := Option.some.inj hcontent
        rw [hread] at hloaded
        rw [Except.ok.inj hloaded]
      · cases hloaded
    | created hw =>
      have hforced := hw.fresh hexists
      rw [hforce] at hforced
      cases hforced
  · intro hreadable
    refine step_of_loadOrCreate (hload.trans (congrArg _ ?_)) rfl ?_
    · rw [load, hreadable, hfile, Option.bind_some, fileText, Framing.ofUtf8_utf8]
      exact hread
    · rwa [domain_applyEnvOverrides]

/-- **The first configuration stays.** A start makes a configuration and runs, other starts follow,
and one of them comes to its file. If that one runs, it runs with the very configuration that was
made then, but for what the environment says now; and it does run if it can read the file. -/
theorem first_config_kept [DecidableEq Place] (yaml : SerdeYaml) (hyaml : yaml.RoundTrips)
    (files s t u : Files Place) (p₁ p₂ : Process Place) (cfg₁ : StoredConfig)
    (h : List Event) (hpath : (p₁.path s).toList.all isCommentChar = true)
    (hstep₁ : (machine yaml files).step s p₁ = some (t, [.started cfg₁]))
    (hnew : pathExists s p₁ (p₁.path s) = false ∨ p₁.args.force = true)
    (hst : ((machine yaml files).guard unforced).Steps t h u)
    (hforce : p₂.args.force = false) (hplace : p₂.place (p₂.path u) = p₁.place (p₁.path s)) :
    ∃ domain, p₁.args.domain = some domain ∧
      cfg₁ = applyEnvOverrides p₁.env (buildConfig p₁ domain) ∧
      (∀ v cfg₂, (machine yaml files).step u p₂ = some (v, [.started cfg₂]) →
        v = u ∧ cfg₂ = applyEnvOverrides p₂.env (buildConfig p₁ domain)) ∧
      (p₂.readable = true → (machine yaml files).step u p₂ =
        some (u, [.started (applyEnvOverrides p₂.env (buildConfig p₁ domain))])) := by
  obtain ⟨made, hmade, hdomain, rfl⟩ := obtained_of_started hstep₁
  cases hmade with
  | loaded hexists hforce₁ =>
    rw [hexists, hforce₁] at hnew
    rcases hnew with hnew | hnew <;> cases hnew
  | @created domain text hw hwrite =>
    -- The file is still there when it is looked for.
    have hfile : u (p₂.place (p₂.path u)) = some (fileText (p₁.path s) text) := by
      have hfresh := Function.update_self (p₁.place (p₁.path s))
        (some (fileText (p₁.path s) text)) s
      rw [hplace, files_of_unforced hst (by rw [hfresh]; exact Option.some_ne_none _), hfresh]
    have hread : yaml.fromStr (header (p₁.path s) ++ text) = .ok (buildConfig p₁ domain) :=
      fromStr_fileText hyaml hw hpath (Framing.ofUtf8_utf8 _)
    exact ⟨domain, hw.args, rfl, start_of_file hfile hread hforce hdomain⟩

/-! ## Two concrete starts -/

section Sample

deriving instance DecidableEq for AuthConfig, RateLimitConfig, TraefikConfig, ServerConfig,
  StoredConfig

/-- The configuration of `start --domain d.io --token t --dashboard-token pw`. -/
def sampleConfig : StoredConfig where
  domain := "d.io"
  auth := { tokens := ["t"] }
  dashboardAuth := { token := "pw" }

/-- What the library writes for it. -/
def sampleText : String := "control_port: 6200\npublic_port: 6210\ndomain: d.io\n" ++
  "auth:\n  tokens:\n  - t\ndashboard_auth:\n  token: pw\n  session_ttl_secs: 86400\n" ++
  "rate_limit:\n  requests_per_second: 100\n  max_connections_per_client: 50\n" ++
  "traefik:\n  enabled: false\n  config_dir: /etc/traefik/dynamic\n  entrypoint: websecure\n" ++
  "  cert_resolver: letsencrypt\n  service_url: http://127.0.0.1:6210\n" ++
  "clients_dir: /var/lib/zo-tunnel/clients\nlog_level: info\n"

/-- The library at one configuration. -/
def sampleYaml : SerdeYaml where
  text cfg := if cfg = sampleConfig then .ok sampleText else .error "not the sample"
  fromStr text :=
    if sampleText.toList <:+ text.toList then .ok sampleConfig else .error "not the sample"

theorem sampleYaml_roundTrips : sampleYaml.RoundTrips := by
  intro cfg text path htext _
  simp only [sampleYaml] at htext
  split at htext
  · rename_i hcfg
    obtain rfl := Except.ok.inj htext
    have hsuffix : sampleText.toList <:+ (header path ++ sampleText).toList := by
      rw [String.toList_append]
      exact List.suffix_append _ _
    simp only [sampleYaml, if_pos hsuffix, hcfg]
  · cases htext

/-- A start on an empty disk, with the tokens given. -/
def firstStart : Process String where
  args := { domain := some "d.io", token := some "t", dashboardToken := some "pw" }
  env _ := none
  isRoot := true
  isDir _ := false
  place := id
  clientBytes := .replicate 24 0
  dashboardBytes := .replicate 16 0
  makesDir := true
  write := .written
  readable := true
  error := ""

/-- A start without arguments, with another client token in the environment. -/
def secondStart : Process String :=
  { firstStart with
    args := {}
    env := fun name ↦ if name = "ZO_TOKEN" then some "x" else none }

/-- The disk in between. -/
def sampleFiles : Files String :=
  Function.update (fun _ ↦ none) "/etc/zo-tunnel/server.yaml"
    (some (fileText "/etc/zo-tunnel/server.yaml" sampleText))

theorem step_firstStart : (machine sampleYaml fun _ ↦ none).step (fun _ ↦ none) firstStart =
    some (sampleFiles, [.started sampleConfig]) := by
  have hpath : firstStart.path (fun _ ↦ none) = "/etc/zo-tunnel/server.yaml" := by decide
  have hbuild : buildConfig firstStart "d.io" = sampleConfig := by decide
  have henv : applyEnvOverrides firstStart.env sampleConfig = sampleConfig := by decide
  have hcreate : loadOrCreate sampleYaml (fun _ ↦ none) firstStart =
      (sampleFiles, .ok sampleConfig) := by
    simp only [loadOrCreate, hpath]
    rw [if_neg (by decide)]
    rw [show firstStart.args.domain = some "d.io" from rfl]
    dsimp only
    rw [hbuild, save, if_neg (by decide)]
    simp only [sampleYaml, if_true]
    rfl
  exact step_of_loadOrCreate hcreate henv (by decide)

theorem step_secondStart : (machine sampleYaml fun _ ↦ none).step sampleFiles secondStart =
    some (sampleFiles, [.started { sampleConfig with auth := { tokens := ["x"] } }]) := by
  have hpath : secondStart.path sampleFiles = "/etc/zo-tunnel/server.yaml" := by decide
  have hexists : pathExists sampleFiles secondStart "/etc/zo-tunnel/server.yaml" = true := by decide
  have hfile : sampleFiles (secondStart.place "/etc/zo-tunnel/server.yaml") =
      some (fileText "/etc/zo-tunnel/server.yaml" sampleText) := Function.update_self ..
  have hread : sampleYaml.fromStr (header "/etc/zo-tunnel/server.yaml" ++ sampleText) =
      .ok sampleConfig := by
    refine sampleYaml_roundTrips sampleConfig sampleText _ ?_ (by decide)
    simp only [sampleYaml, if_true]
  have hload : loadOrCreate sampleYaml sampleFiles secondStart =
      (sampleFiles, .ok sampleConfig) := by
    simp only [loadOrCreate, hpath, hexists]
    rw [if_pos (by decide), load, hfile, Option.bind_some, fileText, Framing.ofUtf8_utf8]
    exact congrArg _ hread
  have henv : applyEnvOverrides secondStart.env sampleConfig =
      { sampleConfig with auth := { tokens := ["x"] } } := by
    simp [applyEnvOverrides, override, secondStart]
  exact step_of_loadOrCreate hload henv (by decide)

/-- The first start makes the configuration, the second one finds it. -/
theorem first_config_kept_env : ∃ s t cfg₁ domain,
    (machine sampleYaml fun _ ↦ none).step s firstStart = some (t, [.started cfg₁]) ∧
    firstStart.args.domain = some domain ∧ cfg₁.auth.tokens = ["t"] ∧
    (applyEnvOverrides secondStart.env (buildConfig firstStart domain)).auth.tokens = ["x"] ∧
    (machine sampleYaml fun _ ↦ none).step t secondStart =
      some (t, [.started (applyEnvOverrides secondStart.env (buildConfig firstStart domain))]) := by
  obtain ⟨domain, hdomain, -, -, hruns⟩ := first_config_kept sampleYaml sampleYaml_roundTrips
    (fun _ ↦ none) _ _ _ firstStart secondStart _ [] (by decide) step_firstStart (.inl rfl)
    (.refl _) rfl (by decide)
  exact ⟨_, _, _, domain, step_firstStart, hdomain, rfl, rfl, hruns rfl⟩

/-- Both servers are closed. -/
theorem started_closed_env : ∃ h files',
    ((machine sampleYaml (fun _ ↦ none : Files String)).guard whole).Reach h files' ∧
    .started { sampleConfig with auth := { tokens := ["x"] } } ∈ h ∧
    Closed { sampleConfig with auth := { tokens := ["x"] } } ∧
    Guarded compactSerde { sampleConfig with auth := { tokens := ["x"] } } := by
  have hr : ((machine sampleYaml fun _ ↦ none).guard whole).Reach _ sampleFiles :=
    (Machine.Reach.init.step (Machine.guard_step_eq_some.mpr ⟨by decide, step_firstStart⟩)).step
      (Machine.guard_step_eq_some.mpr ⟨by decide, step_secondStart⟩)
  have hmem : Event.started { sampleConfig with auth := { tokens := ["x"] } } ∈
      ([] ++ [.started sampleConfig]) ++
        [.started { sampleConfig with auth := { tokens := ["x"] } }] :=
    List.mem_append_right _ List.mem_cons_self
  exact ⟨_, _, hr, hmem, started_closed compactSerde sampleYaml sampleYaml_roundTrips (fun _ ↦ none)
    _ (fun place content text cfg h ↦ by cases h) _ hr _ hmem⟩

end Sample

end Start

end ZoTunnel
