import ZoTunnel.Lib.Yaml
import ZoTunnel.Server.Registry
import ZoTunnel.Server.Traefik

/-!
# The text of a route

`add_client` splices the client id, as it came, into a backtick literal in a quoted scalar in an
indented document. Only the file's and the router's name are sanitised. Read as YAML 1.2, the text
says what it is meant to say exactly when every character of the host stands for itself in all
three.
-/

namespace ZoTunnel

open Yaml (scanner isLiteral isPlainChar isPlainFirst)

/-! ## What Traefik reads -/

/-- The character that a rule puts around a host. -/
def backtick : Char := '\x60'

/-- The host of a rule that is one `Host` matcher for one host. -/
def hostOfRule (rule : String) : Option String :=
  let host := (rule.toList.drop 6).takeWhile (· != backtick)
  if rule.toList = "Host(`".toList ++ host ++ "`)".toList then some (.ofList host) else none

/-- The routers of a dynamic configuration. -/
def routers (doc : Yaml.Node) : List (String × Yaml.Node) :=
  match doc.at ["http", "routers"] with
  | some (.map entries) => entries
  | _ => []

/-- The host of a router whose rule is one `Host` matcher. -/
def routerHost (router : Yaml.Node) : Option String :=
  match router.get "rule" with
  | some (.scalar rule) => hostOfRule rule
  | _ => none

/-- The text defines a router for this host alone. -/
def DefinesHost (text host : String) : Prop :=
  ∃ doc, Yaml.read text = some doc ∧ ∃ p ∈ routers doc, routerHost p.2 = some host

/-- The text defines this router, for this host alone, and no other router. -/
def DefinesOnly (text name host : String) : Prop :=
  ∃ doc, Yaml.read text = some doc ∧
    ∃ router, routers doc = [(name, router)] ∧ routerHost router = some host

theorem definesHost_iff {text host : String} : DefinesHost text host ↔
    ((Yaml.read text).any fun doc ↦
      (routers doc).any fun p ↦ routerHost p.2 == some host) = true := by
  rw [Option.any_eq_true, DefinesHost]
  simp only [List.any_eq_true, beq_iff_eq]

instance (text host : String) : Decidable (DefinesHost text host) :=
  decidable_of_iff _ definesHost_iff.symm

theorem DefinesOnly.definesHost {text name host : String} (h : DefinesOnly text name host) :
    DefinesHost text host := by
  obtain ⟨doc, hdoc, router, hrouters, hhost⟩ := h
  exact ⟨doc, hdoc, _, hrouters ▸ List.mem_singleton_self _, hhost⟩

theorem DefinesOnly.host_eq {text name host host' : String} (h : DefinesOnly text name host)
    (h' : DefinesHost text host') : host' = host := by
  obtain ⟨doc, hdoc, router, hrouters, hhost⟩ := h
  obtain ⟨doc', hdoc', p, hp, hhost'⟩ := h'
  rw [hdoc, Option.some.injEq] at hdoc'
  rw [← hdoc', hrouters, List.mem_singleton] at hp
  rw [hp, hhost, Option.some.injEq] at hhost'
  exact hhost'.symm

theorem hostOfRule_eq_some {rule host : String} :
    hostOfRule rule = some host ↔
      rule.toList = "Host(`".toList ++ host.toList ++ "`)".toList ∧ backtick ∉ host.toList := by
  rw [hostOfRule]
  constructor
  · intro h
    split at h
    · rename_i hrule
      obtain rfl := Option.some.inj h
      have hhost := String.toList_ofList (l := (rule.toList.drop 6).takeWhile (· != backtick))
      rw [hhost]
      exact ⟨hrule, fun hmem ↦ by simpa using List.mem_takeWhile_imp hmem⟩
    · cases h
  · rintro ⟨hrule, hhost⟩
    have htake : (rule.toList.drop 6).takeWhile (· != backtick) = host.toList := by
      have hdrop : rule.toList.drop 6 = host.toList ++ "`)".toList := by rw [hrule]; rfl
      have hpass : ∀ c ∈ host.toList, (c != backtick) = true := by
        intro c hc
        apply bne_iff_ne.mpr
        rintro rfl
        exact hhost hc
      rw [hdrop, List.takeWhile_append_of_pos hpass]
      exact List.append_nil _
    rw [htake, if_pos hrule, String.ofList_toList]

theorem at_of_routers {doc : Yaml.Node} {p : String × Yaml.Node} {ps : List (String × Yaml.Node)}
    (h : routers doc = p :: ps) : doc.at ["http", "routers"] = some (.map (p :: ps)) := by
  rw [routers] at h
  split at h
  · rename_i entries hat
    rw [hat, h]
  · cases h

/-! ## Names that stand for themselves -/

/-- Every character stands for itself in double quotes. -/
def IsQuotable (text : String) : Prop := ∀ c ∈ text.toList, isLiteral c = true

instance (text : String) : Decidable (IsQuotable text) := List.decidableBAll _ _

/-- Every character stands for itself in a rule in double quotes. -/
def IsRouteName (text : String) : Prop := IsQuotable text ∧ backtick ∉ text.toList

instance (text : String) : Decidable (IsRouteName text) :=
  inferInstanceAs (Decidable (IsQuotable text ∧ backtick ∉ text.toList))

theorem isRouteName_append {a b : String} :
    IsRouteName (a ++ b) ↔ IsRouteName a ∧ IsRouteName b := by
  simp only [IsRouteName, IsQuotable, String.toList_append, List.mem_append, or_imp, forall_and,
    not_or]
  exact and_and_and_comm

/-- The text is a plain scalar as it is. -/
def IsPlainText (text : String) : Prop :=
  ∃ c cs, text.toList = c :: cs ∧ isPlainFirst c = true ∧ ∀ c' ∈ c :: cs, isPlainChar c' = true

/-- The settings that go into every file are read as they are. -/
structure TraefikConfig.IsPlain (config : TraefikConfig) : Prop where
  entrypoint : IsQuotable config.entrypoint
  certResolver : IsPlainText config.certResolver

/-! ## Reading the file of a client -/

private theorem forall_char_of_lt {b : ℕ} {P : Char → Prop} (h : ∀ n < b, P (Char.ofNat n))
    (c : Char) (hc : c.toNat < b) : P c := by
  have hP := h c.toNat hc
  rwa [Char.ofNat_toNat] at hP

private theorem isPlainChar_of_isAlphanum {c : Char} (hc : c.isAlphanum = true) :
    isPlainChar c = true := by
  have hlt : c.toNat < 128 := by
    have := Framing.toNat_of_isAlphanum hc
    omega
  exact forall_char_of_lt (P := fun c ↦ c.isAlphanum = true → isPlainChar c = true)
    (by decide +kernel) c hlt hc

theorem isPlainChar_sanitizeId (clientId : String) :
    ∀ c ∈ (sanitizeId clientId).toList, isPlainChar c = true := by
  intro c hc
  rw [sanitizeId, String.toList_ofList, List.mem_map] at hc
  obtain ⟨c, -, rfl⟩ := hc
  split
  · rename_i h
    rw [Bool.or_eq_true, Bool.or_eq_true, beq_iff_eq, beq_iff_eq] at h
    rcases h with (h | rfl) | rfl
    · exact isPlainChar_of_isAlphanum h
    · decide
    · decide
  · decide

namespace TraefikManager

open Framing (toList_lit)

variable (mgr : TraefikManager) (clientId : String)

/-- The rule of a host. -/
def ruleOf (host : List Char) : List Char := "Host(`".toList ++ host ++ "`)".toList

theorem ruleOf_eq (host : List Char) : ruleOf host = "Host(`".toList ++ host ++ "`)".toList := rfl

/-- The keys that lead to the rule. -/
def rulePath (name : List Char) : List (ℕ × List Char) :=
  [(0, "http".toList), (2, "routers".toList), (4, name), (6, "rule".toList)]

/-! The fixed parts of the file, each from one spliced text to the next. -/

def nameText : List Char := "http:\n  routers:\n    zo-tunnel-".toList

def ruleText : List Char := ":\n      rule: \"".toList

def entryPointsText : List Char := "\n      entryPoints:\n        - \"".toList

def serviceText : List Char :=
  "\n      service: zo-tunnel-server\n      tls:\n        certResolver: ".toList

/-- A router from its rule on, the opening mark of the rule left out. -/
def routerText (host : List Char) : List Char :=
  ruleOf host ++ '"' :: (entryPointsText ++ (mgr.config.entrypoint.toList ++ '"' ::
    (serviceText ++ (mgr.config.certResolver.toList ++ ['\n']))))

/-- Its tokens, if its texts stand for themselves. -/
def routerTokens (host : List Char) : List Yaml.Token :=
  [⟨12, .scalar (ruleOf host)⟩, ⟨6, .key "entryPoints".toList⟩, ⟨8, .dash⟩,
    ⟨10, .scalar mgr.config.entrypoint.toList⟩, ⟨6, .key "service".toList⟩,
    ⟨15, .scalar sharedService.toList⟩, ⟨6, .key "tls".toList⟩, ⟨8, .key "certResolver".toList⟩,
    ⟨22, .scalar mgr.config.certResolver.toList⟩]

private theorem toList_points : "`)\"\n      entryPoints:\n        - \"".toList =
    "`)".toList ++ '"' :: entryPointsText := by
  unfold entryPointsText
  rw [toList_lit rfl, toList_lit rfl, toList_lit rfl]
  rfl

private theorem toList_service (l : List Char) : "\"\n      service: ".toList ++
    (sharedService.toList ++ ("\n      tls:\n        certResolver: ".toList ++ l)) =
      '"' :: (serviceText ++ l) := by
  have hservice : "\"\n      service: ".toList ++ sharedService.toList ++
      "\n      tls:\n        certResolver: ".toList = '"' :: serviceText := by
    unfold sharedService serviceText
    rw [toList_lit rfl, toList_lit rfl, toList_lit rfl, toList_lit rfl]
    rfl
  rw [← List.append_assoc, ← List.append_assoc, hservice, List.cons_append]

theorem toList_clientRoute : (mgr.clientRoute clientId).toList =
    nameText ++ (sanitizeId clientId).toList ++ ruleText ++
      mgr.routerText (clientId ++ "." ++ mgr.domain).toList := by
  have hname : "http:\n  routers:\n    zo-tunnel-".toList = nameText := rfl
  have hrule : ":\n      rule: \"Host(`".toList = ruleText ++ "Host(`".toList := by
    unfold ruleText
    rw [toList_lit rfl, toList_lit rfl, toList_lit rfl]
    rfl
  have hend : "\n".toList = ['\n'] := toList_lit rfl
  unfold clientRoute
  simp only [routerText, ruleOf_eq, String.toList_append, hname, hrule, toList_points, hend,
    List.append_assoc, List.cons_append, toList_service]

theorem run_ruleText : scanner.run scanner.init
    (nameText ++ (sanitizeId clientId).toList ++ ruleText) =
    some (⟨.quoted 12 [] (.text []), 13⟩,
      Yaml.pathTokens (rulePath (routerName clientId).toList)) := by
  have hname : ∀ c ∈ (routerName clientId).toList, isPlainChar c = true := by
    intro c hc
    rw [routerName, String.toList_append, List.mem_append] at hc
    rcases hc with hc | hc
    · exact List.all_eq_true.mp (by decide : "zo-tunnel-".toList.all isPlainChar = true) c hc
    · exact isPlainChar_sanitizeId clientId c hc
  have hhead : scanner.run scanner.init nameText = some (⟨.plain true 4 "zo-tunnel-".toList, 14⟩,
      [⟨0, .key "http".toList⟩, ⟨2, .key "routers".toList⟩]) := by
    unfold nameText
    rw [toList_lit rfl, toList_lit rfl, toList_lit rfl, toList_lit rfl]
    rfl
  have hsafe := Yaml.run_plain true 4 14 "zo-tunnel-".toList (isPlainChar_sanitizeId clientId)
  rw [← String.toList_append, ← routerName] at hsafe
  have hrule : ∀ n, scanner.run ⟨.plain true 4 (routerName clientId).toList, n⟩ ruleText =
      some (⟨.quoted 12 [] (.text []), 13⟩,
        [⟨4, .key (Yaml.trim (routerName clientId).toList)⟩, ⟨6, .key "rule".toList⟩]) := by
    intro n
    unfold ruleText
    rw [toList_lit rfl, toList_lit rfl]
    rfl
  rw [Yaml.trim_of_isPlainChar hname] at hrule
  exact Machine.run_trans (Machine.run_trans hhead hsafe) (hrule _)

private theorem quoteStep_paren {value : List Char} {q : Yaml.Quote} {x : Yaml.Quoted}
    (h : Yaml.quoteStep value ')' q = some x) : ∃ v, x = .more v (.text []) := by
  cases q with
  | text blanks => exact ⟨_, (Option.some.inj h).symm⟩
  | escape => cases h
  | hex left n => cases h
  | fold escaped empty cr => exact ⟨_, (Option.some.inj h).symm⟩

/-- What any file of a client reads as: its rule is literal, or it is another. -/
theorem isRouteName_of_definesOnly {name host : String} (hname : name = routerName clientId)
    (hhost : host = clientId ++ "." ++ mgr.domain)
    (h : DefinesOnly (mgr.clientRoute clientId) name host) : IsRouteName host := by
  obtain ⟨doc, hdoc, router, hrouters, hrule⟩ := h
  -- The tokens: the path to the rule, the scalar there, and whatever the id makes of the rest.
  obtain ⟨ts, hts⟩ : ∃ ts, Yaml.tokens (mgr.clientRoute clientId).toList = some ts := by
    obtain ⟨ps, hps, -⟩ := Option.bind_eq_some_iff.mp hdoc
    obtain ⟨ts, hts, -⟩ := Option.bind_eq_some_iff.mp hps
    exact ⟨ts, hts⟩
  obtain ⟨⟨s, h⟩, hrun, hfinish⟩ := Option.bind_eq_some_iff.mp hts
  obtain ⟨ends, -, hts'⟩ := Option.map_eq_some_iff.mp hfinish
  rw [toList_clientRoute, ← hhost] at hrun
  obtain ⟨t, h₁, h₂, hhead, htail, rfl⟩ := Machine.run_append_eq_some.mp hrun
  rw [run_ruleText, Option.some.injEq, Prod.mk.injEq] at hhead
  obtain ⟨rfl, rfl⟩ := hhead
  have hrule' : ruleOf host.toList = "Host(`".toList ++ host.toList ++ [backtick] ++ [')'] :=
    (List.append_assoc _ [backtick] [')']).symm
  rw [routerText, hrule'] at htail
  obtain ⟨v, more, rfl, hv⟩ := Yaml.run_scalar (fun _ _ _ ↦ quoteStep_paren) htail
  -- The value of the rule, by its place in the document.
  have hcols : ((rulePath (routerName clientId).toList).map Prod.fst ++ [12]).IsChain (· < ·) := by
    simp [rulePath]
  have hpath : ts = Yaml.pathTokens (rulePath (routerName clientId).toList) ++
      ⟨12, .scalar v⟩ :: (more ++ ends) := by
    rw [← hts', List.append_assoc, List.cons_append]
  have hat := Yaml.at_of_path (rulePath _) (List.cons_ne_nil _ _) hcols hts hdoc hpath
  have hkeys : (rulePath (routerName clientId).toList).map (fun p ↦ String.ofList p.2) =
      ["http", "routers"] ++ [name, "rule"] := by
    rw [hname, rulePath]
    simp only [List.map_cons, List.map_nil, String.ofList_toList, List.cons_append,
      List.nil_append]
  have hget : router.get "rule" = some (.scalar (.ofList v)) := by
    rw [hkeys, Yaml.Node.at_append, at_of_routers hrouters, Option.bind_some, Yaml.Node.at,
      Yaml.Node.get, List.lookup_cons, beq_self_eq_true, Option.bind_some, Yaml.Node.at] at hat
    obtain ⟨n, hn, hsame⟩ := Option.bind_eq_some_iff.mp hat
    exact hn.trans hsame
  rw [routerHost, hget] at hrule
  obtain ⟨hv', hback⟩ := hostOfRule_eq_some.mp hrule
  have hlist := String.toList_ofList (l := v)
  rw [hlist] at hv'
  refine ⟨fun c hc ↦ hv (hv'.trans hrule') c ?_, hback⟩
  exact List.mem_append_left _ (List.mem_append_right _ hc)

private theorem run_isPlainText {text : String} (col : ℕ) (htext : IsPlainText text) :
    scanner.run ⟨.value, col⟩ (text.toList ++ ['\n']) =
      some (⟨.fresh, 0⟩, [⟨col, .scalar text.toList⟩]) := by
  obtain ⟨c, cs, heq, hfirst, hall⟩ := htext
  rw [heq]
  have hplain := Yaml.run_plain false col (col + 1) [c] fun c' hc' ↦
    hall c' (List.mem_cons_of_mem c hc')
  have hend : scanner.run ⟨.plain false col (c :: cs), col + 1 + cs.length⟩ ['\n'] =
      some (⟨.fresh, 0⟩, [⟨col, .scalar (Yaml.trim (c :: cs))⟩]) := rfl
  rw [Yaml.trim_of_isPlainChar hall] at hend
  exact Machine.run_cons_eq_some.mpr
    ⟨_, [], _, Yaml.scanner_isPlainFirst col hfirst, Machine.run_trans hplain hend, rfl⟩

/-- From its rule on, every router reads alike whose texts stand for themselves. -/
theorem run_routerText {host : String} (hconfig : mgr.config.IsPlain) (hhost : IsQuotable host) :
    scanner.run ⟨.quoted 12 [] (.text []), 13⟩ (mgr.routerText host.toList) =
      some (⟨.fresh, 0⟩, mgr.routerTokens host.toList) := by
  have hopen : IsQuotable "Host(`" := by decide
  have hclose : IsQuotable "`)" := by decide
  have hliteral : ∀ c ∈ ruleOf host.toList, isLiteral c = true :=
    List.forall_mem_append.mpr ⟨List.forall_mem_append.mpr ⟨hopen, hhost⟩, hclose⟩
  have hrule := Yaml.run_literal 12 13 [] [] hliteral
  have hpoints : ∀ n, scanner.run ⟨.after false, n⟩ entryPointsText =
      some (⟨.quoted 10 [] (.text []), 11⟩, [⟨6, .key "entryPoints".toList⟩, ⟨8, .dash⟩]) := by
    intro n
    unfold entryPointsText
    rw [toList_lit rfl, toList_lit rfl]
    rfl
  have hentry := Yaml.run_literal 10 11 [] [] hconfig.entrypoint
  have hservice : ∀ n, scanner.run ⟨.after false, n⟩ serviceText =
      some (⟨.value, 22⟩, [⟨6, .key "service".toList⟩, ⟨15, .scalar sharedService.toList⟩,
        ⟨6, .key "tls".toList⟩, ⟨8, .key "certResolver".toList⟩]) := by
    intro n
    unfold serviceText sharedService
    rw [toList_lit rfl, toList_lit rfl, toList_lit rfl, toList_lit rfl, toList_lit rfl]
    rfl
  have hrun := Machine.run_trans hrule (Machine.run_trans (hpoints _) (Machine.run_trans hentry
    (Machine.run_trans (hservice _) (run_isPlainText 22 hconfig.certResolver))))
  have htext : mgr.routerText host.toList = ruleOf host.toList ++ ['"'] ++ (entryPointsText ++
      (mgr.config.entrypoint.toList ++ ['"'] ++
        (serviceText ++ (mgr.config.certResolver.toList ++ ['\n'])))) := by
    simp only [routerText, List.append_assoc, List.cons_append, List.nil_append]
  exact (congrArg (scanner.run _) htext).trans hrun

/-- The router of a host. -/
def hostRouter (host : String) : Yaml.Node :=
  .map [("rule", .scalar ("Host(`" ++ host ++ "`)")),
    ("entryPoints", .seq [.scalar mgr.config.entrypoint]), ("service", .scalar sharedService),
    ("tls", .map [("certResolver", .scalar mgr.config.certResolver)])]

private theorem ofList_ruleOf (host : String) :
    String.ofList (ruleOf host.toList) = "Host(`" ++ host ++ "`)" := by
  apply String.toList_inj.mp
  rw [String.toList_append, String.toList_append]
  exact String.toList_ofList

theorem routerHost_hostRouter {host : String} (hhost : backtick ∉ host.toList) :
    routerHost (mgr.hostRouter host) = some host := by
  refine hostOfRule_eq_some.mpr ⟨?_, hhost⟩
  rw [String.toList_append, String.toList_append]

/-- What a file reads as whose texts stand for themselves. -/
theorem read_clientRoute (hconfig : mgr.config.IsPlain)
    (hhost : IsQuotable (clientId ++ "." ++ mgr.domain)) :
    Yaml.read (mgr.clientRoute clientId) = some (.map [("http", .map [("routers",
      .map [(routerName clientId, mgr.hostRouter (clientId ++ "." ++ mgr.domain))])])]) := by
  have hrun := Machine.run_trans (run_ruleText clientId) (run_routerText mgr hconfig hhost)
  rw [Yaml.read, Yaml.tokens, toList_clientRoute, hrun, Option.bind_some, hostRouter,
    ← ofList_ruleOf]
  simp [Yaml.Mode.finish, routerTokens, Yaml.pathTokens, rulePath, Yaml.parts, Yaml.push,
    Yaml.collect, Yaml.entryAt]

private theorem isRouteName_host : IsRouteName (clientId ++ "." ++ mgr.domain) ↔
    IsRouteName clientId ∧ IsRouteName mgr.domain := by
  have hdot : IsRouteName "." := by decide
  rw [isRouteName_append, isRouteName_append, and_iff_left hdot]

theorem definesOnly_clientRoute (hconfig : mgr.config.IsPlain)
    (hnames : IsRouteName clientId ∧ IsRouteName mgr.domain) :
    DefinesOnly (mgr.clientRoute clientId) (routerName clientId)
      (clientId ++ "." ++ mgr.domain) := by
  have hhost := (isRouteName_host mgr clientId).mpr hnames
  exact ⟨_, read_clientRoute mgr clientId hconfig hhost.1, _, rfl,
    routerHost_hostRouter mgr hhost.2⟩

/-- **The text of a route says what it should, exactly** when every character of its host stands for
itself in a rule in double quotes, as YAML 1.2 reads them. -/
theorem clientRoute_definesOnly_iff (hconfig : mgr.config.IsPlain) :
    DefinesOnly (mgr.clientRoute clientId) (routerName clientId) (clientId ++ "." ++ mgr.domain) ↔
      IsRouteName clientId ∧ IsRouteName mgr.domain := by
  refine ⟨fun h ↦ ?_, definesOnly_clientRoute mgr clientId hconfig⟩
  exact (isRouteName_host mgr clientId).mp (isRouteName_of_definesOnly mgr clientId rfl rfl h)

/-- The settings that the server starts with. -/
def sampleManager : TraefikManager := ⟨{}, "d.io"⟩

theorem isPlain_sampleManager : sampleManager.config.IsPlain where
  entrypoint := by decide +kernel
  certResolver := ⟨'l', "etsencrypt".toList, by decide +kernel, by decide,
    List.all_eq_true.mp (by decide)⟩

theorem clientRoute_definesOnly_iff_app :
    DefinesOnly (sampleManager.clientRoute "app") (routerName "app") ("app" ++ "." ++ "d.io") := by
  have happ : IsRouteName "app" := by decide
  have hdomain : IsRouteName "d.io" := by decide
  exact (clientRoute_definesOnly_iff sampleManager "app" isPlain_sampleManager).mpr ⟨happ, hdomain⟩

/-- An id that ends the literal, the scalar and the line, and goes on with a router of its own. -/
def hostileId : String :=
  "x`)\"\n    evil:\n      rule: \"Host(`bank.com`)\"\n    rest:\n      rule: \"Host(`y"

/-- **A client that adds a route for another host.** -/
theorem clientRoute_not_definesOnly : Registry.checkId hostileId = .ok () ∧
    DefinesHost (sampleManager.clientRoute hostileId) "bank.com" ∧
    ¬DefinesOnly (sampleManager.clientRoute hostileId) (routerName hostileId)
      (hostileId ++ "." ++ "d.io") := by
  refine ⟨by decide +kernel, ?_, fun h ↦ ?_⟩
  · rw [definesHost_iff, Yaml.read, toList_clientRoute, routerText, sanitizeId,
      String.toList_ofList, String.toList_append, String.toList_append]
    unfold hostileId nameText ruleText entryPointsText serviceText ruleOf
    rw [toList_lit rfl, toList_lit rfl, toList_lit rfl, toList_lit rfl, toList_lit rfl,
      toList_lit rfl, toList_lit rfl, toList_lit rfl]
    decide +kernel
  · obtain ⟨-, hback⟩ := isRouteName_of_definesOnly sampleManager hostileId rfl rfl h
    rw [String.toList_append, String.toList_append] at hback
    have hmem : backtick ∈ hostileId.toList := by decide +kernel
    exact hback (List.mem_append_left _ (List.mem_append_left _ hmem))

/-! ## The static routes -/

def dashboardText : List Char :=
  "http:\n  routers:\n    zo-tunnel-dashboard:\n      rule: \"".toList

def apexText : List Char := "    zo-tunnel-apex:\n      rule: \"".toList

def loadBalancerText : List Char :=
  "  services:\n    zo-tunnel-server:\n      loadBalancer:\n        servers:\n          - url: \"".toList

theorem toList_staticRoutes : mgr.staticRoutes.toList =
    dashboardText ++ mgr.routerText ("dashboard." ++ mgr.domain).toList ++
      (apexText ++ mgr.routerText mgr.domain.toList ++
        (loadBalancerText ++ (mgr.config.serviceUrl.toList ++ ['"'] ++ ['\n']))) := by
  have hdashboard :
      "http:\n  routers:\n    zo-tunnel-dashboard:\n      rule: \"Host(`dashboard.".toList =
        dashboardText ++ ("Host(`".toList ++ "dashboard.".toList) := by
    unfold dashboardText
    rw [toList_lit rfl, toList_lit rfl, toList_lit rfl, toList_lit rfl]
    rfl
  have hapex : "\n    zo-tunnel-apex:\n      rule: \"Host(`".toList =
      '\n' :: (apexText ++ "Host(`".toList) := by
    unfold apexText
    rw [toList_lit rfl, toList_lit rfl, toList_lit rfl]
    rfl
  have hbalancer : ∀ l, "\n  services:\n    ".toList ++ (sharedService.toList ++
      (":\n      loadBalancer:\n        servers:\n          - url: \"".toList ++ l)) =
        '\n' :: (loadBalancerText ++ l) := by
    intro l
    have hall : "\n  services:\n    ".toList ++ sharedService.toList ++
        ":\n      loadBalancer:\n        servers:\n          - url: \"".toList =
          '\n' :: loadBalancerText := by
      unfold sharedService loadBalancerText
      rw [toList_lit rfl, toList_lit rfl, toList_lit rfl, toList_lit rfl]
      rfl
    rw [← List.append_assoc, ← List.append_assoc, hall, List.cons_append]
  have hend : "\"\n".toList = ['"', '\n'] := toList_lit rfl
  unfold staticRoutes
  simp only [routerText, ruleOf_eq, String.toList_append, hdashboard, hapex, toList_points, hend,
    List.append_assoc, List.cons_append, List.nil_append, toList_service, hbalancer]

/-- The routers of the static file, for a configuration that is read as it is. -/
theorem routers_staticRoutes (hconfig : mgr.config.IsPlain)
    (hurl : IsQuotable mgr.config.serviceUrl) (hdomain : IsQuotable mgr.domain) :
    ∃ doc, Yaml.read mgr.staticRoutes = some doc ∧
      (routers doc).map Prod.fst = staticRouterNames := by
  have hname : IsQuotable "dashboard." := by decide
  have hdash : IsQuotable ("dashboard." ++ mgr.domain) := by
    rw [IsQuotable, String.toList_append]
    exact List.forall_mem_append.mpr ⟨hname, hdomain⟩
  have hhead : scanner.run scanner.init dashboardText = some (⟨.quoted 12 [] (.text []), 13⟩,
      Yaml.pathTokens (rulePath "zo-tunnel-dashboard".toList)) := by
    unfold dashboardText rulePath
    rw [toList_lit rfl, toList_lit rfl, toList_lit rfl, toList_lit rfl, toList_lit rfl]
    rfl
  have hapex : scanner.run ⟨.fresh, 0⟩ apexText = some (⟨.quoted 12 [] (.text []), 13⟩,
      [⟨4, .key "zo-tunnel-apex".toList⟩, ⟨6, .key "rule".toList⟩]) := by
    unfold apexText
    rw [toList_lit rfl, toList_lit rfl, toList_lit rfl]
    rfl
  have hbalancer : scanner.run ⟨.fresh, 0⟩ loadBalancerText =
      some (⟨.quoted 17 [] (.text []), 18⟩, [⟨2, .key "services".toList⟩,
        ⟨4, .key "zo-tunnel-server".toList⟩, ⟨6, .key "loadBalancer".toList⟩,
        ⟨8, .key "servers".toList⟩, ⟨10, .dash⟩, ⟨12, .key "url".toList⟩]) := by
    unfold loadBalancerText
    rw [toList_lit rfl, toList_lit rfl, toList_lit rfl, toList_lit rfl, toList_lit rfl,
      toList_lit rfl]
    decide +kernel
  have hurl' := Yaml.run_literal 17 18 [] [] hurl
  have hend : ∀ n, scanner.run ⟨.after false, n⟩ ['\n'] = some (⟨.fresh, 0⟩, []) := fun n ↦ rfl
  have hrun := Machine.run_trans (Machine.run_trans hhead (run_routerText mgr hconfig hdash))
    (Machine.run_trans (Machine.run_trans hapex (run_routerText mgr hconfig hdomain))
      (Machine.run_trans hbalancer (Machine.run_trans hurl' (hend _))))
  rw [Yaml.read, Yaml.tokens, toList_staticRoutes, hrun]
  simp [Yaml.Mode.finish, routerTokens, Yaml.pathTokens, rulePath, Yaml.parts, Yaml.push,
    Yaml.collect, Yaml.entryAt, routers, Yaml.Node.at, Yaml.Node.get, staticRouterNames]

end TraefikManager

/-! ## Names of routers -/

end ZoTunnel
