import ZoTunnel.Lib.Disk
import ZoTunnel.Lib.JsonText
import ZoTunnel.Server.Traefik

/-!
# The token in the output of the client

`zotunnel config set` saves the server and the token, and prints what it has saved; `config show`
and `status` print it again. Of the token they print what `masked_token` gives: stars, and for a
token of more than four bytes its first four bytes in front of them.

These four bytes are cut out of a text, which panics if the fourth byte is not the last one of a
character. The file is written by then, so all the commands after it panic as well. And two kinds
of tokens look like their masks. `masked_sound_iff` has the tokens for which neither happens.

What the system lets the commands do is an input. A file that was written in part belongs to no
configuration, and nothing is said about it. The YAML library is a parameter, of which it is assumed
that it reads what it has written.
-/

namespace ZoTunnel

namespace Client

/-! ## Configuration -/

structure ClientTlsConfig where
  enabled : Bool := false
  serverName : String := ""
  skipVerify : Bool := false
  deriving DecidableEq, Repr

structure ZotunnelConfig where
  server : String
  token : String
  tls : ClientTlsConfig := {}
  deriving DecidableEq, Repr

/-- `serde_yaml`. -/
structure SerdeYaml where
  text : ZotunnelConfig → Except String String
  fromStr : String → Except String ZotunnelConfig

/-- What it writes it can read. -/
def SerdeYaml.RoundTrips (yaml : SerdeYaml) : Prop :=
  ∀ cfg, ∃ text, yaml.text cfg = .ok text ∧ yaml.fromStr text = .ok cfg

/-- What is in the way of `save`. -/
structure Saving where
  /-- The variable `HOME`, if it is set to a text. -/
  home : Option String
  makesDir : Bool
  setsDirMode : Bool
  write : FileWrite
  setsFileMode : Bool
  error : String

/-- What is in the way of `load`. -/
structure Loading where
  home : Option String
  visible : Bool
  readable : Bool
  error : String

def homeError : String := "HOME environment variable not set"

def configDir (home : String) : Bytes := Disk.join (Framing.utf8 home) (Framing.utf8 ".zotunnel")

def configPath (home : String) : String :=
  Framing.fromUtf8Lossy (Disk.join (configDir home) (Framing.utf8 "config.yaml"))

/-- The configuration file, if it is there. -/
abbrev ConfigFile := Option Bytes

def ZotunnelConfig.save (yaml : SerdeYaml) (o : Saving) (cfg : ZotunnelConfig)
    (file : ConfigFile) : ConfigFile × Except String Unit :=
  match o.home with
  | none => (file, .error homeError)
  | some _ =>
    if !o.makesDir || !o.setsDirMode then (file, .error o.error)
    else
      match yaml.text cfg with
      | .error e => (file, .error e)
      | .ok text =>
        match o.write with
        | .refused => (file, .error o.error)
        | .cut n => (some ((Framing.utf8 text).take n), .error o.error)
        | .written =>
          (some (Framing.utf8 text), if o.setsFileMode then .ok () else .error o.error)

def ZotunnelConfig.load (yaml : SerdeYaml) (o : Loading) (file : ConfigFile) :
    Except String ZotunnelConfig :=
  match o.home with
  | none => .error homeError
  | some home =>
    match o.visible, file with
    | true, some content =>
      match o.readable, Framing.ofUtf8 content with
      | true, some text => yaml.fromStr text
      | _, _ => .error o.error
    | _, _ => .error ("No config found at " ++ configPath home ++
        ". Run: zotunnel config set --server HOST:6200 --token TOKEN")

/-! ## The mask -/

/-- The characters that take up the first `n` bytes. -/
def charsTo : ℕ → List Char → Option (List Char)
  | 0, _ => some []
  | _ + 1, [] => none
  | n + 1, c :: cs =>
    if c.utf8Size ≤ n + 1 then (charsTo (n + 1 - c.utf8Size) cs).map (c :: ·) else none

/-- `&text[..n]`, which panics unless a character ends at the `n`-th byte. -/
def sliceTo (text : String) (n : ℕ) : Option String := (charsTo n text.toList).map String.ofList

def ZotunnelConfig.maskedToken (cfg : ZotunnelConfig) : Option String :=
  if cfg.token.utf8ByteSize ≤ 4 then some "****"
  else (sliceTo cfg.token 4).map (· ++ "****")

/-! ## Commands -/

/-- A printed line. What is printed of the token is marked. -/
inductive Line
  | text (text : String)
  | token (label masked : String)
  deriving DecidableEq, Repr

def Line.render : Line → String
  | .text s => s
  | .token label masked => label ++ masked

/-- How a command ends. -/
inductive Exit
  | ok
  | failed (text : String)
  | panicked
  deriving DecidableEq, Repr

structure Output where
  lines : List Line
  exit : Exit
  deriving DecidableEq, Repr

structure ConfigSetArgs where
  server : String
  token : String
  tls : Bool := false
  tlsServerName : String := ""
  tlsSkipVerify : Bool := false

/-- A command, with what is in its way. -/
inductive Command
  | configSet (args : ConfigSetArgs) (o : Saving)
  | configShow (o : Loading)
  | status (o : Loading) (running : Except String (List (String × UInt32)))

/-- The line with the token, and what comes before and after it. -/
def printToken (cfg : ZotunnelConfig) (before : List Line) (label : String) (after : Output) :
    Output :=
  match cfg.maskedToken with
  | none => ⟨before, .panicked⟩
  | some masked => ⟨before ++ .token label masked :: after.lines, after.exit⟩

def ConfigSetArgs.config (args : ConfigSetArgs) : ZotunnelConfig where
  server := args.server
  token := args.token
  tls := { enabled := args.tls, serverName := args.tlsServerName, skipVerify := args.tlsSkipVerify }

def cmdConfigSet (yaml : SerdeYaml) (args : ConfigSetArgs) (o : Saving) (file : ConfigFile) :
    ConfigFile × Output :=
  match args.config.save yaml o file with
  | (file, .error e) => (file, ⟨[], .failed e⟩)
  | (file, .ok ()) =>
    (file, printToken args.config
      [.text ("Saved " ++ configPath (o.home.getD "")), .text ("  server: " ++ args.config.server)]
      "  token:  " ⟨[], .ok⟩)

def cmdConfigShow (yaml : SerdeYaml) (o : Loading) (file : ConfigFile) : Output :=
  match ZotunnelConfig.load yaml o file with
  | .error e => ⟨[], .failed e⟩
  | .ok cfg =>
    printToken cfg [.text ("server: " ++ cfg.server)] "token:  "
      ⟨[.text ("tls:    " ++ toString cfg.tls.enabled)], .ok⟩

/-- The version of the client. -/
def pkgVersion : String := "0.0.5"

/-- The second part of `status`. -/
def printRunning (running : Except String (List (String × UInt32))) : Output :=
  match running with
  | .error e => ⟨[], .failed e⟩
  | .ok [] => ⟨[.text "tunnels: (none running in background)"], .ok⟩
  | .ok tunnels =>
    ⟨.text "tunnels:" ::
      (tunnels.map fun t ↦ .text ("  " ++ t.1 ++ "  pid=" ++ toString t.2)) ++
      [.text "Stop: zotunnel stop <name>   or   zotunnel stop"], .ok⟩

def cmdStatus (yaml : SerdeYaml) (o : Loading) (running : Except String (List (String × UInt32)))
    (file : ConfigFile) : Output :=
  match ZotunnelConfig.load yaml o file with
  | .ok cfg =>
    printToken cfg [.text ("zotunnel v" ++ pkgVersion), .text ("server: " ++ cfg.server)]
      "token:  " (printRunning running)
  | .error _ =>
    let rest := printRunning running
    ⟨.text ("zotunnel v" ++ pkgVersion) ::
      .text "Not configured. Run: zotunnel config set --server HOST:6200 --token TOKEN" ::
        rest.lines, rest.exit⟩

/-- One command. Only `config set` touches the file. -/
def exec (yaml : SerdeYaml) (file : ConfigFile) : Command → ConfigFile × Output
  | .configSet args o => cmdConfigSet yaml args o file
  | .configShow o => (file, cmdConfigShow yaml o file)
  | .status o running => (file, cmdStatus yaml o running file)

/-- A command that has run: the file that it found, and what it printed. -/
structure Executed where
  file : ConfigFile
  command : Command
  output : Output

/-- Commands one after the other. -/
def execAll (yaml : SerdeYaml) : ConfigFile → List Command → List Executed
  | _, [] => []
  | file, cmd :: cmds =>
    ⟨file, cmd, (exec yaml file cmd).2⟩ :: execAll yaml (exec yaml file cmd).1 cmds

theorem output_of_mem_execAll {yaml : SerdeYaml} {file : ConfigFile} {cmds : List Command}
    {e : Executed} (he : e ∈ execAll yaml file cmds) :
    e.output = (exec yaml e.file e.command).2 := by
  induction cmds generalizing file with
  | nil => cases he
  | cons cmd cmds ih =>
    rw [execAll, List.mem_cons] at he
    rcases he with rfl | he
    · rfl
    · exact ih he

/-! ## Slices -/

theorem utf8ByteSize_ofList (l : List Char) :
    (String.ofList l).utf8ByteSize = (l.map Char.utf8Size).sum := by
  induction l with
  | nil => rfl
  | cons c l ih =>
    rw [String.ofList_cons, String.utf8ByteSize_append, String.utf8ByteSize_singleton, ih]
    rfl

theorem charsTo_eq_some_iff {n : ℕ} {l front : List Char} :
    charsTo n l = some front ↔ ∃ rest, l = front ++ rest ∧ (front.map Char.utf8Size).sum = n := by
  induction n, l using charsTo.induct generalizing front with
  | case1 l =>
    rw [charsTo, Option.some.injEq]
    constructor
    · rintro rfl
      exact ⟨l, rfl, rfl⟩
    · rintro ⟨rest, -, hsum⟩
      cases front with
      | nil => rfl
      | cons c front =>
        rw [List.map_cons, List.sum_cons] at hsum
        have := c.utf8Size_pos
        omega
  | case2 n =>
    rw [charsTo]
    constructor
    · intro h
      cases h
    · rintro ⟨rest, hl, hsum⟩
      rw [(List.append_eq_nil_iff.mp hl.symm).1] at hsum
      cases hsum
  | case3 n c cs hle ih =>
    rw [charsTo, if_pos hle, Option.map_eq_some_iff]
    constructor
    · rintro ⟨front, hfront, rfl⟩
      obtain ⟨rest, rfl, hsum⟩ := ih.mp hfront
      exact ⟨rest, rfl, by rw [List.map_cons, List.sum_cons]; omega⟩
    · rintro ⟨rest, hl, hsum⟩
      cases front with
      | nil => cases hsum
      | cons c' front =>
        obtain ⟨rfl, rfl⟩ := List.cons.inj hl
        rw [List.map_cons, List.sum_cons] at hsum
        exact ⟨front, ih.mpr ⟨rest, rfl, by omega⟩, rfl⟩
  | case4 n c cs hlt =>
    rw [charsTo, if_neg hlt]
    constructor
    · intro h
      cases h
    · rintro ⟨rest, hl, hsum⟩
      cases front with
      | nil => cases hsum
      | cons c' front =>
        obtain ⟨rfl, -⟩ := List.cons.inj hl
        rw [List.map_cons, List.sum_cons] at hsum
        omega

/-- A slice is the front of the text that has that many bytes, if there is one. -/
theorem sliceTo_eq_some_iff {text : String} {n : ℕ} {front : String} :
    sliceTo text n = some front ↔ ∃ rest, text = front ++ rest ∧ front.utf8ByteSize = n := by
  rw [sliceTo, Option.map_eq_some_iff]
  constructor
  · rintro ⟨l, hl, rfl⟩
    obtain ⟨rest, htext, hsum⟩ := charsTo_eq_some_iff.mp hl
    refine ⟨String.ofList rest, ?_, by rw [utf8ByteSize_ofList, hsum]⟩
    rw [← String.ofList_append, ← htext, String.ofList_toList]
  · rintro ⟨rest, rfl, hsize⟩
    refine ⟨front.toList, charsTo_eq_some_iff.mpr ⟨rest.toList, String.toList_append, ?_⟩,
      String.ofList_toList⟩
    rw [← utf8ByteSize_ofList, String.ofList_toList, hsize]

theorem maskedToken_eq_some_iff {cfg : ZotunnelConfig} {masked : String} :
    cfg.maskedToken = some masked ↔ (cfg.token.utf8ByteSize ≤ 4 ∧ masked = "****") ∨
      (4 < cfg.token.utf8ByteSize ∧ ∃ front rest, cfg.token = front ++ rest ∧
        front.utf8ByteSize = 4 ∧ masked = front ++ "****") := by
  rw [ZotunnelConfig.maskedToken]
  split
  · rename_i hle
    rw [Option.some.injEq]
    exact ⟨fun h ↦ .inl ⟨hle, h.symm⟩, fun h ↦ h.elim (·.2.symm) fun h ↦ absurd hle h.1.not_ge⟩
  · rename_i hlt
    rw [Option.map_eq_some_iff]
    constructor
    · rintro ⟨front, hfront, rfl⟩
      obtain ⟨rest, htoken, hsize⟩ := sliceTo_eq_some_iff.mp hfront
      exact .inr ⟨Nat.lt_of_not_le hlt, front, rest, htoken, hsize, rfl⟩
    · rintro (⟨hle, -⟩ | ⟨-, front, rest, htoken, hsize, rfl⟩)
      · exact absurd hle hlt
      · exact ⟨front, sliceTo_eq_some_iff.mpr ⟨rest, htoken, hsize⟩, rfl⟩

/-! ## Which tokens are masked -/

/-- The command does not panic, and what it prints of the token is stars, or four bytes at most and
stars behind them, but not the token. -/
structure Masks (token : String) (out : Output) : Prop where
  noPanic : out.exit ≠ .panicked
  masked : ∀ label masked, .token label masked ∈ out.lines →
    (masked = "****" ∨ ∃ front rest, token = front ++ rest ∧ front.utf8ByteSize ≤ 4 ∧
      masked = front ++ "****") ∧ masked ≠ token

/-- Neither a `config set` with this token, whatever is in its way, nor a later command that finds
the file as it has left it, gives the token away or panics. -/
def Sound (yaml : SerdeYaml) (token : String) : Prop :=
  ∀ args o file, args.token = token →
    Masks token (exec yaml file (.configSet args o)).2 ∧
    ∀ text, yaml.text args.config = .ok text →
      (exec yaml file (.configSet args o)).1 = some (Framing.utf8 text) →
      ∀ later, ∀ e ∈ execAll yaml (some (Framing.utf8 text)) later,
        e.file = some (Framing.utf8 text) → (∀ args o, e.command ≠ .configSet args o) →
        Masks token e.output

/-- A character ends at the fourth byte, if there are more than four, and the token does not look
like a mask of itself. -/
def Maskable (token : String) : Prop :=
  (token.utf8ByteSize ≤ 4 ∨ ∃ front rest, token = front ++ rest ∧ front.utf8ByteSize = 4) ∧
    token ≠ "****" ∧ ∀ front, front.utf8ByteSize = 4 → token ≠ front ++ "****"

variable {yaml : SerdeYaml} {cfg : ZotunnelConfig} {token label : String} {file : ConfigFile}
  {before : List Line} {after : Output}

/-- A maskable token is printed as a mask, and not as itself. -/
theorem Maskable.maskedToken (htoken : Maskable cfg.token) : ∃ masked,
    cfg.maskedToken = some masked ∧ (masked = "****" ∨ ∃ front rest, cfg.token = front ++ rest ∧
      front.utf8ByteSize ≤ 4 ∧ masked = front ++ "****") ∧ masked ≠ cfg.token := by
  obtain ⟨hboundary, hstars, hlike⟩ := htoken
  by_cases hle : cfg.token.utf8ByteSize ≤ 4
  · exact ⟨"****", maskedToken_eq_some_iff.mpr (.inl ⟨hle, rfl⟩), .inl rfl, hstars.symm⟩
  · obtain ⟨front, rest, heq, hsize⟩ := hboundary.resolve_left hle
    refine ⟨front ++ "****", maskedToken_eq_some_iff.mpr (.inr ⟨Nat.lt_of_not_le hle, front, rest,
      heq, hsize, rfl⟩), .inr ⟨front, rest, heq, hsize.le, rfl⟩, fun h ↦ hlike front hsize h.symm⟩

/-- What is printed around the token has no token in it. -/
def Plain (lines : List Line) : Prop := ∀ label masked, .token label masked ∉ lines

theorem masks_of_plain {out : Output} (hlines : Plain out.lines) (hexit : out.exit ≠ .panicked) :
    Masks token out :=
  ⟨hexit, fun label masked h ↦ absurd h (hlines label masked)⟩

theorem masks_printToken (htoken : Maskable cfg.token) (hbefore : Plain before)
    (hafter : Plain after.lines) (hexit : after.exit ≠ .panicked) :
    Masks cfg.token (printToken cfg before label after) := by
  obtain ⟨masked, hmasked, hfront, hne⟩ := htoken.maskedToken
  rw [printToken, hmasked]
  refine ⟨hexit, fun label' masked' h ↦ ?_⟩
  rcases List.mem_append.mp h with h | h
  · exact absurd h (hbefore _ _)
  · rcases List.mem_cons.mp h with h | h
    · obtain ⟨-, rfl⟩ := Line.token.inj h
      exact ⟨hfront, hne⟩
    · exact absurd h (hafter _ _)

theorem printRunning_spec (running : Except String (List (String × UInt32))) :
    Plain (printRunning running).lines ∧ (printRunning running).exit ≠ .panicked := by
  rcases running with e | _ | ⟨t, ts⟩ <;> refine ⟨fun label masked h ↦ ?_, fun h ↦ by cases h⟩
  · cases h
  · simp [printRunning] at h
  · simp [printRunning] at h

theorem plain_text (lines : List String) : Plain (lines.map .text) := by
  intro label masked h
  obtain ⟨s, -, heq⟩ := List.mem_map.mp h
  cases heq

/-! ### Maskable tokens are masked -/

theorem masks_cmdConfigSet {args : ConfigSetArgs} (htoken : Maskable args.token) (o : Saving) :
    Masks args.token (cmdConfigSet yaml args o file).2 := by
  rw [cmdConfigSet]
  split
  · exact masks_of_plain (plain_text []) fun h ↦ by cases h
  · change Masks args.config.token _
    exact masks_printToken htoken (plain_text [_, _]) (plain_text []) fun h ↦ by cases h

/-- What is loaded from the file that was saved is the configuration, if anything is. -/
theorem load_eq_ok {text : String} {cfg' : ZotunnelConfig} (hyaml : yaml.RoundTrips)
    (htext : yaml.text cfg = .ok text) {o : Loading}
    (h : ZotunnelConfig.load yaml o (some (Framing.utf8 text)) = .ok cfg') : cfg' = cfg := by
  obtain ⟨text', htext', hfrom⟩ := hyaml cfg
  obtain rfl := Except.ok.inj (htext.symm.trans htext')
  rw [ZotunnelConfig.load] at h
  split at h
  · cases h
  split at h
  · rename_i content _ hcontent
    obtain rfl := Option.some.inj hcontent
    rw [Framing.ofUtf8_utf8] at h
    split at h
    · rename_i text' _ htext'
      obtain rfl := Option.some.inj htext'
      exact Except.ok.inj (h.symm.trans hfrom)
    · cases h
  · cases h

theorem masks_exec {text : String} (hyaml : yaml.RoundTrips) (htext : yaml.text cfg = .ok text)
    (htoken : Maskable cfg.token) {cmd : Command} (hcmd : ∀ args o, cmd ≠ .configSet args o) :
    Masks cfg.token (exec yaml (some (Framing.utf8 text)) cmd).2 := by
  cases cmd with
  | configSet args o => exact absurd rfl (hcmd args o)
  | configShow o =>
    rw [exec, cmdConfigShow]
    split
    · exact masks_of_plain (plain_text []) fun h ↦ by cases h
    · rename_i cfg' hload
      obtain rfl := load_eq_ok hyaml htext hload
      exact masks_printToken htoken (plain_text [_]) (plain_text [_]) fun h ↦ by cases h
  | status o running =>
    obtain ⟨hplain, hexit⟩ := printRunning_spec running
    rw [exec, cmdStatus]
    split
    · rename_i cfg' hload
      obtain rfl := load_eq_ok hyaml htext hload
      exact masks_printToken htoken (plain_text [_, _]) hplain hexit
    · refine masks_of_plain (fun label masked h ↦ ?_) hexit
      rcases List.mem_cons.mp h with h | h
      · cases h
      · rcases List.mem_cons.mp h with h | h
        · cases h
        · exact hplain _ _ h

theorem sound_of_maskable (hyaml : yaml.RoundTrips) (htoken : Maskable token) :
    Sound yaml token := by
  rintro args o file rfl
  refine ⟨masks_cmdConfigSet htoken o, fun text htext _ later e he hfile hcmd ↦ ?_⟩
  rw [output_of_mem_execAll he, hfile]
  change Masks args.config.token _
  exact masks_exec hyaml htext htoken hcmd

/-! ### The others are not -/

/-- Nothing is in the way. -/
def freeSaving : Saving := ⟨some "/", true, true, .written, true, ""⟩

theorem cmdConfigSet_free (hyaml : yaml.RoundTrips) (args : ConfigSetArgs) (file : ConfigFile) :
    (cmdConfigSet yaml args freeSaving file).2 = printToken args.config
      [.text ("Saved " ++ configPath "/"), .text ("  server: " ++ args.config.server)]
      "  token:  " ⟨[], .ok⟩ := by
  obtain ⟨text, htext, -⟩ := hyaml args.config
  rw [cmdConfigSet, ZotunnelConfig.save, freeSaving, htext]
  rfl

theorem exists_maskedToken_of_masks (h : Masks cfg.token (printToken cfg before label after)) :
    ∃ masked, cfg.maskedToken = some masked ∧ masked ≠ cfg.token := by
  rcases hmasked : cfg.maskedToken with _ | masked
  · rw [printToken, hmasked] at h
    exact absurd rfl h.noPanic
  · rw [printToken, hmasked] at h
    exact ⟨masked, rfl, (h.masked label masked
      (List.mem_append_right _ List.mem_cons_self)).2⟩

theorem maskable_of_maskedToken {masked : String} (hmasked : cfg.maskedToken = some masked)
    (hne : masked ≠ cfg.token) : Maskable cfg.token := by
  have hstars : "****".utf8ByteSize = 4 := by decide
  have hmask := maskedToken_eq_some_iff.mp hmasked
  refine ⟨?_, fun heq ↦ ?_, fun front hsize heq ↦ ?_⟩
  · rcases hmask with ⟨hle, -⟩ | ⟨-, front, rest, heq, hsize, -⟩
    · exact .inl hle
    · exact .inr ⟨front, rest, heq, hsize⟩
  · have hmasked' : cfg.maskedToken = some "****" :=
      maskedToken_eq_some_iff.mpr (.inl ⟨by rw [heq, hstars], rfl⟩)
    rw [hmasked, Option.some.injEq] at hmasked'
    exact hne (hmasked'.trans heq.symm)
  · have hlt : 4 < cfg.token.utf8ByteSize := by
      rw [heq, String.utf8ByteSize_append, hsize, hstars]
      decide
    have hmasked' : cfg.maskedToken = some (front ++ "****") :=
      maskedToken_eq_some_iff.mpr (.inr ⟨hlt, front, "****", heq, hsize, rfl⟩)
    rw [hmasked, Option.some.injEq] at hmasked'
    exact hne (hmasked'.trans heq.symm)

/-- **Which tokens are masked.** With a library that reads what it writes, the commands neither
panic nor print the token exactly if a character ends at the fourth byte of a token that has more
than four, and the token does not look like a mask of itself. -/
theorem masked_sound_iff (yaml : SerdeYaml) (hyaml : yaml.RoundTrips) (token : String) :
    Sound yaml token ↔ Maskable token := by
  constructor
  · intro hsound
    let args : ConfigSetArgs := { server := "", token := token }
    have hmasks := (hsound args freeSaving none rfl).1
    rw [exec, cmdConfigSet_free hyaml] at hmasks
    change Masks args.config.token _ at hmasks
    obtain ⟨masked, hmasked, hne⟩ := exists_maskedToken_of_masks hmasks
    exact maskable_of_maskedToken hmasked hne
  · exact sound_of_maskable hyaml

/-! ## At a configuration -/

section Sample

open JsonText

/-- A configuration as one line of JSON, which is YAML. -/
private def configJson : Codec ZotunnelConfig :=
  (((Codec.str.after ['\x7b']).seq ((Codec.str.after [',']).seq ((Codec.bool.after [',']).seq
    ((Codec.str.after [',']).seq (Codec.bool.after [',']))))).upTo ['\x7d']).iso
    (fun p ↦ some ⟨p.1, p.2.1, ⟨p.2.2.1, p.2.2.2.1, p.2.2.2.2⟩⟩)
    (fun cfg ↦ (cfg.server, cfg.token, cfg.tls.enabled, cfg.tls.serverName, cfg.tls.skipVerify))
    fun _ ↦ rfl

def sampleConfig : ZotunnelConfig := { server := "example.com:6200", token := "sesame" }

/-- What the library writes for it. -/
def sampleText : String := "server: " ++ "example.com:6200\ntoken: sesame\ntls:\n" ++
  "  enabled: false\n  server_name: ''\n  skip_verify: false\n"

/-- The text of the library at one configuration, and one line at the others. -/
def sampleYaml : SerdeYaml where
  text cfg := .ok (if cfg = sampleConfig then sampleText else String.ofList (configJson.print cfg))
  fromStr text :=
    if text = sampleText then .ok sampleConfig
    else
      match configJson.parse text.toList with
      | some (cfg, []) => .ok cfg
      | _ => .error "invalid configuration"

theorem sampleYaml_roundTrips : sampleYaml.RoundTrips := by
  intro cfg
  refine ⟨_, rfl, ?_⟩
  split
  · rename_i hcfg
    simp only [sampleYaml, if_true, hcfg]
  · have hfirst : (configJson.print cfg).head? = some '\x7b' := rfl
    have hserver : "server: ".toList = 's' :: ['e', 'r', 'v', 'e', 'r', ':', ' '] :=
      Framing.toList_lit rfl
    have hne : String.ofList (configJson.print cfg) ≠ sampleText := by
      intro h
      rw [← String.toList_inj, String.toList_ofList, sampleText, String.toList_append,
        String.toList_append, hserver, List.cons_append, List.cons_append] at h
      rw [h, List.head?_cons, Option.some.injEq] at hfirst
      exact absurd hfirst (by decide)
    have hparse : configJson.parse (configJson.print cfg) = some (cfg, []) := by
      simpa using configJson.parse_print cfg []
    simp only [sampleYaml, if_neg hne, String.toList_ofList, hparse]

end Sample

theorem masked_sound_iff_sesame : Sound sampleYaml "sesame" ↔ Maskable "sesame" :=
  masked_sound_iff sampleYaml sampleYaml_roundTrips "sesame"

/-- **A token that panics.** The fourth and the fifth byte of `aaaé` are one character. -/
theorem masked_not_sound : ¬∀ yaml : SerdeYaml, yaml.RoundTrips → ∀ token, Sound yaml token := by
  intro hsound
  let args : ConfigSetArgs := { server := "example.com:6200", token := "aaaé" }
  have hmasks := (hsound sampleYaml sampleYaml_roundTrips "aaaé" args freeSaving none rfl).1
  rw [exec, cmdConfigSet_free sampleYaml_roundTrips] at hmasks
  have hpanics : args.config.maskedToken = none := by decide
  rw [printToken, hpanics] at hmasks
  exact hmasks.noPanic rfl

end Client

end ZoTunnel
