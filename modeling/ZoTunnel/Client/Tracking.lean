import ZoTunnel.Client.Tunnels

/-!
# Background tunnels stay tracked

A daemon that runs in the background can be listed and stopped as long as its pid file has its
number. Nothing protects the file: `read_pid` removes it when the number in it is dead, `stop`
removes it behind the signal, a second `http -d` truncates it, and every `http` process removes the
file of its name on its way out, whosever number is in it.

What a command does to a pid file rests on what it has read there, so it is right as long as that is
still true. A command *expects* something of the file while it is between its look and the last step
that rests on it, and it is *starting* a daemon from the moment it has found none to the moment when
the pid file is written. If nothing else expects anything of a name while a daemon is started for
it, if no process removes the file of another one's daemon, and if all names are names of files,
then every live daemon keeps its file: this is `live_tracked`. A second run under the name in the
foreground is enough for the opposite (`live_untracked`), and so is one under `./` and the name.
-/

namespace ZoTunnel

namespace Tunnels

/-- A daemon of the name that has not begun to remove its file, and that nobody has stopped. -/
def Proc.isLive (name : String) (p : Proc) : Bool :=
  p.kind.isDaemonOf name && (p.life = .running || p.life = .leaving) && !p.signalled

/-- A command with open business on a pid file: its name, and the only pid that a recorded live
daemon can have. -/
def Cmd.expects : Cmd → Option (String × Option UInt32)
  | reading _ name (.probe pid) | signalling name pid _ => some (name, some pid)
  | reading _ name .remove | unlinking name _ | spawning name | opening name _ | writing name .. =>
    some (name, none)
  | reading _ _ .start | done => none

/-- The name for which a command has found no daemon, and starts one. -/
def Cmd.starting : Cmd → Option String
  | spawning name | opening name _ | writing name .. => some name
  | reading .. | signalling .. | unlinking .. | done => none

/-- The file of a daemon is written, or is being written. -/
def State.isFiled (s : State) (name : String) (p : Proc) : Bool :=
  p.recorded || (List.range s.nextCmd).any fun c ↦
    s.cmds c = some (.writing name p.pid true) || s.cmds c = some (.writing name p.pid false)

/-- No other command satisfies the predicate. -/
def State.alone (s : State) (c : CmdId) (f : Cmd → Bool) : Bool :=
  (List.range s.nextCmd).all fun c' ↦ c' = c || !(s.cmds c').any f

/-- Whether a command that is about to look at the file, or to remove it as dead, is free to do
so. -/
def State.mayGoOn (s : State) (c : CmdId) (caller : Caller) (name : String) (found : Bool) : Bool :=
  if caller = .spawnDetached ∧ !found then s.alone c fun cmd ↦ cmd.expects.any (·.1 = name)
  else s.alone c fun cmd ↦ cmd.starting = some name

/-- Commands and processes get file names. No command looks at a pid file while a daemon is started
for it, none starts while another one has open business there, and no process removes the file of
another one's daemon. -/
def exclusive (s : State) : Act → Bool
  | .begin command _ => command.isPlain
  | .exec _ _ _ kind => kind.isPlain
  | .read c =>
    match s.cmds c with
    | some (.reading caller name .start) =>
      s.mayGoOn c caller name (((s.files.lookup name).map filePid).getD 0 ≠ 0)
    | _ => true
  | .remove c =>
    match s.cmds c with
    | some (.reading caller name .remove) => s.mayGoOn c caller name false
    | _ => true
  | .cleanup pid =>
    match s.proc pid with
    | some p =>
      match p.kind.tunnel with
      | some name => s.procs.all fun q ↦ !(q.isLive name && s.isFiled name q) || q.pid = pid
      | none => true
    | none => true
  | .edit .. => false
  | _ => true

variable {paths : Paths} {files : AList fun _ : String ↦ Bytes} {s t : State} {a : Act}
  {es h : List Event} {c c' : CmdId} {cmd cmd' : Cmd} {name name' : String} {pid : UInt32}
  {p q : Proc} {o : Option UInt32}

/-! ## Live daemons -/

theorem isLive_iff : p.isLive name = true ↔
    p.kind.isDaemonOf name = true ∧ (p.life = .running ∨ p.life = .leaving) ∧
      p.signalled = false := by
  simp only [Proc.isLive, Bool.and_eq_true, Bool.or_eq_true, decide_eq_true_eq,
    Bool.not_eq_true', and_assoc]

theorem tunnel_of_isLive (hlive : p.isLive name = true) : p.kind.tunnel = some name := by
  have hdaemon := (isLive_iff.mp hlive).1
  revert hdaemon
  cases p.kind with
  | daemon name' c => exact fun hdaemon ↦ congrArg some (beq_iff_eq.mp hdaemon)
  | foreground | unrelated => exact fun hdaemon ↦ by cases hdaemon

theorem starting_expects (hcmd : cmd.starting = some name) : cmd.expects = some (name, none) := by
  cases cmd with
  | spawning | opening | writing =>
    rw [Cmd.starting, Option.some.injEq] at hcmd
    rw [Cmd.expects, hcmd]
  | reading | signalling | unlinking | done => cases hcmd

@[simp] theorem expects_stopNext (names : List String) : (stopNext names).expects = none := by
  cases names <;> rfl

@[simp] theorem expects_listNext (all : Bool) (out : List (String × UInt32))
    (names : List String) : (listNext all out names).expects = none := by
  cases names with
  | cons => rfl
  | nil =>
    rw [listNext]
    split
    · exact expects_stopNext _
    · rfl

@[simp] theorem expects_first (entries : List String) (command : Command) :
    (command.first entries).expects = none := by
  cases command with
  | status => exact expects_listNext ..
  | stop name =>
    cases name with
    | none => exact expects_listNext ..
    | some => rfl
  | detach => rfl

theorem expects_return_none {caller : Caller}
    (hcmd : (caller.return name none).expects = some (name', o)) :
    caller = .spawnDetached ∧ name' = name ∧ o = none := by
  cases caller with
  | list =>
    rw [Caller.return, expects_listNext] at hcmd
    cases hcmd
  | stop =>
    rw [Caller.return, expects_stopNext] at hcmd
    cases hcmd
  | spawnDetached =>
    rw [Caller.return, Cmd.expects, Option.some.injEq, Prod.mk.injEq] at hcmd
    exact ⟨rfl, hcmd.1.symm, hcmd.2.symm⟩

theorem expects_return_some {caller : Caller}
    (hcmd : (caller.return name (some pid)).expects = some (name', o)) :
    name' = name ∧ o = some pid := by
  cases caller with
  | list =>
    rw [Caller.return, expects_listNext] at hcmd
    cases hcmd
  | stop =>
    rw [Caller.return, Cmd.expects, Option.some.injEq, Prod.mk.injEq] at hcmd
    exact ⟨hcmd.1.symm, hcmd.2.symm⟩
  | spawnDetached => cases hcmd

theorem not_starting_return_some {caller : Caller} :
    (caller.return name (some pid)).starting = none := by
  cases caller with
  | list all rest out =>
    by_contra hne
    obtain ⟨n, hn⟩ := Option.ne_none_iff_exists'.mp hne
    have hexp := starting_expects hn
    rw [Caller.return, expects_listNext] at hexp
    cases hexp
  | stop | spawnDetached => rfl

@[simp] theorem expects_unlinked : (cmd.unlinked paths name).expects = cmd.expects := by
  cases cmd <;> rfl

@[simp] theorem starting_unlinked : (cmd.unlinked paths name).starting = cmd.starting := by
  cases cmd <;> rfl

theorem eq_unlinked_writing {linked : Bool}
    (heq : Cmd.writing name' pid linked = cmd.unlinked paths name) : ∃ linked',
      cmd = .writing name' pid linked' ∧ linked = (linked' && paths.place name' ≠ some name) := by
  cases cmd with
  | writing n pid' linked' =>
    rw [Cmd.unlinked, Cmd.writing.injEq] at heq
    obtain ⟨rfl, rfl, rfl⟩ := heq
    exact ⟨linked', rfl, rfl⟩
  | reading | signalling | unlinking | spawning | opening | done => cases heq

/-! ## The invariant -/

/-- A live daemon whose pid file has been written. -/
structure Recorded (procs : List Proc) (name : String) (p : Proc) : Prop where
  mem : p ∈ procs
  live : p.isLive name = true
  recorded : p.recorded = true

/-- The table of processes: pids are positive for `kill` and single, and a daemon is the user's. -/
structure Table (procs : List Proc) : Prop where
  positive : ∀ {p}, p ∈ procs → 0 < p.pid.toInt32
  single : ∀ {p q}, p ∈ procs → q ∈ procs → p.pid = q.pid → p = q
  mine : ∀ {p name}, p ∈ procs → p.kind.isDaemonOf name = true → p.mine = true

structure State.Orderly (s : State) : Prop where
  file : ∀ {p name}, Recorded s.procs name p →
    s.files.lookup name = some (Framing.utf8 (pidText p.pid))
  /-- Who expects something of a name is right. -/
  expects : ∀ {c cmd name o p}, s.cmds c = some cmd → cmd.expects = some (name, o) →
    Recorded s.procs name p → o = some p.pid
  /-- The file of a daemon that is being recorded is open, and empty. -/
  fresh : ∀ {c name pid linked p}, s.cmds c = some (.writing name pid linked) → p ∈ s.procs →
    p.isLive name = true → p.pid = pid → linked = true ∧ s.files.lookup name = some []
  /-- Nobody else expects anything of a name for which a daemon is being started. -/
  alone : ∀ {c c' cmd cmd' name o}, s.cmds c = some cmd → cmd.starting = some name →
    s.cmds c' = some cmd' → cmd'.expects = some (name, o) → c' = c

namespace Table

variable {procs procs' : List Proc}

theorem cons (hs : Table s.procs) (hfree : s.isFree p.pid = true)
    (hmine : ∀ name, p.kind.isDaemonOf name = true → p.mine = true) : Table (p :: s.procs) := by
  obtain ⟨hpos, hother⟩ := isFree_eq_true.mp hfree
  refine ⟨fun {q} hq ↦ ?_, fun {q r} hq hr heq ↦ ?_, fun {q name} hq hdaemon ↦ ?_⟩
  · rcases List.mem_cons.mp hq with rfl | hq
    · exact hpos
    · exact hs.positive hq
  · rcases List.mem_cons.mp hq with rfl | hq' <;> rcases List.mem_cons.mp hr with rfl | hr'
    · rfl
    · exact absurd (has_eq_true.mpr (.inl heq.symm)) (hother r hr')
    · exact absurd (has_eq_true.mpr (.inl heq)) (hother q hq')
    · exact hs.single hq' hr' heq
  · rcases List.mem_cons.mp hq with rfl | hq
    · exact hmine name hdaemon
    · exact hs.mine hq hdaemon

theorem map {f : Proc → Proc} (hs : Table procs) (hf : Keeps f) : Table (procs.map f) := by
  refine ⟨fun {p} hp ↦ ?_, fun {p q} hp hq heq ↦ ?_, fun {p name} hp hdaemon ↦ ?_⟩
  · obtain ⟨p, hp', rfl⟩ := List.mem_map.mp hp
    rw [(hf p).1]
    exact hs.positive hp'
  · obtain ⟨p, hp', rfl⟩ := List.mem_map.mp hp
    obtain ⟨q, hq', rfl⟩ := List.mem_map.mp hq
    rw [(hf p).1, (hf q).1] at heq
    rw [hs.single hp' hq' heq]
  · obtain ⟨p, hp', rfl⟩ := List.mem_map.mp hp
    rw [(hf p).2.1]
    rw [(hf p).2.2] at hdaemon
    exact hs.mine hp' hdaemon

theorem of_subset (hs : Table procs) (hsub : procs' ⊆ procs) : Table procs' where
  positive hp := hs.positive (hsub hp)
  single hp hq := hs.single (hsub hp) (hsub hq)
  mine hp := hs.mine (hsub hp)

theorem removePid (hs : Table s.procs) (name : String) : Table (s.removePid paths name).procs := by
  rw [State.removePid_procs]
  exact hs

end Table

private theorem Transition.table (htr : Transition paths s a t es) (hs : Table s.procs) :
    Table t.procs := by
  cases htr with
  | begin | abandon | readNone | readPid | alive | dead | openFile | edit => exact hs
  | @remove _ _ name | @unlink _ name => exact hs.removePid name
  | signal => exact hs.map (keeps_sigterm _)
  | spawn hc hfree => exact Table.cons hs hfree fun _ _ ↦ rfl
  | @write c name file pid | @writeLost c name pid => exact hs.map (keeps_record name c pid)
  | exec hkind hfree =>
    refine Table.cons hs hfree fun name hdaemon ↦ ?_
    rw [hkind name] at hdaemon
    cases hdaemon
  | startThread => exact hs.map (keeps_startThread _ _)
  | endThread => exact hs.map (keeps_endThread _ _)
  | leave | die => exact hs.map (keeps_setLife _ _)
  | @cleanup _ name => exact (hs.removePid name).map (keeps_setLife _ _)
  | reap => exact hs.of_subset fun p hp ↦ List.mem_of_mem_filter hp
  | reboot => exact hs.of_subset fun p hp ↦ by cases hp

/-! ## What keeps the order -/

namespace State.Orderly

/-- A command goes on: what it expects has to be right, and not to meet with another command. -/
theorem setCmd (hs : s.Orderly)
    (hexpects : ∀ name o, cmd.expects = some (name, o) →
      ∀ p, Recorded s.procs name p → o = some p.pid)
    (hfresh : ∀ name pid linked, cmd = .writing name pid linked → ∀ p ∈ s.procs,
      p.isLive name = true → p.pid = pid → linked = true ∧ s.files.lookup name = some [])
    (hstarting : ∀ name o, cmd.expects = some (name, o) → ∀ c' cmd', s.cmds c' = some cmd' →
      cmd'.starting = some name → c' = c)
    (halone : ∀ name, cmd.starting = some name → ∀ c' cmd' o, s.cmds c' = some cmd' →
      cmd'.expects = some (name, o) → c' = c) : (s.setCmd c cmd).Orderly where
  file := hs.file
  expects := by
    intro c' cmd' name o p hc' hcmd' hp
    rcases setCmd_cmds hc' with ⟨-, rfl⟩ | ⟨-, hc'⟩
    · exact hexpects name o hcmd' p hp
    · exact hs.expects hc' hcmd' hp
  fresh := by
    intro c' name pid linked p hc' hp hlive hpid
    rcases setCmd_cmds hc' with ⟨-, heq⟩ | ⟨-, hc'⟩
    · exact hfresh name pid linked heq.symm p hp hlive hpid
    · exact hs.fresh hc' hp hlive hpid
  alone := by
    intro c₁ c₂ cmd₁ cmd₂ name o hc₁ hcmd₁ hc₂ hcmd₂
    rcases setCmd_cmds hc₁ with ⟨rfl, rfl⟩ | ⟨-, hold₁⟩ <;>
      rcases setCmd_cmds hc₂ with ⟨rfl, rfl⟩ | ⟨-, hold₂⟩
    · rfl
    · exact halone name hcmd₁ c₂ cmd₂ o hold₂ hcmd₂
    · exact (hstarting name o hcmd₂ c₁ cmd₁ hold₁ hcmd₁).symm
    · exact hs.alone hold₁ hcmd₁ hold₂ hcmd₂

/-- A command goes on to something that rests on nothing. -/
theorem rest (hs : s.Orderly) (hcmd : cmd.expects = none) : (s.setCmd c cmd).Orderly := by
  have habsurd : ∀ {name o}, cmd.expects ≠ some (name, o) := by
    intro name o hsome
    rw [hcmd] at hsome
    cases hsome
  refine hs.setCmd (fun _ _ h ↦ absurd h habsurd) (fun name pid linked heq ↦ ?_)
    (fun _ _ h ↦ absurd h habsurd) (fun _ h ↦ absurd (starting_expects h) habsurd)
  rw [heq] at hcmd
  cases hcmd

theorem proceed {cmd₀ : Cmd} {o₀ : Option UInt32} (hs : s.Orderly) (hc : s.cmds c = some cmd₀)
    (hcmd₀ : cmd₀.expects = some (name, o₀))
    (hname : ∀ name' o, cmd.expects = some (name', o) → name' = name)
    (hstarting : ∀ name', cmd.starting = some name' → cmd₀.starting = some name')
    (hexpects : ∀ name o, cmd.expects = some (name, o) →
      ∀ p, Recorded s.procs name p → o = some p.pid)
    (hfresh : ∀ name pid linked, cmd = .writing name pid linked → ∀ p ∈ s.procs,
      p.isLive name = true → p.pid = pid → linked = true ∧ s.files.lookup name = some []) :
    (s.setCmd c cmd).Orderly := by
  refine hs.setCmd hexpects hfresh (fun name' o hcmd c' cmd' hc' hcmd' ↦ ?_)
    (fun name' hcmd c' cmd' o hc' hcmd' ↦ ?_)
  · obtain rfl := hname name' o hcmd
    exact (hs.alone hc' hcmd' hc hcmd₀).symm
  · exact hs.alone hc (hstarting name' hcmd) hc' hcmd'

theorem removeFile (hs : s.Orderly) (hplain : s.PlainCmds)
    (hnone : ∀ p, ¬ Recorded s.procs name p)
    (hwriting : ∀ c pid linked, s.cmds c = some (.writing name pid linked) → ∀ p ∈ s.procs,
      p.isLive name = true → p.pid ≠ pid) : (s.removeFile paths name).Orderly where
  file := by
    intro p name' hp
    have hne : name' ≠ name := by
      rintro rfl
      exact hnone p hp
    exact (AList.lookup_erase_ne hne).trans (hs.file hp)
  expects := by
    intro c cmd name' o p hc hcmd hp
    obtain ⟨cmd', hc', rfl⟩ := removeFile_cmds hc
    rw [expects_unlinked] at hcmd
    exact hs.expects hc' hcmd hp
  fresh := by
    intro c name' pid linked p hc hp hlive hpid
    obtain ⟨cmd', hc', heq⟩ := removeFile_cmds hc
    obtain ⟨linked', rfl, rfl⟩ := eq_unlinked_writing heq
    have hne : name' ≠ name := by
      rintro rfl
      exact hwriting c pid linked' hc' p hp hlive hpid
    obtain ⟨rfl, hfile⟩ := hs.fresh hc' hp hlive hpid
    refine ⟨decide_eq_true ?_, (AList.lookup_erase_ne hne).trans hfile⟩
    rw [paths.plain name' (hplain _ _ hc' _ List.mem_cons_self), ne_eq, Option.some.injEq]
    exact hne
  alone := by
    intro c c' cmd cmd' name' o hc hcmd hc' hcmd'
    obtain ⟨cmd, hold, rfl⟩ := removeFile_cmds hc
    obtain ⟨cmd', hold', rfl⟩ := removeFile_cmds hc'
    rw [starting_unlinked] at hcmd
    rw [expects_unlinked] at hcmd'
    exact hs.alone hold hcmd hold' hcmd'

theorem not_recorded (hs : s.Orderly) (hc : s.cmds c = some cmd)
    (hcmd : cmd.expects = some (name, none)) (p : Proc) : ¬ Recorded s.procs name p := by
  intro hp
  have hpid := hs.expects hc hcmd hp
  cases hpid

/-- A command that expects no live daemon, and starts none, removes the file. -/
theorem removeExpected (hs : s.Orderly) (hplain : s.PlainCmds) (hc : s.cmds c = some cmd)
    (hcmd : cmd.expects = some (name, none)) (hstarting : cmd.starting ≠ some name) :
    (s.removeFile paths name).Orderly := by
  refine hs.removeFile hplain (hs.not_recorded hc hcmd) fun c' pid linked hc' ↦ ?_
  obtain rfl := hs.alone hc' rfl hc hcmd
  rw [hc, Option.some.injEq] at hc'
  rw [hc'] at hstarting
  exact absurd rfl hstarting

theorem returnNone {caller : Caller} (hs : s.Orderly)
    (hstart : ∀ c' cmd', s.cmds c' = some cmd' → cmd'.starting = some name → c' = c)
    (hsole : caller = .spawnDetached → ∀ c' cmd' o, s.cmds c' = some cmd' →
      cmd'.expects = some (name, o) → c' = c) (hnone : ∀ p, ¬ Recorded s.procs name p) :
    (s.setCmd c (caller.return name none)).Orderly := by
  refine hs.setCmd (fun name' o hcmd p hp ↦ ?_) (fun name' pid linked heq ↦ ?_)
    (fun name' o hcmd ↦ ?_) (fun name' hcmd ↦ ?_)
  · obtain ⟨-, rfl, -⟩ := expects_return_none hcmd
    exact absurd hp (hnone p)
  · obtain ⟨rfl, -, -⟩ := expects_return_none (congrArg Cmd.expects heq)
    cases heq
  · obtain ⟨-, rfl, -⟩ := expects_return_none hcmd
    exact hstart
  · obtain ⟨hcaller, rfl, -⟩ := expects_return_none (starting_expects hcmd)
    exact hsole hcaller

theorem setFile {content : Bytes} (hs : s.Orderly) (hnone : ∀ p, ¬ Recorded s.procs name p)
    (hwriting : ∀ c pid linked, s.cmds c ≠ some (.writing name pid linked)) :
    (s.setFile name content).Orderly where
  file := by
    intro p name' hp
    have hne : name' ≠ name := by
      rintro rfl
      exact hnone p hp
    exact (AList.lookup_insert_ne hne).trans (hs.file hp)
  expects hc hcmd hp := hs.expects hc hcmd hp
  fresh := by
    intro c name' pid linked p hc hp hlive hpid
    have hne : name' ≠ name := by
      rintro rfl
      exact hwriting c pid linked hc
    obtain ⟨hlinked, hfile⟩ := hs.fresh hc hp hlive hpid
    exact ⟨hlinked, (AList.lookup_insert_ne hne).trans hfile⟩
  alone := hs.alone

/-- Every live daemon was live before, and recorded if it is now. -/
theorem shrink {procs : List Proc} (hs : s.Orderly)
    (hprocs : ∀ p ∈ procs, ∀ name, p.isLive name = true →
      ∃ q ∈ s.procs, q.isLive name = true ∧ q.pid = p.pid ∧ q.recorded = p.recorded) :
    State.Orderly { s with procs := procs } := by
  have hold : ∀ {name p}, Recorded procs name p →
      ∃ q, Recorded s.procs name q ∧ q.pid = p.pid := by
    intro name p hp
    obtain ⟨q, hq, hlive, hpid, hrec⟩ := hprocs p hp.mem name hp.live
    exact ⟨q, ⟨hq, hlive, hrec.trans hp.recorded⟩, hpid⟩
  refine ⟨fun hp ↦ ?_, fun hc hcmd hp ↦ ?_, fun hc hp hlive hpid ↦ ?_, hs.alone⟩
  · obtain ⟨q, hq, hpid⟩ := hold hp
    rw [← hpid]
    exact hs.file hq
  · obtain ⟨q, hq, hpid⟩ := hold hp
    rw [← hpid]
    exact hs.expects hc hcmd hq
  · obtain ⟨q, hq, hlive', hpid', -⟩ := hprocs _ hp _ hlive
    exact hs.fresh hc hq hlive' (hpid'.trans hpid)

theorem cons (hs : s.Orderly) (hrec : p.recorded = false)
    (hwriting : ∀ c name linked, s.cmds c = some (.writing name p.pid linked) →
      p.isLive name = false) : State.Orderly { s with procs := p :: s.procs } := by
  have hold : ∀ {name q}, Recorded (p :: s.procs) name q →
      Recorded s.procs name q := by
    intro name q hq
    rcases List.mem_cons.mp hq.mem with rfl | hmem
    · have htrue := hq.recorded
      rw [hrec] at htrue
      cases htrue
    · exact ⟨hmem, hq.live, hq.recorded⟩
  refine ⟨fun hq ↦ hs.file (hold hq), fun hc hcmd hq ↦ hs.expects hc hcmd (hold hq), ?_, hs.alone⟩
  intro c name pid linked q hc hq hlive hpid
  rcases List.mem_cons.mp hq with rfl | hmem
  · subst hpid
    rw [hwriting c name linked hc] at hlive
    cases hlive
  · exact hs.fresh hc hmem hlive hpid

/-- A command that starts a daemon ends, and nobody has open business with the name. -/
theorem idle_done (hs : s.Orderly) (hc : s.cmds c = some cmd) (hcmd : cmd.starting = some name) :
    ∀ c' cmd' o, (s.setCmd c .done).cmds c' = some cmd' → cmd'.expects ≠ some (name, o) := by
  intro c' cmd' o hc' hcmd'
  rcases setCmd_cmds hc' with ⟨-, rfl⟩ | ⟨hne, hc'⟩
  · cases hcmd'
  · exact hne (hs.alone hc hcmd hc' hcmd')

theorem record (hs : s.Orderly)
    (hidle : ∀ c' cmd o, s.cmds c' = some cmd → cmd.expects ≠ some (name, o))
    (hfile : ∀ p ∈ s.procs, p.isLive name = true → p.pid = pid →
      s.files.lookup name = some (Framing.utf8 (pidText p.pid))) :
    (s.mapProcs (Proc.record name c pid)).Orderly := by
  have hlive : ∀ p name', (Proc.record name c pid p).isLive name' = p.isLive name' ∧
      (Proc.record name c pid p).pid = p.pid := by
    intro p name'
    rw [Proc.record]
    split <;> exact ⟨rfl, rfl⟩
  have hold : ∀ p name', Recorded (s.procs.map (Proc.record name c pid)) name' p →
      ∃ q ∈ s.procs, q.isLive name' = true ∧ q.pid = p.pid ∧
        (q.recorded = true ∨ name' = name ∧ q.pid = pid) := by
    intro p name' hp
    obtain ⟨q, hq, rfl⟩ := List.mem_map.mp hp.mem
    have hqlive : q.isLive name' = true := (hlive q name').1 ▸ hp.live
    refine ⟨q, hq, hqlive, (hlive q name').2.symm, ?_⟩
    by_cases hchild : q.isChild name c pid = true
    · rw [Proc.isChild, Bool.and_eq_true, beq_iff_eq, beq_iff_eq] at hchild
      have hdaemon := (isLive_iff.mp hqlive).1
      rw [hchild.2] at hdaemon
      exact .inr ⟨(beq_iff_eq.mp hdaemon).symm, hchild.1⟩
    · have hrec := hp.recorded
      rw [Proc.record, if_neg hchild] at hrec
      exact .inl hrec
  refine ⟨fun {p name'} hp ↦ ?_, fun {c' cmd name' o p} hc hcmd hp ↦ ?_,
    fun {c' name' pid' linked p} hc hp hl hpid ↦ ?_, hs.alone⟩
  · obtain ⟨q, hq, hqlive, hpid, hrec | ⟨rfl, hchild⟩⟩ := hold p name' hp
    · rw [← hpid]
      exact hs.file ⟨hq, hqlive, hrec⟩
    · rw [← hpid]
      exact hfile q hq hqlive hchild
  · obtain ⟨q, hq, hqlive, hpid, hrec | ⟨rfl, -⟩⟩ := hold p name' hp
    · rw [← hpid]
      exact hs.expects hc hcmd ⟨hq, hqlive, hrec⟩
    · exact absurd hcmd (hidle c' cmd o hc)
  · obtain ⟨q, hq, rfl⟩ := List.mem_map.mp hp
    rw [(hlive q name').1] at hl
    rw [(hlive q name').2] at hpid
    exact hs.fresh hc hq hl hpid

end State.Orderly

/-! ## Steps -/

theorem alone_iff {f : Cmd → Bool} (hs : s.Bounded) :
    s.alone c f = true ↔ ∀ c' cmd, s.cmds c' = some cmd → f cmd = true → c' = c := by
  rw [State.alone, List.all_eq_true]
  constructor
  · intro hall c' cmd hc' hf
    have halone := hall c' (List.mem_range.mpr (hs c' cmd hc'))
    rw [hc', Option.any_some, hf, Bool.not_true, Bool.or_false, decide_eq_true_eq] at halone
    exact halone
  · intro hall c' _
    rw [Bool.or_eq_true, decide_eq_true_eq, Bool.not_eq_true', Option.any_eq_false]
    by_cases heq : c' = c
    · exact .inl heq
    · refine .inr fun cmd hc' ↦ ?_
      exact Bool.eq_false_iff.mpr fun hf ↦ heq (hall c' cmd hc' hf)

/-- What `mayGoOn` gives: no daemon is being started, and nobody else has open business if the
command is about to start one. -/
theorem mayGoOn_elim {caller : Caller} {found : Bool} (hs : s.Bounded)
    (hgo : s.mayGoOn c caller name found = true) :
    (∀ c' cmd', s.cmds c' = some cmd' → cmd'.starting = some name → c' = c) ∧
      (caller = .spawnDetached → found = false → ∀ c' cmd' o, s.cmds c' = some cmd' →
        cmd'.expects = some (name, o) → c' = c) := by
  rw [State.mayGoOn] at hgo
  split at hgo
  · have hall := (alone_iff hs).mp hgo
    have hexpects : ∀ c' cmd' o, s.cmds c' = some cmd' → cmd'.expects = some (name, o) →
        c' = c := by
      intro c' cmd' o hc' hcmd'
      refine hall c' cmd' hc' ?_
      rw [hcmd', Option.any_some]
      exact decide_eq_true rfl
    exact ⟨fun c' cmd' hc' hcmd' ↦ hexpects c' cmd' none hc' (starting_expects hcmd'),
      fun _ _ ↦ hexpects⟩
  · rename_i hnot
    refine ⟨fun c' cmd' hc' hcmd' ↦ (alone_iff hs).mp hgo c' cmd' hc' (decide_eq_true hcmd'), ?_⟩
    intro hcaller hfound
    rw [hfound] at hnot
    exact absurd ⟨hcaller, rfl⟩ hnot

theorem isFiled_iff (hs : s.Bounded) : s.isFiled name p = true ↔
    p.recorded = true ∨ ∃ c linked, s.cmds c = some (.writing name p.pid linked) := by
  rw [State.isFiled, Bool.or_eq_true, List.any_eq_true]
  refine or_congr_right ⟨?_, ?_⟩
  · rintro ⟨c, -, hc⟩
    rw [Bool.or_eq_true, decide_eq_true_eq, decide_eq_true_eq] at hc
    rcases hc with hc | hc
    · exact ⟨c, true, hc⟩
    · exact ⟨c, false, hc⟩
  · rintro ⟨c, linked, hc⟩
    refine ⟨c, List.mem_range.mpr (hs c _ hc), ?_⟩
    rw [Bool.or_eq_true, decide_eq_true_eq, decide_eq_true_eq]
    cases linked with
    | true => exact .inl hc
    | false => exact .inr hc

theorem pid_of_noPid (hname : isFileName name = true) (hno : s.NoPid paths name) :
    ((s.files.lookup name).map filePid).getD 0 = 0 := by
  rw [← State.pidFile_of_isFileName hname]
  cases hfile : s.pidFile paths name with
  | none => rfl
  | some content =>
    rw [Option.map_some, Option.getD_some, filePid]
    split
    · rename_i text htext
      exact hno content text hfile htext
    · rfl

theorem Table.mem_receivers (htable : Table s.procs) (hp : p ∈ s.procs)
    (hlive : p.isLive name = true) : p ∈ s.receivers p.pid := by
  refine List.mem_filter.mpr ⟨hp, ?_⟩
  rw [reaches, if_pos (htable.positive hp), beq_self_eq_true, Bool.true_or, Bool.true_and]
  exact htable.mine hp (isLive_iff.mp hlive).1

theorem Table.proc_of_mem (htable : Table s.procs) (hp : p ∈ s.procs) : s.proc p.pid = some p := by
  cases hproc : s.proc p.pid with
  | none =>
    have hnone := List.find?_eq_none.mp hproc p hp
    exact absurd (beq_self_eq_true p.pid) hnone
  | some q =>
    obtain ⟨hq, hpid⟩ := proc_eq_some hproc
    rw [htable.single hq hp hpid]

theorem sigterm_of_isLive (hlive : (p.sigterm pid).isLive name = true) :
    p.sigterm pid = p ∧ (reaches pid.toInt32 p && p.mine) = false := by
  rw [Proc.sigterm] at hlive ⊢
  split at hlive
  · have hsignalled := (isLive_iff.mp hlive).2.2
    cases hsignalled
  · rename_i hmiss
    exact ⟨if_neg hmiss, Bool.eq_false_iff.mpr hmiss⟩

theorem isPidAlive_of_mem (hp : p ∈ s.receivers pid) : s.isPidAlive pid = true := by
  obtain ⟨hmem, hreach⟩ := List.mem_filter.mp hp
  exact List.any_eq_true.mpr ⟨p, hmem, hreach⟩

theorem pid_ne_zero (hpos : 0 < pid.toInt32) : pid ≠ 0 := by
  rintro rfl
  exact absurd hpos (by decide)

theorem isLive_setLife_of_ne (hne : p.pid ≠ pid) {life : Life} : Proc.setLife pid life p = p :=
  if_neg hne

/-- The end of a process, or its way out: who is live behind it was live before. -/
private theorem shrink_setLife {life : Life} (hlife : life ≠ .running)
    (hleaving : life = .leaving → ∀ p ∈ s.procs, p.pid = pid → p.life = .running) :
    ∀ p ∈ s.procs.map (Proc.setLife pid life), ∀ name, p.isLive name = true →
      ∃ q ∈ s.procs, q.isLive name = true ∧ q.pid = p.pid ∧ q.recorded = p.recorded := by
  intro p hp name hlive
  obtain ⟨q, hq, rfl⟩ := List.mem_map.mp hp
  by_cases hpid : q.pid = pid
  · rw [Proc.setLife, if_pos hpid] at hlive ⊢
    obtain ⟨hdaemon, hrunning, hsignalled⟩ := isLive_iff.mp hlive
    have hold := hleaving (hrunning.resolve_left hlife) q hq hpid
    exact ⟨q, hq, isLive_iff.mpr ⟨hdaemon, .inl hold, hsignalled⟩, rfl, rfl⟩
  · rw [isLive_setLife_of_ne hpid] at hlive ⊢
    exact ⟨q, hq, hlive, rfl, rfl⟩

private theorem shrink_threads {f : Proc → Proc} (hf : Keeps f)
    (hlife : ∀ p, (f p).life = p.life ∧ (f p).signalled = p.signalled ∧
      (f p).recorded = p.recorded) : ∀ p ∈ s.procs.map f, ∀ name, p.isLive name = true →
      ∃ q ∈ s.procs, q.isLive name = true ∧ q.pid = p.pid ∧ q.recorded = p.recorded := by
  intro p hp name hlive
  obtain ⟨q, hq, rfl⟩ := List.mem_map.mp hp
  obtain ⟨hq', hsignalled, hrecorded⟩ := hlife q
  rw [Proc.isLive, (hf q).2.2, hq', hsignalled] at hlive
  exact ⟨q, hq, hlive, (hf q).1.symm, hrecorded.symm⟩

private theorem step_orderly (hguard : exclusive s a = true)
    (hstep : step paths s a = some (t, es)) (hbounded : s.Bounded) (hplain : s.PlainCmds)
    (hprocs : s.PlainProcs) (htable : Table s.procs) (hs : s.Orderly) : t.Orderly := by
  cases step_transition hstep with
  | @begin command entries =>
    exact State.Orderly.rest (s := { s with nextCmd := s.nextCmd + 1 })
      ⟨hs.file, hs.expects, hs.fresh, hs.alone⟩ (expects_first entries command)
  | abandon => exact hs.rest rfl
  | @readNone c caller name hc hno =>
    rw [exclusive, hc] at hguard
    obtain ⟨hstart, hsole⟩ := mayGoOn_elim hbounded hguard
    refine hs.returnNone hstart (fun hcaller ↦ hsole hcaller ?_) fun p hp ↦ ?_
    · rw [pid_of_noPid (hplain _ _ hc name List.mem_cons_self) hno]
      rfl
    · -- The file of a recorded daemon has a pid.
      have hfile := hs.file hp
      rw [← State.pidFile_of_isFileName (hplain _ _ hc name List.mem_cons_self)] at hfile
      have hzero := hno _ _ hfile (Framing.ofUtf8_utf8 _)
      rw [parsePid_pidText] at hzero
      exact pid_ne_zero (htable.positive hp.mem) hzero
  | @readPid c caller name text content hc hfile htext hpid =>
    rw [exclusive, hc] at hguard
    obtain ⟨hstart, -⟩ := mayGoOn_elim hbounded hguard
    rw [State.pidFile_of_isFileName (hplain _ _ hc name List.mem_cons_self)] at hfile
    refine hs.setCmd (fun name' o hcmd p hp ↦ ?_) (fun name' pid' linked heq ↦ ?_)
      (fun name' o hcmd c' cmd' hc' hcmd' ↦ ?_) (fun name' hcmd ↦ ?_)
    · cases hcmd
      have hfile' := hs.file hp
      rw [hfile, Option.some.injEq] at hfile'
      rw [hfile', Framing.ofUtf8_utf8, Option.some.injEq] at htext
      rw [← htext, parsePid_pidText]
    · cases heq
    · cases hcmd
      exact hstart c' cmd' hc' hcmd'
    · cases hcmd
  | @alive c caller name pid hc halive =>
    refine hs.proceed hc rfl (fun name' o hcmd ↦ (expects_return_some hcmd).1) ?_ ?_ ?_
    · intro name' hcmd
      rw [not_starting_return_some] at hcmd
      cases hcmd
    · intro name' o hcmd p hp
      obtain ⟨rfl, rfl⟩ := expects_return_some hcmd
      exact hs.expects hc rfl hp
    · intro name' pid' linked heq
      have hcmd := congrArg Cmd.starting heq
      rw [not_starting_return_some] at hcmd
      cases hcmd
  | @dead c caller name pid hc hdead =>
    -- A recorded live daemon would have the number that was read, and would answer to it.
    refine hs.proceed hc rfl (fun name' o hcmd ↦ ?_) (fun name' hcmd ↦ ?_)
      (fun name' o hcmd p hp ↦ ?_) (fun name' pid' linked heq ↦ ?_)
    · cases hcmd
      rfl
    · cases hcmd
    · cases hcmd
      have hpid := hs.expects hc rfl hp
      rw [Option.some.injEq] at hpid
      rw [hpid, isPidAlive_of_mem (htable.mem_receivers hp.mem hp.live)] at hdead
      cases hdead
    · cases heq
  | @remove c caller name hc =>
    rw [exclusive, hc] at hguard
    obtain ⟨hstart, hsole⟩ := mayGoOn_elim hbounded hguard
    have hnone := hs.not_recorded hc rfl
    rw [State.removePid_of_isFileName (hplain _ _ hc name List.mem_cons_self)]
    refine (hs.removeExpected hplain hc rfl (by simp [Cmd.starting])).returnNone
      (fun c' cmd' hc' hcmd' ↦ ?_) (fun hcaller c' cmd' o hc' hcmd' ↦ ?_) hnone
    · obtain ⟨cmd₀, hc₀, rfl⟩ := State.removeFile_cmds hc'
      rw [starting_unlinked] at hcmd'
      exact hstart c' cmd₀ hc₀ hcmd'
    · obtain ⟨cmd₀, hc₀, rfl⟩ := State.removeFile_cmds hc'
      rw [expects_unlinked] at hcmd'
      exact hsole hcaller rfl c' cmd₀ o hc₀ hcmd'
  | @signal c name pid rest hc =>
    have hmap : (s.mapProcs (Proc.sigterm pid)).Orderly := by
      refine hs.shrink fun p hp name hlive ↦ ?_
      obtain ⟨q, hq, rfl⟩ := List.mem_map.mp hp
      obtain ⟨heq, -⟩ := sigterm_of_isLive hlive
      rw [heq] at hlive ⊢
      exact ⟨q, hq, hlive, rfl, rfl⟩
    refine hmap.proceed hc rfl (fun name' o hcmd ↦ ?_) (fun name' hcmd ↦ ?_)
      (fun name' o hcmd p hp ↦ ?_) (fun name' pid' linked heq ↦ ?_)
    · cases hcmd
      rfl
    · cases hcmd
    · -- The pid is the one of the daemon, so the signal has reached it.
      cases hcmd
      obtain ⟨q, hq, rfl⟩ := List.mem_map.mp hp.mem
      obtain ⟨heq, hmiss⟩ := sigterm_of_isLive hp.live
      rw [heq] at hp
      have hpid := hs.expects hc rfl ⟨hq, hp.live, hp.recorded⟩
      rw [Option.some.injEq] at hpid
      have hreach := (List.mem_filter.mp (htable.mem_receivers hq hp.live)).2
      rw [← hpid, hmiss] at hreach
      cases hreach
    · cases heq
  | @unlink c name rest hc =>
    rw [State.removePid_of_isFileName (hplain _ _ hc name List.mem_cons_self)]
    exact (hs.removeExpected hplain hc rfl (by simp [Cmd.starting])).rest (expects_stopNext rest)
  | @spawn c name pid hc hfree =>
    have hcons := hs.cons (p := { pid, group := pid.toInt32, mine := true, kind := .daemon name c })
      rfl fun c' name' linked hc' ↦ Bool.eq_false_iff.mpr fun hlive ↦ by
        obtain rfl : name = name' := beq_iff_eq.mp (isLive_iff.mp hlive).1
        obtain rfl := hs.alone hc' rfl hc rfl
        rw [hc] at hc'
        cases hc'
    refine hcons.proceed hc rfl (fun name' o hcmd ↦ ?_) (fun name' hcmd ↦ hcmd)
      (fun name' o hcmd p hp ↦ ?_) (fun name' pid' linked heq ↦ ?_)
    · cases hcmd
      rfl
    · cases hcmd
      exact hcons.expects hc rfl hp
    · cases heq
  | @openFile c name file pid hc hfile =>
    -- The file is truncated while nobody else expects anything of it.
    rw [paths.plain name (hplain _ _ hc name List.mem_cons_self), Option.some.injEq] at hfile
    subst hfile
    have hset : (s.setFile name []).Orderly := by
      refine hs.setFile (hs.not_recorded hc rfl) fun c' pid' linked hc' ↦ ?_
      obtain rfl := hs.alone hc' rfl hc rfl
      rw [hc] at hc'
      cases hc'
    refine hset.proceed hc rfl (fun name' o hcmd ↦ ?_) (fun name' hcmd ↦ hcmd)
      (fun name' o hcmd p hp ↦ ?_) (fun name' pid' linked heq p hp hlive hpid ↦ ?_)
    · cases hcmd
      rfl
    · cases hcmd
      exact hset.expects hc rfl hp
    · cases heq
      exact ⟨rfl, AList.lookup_insert _⟩
  | @write c name file pid hc hplace =>
    rw [paths.plain name (hplain _ _ hc name List.mem_cons_self), Option.some.injEq] at hplace
    subst hplace
    have hidle := hs.idle_done hc rfl
    have hset : ((s.setCmd c .done).setFile name (Framing.utf8 (pidText pid) ++
        ((s.files.lookup name).getD []).drop (Framing.utf8 (pidText pid)).length)).Orderly :=
      (hs.rest rfl).setFile (hs.not_recorded hc rfl) fun c' pid' linked hc' ↦
        hidle c' _ none hc' rfl
    refine hset.record hidle fun p hp hlive hpid ↦ ?_
    obtain ⟨-, hfile⟩ := hs.fresh hc hp hlive hpid
    rw [hfile, Option.getD_some, List.drop_nil, List.append_nil, hpid]
    exact AList.lookup_insert _
  | @writeLost c name pid linked hc hlost =>
    have hdone : (s.setCmd c .done).Orderly := hs.rest rfl
    refine hdone.record (hs.idle_done hc rfl) fun p hp hlive hpid ↦ ?_
    -- The open file of a live child is linked, and its name leads to it.
    have hnone := hlost (hs.fresh hc hp hlive hpid).1
    rw [paths.plain name (hplain _ _ hc name List.mem_cons_self)] at hnone
    cases hnone
  | @exec pid group mine kind hkind hfree =>
    refine hs.cons rfl fun c name linked hc ↦ ?_
    rw [Proc.isLive, hkind name, Bool.false_and, Bool.false_and]
  | @startThread pid tid =>
    refine hs.shrink (shrink_threads (keeps_startThread pid tid) fun p ↦ ?_)
    rw [Proc.startThread]
    split <;> exact ⟨rfl, rfl, rfl⟩
  | endThread pid tid =>
    refine hs.shrink (shrink_threads (keeps_endThread pid tid) fun p ↦ ?_)
    rw [Proc.endThread]
    split <;> exact ⟨rfl, rfl, rfl⟩
  | @leave p hp hlife =>
    refine hs.shrink (shrink_setLife (by decide) fun _ q hq hpid ↦ ?_)
    rw [htable.single hq hp hpid, hlife]
  | @cleanup p name hp hname hlife =>
    have hfiled : ∀ q ∈ s.procs, q.isLive name = true → s.isFiled name q = true →
        q.pid = p.pid := by
      intro q hq hlive hfiled
      simp only [exclusive, htable.proc_of_mem hp, hname, List.all_eq_true] at hguard
      simpa [hlive, hfiled] using hguard q hq
    have hmap : (s.mapProcs (Proc.setLife p.pid .left)).Orderly :=
      hs.shrink (shrink_setLife (by decide) fun h ↦ by cases h)
    -- Who is live behind the step is not the process.
    have hother : ∀ q ∈ s.procs.map (Proc.setLife p.pid .left), q.isLive name = true →
        q ∈ s.procs ∧ q.pid ≠ p.pid := by
      intro q hq hlive
      obtain ⟨q, hq', rfl⟩ := List.mem_map.mp hq
      by_cases hpid : q.pid = p.pid
      · rw [Proc.setLife, if_pos hpid] at hlive
        rcases (isLive_iff.mp hlive).2.1 with h | h <;> cases h
      · rw [isLive_setLife_of_ne hpid]
        exact ⟨hq', hpid⟩
    rw [State.removePid_of_isFileName (hprocs p hp name hname)]
    refine hmap.removeFile hplain (fun q hq ↦ ?_) fun c pid linked hc q hq hlive hpid ↦ ?_
    · obtain ⟨hmem, hne⟩ := hother q hq.mem hq.live
      exact hne (hfiled q hmem hq.live ((isFiled_iff hbounded).mpr (.inl hq.recorded)))
    · obtain ⟨hmem, hne⟩ := hother q hq hlive
      rw [← hpid] at hc
      exact hne (hfiled q hmem hlive ((isFiled_iff hbounded).mpr (.inr ⟨c, linked, hc⟩)))
  | die pid => exact hs.shrink (shrink_setLife (by decide) fun h ↦ by cases h)
  | reap pid =>
    exact hs.shrink fun p hp name hlive ↦ ⟨p, List.mem_of_mem_filter hp, hlive, rfl, rfl⟩
  | reboot =>
    constructor
    · intro p name hp
      cases hp.mem
    · intro c cmd name o p hc hcmd hp
      cases hp.mem
    · intro c name pid linked p hc hp
      cases hp
    · intro c c' cmd cmd' name o hc hcmd
      obtain ⟨cmd₀, -, rfl⟩ := Option.map_eq_some_iff.mp hc
      cases hcmd
  | edit => cases hguard

/-! ## Runs -/

private theorem reach_orderly (hr : ((machine paths files).guard exclusive).Reach h s) :
    s.Bounded ∧ s.PlainCmds ∧ s.PlainProcs ∧ Table s.procs ∧ s.Orderly := by
  refine Machine.Reach.invariant
    (P := fun _ s ↦ s.Bounded ∧ s.PlainCmds ∧ s.PlainProcs ∧ Table s.procs ∧ s.Orderly)
    ⟨start_bounded files, ?_, ?_, ?_, ?_⟩ ?_ hr
  · intro c cmd hc
    cases hc
  · intro p hp
    cases hp
  · constructor
    · intro p hp
      cases hp
    · intro p q hp
      cases hp
    · intro p name hp
      cases hp
  · constructor
    · intro p name hp
      cases hp.mem
    · intro c cmd name o p hc
      cases hc
    · intro c name pid linked p hc
      cases hc
    · intro c c' cmd cmd' name o hc
      cases hc
  · rintro h s a t es - ⟨hbounded, hcmds, hprocs, htable, hs⟩ hstep
    obtain ⟨hguard, hstep⟩ := Machine.guard_step_eq_some.mp hstep
    have htr := step_transition hstep
    refine ⟨step_bounded hstep hbounded, htr.plainCmds ?_ hcmds, htr.plainProcs ?_ hcmds hprocs,
      htr.table htable, step_orderly hguard hstep hbounded hcmds hprocs htable hs⟩
    · rintro command entries rfl
      exact hguard
    · rintro pid group mine kind rfl
      exact hguard

/-- The pid file of a name leads to the process: it has its pid, `read_pid` gives the pid to whoever
looks, and a signal to the pid reaches the process. -/
structure State.Tracked (paths : Paths) (s : State) (name : String) (p : Proc) : Prop where
  file : s.pidFile paths name = some (Framing.utf8 (pidText p.pid))
  read : ∀ files c caller, s.cmds c = some (.reading caller name .start) →
    (machine paths files).run s [.read c, .probe c] =
      some (s.setCmd c (caller.return name (some p.pid)), [])
  reached : p ∈ s.receivers p.pid

theorem setCmd_setCmd : (s.setCmd c cmd).setCmd c cmd' = s.setCmd c cmd' := by
  rw [State.setCmd, State.setCmd, State.setCmd, Function.update_idem]

theorem run_readPid {caller : Caller} (hc : s.cmds c = some (.reading caller name .start))
    (hfile : s.pidFile paths name = some (Framing.utf8 (pidText pid))) (hpid : pid ≠ 0)
    (halive : s.isPidAlive pid = true) : (machine paths files).run s [.read c, .probe c] =
      some (s.setCmd c (caller.return name (some pid)), []) := by
  have hread : (machine paths files).step s (.read c) =
      some (s.setCmd c (.reading caller name (.probe pid)), []) := by
    simp [machine, step, Act.cmd, cmdStep, hc, hfile, Framing.ofUtf8_utf8, parsePid_pidText, hpid]
  have hprobe : (machine paths files).step (s.setCmd c (.reading caller name (.probe pid)))
      (.probe c) = some (s.setCmd c (caller.return name (some pid)), []) := by
    have hself : (s.setCmd c (.reading caller name (.probe pid))).cmds c =
        some (.reading caller name (.probe pid)) := Function.update_self ..
    have halive' : (s.setCmd c (.reading caller name (.probe pid))).isPidAlive pid = true := halive
    simp [machine, step, Act.cmd, cmdStep, hself, halive', setCmd_setCmd]
  exact Machine.run_cons_eq_some.mpr ⟨_, [], [], hread, Machine.run_singleton hprobe, rfl⟩

/-- **Live daemons stay tracked.** Whatever the pid files are at the beginning and whatever order
the commands, the ends of processes and the reboots come in: as long as the names are names of
files, no command looks at a pid file while a daemon is started for it, and no process removes the
file of another one's daemon, the pid file of every daemon that is recorded, live and not stopped
has its pid. -/
theorem live_tracked (hr : ((machine paths files).guard exclusive).Reach h s) (hp : p ∈ s.procs)
    (hlive : p.isLive name = true) (hrec : p.recorded = true) : s.Tracked paths name p := by
  obtain ⟨-, -, hprocs, htable, hs⟩ := reach_orderly hr
  have hfile := hs.file ⟨hp, hlive, hrec⟩
  rw [← State.pidFile_of_isFileName (hprocs p hp name (tunnel_of_isLive hlive))] at hfile
  have hreached := htable.mem_receivers hp hlive
  exact ⟨hfile, fun files c caller hc ↦ run_readPid hc hfile (pid_ne_zero (htable.positive hp))
    (isPidAlive_of_mem hreached), hreached⟩

/-- A tunnel in the background, and `status` behind it. -/
theorem live_tracked_detach : ∃ h s p, ((machine dirPaths ∅).guard exclusive).run (start ∅)
      (detachRun 0 100 ++ [.begin .status ["app"], .read 1, .probe 1]) = some (s, h) ∧
    p ∈ s.procs ∧ p.isLive "app" = true ∧ p.recorded = true ∧ s.Tracked dirPaths "app" p := by
  have hrun : (((machine dirPaths ∅).guard exclusive).run (start ∅)
      (detachRun 0 100 ++ [.begin .status ["app"], .read 1, .probe 1])).map (fun p ↦ p.1.procs) =
        some [⟨100, 100, true, .daemon "app" 0, .running, false, true, []⟩] := by decide +kernel
  obtain ⟨⟨s, h⟩, hsh, heq⟩ := Option.map_eq_some_iff.mp hrun
  have hmem := heq ▸ List.mem_singleton_self _
  exact ⟨h, s, _, hsh, hmem, by decide, rfl, live_tracked (.of_run hsh) hmem (by decide) rfl⟩

/-- A daemon for `app`, and behind it a whole run in the foreground. -/
def secondRun (name : String) : List Act :=
  detachRun 0 100 ++ [.exec 200 200 true (.foreground name), .leave 200, .cleanup 200]

/-- The process is a daemon of the name that is live and recorded, and the name has no pid file. -/
structure State.Lost (paths : Paths) (s : State) (name : String) (p : Proc) : Prop where
  mem : p ∈ s.procs
  live : p.isLive name = true
  recorded : p.recorded = true
  file : s.pidFile paths name = none

private theorem lost_of_secondRun {second : String}
    (hrun : ((machine dirPaths ∅).run (start ∅) (secondRun second)).map
      (fun p ↦ (p.1.procs, p.1.pidFile dirPaths "app")) = some
        ([⟨200, 200, true, .foreground second, .left, false, false, []⟩,
          ⟨100, 100, true, .daemon "app" 0, .running, false, true, []⟩], none)) :
    ∃ h s p, (machine dirPaths ∅).run (start ∅) (secondRun second) = some (s, h) ∧
      s.Lost dirPaths "app" p := by
  obtain ⟨⟨s, h⟩, hsh, heq⟩ := Option.map_eq_some_iff.mp hrun
  obtain ⟨hprocs, hfile⟩ := Prod.mk.inj heq
  have hmem := hprocs ▸ List.mem_cons_of_mem _ (List.mem_singleton_self _)
  exact ⟨h, s, _, hsh, hmem, by decide, rfl, hfile⟩

/-- **A live daemon gets lost.** A second run in the foreground, under the name or under a path that
leads to the same file, removes the pid file when it ends. The daemon is alive, and no pid file
leads to it. -/
theorem live_untracked :
    (∃ h s p, (machine dirPaths ∅).run (start ∅) (secondRun "app") = some (s, h) ∧
      s.Lost dirPaths "app" p) ∧
    ∃ h s p, (machine dirPaths ∅).run (start ∅) (secondRun "./app") = some (s, h) ∧
      s.Lost dirPaths "app" p :=
  ⟨lost_of_secondRun (by decide +kernel), lost_of_secondRun (by decide +kernel)⟩

end Tunnels

end ZoTunnel
