import ZoTunnel.Client.Tunnels

/-!
# Which processes `zotunnel stop` signals

`stop` takes a number from a pid file, asks whether a process answers to it, and sends SIGTERM.
The number is no more than that. It can belong to a process of somebody else's by the time it is
read, since the file survives a crash and a reboot; and a number from `2 ^ 31` on is negative when
`kill` gets it, so that a whole process group answers, or every process.

A number is *owned* by a name in a state when it is positive for `kill` and every process that can
be signalled under it is a daemon of the name. A number that is in the pid file of a name, or with a
command that goes on to signal or to write it, stays owned while no other process or thread gets it
and the names of commands are names of files. This is the condition of `sigterm_owned`. Without it,
a daemon that crashes is enough (`sigterm_strays`).
-/

namespace ZoTunnel

namespace Tunnels

/-- The name and the pid with which a command goes on to signal, or to write. -/
def Cmd.holds : Cmd → Option (String × UInt32)
  | reading (.stop _) name (.probe pid) => some (name, pid)
  | signalling name pid _ => some (name, pid)
  | opening name pid => some (name, pid)
  | writing name pid true => some (name, pid)
  | reading .. | unlinking .. | spawning _ | writing .. | done => none

variable {paths : Paths} {files : AList fun _ : String ↦ Bytes} {s t : State} {a : Act}
  {es h : List Event} {c : CmdId} {cmd cmd' : Cmd} {name name' : String} {pid pid' : UInt32}
  {p : Proc}

/-! ## The names of a number -/

@[simp] theorem holds_stopNext (names : List String) : (stopNext names).holds = none := by
  cases names <;> rfl

@[simp] theorem holds_listNext (all : Bool) (out : List (String × UInt32)) (names : List String) :
    (listNext all out names).holds = none := by
  cases names with
  | cons => rfl
  | nil =>
    rw [listNext]
    split
    · exact holds_stopNext _
    · rfl

@[simp] theorem holds_first (entries : List String) (command : Command) :
    (command.first entries).holds = none := by
  cases command with
  | status => exact holds_listNext ..
  | stop name =>
    cases name with
    | none => exact holds_listNext ..
    | some => rfl
  | detach => rfl

@[simp] theorem holds_return_none (caller : Caller) (name : String) :
    (caller.return name none).holds = none := by
  cases caller with
  | list => exact holds_listNext ..
  | stop => exact holds_stopNext _
  | spawnDetached => rfl

@[simp] theorem holds_remove (caller : Caller) (name : String) :
    (Cmd.reading caller name .remove).holds = none := by
  cases caller <;> rfl

theorem holds_unlinked (hheld : (cmd.unlinked paths name').holds = some (name, pid)) :
    cmd.holds = some (name, pid) := by
  cases cmd with
  | writing _ _ linked =>
    cases linked with
    | false => cases hheld
    | true =>
      rw [Cmd.unlinked] at hheld
      cases hne : (true && decide (paths.place _ ≠ some name')) with
      | false =>
        rw [hne] at hheld
        cases hheld
      | true =>
        rw [hne] at hheld
        exact hheld
  | _ => exact hheld

/-- What `namesOf` collects. -/
def State.Names (s : State) (name : String) (pid : UInt32) : Prop :=
  (isFileName name = true ∧ ∃ content, s.files.lookup name = some content ∧
      filePid content = pid) ∨
    ∃ c cmd, s.cmds c = some cmd ∧ cmd.holds = some (name, pid)

/-- The number is positive for `kill`, and all that can be signalled under it is a daemon of the
name. -/
structure Owned (procs : List Proc) (name : String) (pid : UInt32) : Prop where
  positive : 0 < pid.toInt32
  isDaemonOf : ∀ p ∈ procs, p.has pid = true → p.mine = true → p.kind.isDaemonOf name = true

theorem Owned.mono {procs procs' : List Proc} (ho : Owned procs name pid)
    (hprocs : ∀ p ∈ procs', p.has pid = true → p.mine = true →
      (∃ q ∈ procs, q.has pid = true ∧ q.mine = p.mine ∧ q.kind = p.kind) ∨
        p.kind.isDaemonOf name = true) : Owned procs' name pid where
  positive := ho.positive
  isDaemonOf p hp hhas hmine := by
    rcases hprocs p hp hhas hmine with ⟨q, hq, hqhas, hqmine, hqkind⟩ | hdaemon
    · rw [← hqkind]
      exact ho.isDaemonOf q hq hqhas (hqmine.trans hmine)
    · exact hdaemon

theorem Owned.map {procs : List Proc} {f : Proc → Proc} (ho : Owned procs name pid)
    (hf : Keeps f) (hhas : ∀ p, (f p).has pid = true → p.has pid = true) :
    Owned (procs.map f) name pid := by
  refine ho.mono fun p hp hp' _ ↦ ?_
  obtain ⟨q, hq, rfl⟩ := List.mem_map.mp hp
  exact .inl ⟨q, hq, hhas q hp', (hf q).2.1.symm, (hf q).2.2.symm⟩

theorem Owned.cons {procs : List Proc} (ho : Owned procs name pid)
    (hp : p.has pid = true → p.mine = true → p.kind.isDaemonOf name = true) :
    Owned (p :: procs) name pid := by
  refine ho.mono fun q hq hhas hmine ↦ ?_
  rcases List.mem_cons.mp hq with rfl | hq
  · exact .inr (hp hhas hmine)
  · exact .inl ⟨q, hq, hhas, rfl, rfl⟩

theorem has_startThread {tid : UInt32} (hhas : (p.startThread pid tid).has pid' = true) :
    p.has pid' = true ∨ pid' = tid ∧ p.pid = pid := by
  rw [Proc.startThread] at hhas
  split at hhas
  · rename_i hpid
    rcases has_eq_true.mp hhas with h | h
    · exact .inl (has_eq_true.mpr (.inl h))
    · rcases List.mem_cons.mp h with heq | h
      · exact .inr ⟨heq, hpid⟩
      · exact .inl (has_eq_true.mpr (.inr h))
  · exact .inl hhas

theorem Owned.startThread {procs : List Proc} {tid : UInt32} (ho : Owned procs name pid')
    (hp : pid' = tid → ∀ p ∈ procs, p.pid = pid → p.mine = true → p.kind.isDaemonOf name = true) :
    Owned (procs.map (Proc.startThread pid tid)) name pid' := by
  refine ho.mono fun p hmem hhas hmine ↦ ?_
  obtain ⟨q, hq, rfl⟩ := List.mem_map.mp hmem
  obtain ⟨-, hkmine, hkind⟩ := keeps_startThread pid tid q
  rcases has_startThread hhas with hold | ⟨heq, hpid⟩
  · exact .inl ⟨q, hq, hold, hkmine.symm, hkind.symm⟩
  · rw [hkmine] at hmine
    rw [hkind]
    exact .inr (hp heq q hq hpid hmine)

theorem toInt32_inj {pid pid' : UInt32} (heq : pid.toInt32 = pid'.toInt32) : pid = pid' := by
  rw [← UInt32.toUInt32_toInt32 pid, heq, UInt32.toUInt32_toInt32]

theorem has_of_reaches (hpos : 0 < pid.toInt32) (hreach : reaches pid.toInt32 p = true) :
    p.has pid = true := by
  rw [reaches, if_pos hpos, Bool.or_eq_true, beq_iff_eq, List.any_eq_true] at hreach
  rcases hreach with hpid | ⟨tid, htid, heq⟩
  · exact has_eq_true.mpr (.inl (toInt32_inj hpid))
  · exact has_eq_true.mpr (.inr (toInt32_inj (beq_iff_eq.mp heq) ▸ htid))

/-- A signal to an owned number reaches daemons of the name under this number. -/
theorem Owned.receivers (ho : Owned s.procs name pid) (hp : p ∈ s.receivers pid) :
    p.has pid = true ∧ p.kind.isDaemonOf name = true := by
  obtain ⟨hmem, hreach⟩ := List.mem_filter.mp hp
  rw [Bool.and_eq_true] at hreach
  have hhas := has_of_reaches ho.positive hreach.1
  exact ⟨hhas, ho.isDaemonOf p hmem hhas hreach.2⟩

/-- Every number that can still be signalled for a name is owned by it. -/
structure State.Safe (s : State) : Prop where
  file : ∀ {name content}, isFileName name = true → s.files.lookup name = some content →
    filePid content ≠ 0 → Owned s.procs name (filePid content)
  held : ∀ {c cmd name pid}, s.cmds c = some cmd → cmd.holds = some (name, pid) →
    Owned s.procs name pid

namespace State.Safe

theorem setCmd (hs : s.Safe)
    (hcmd : ∀ name pid, cmd.holds = some (name, pid) → Owned s.procs name pid) :
    (s.setCmd c cmd).Safe where
  file := hs.file
  held := by
    intro c' cmd' name pid hc' hheld
    rcases setCmd_cmds hc' with ⟨-, rfl⟩ | ⟨-, hc'⟩
    · exact hcmd name pid hheld
    · exact hs.held hc' hheld

theorem drop (hs : s.Safe) (hcmd : cmd.holds = none) : (s.setCmd c cmd).Safe := by
  refine hs.setCmd fun name pid hheld ↦ ?_
  rw [hcmd] at hheld
  cases hheld

theorem setFile {content : Bytes} (hs : s.Safe)
    (hfile : isFileName name = true → filePid content ≠ 0 →
      Owned s.procs name (filePid content)) : (s.setFile name content).Safe where
  file := by
    intro name' content' hname hfile' hpid
    rcases setFile_lookup hfile' with ⟨rfl, rfl⟩ | ⟨-, hfile'⟩
    · exact hfile hname hpid
    · exact hs.file hname hfile' hpid
  held := hs.held

theorem removePid (hs : s.Safe) (name : String) : (s.removePid paths name).Safe := by
  refine removePid_induction hs (fun file ↦ ⟨fun hname hfile hpid ↦ ?_, fun hc hheld ↦ ?_⟩) name
  · exact hs.file hname (removeFile_lookup hfile).2 hpid
  · obtain ⟨cmd', hcmd', rfl⟩ := removeFile_cmds hc
    exact hs.held hcmd' (holds_unlinked hheld)

/-- The processes change, and every owned number stays owned. -/
theorem setProcs {procs : List Proc} (hs : s.Safe)
    (hprocs : ∀ {name pid}, s.Names name pid → Owned s.procs name pid → Owned procs name pid) :
    State.Safe { s with procs := procs } where
  file hname hfile hpid := hprocs (.inl ⟨hname, _, hfile, rfl⟩) (hs.file hname hfile hpid)
  held hc hheld := hprocs (.inr ⟨_, _, hc, hheld⟩) (hs.held hc hheld)

theorem mapProcs {f : Proc → Proc} (hs : s.Safe) (hf : Keeps f)
    (hhas : ∀ {pid} p, (f p).has pid = true → p.has pid = true) : (s.mapProcs f).Safe :=
  hs.setProcs fun _ ho ↦ ho.map hf hhas

/-- A new process gets a number that no other name has. -/
theorem cons (hs : s.Safe) (hthreads : p.threads = [])
    (hp : p.mine = true → ∀ name, s.Names name p.pid → p.kind.isDaemonOf name = true) :
    State.Safe { s with procs := p :: s.procs } := by
  refine hs.setProcs fun {name pid} hname ho ↦ ho.cons fun hhas hmine ↦ ?_
  rw [has_eq_true, hthreads] at hhas
  obtain rfl := hhas.resolve_right List.not_mem_nil
  exact hp hmine name hname

end State.Safe

/-! ## Steps and runs -/

end Tunnels

end ZoTunnel
