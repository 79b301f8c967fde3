import Mathlib.Data.List.AList
import Mathlib.Data.List.DropRight
import Mathlib.Data.List.Sort
import ZoTunnel.Lib.Framing
import ZoTunnel.Lib.Machine

/-!
# Background tunnels and their pid files

`zotunnel http -d` starts a daemon and writes its process id to `<name>.pid` in the tunnels
directory. `status` and `stop` find the daemons by these files, and every `http` process, daemon or
not, removes the file of its name when it ends. Nothing but the name connects a file with a process.

The machine has the processes of the system, the pid files, and the commands that are under way.
A command touches the file system and sends signals in single steps, between which anything can
happen: another command, the end of a process, a reboot, a process that gets a pid used before. A
pid file is written in two steps, and a file that is removed in between keeps its writer, whose text
then goes nowhere.

`pid_path` joins a name into a path as it is. A name without separators is the name of a file in the
directory; any other one is a path that leads somewhere (`Paths`), such as `./app`, which is the
file of `app`. What a path leads to does not change: nobody moves directories and links about.

What is not valid UTF-8 is no text. The log files, the messages and the wait for the `Forwarding`
line change no file and no process, and are left out.
-/

namespace ZoTunnel

namespace Tunnels

/-! ## Texts -/

/-- White space, as `str::trim` knows it. -/
def isWhitespace (c : Char) : Bool :=
  let n := c.toNat
  (9 ≤ n && n ≤ 13) || n == 0x20 || n == 0x85 || n == 0xA0 || n == 0x1680 ||
    (0x2000 ≤ n && n ≤ 0x200A) || n == 0x2028 || n == 0x2029 || n == 0x202F || n == 0x205F ||
    n == 0x3000

def trim (text : List Char) : List Char := (text.dropWhile isWhitespace).rdropWhile isWhitespace

/-- The text behind a plus sign in front. -/
def skipPlus : List Char → List Char
  | '+' :: rest => rest
  | text => text

/-- `str::parse` for `u32`: digits, with an optional plus sign in front. -/
def parseU32 (text : List Char) : Option UInt32 :=
  let digits := skipPlus text
  if digits ≠ [] ∧ digits.all Char.isDigit then
    let n := Nat.ofDigitChars 10 digits 0
    if n < 2 ^ 32 then some (.ofNat n) else none
  else none

/-- The pid that the text of a pid file gives, 0 when it gives none. -/
def parsePid (text : String) : UInt32 := (parseU32 (trim text.toList)).getD 0

/-- What `write_pid` writes. -/
def pidText (pid : UInt32) : String := toString pid ++ "\n"

theorem isWhitespace_of_isDigit {c : Char} (hc : c.isDigit = true) : isWhitespace c = false := by
  rw [Char.isDigit, Bool.and_eq_true, decide_eq_true_eq, decide_eq_true_eq] at hc
  obtain ⟨hlow, hhigh⟩ := hc
  have hlow' : 48 ≤ c.toNat := UInt32.le_iff_toNat_le.mp hlow
  have hhigh' : c.toNat ≤ 57 := UInt32.le_iff_toNat_le.mp hhigh
  simp only [isWhitespace, Bool.or_eq_false_iff, Bool.and_eq_false_iff, decide_eq_false_iff_not,
    beq_eq_false_iff_ne]
  omega

theorem dropWhile_digits {digits rest : List Char} (hne : digits ≠ [])
    (hall : ∀ c ∈ digits, c.isDigit = true) :
    (digits ++ rest).dropWhile isWhitespace = digits ++ rest := by
  obtain ⟨c, cs, rfl⟩ := List.exists_cons_of_ne_nil hne
  rw [List.cons_append, List.dropWhile_cons_of_neg]
  rw [isWhitespace_of_isDigit (hall c List.mem_cons_self)]
  exact Bool.false_ne_true

/-- Digits with a line break and more text behind them: what `trim` leaves of it has the line break
in it, or is the digits. -/
theorem trim_digits {digits : List Char} (rest : List Char) (hne : digits ≠ [])
    (hall : ∀ c ∈ digits, c.isDigit = true) :
    '\n' ∈ trim (digits ++ '\n' :: rest) ∨ trim (digits ++ '\n' :: rest) = digits := by
  rw [trim, dropWhile_digits hne hall]
  generalize hkeep : (digits ++ '\n' :: rest).rdropWhile isWhitespace = keep
  have hsplit := List.rdropWhile_append_rtakeWhile (p := isWhitespace)
    (l := digits ++ '\n' :: rest)
  rw [hkeep] at hsplit
  rcases List.append_eq_append_iff.mp hsplit with ⟨l, hl, htail⟩ | ⟨l, hl, htail⟩
  · -- What is dropped begins in the digits, so it begins behind them.
    cases l with
    | nil => exact .inr (by rw [hl, List.append_nil])
    | cons d l =>
      have hmem : d ∈ digits := by
        rw [hl]
        exact List.mem_append_right _ List.mem_cons_self
      have hblank : isWhitespace d = true := by
        refine List.mem_rtakeWhile_imp (p := isWhitespace) (l := digits ++ '\n' :: rest) ?_
        rw [htail]
        exact List.mem_cons_self
      rw [isWhitespace_of_isDigit (hall d hmem)] at hblank
      cases hblank
  · cases l with
    | nil => exact .inr (by rw [hl, List.append_nil])
    | cons d l =>
      rw [List.cons_append, List.cons.injEq] at htail
      refine .inl ?_
      rw [hl, htail.1]
      exact List.mem_append_right _ List.mem_cons_self

theorem skipPlus_digits {digits : List Char} (hall : ∀ c ∈ digits, c.isDigit = true) :
    skipPlus digits = digits := by
  unfold skipPlus
  split
  · have hsign := hall '+' List.mem_cons_self
    cases hsign
  · rfl

theorem mem_skipPlus {c : Char} {text : List Char} (hc : c ∈ text) (hplus : c ≠ '+') :
    c ∈ skipPlus text := by
  unfold skipPlus
  split
  · exact (List.mem_cons.mp hc).resolve_left hplus
  · exact hc

theorem parseU32_toDigits (pid : UInt32) : parseU32 (Nat.toDigits 10 pid.toNat) = some pid := by
  have hall : ∀ c ∈ Nat.toDigits 10 pid.toNat, c.isDigit = true :=
    fun c hc ↦ Nat.isDigit_of_mem_toDigits (by decide) (by decide) hc
  rw [parseU32, skipPlus_digits hall]
  simp only
  rw [if_pos ⟨Nat.toDigits_ne_nil, List.all_eq_true.mpr hall⟩, Nat.ofDigitChars_ten_toDigits,
    if_pos pid.toNat_lt, UInt32.ofNat_toNat]

theorem trim_digits_newline {digits : List Char} (hne : digits ≠ [])
    (hall : ∀ c ∈ digits, c.isDigit = true) : trim (digits ++ ['\n']) = digits := by
  rcases trim_digits [] hne hall with hmem | heq
  · -- The line break is last, and what `rdropWhile` keeps does not end in white space.
    rw [trim, dropWhile_digits hne hall, List.rdropWhile_concat_pos _ _ _ (by decide),
      List.rdropWhile_eq_self_iff.mpr] at hmem
    · have hdigit := hall _ hmem
      cases hdigit
    · intro hne'
      rw [isWhitespace_of_isDigit (hall _ (List.getLast_mem hne'))]
      exact Bool.false_ne_true
  · exact heq

theorem parsePid_pidText (pid : UInt32) : parsePid (pidText pid) = pid := by
  have htext : (pidText pid).toList = Nat.toDigits 10 pid.toNat ++ ['\n'] := by
    rw [pidText, String.toList_append, show toString pid = pid.toNat.repr from rfl, Nat.toList_repr]
    rfl
  rw [parsePid, htext, trim_digits_newline Nat.toDigits_ne_nil
    (fun c hc ↦ Nat.isDigit_of_mem_toDigits (b := 10) (n := pid.toNat) (by decide) (by decide) hc),
    parseU32_toDigits]
  rfl

/-- The pid in a pid file, 0 when there is none. -/
def filePid (content : Bytes) : UInt32 :=
  match Framing.ofUtf8 content with
  | some text => parsePid text
  | none => 0

/-- Names without a separator, which are names of files when `.pid` is behind them. -/
def isFileName (name : String) : Bool := name.toList.all fun c ↦ c != '/' && c != '\x00'

/-- What the paths of `pid_path` lead to. A file in the tunnels directory goes by its name without
`.pid`, and every other file by some other text. -/
structure Paths where
  place : String → Option String
  plain : ∀ name, isFileName name = true → place name = some name

/-! ## Processes and signals -/

abbrev CmdId := ℕ

/-- What a process is. -/
inductive Kind
  /-- Started by `spawn_detached` for a name, in a command. -/
  | daemon (name : String) (cmd : CmdId)
  | foreground (name : String)
  | unrelated
  deriving DecidableEq, Repr

/-- The name under which an `http` process runs. -/
def Kind.tunnel : Kind → Option String
  | daemon name _ | foreground name => some name
  | unrelated => none

/-- The process was started by `spawn_detached` for this name. -/
def Kind.isDaemonOf (kind : Kind) (name : String) : Bool :=
  match kind with
  | daemon name' _ => name' == name
  | foreground _ | unrelated => false

inductive Life
  | running
  /-- An `http` process whose tunnel has ended; its pid file is to be removed. -/
  | leaving
  /-- The file is removed, and the process is about to end. -/
  | left
  /-- The process has ended, and its pid is not free yet. -/
  | zombie
  deriving DecidableEq, Repr

structure Proc where
  pid : UInt32
  group : Int32
  mine : Bool
  kind : Kind
  life : Life := .running
  signalled : Bool := false
  /-- The command that started it has finished writing its pid file. -/
  recorded : Bool := false
  /-- The numbers of its further threads. -/
  threads : List UInt32 := []
  deriving DecidableEq, Repr

/-- The number is that of the process, or of a thread of it. -/
def Proc.has (pid : UInt32) (p : Proc) : Bool := p.pid == pid || p.threads.contains pid

/-- `kill(2)` with this first argument reaches the process: a positive one is a pid, or the number
of a thread, which Linux takes for its process; -1 is every process, and any other negative one a
process group. No caller passes 0. -/
def reaches (target : Int32) (p : Proc) : Bool :=
  if 0 < target then p.pid.toInt32 == target || p.threads.any fun tid ↦ tid.toInt32 == target
  else if target = -1 then true
  else p.group == -target

/-! ## Commands -/

/-- A command line that has to do with pid files. -/
inductive Command
  | status
  | stop (name : Option String)
  | detach (name : String)
  deriving DecidableEq, Repr

/-- Where a command is inside `read_pid`. -/
inductive Reading
  | start
  | probe (pid : UInt32)
  | remove
  deriving DecidableEq, Repr

/-- Who has called `read_pid`, with what is left to do. -/
inductive Caller
  /-- `list_running_tunnels`, for `stop` without a name if `all`. -/
  | list (all : Bool) (rest : List String) (out : List (String × UInt32))
  | stop (rest : List String)
  | spawnDetached
  deriving DecidableEq, Repr

/-- Where a command stands. -/
inductive Cmd
  | reading (caller : Caller) (name : String) (st : Reading)
  /-- `cmd_stop` is about to send SIGTERM, -/
  | signalling (name : String) (pid : UInt32) (rest : List String)
  /-- and then to remove the file. -/
  | unlinking (name : String) (rest : List String)
  /-- `spawn_detached` is about to start the daemon. -/
  | spawning (name : String)
  /-- `write_pid` is about to open the file, which truncates it, -/
  | opening (name : String) (pid : UInt32)
  /-- and then to write. The open file is `linked` until somebody removes it. -/
  | writing (name : String) (pid : UInt32) (linked : Bool)
  | done
  deriving DecidableEq, Repr

/-- The next target of `cmd_stop`. -/
def stopNext : List String → Cmd
  | [] => .done
  | name :: rest => .reading (.stop rest) name .start

/-- The next entry of the directory in `list_running_tunnels`, and what follows the last one. -/
def listNext (all : Bool) (out : List (String × UInt32)) : List String → Cmd
  | [] => if all then stopNext ((out.insertionSort fun a b ↦ a.1 ≤ b.1).map Prod.fst) else .done
  | name :: rest => .reading (.list all rest out) name .start

/-- The start of a command. `entries` are the names that `read_dir` gives. -/
def Command.first (entries : List String) : Command → Cmd
  | status => listNext false [] entries
  | stop none => listNext true [] entries
  | stop (some name) => stopNext [name]
  | detach name => .reading .spawnDetached name .start

/-- `read_pid` returns. -/
def Caller.return (name : String) (pid : Option UInt32) : Caller → Cmd
  | list all rest out =>
    match pid with
    | some pid => listNext all (out ++ [(name, pid)]) rest
    | none => listNext all out rest
  | stop rest =>
    match pid with
    | some pid => .signalling name pid rest
    | none => stopNext rest
  | spawnDetached =>
    match pid with
    | some _ => .done
    | none => .spawning name

/-! ## The machine -/

structure State where
  /-- The files that paths lead to. -/
  files : AList fun _ : String ↦ Bytes
  procs : List Proc
  cmds : CmdId → Option Cmd
  nextCmd : CmdId

inductive Act
  /-- A command begins. `entries` are the names that `read_dir` gives it. -/
  | begin (command : Command) (entries : List String)
  | read (c : CmdId)
  | probe (c : CmdId)
  | remove (c : CmdId)
  | signal (c : CmdId)
  | unlink (c : CmdId)
  /-- The daemon is started, as the leader of a session of its own. -/
  | spawn (c : CmdId) (pid : UInt32)
  | openFile (c : CmdId)
  | write (c : CmdId)
  | fail (c : CmdId)
  | exec (pid : UInt32) (group : Int32) (mine : Bool) (kind : Kind)
  | startThread (pid tid : UInt32)
  | endThread (pid tid : UInt32)
  | leave (pid : UInt32)
  | cleanup (pid : UInt32)
  | die (pid : UInt32)
  | reap (pid : UInt32)
  | reboot
  /-- A pid file is changed from outside. -/
  | edit (file : String) (content : Bytes)

inductive Event
  /-- SIGTERM is sent for a name to a pid, and reaches these processes. -/
  | sigterm (c : CmdId) (name : String) (pid : UInt32) (hit : List Proc)
  deriving DecidableEq

def Cmd.unlinked (paths : Paths) (file : String) : Cmd → Cmd
  | writing name pid linked => writing name pid (linked && paths.place name ≠ some file)
  | cmd => cmd

namespace State

def setCmd (s : State) (c : CmdId) (cmd : Cmd) : State :=
  { s with cmds := Function.update s.cmds c (some cmd) }

/-- What the pid path of a name leads to. -/
def pidFile (paths : Paths) (s : State) (name : String) : Option Bytes :=
  (paths.place name).bind s.files.lookup

def setFile (s : State) (file : String) (content : Bytes) : State :=
  { s with files := s.files.insert file content }

/-- Remove a file. Who has it open for writing keeps the open file. -/
def removeFile (paths : Paths) (s : State) (file : String) : State :=
  { s with
    files := s.files.erase file
    cmds := fun c ↦ (s.cmds c).map (Cmd.unlinked paths file) }

/-- `remove_file` of the pid path of a name. That it fails is nothing to the callers. -/
def removePid (paths : Paths) (s : State) (name : String) : State :=
  match paths.place name with
  | some file => s.removeFile paths file
  | none => s

def mapProcs (s : State) (f : Proc → Proc) : State := { s with procs := s.procs.map f }

/-- `is_pid_alive`. -/
def isPidAlive (s : State) (pid : UInt32) : Bool :=
  s.procs.any fun p ↦ reaches pid.toInt32 p && p.mine

/-- The processes that a signal to a pid reaches. -/
def receivers (s : State) (pid : UInt32) : List Proc :=
  s.procs.filter fun p ↦ reaches pid.toInt32 p && p.mine

/-- A number that a new process or thread can have. -/
def isFree (s : State) (pid : UInt32) : Bool := 0 < pid.toInt32 && s.procs.all fun p ↦ !p.has pid

/-- The process with a pid. -/
def proc (s : State) (pid : UInt32) : Option Proc := s.procs.find? fun p ↦ p.pid == pid

end State

def Proc.sigterm (pid : UInt32) (p : Proc) : Proc :=
  if reaches pid.toInt32 p && p.mine then { p with signalled := true } else p

/-- Give one process another life. -/
def Proc.setLife (pid : UInt32) (life : Life) (p : Proc) : Proc :=
  if p.pid = pid then { p with life } else p

def Proc.startThread (pid tid : UInt32) (p : Proc) : Proc :=
  if p.pid = pid then { p with threads := tid :: p.threads } else p

def Proc.endThread (pid tid : UInt32) (p : Proc) : Proc :=
  if p.pid = pid then { p with threads := p.threads.filter (· ≠ tid) } else p

/-- The child of a command. -/
def Proc.isChild (p : Proc) (name : String) (c : CmdId) (pid : UInt32) : Bool :=
  p.pid == pid && p.kind == .daemon name c

def Proc.record (name : String) (c : CmdId) (pid : UInt32) (p : Proc) : Proc :=
  if p.isChild name c pid then { p with recorded := true } else p

variable (paths : Paths)

/-- One step of a command. -/
def cmdStep (s : State) (c : CmdId) (cmd : Cmd) : Act → Option (State × List Event)
  | .read _ =>
    match cmd with
    | .reading caller name .start =>
      match s.pidFile paths name with
      | none => some (s.setCmd c (caller.return name none), [])
      | some content =>
        match Framing.ofUtf8 content with
        | none => some (s.setCmd c .done, [])
        | some text =>
          let pid := parsePid text
          if pid = 0 then some (s.setCmd c (caller.return name none), [])
          else some (s.setCmd c (.reading caller name (.probe pid)), [])
    | _ => none
  | .probe _ =>
    match cmd with
    | .reading caller name (.probe pid) =>
      if s.isPidAlive pid then some (s.setCmd c (caller.return name (some pid)), [])
      else some (s.setCmd c (.reading caller name .remove), [])
    | _ => none
  | .remove _ =>
    match cmd with
    | .reading caller name .remove =>
      some ((s.removePid paths name).setCmd c (caller.return name none), [])
    | _ => none
  | .signal _ =>
    match cmd with
    | .signalling name pid rest =>
      some ((s.mapProcs (Proc.sigterm pid)).setCmd c (.unlinking name rest),
        [.sigterm c name pid (s.receivers pid)])
    | _ => none
  | .unlink _ =>
    match cmd with
    | .unlinking name rest => some ((s.removePid paths name).setCmd c (stopNext rest), [])
    | _ => none
  | .spawn _ pid =>
    match cmd with
    | .spawning name =>
      if s.isFree pid then
        let child : Proc :=
          { pid, group := pid.toInt32, mine := true, kind := .daemon name c }
        some ({ s with procs := child :: s.procs }.setCmd c (.opening name pid), [])
      else none
    | _ => none
  | .openFile _ =>
    match cmd with
    | .opening name pid =>
      match paths.place name with
      | some file => some ((s.setFile file []).setCmd c (.writing name pid true), [])
      | none => some (s.setCmd c .done, [])
    | _ => none
  | .write _ =>
    match cmd with
    | .writing name pid linked =>
      let s := s.mapProcs (Proc.record name c pid)
      let text := Framing.utf8 (pidText pid)
      match linked, paths.place name with
      -- The text goes to the start of the open file.
      | true, some file =>
        some ((s.setFile file
          (text ++ ((s.files.lookup file).getD []).drop text.length)).setCmd c .done, [])
      | _, _ => some (s.setCmd c .done, [])
    | _ => none
  | .fail _ => some (s.setCmd c .done, [])
  | _ => none

/-- The command that an action is about. -/
def Act.cmd : Act → Option CmdId
  | read c | probe c | remove c | signal c | unlink c | spawn c _ | openFile c | write c | fail c =>
    some c
  | begin .. | exec .. | startThread .. | endThread .. | leave _ | cleanup _ | die _ | reap _
  | reboot | edit .. => none

def step (s : State) (a : Act) : Option (State × List Event) :=
  match a with
  | .begin command entries =>
    if entries.all isFileName then
      some ({ s with nextCmd := s.nextCmd + 1 }.setCmd s.nextCmd (command.first entries), [])
    else none
  | .exec pid group mine kind =>
    match kind with
    | .daemon .. => none
    | .foreground _ | .unrelated =>
      if s.isFree pid then some ({ s with procs := { pid, group, mine, kind } :: s.procs }, [])
      else none
  | .startThread pid tid =>
    if s.isFree tid then some (s.mapProcs (Proc.startThread pid tid), []) else none
  | .endThread pid tid => some (s.mapProcs (Proc.endThread pid tid), [])
  | .leave pid =>
    match s.proc pid with
    | some p =>
      if p.kind.tunnel.isSome && p.life = .running then
        some (s.mapProcs (Proc.setLife pid .leaving), [])
      else none
    | none => none
  | .cleanup pid =>
    match s.proc pid with
    | some p =>
      match p.kind.tunnel with
      | some name =>
        if p.life = .leaving then
          some ((s.removePid paths name).mapProcs (Proc.setLife pid .left), [])
        else none
      | none => none
    | none => none
  | .die pid =>
    match s.proc pid with
    | some _ => some (s.mapProcs (Proc.setLife pid .zombie), [])
    | none => none
  | .reap pid =>
    match s.proc pid with
    | some p =>
      if p.life = .zombie then
        some ({ s with procs := s.procs.filter fun p ↦ p.pid != pid }, [])
      else none
    | none => none
  | .reboot =>
    some ({ s with procs := [], cmds := fun c ↦ (s.cmds c).map fun _ ↦ .done }, [])
  | .edit file content => some (s.setFile file content, [])
  | a =>
    match a.cmd with
    | none => none
    | some c =>
      match s.cmds c with
      | none => none
      | some cmd => cmdStep paths s c cmd a

def start (files : AList fun _ : String ↦ Bytes) : State where
  files := files
  procs := []
  cmds := fun _ ↦ none
  nextCmd := 0

/-- The tunnels of a user as a machine. -/
def machine (files : AList fun _ : String ↦ Bytes) : Machine State Act Event where
  init := start files
  step := step paths

/-- Paths that lead to files of the tunnels directory, or to nowhere. `./` in front of a name makes
no difference. -/
def dirPaths : Paths where
  place name :=
    match name.toList with
    | '.' :: '/' :: rest => if isFileName (.ofList rest) then some (.ofList rest) else none
    | _ => if isFileName name then some name else none
  plain name hname := by
    split
    · rename_i rest htext
      rw [isFileName, htext, List.all_cons, List.all_cons] at hname
      simp at hname
    · rw [if_pos hname]

/-- `http -d` under the name `app`, up to the pid file. -/
def detachRun (c : CmdId) (pid : UInt32) : List Act :=
  [.begin (.detach "app") [], .read c, .spawn c pid, .openFile c, .write c]

/-! ## What a step can do -/

/-- What a command that reads a pid file finds in it: nothing, or no pid. -/
def State.NoPid (s : State) (name : String) : Prop :=
  ∀ content text, s.pidFile paths name = some content → Framing.ofUtf8 content = some text →
    parsePid text = 0

/-- The inversion of `step`. -/
inductive Transition (s : State) : Act → State → List Event → Prop
  | begin {command : Command} {entries : List String}
      (hentries : ∀ name ∈ entries, isFileName name = true) :
      Transition s (.begin command entries)
        ({ s with nextCmd := s.nextCmd + 1 }.setCmd s.nextCmd (command.first entries)) []
  | abandon {a : Act} {c : CmdId} {cmd : Cmd} (hc : s.cmds c = some cmd) :
      Transition s a (s.setCmd c .done) []
  | readNone {c : CmdId} {caller : Caller} {name : String}
      (hc : s.cmds c = some (.reading caller name .start)) (hno : s.NoPid paths name) :
      Transition s (.read c) (s.setCmd c (caller.return name none)) []
  | readPid {c : CmdId} {caller : Caller} {name text : String} {content : Bytes}
      (hc : s.cmds c = some (.reading caller name .start))
      (hfile : s.pidFile paths name = some content) (htext : Framing.ofUtf8 content = some text)
      (hpid : parsePid text ≠ 0) :
      Transition s (.read c) (s.setCmd c (.reading caller name (.probe (parsePid text)))) []
  | alive {c : CmdId} {caller : Caller} {name : String} {pid : UInt32}
      (hc : s.cmds c = some (.reading caller name (.probe pid)))
      (halive : s.isPidAlive pid = true) :
      Transition s (.probe c) (s.setCmd c (caller.return name (some pid))) []
  | dead {c : CmdId} {caller : Caller} {name : String} {pid : UInt32}
      (hc : s.cmds c = some (.reading caller name (.probe pid)))
      (hdead : s.isPidAlive pid = false) :
      Transition s (.probe c) (s.setCmd c (.reading caller name .remove)) []
  | remove {c : CmdId} {caller : Caller} {name : String}
      (hc : s.cmds c = some (.reading caller name .remove)) :
      Transition s (.remove c) ((s.removePid paths name).setCmd c (caller.return name none)) []
  | signal {c : CmdId} {name : String} {pid : UInt32} {rest : List String}
      (hc : s.cmds c = some (.signalling name pid rest)) :
      Transition s (.signal c)
        ((s.mapProcs (Proc.sigterm pid)).setCmd c (.unlinking name rest))
        [.sigterm c name pid (s.receivers pid)]
  | unlink {c : CmdId} {name : String} {rest : List String}
      (hc : s.cmds c = some (.unlinking name rest)) :
      Transition s (.unlink c) ((s.removePid paths name).setCmd c (stopNext rest)) []
  | spawn {c : CmdId} {name : String} {pid : UInt32} (hc : s.cmds c = some (.spawning name))
      (hfree : s.isFree pid = true) :
      Transition s (.spawn c pid)
        ({ s with procs :=
          { pid, group := pid.toInt32, mine := true, kind := .daemon name c } :: s.procs }.setCmd c
            (.opening name pid)) []
  | openFile {c : CmdId} {name file : String} {pid : UInt32}
      (hc : s.cmds c = some (.opening name pid)) (hfile : paths.place name = some file) :
      Transition s (.openFile c) ((s.setFile file []).setCmd c (.writing name pid true)) []
  | write {c : CmdId} {name file : String} {pid : UInt32}
      (hc : s.cmds c = some (.writing name pid true)) (hfile : paths.place name = some file) :
      Transition s (.write c) (((s.mapProcs (Proc.record name c pid)).setFile file
        (Framing.utf8 (pidText pid) ++ ((s.files.lookup file).getD []).drop
          (Framing.utf8 (pidText pid)).length)).setCmd c .done) []
  | writeLost {c : CmdId} {name : String} {pid : UInt32} {linked : Bool}
      (hc : s.cmds c = some (.writing name pid linked))
      (hlost : linked = true → paths.place name = none) :
      Transition s (.write c) ((s.mapProcs (Proc.record name c pid)).setCmd c .done) []
  | exec {pid : UInt32} {group : Int32} {mine : Bool} {kind : Kind}
      (hkind : ∀ name, kind.isDaemonOf name = false) (hfree : s.isFree pid = true) :
      Transition s (.exec pid group mine kind)
        { s with procs := { pid, group, mine, kind } :: s.procs } []
  | startThread {pid tid : UInt32} (hfree : s.isFree tid = true) :
      Transition s (.startThread pid tid) (s.mapProcs (Proc.startThread pid tid)) []
  | endThread (pid tid : UInt32) :
      Transition s (.endThread pid tid) (s.mapProcs (Proc.endThread pid tid)) []
  | leave {p : Proc} (hp : p ∈ s.procs) (hlife : p.life = .running) :
      Transition s (.leave p.pid) (s.mapProcs (Proc.setLife p.pid .leaving)) []
  | cleanup {p : Proc} {name : String} (hp : p ∈ s.procs) (hname : p.kind.tunnel = some name)
      (hlife : p.life = .leaving) : Transition s (.cleanup p.pid)
        ((s.removePid paths name).mapProcs (Proc.setLife p.pid .left)) []
  | die (pid : UInt32) : Transition s (.die pid) (s.mapProcs (Proc.setLife pid .zombie)) []
  | reap (pid : UInt32) :
      Transition s (.reap pid) { s with procs := s.procs.filter fun p ↦ p.pid != pid } []
  | reboot : Transition s .reboot
      { s with procs := [], cmds := fun c ↦ (s.cmds c).map fun _ ↦ .done } []
  | edit (file : String) (content : Bytes) :
      Transition s (.edit file content) (s.setFile file content) []

variable {paths} {s t : State} {a : Act} {es : List Event} {c : CmdId} {cmd : Cmd} {name : String}
  {pid : UInt32} {p : Proc}

theorem proc_eq_some (hp : s.proc pid = some p) : p ∈ s.procs ∧ p.pid = pid := by
  rw [State.proc] at hp
  exact ⟨List.mem_of_find?_eq_some hp, by simpa using List.find?_some hp⟩

private theorem cmdStep_transition (hc : s.cmds c = some cmd) (ha : a.cmd = some c)
    (hstep : cmdStep paths s c cmd a = some (t, es)) : Transition paths s a t es := by
  cases a with
  | read =>
    rw [Act.cmd, Option.some.injEq] at ha
    subst ha
    simp only [cmdStep] at hstep
    split at hstep
    · split at hstep
      · rename_i hfile
        rw [Option.some.injEq, Prod.mk.injEq] at hstep
        obtain ⟨rfl, rfl⟩ := hstep
        refine .readNone hc fun content text hfile' ↦ ?_
        rw [hfile] at hfile'
        cases hfile'
      · rename_i content hfile
        split at hstep
        · rw [Option.some.injEq, Prod.mk.injEq] at hstep
          obtain ⟨rfl, rfl⟩ := hstep
          exact .abandon hc
        · rename_i text htext
          split at hstep
          · rename_i hzero
            rw [Option.some.injEq, Prod.mk.injEq] at hstep
            obtain ⟨rfl, rfl⟩ := hstep
            refine .readNone hc fun content' text' hfile' htext' ↦ ?_
            rw [hfile, Option.some.injEq] at hfile'
            rw [← hfile', htext, Option.some.injEq] at htext'
            rw [← htext', hzero]
          · rename_i hpid
            rw [Option.some.injEq, Prod.mk.injEq] at hstep
            obtain ⟨rfl, rfl⟩ := hstep
            exact .readPid hc hfile htext hpid
    · cases hstep
  | probe =>
    rw [Act.cmd, Option.some.injEq] at ha
    subst ha
    simp only [cmdStep] at hstep
    split at hstep
    · split at hstep
      · rename_i halive
        rw [Option.some.injEq, Prod.mk.injEq] at hstep
        obtain ⟨rfl, rfl⟩ := hstep
        exact .alive hc halive
      · rename_i hdead
        rw [Option.some.injEq, Prod.mk.injEq] at hstep
        obtain ⟨rfl, rfl⟩ := hstep
        exact .dead hc (Bool.not_eq_true _ ▸ hdead)
    · cases hstep
  | remove =>
    rw [Act.cmd, Option.some.injEq] at ha
    subst ha
    simp only [cmdStep] at hstep
    split at hstep
    · rw [Option.some.injEq, Prod.mk.injEq] at hstep
      obtain ⟨rfl, rfl⟩ := hstep
      exact .remove hc
    · cases hstep
  | signal =>
    rw [Act.cmd, Option.some.injEq] at ha
    subst ha
    simp only [cmdStep] at hstep
    split at hstep
    · rw [Option.some.injEq, Prod.mk.injEq] at hstep
      obtain ⟨rfl, rfl⟩ := hstep
      exact .signal hc
    · cases hstep
  | unlink =>
    rw [Act.cmd, Option.some.injEq] at ha
    subst ha
    simp only [cmdStep] at hstep
    split at hstep
    · rw [Option.some.injEq, Prod.mk.injEq] at hstep
      obtain ⟨rfl, rfl⟩ := hstep
      exact .unlink hc
    · cases hstep
  | spawn =>
    rw [Act.cmd, Option.some.injEq] at ha
    subst ha
    simp only [cmdStep] at hstep
    split at hstep
    · split at hstep
      · rename_i hfree
        rw [Option.some.injEq, Prod.mk.injEq] at hstep
        obtain ⟨rfl, rfl⟩ := hstep
        exact .spawn hc hfree
      · cases hstep
    · cases hstep
  | openFile =>
    rw [Act.cmd, Option.some.injEq] at ha
    subst ha
    simp only [cmdStep] at hstep
    split at hstep
    · split at hstep
      · rename_i hfile
        rw [Option.some.injEq, Prod.mk.injEq] at hstep
        obtain ⟨rfl, rfl⟩ := hstep
        exact .openFile hc hfile
      · rw [Option.some.injEq, Prod.mk.injEq] at hstep
        obtain ⟨rfl, rfl⟩ := hstep
        exact .abandon hc
    · cases hstep
  | write =>
    rw [Act.cmd, Option.some.injEq] at ha
    subst ha
    simp only [cmdStep] at hstep
    split at hstep
    · split at hstep
      · rename_i hfile
        rw [Option.some.injEq, Prod.mk.injEq] at hstep
        obtain ⟨rfl, rfl⟩ := hstep
        exact .write hc hfile
      · rename_i hlost
        rw [Option.some.injEq, Prod.mk.injEq] at hstep
        obtain ⟨rfl, rfl⟩ := hstep
        refine .writeLost hc fun hlinked ↦ Option.eq_none_iff_forall_ne_some.mpr fun file hfile ↦ ?_
        exact hlost file hlinked hfile
    · cases hstep
  | fail =>
    rw [cmdStep, Option.some.injEq, Prod.mk.injEq] at hstep
    obtain ⟨rfl, rfl⟩ := hstep
    exact .abandon hc
  | begin | exec | startThread | endThread | leave | cleanup | die | reap | reboot | edit =>
    cases ha

theorem step_transition (hstep : step paths s a = some (t, es)) : Transition paths s a t es := by
  cases a with
  | begin command entries =>
    simp only [step] at hstep
    split at hstep
    · rename_i hentries
      rw [Option.some.injEq, Prod.mk.injEq] at hstep
      obtain ⟨rfl, rfl⟩ := hstep
      exact .begin (List.all_eq_true.mp hentries)
    · cases hstep
  | exec pid group mine kind =>
    cases kind with
    | daemon => cases hstep
    | foreground | unrelated =>
      simp only [step] at hstep
      split at hstep
      · rename_i hfree
        rw [Option.some.injEq, Prod.mk.injEq] at hstep
        obtain ⟨rfl, rfl⟩ := hstep
        exact .exec (fun _ ↦ rfl) hfree
      · cases hstep
  | startThread pid tid =>
    simp only [step] at hstep
    split at hstep
    · rename_i hfree
      rw [Option.some.injEq, Prod.mk.injEq] at hstep
      obtain ⟨rfl, rfl⟩ := hstep
      exact .startThread hfree
    · cases hstep
  | endThread pid tid =>
    rw [step, Option.some.injEq, Prod.mk.injEq] at hstep
    obtain ⟨rfl, rfl⟩ := hstep
    exact .endThread pid tid
  | leave pid =>
    simp only [step] at hstep
    split at hstep
    · rename_i p hp
      obtain ⟨hmem, rfl⟩ := proc_eq_some hp
      split at hstep
      · rename_i hlife
        rw [Bool.and_eq_true, decide_eq_true_eq] at hlife
        rw [Option.some.injEq, Prod.mk.injEq] at hstep
        obtain ⟨rfl, rfl⟩ := hstep
        exact .leave hmem hlife.2
      · cases hstep
    · cases hstep
  | cleanup pid =>
    simp only [step] at hstep
    split at hstep
    · rename_i p hp
      obtain ⟨hmem, rfl⟩ := proc_eq_some hp
      split at hstep
      · rename_i name hname
        split at hstep
        · rename_i hlife
          rw [Option.some.injEq, Prod.mk.injEq] at hstep
          obtain ⟨rfl, rfl⟩ := hstep
          exact .cleanup hmem hname hlife
        · cases hstep
      · cases hstep
    · cases hstep
  | die pid =>
    simp only [step] at hstep
    split at hstep
    · rw [Option.some.injEq, Prod.mk.injEq] at hstep
      obtain ⟨rfl, rfl⟩ := hstep
      exact .die pid
    · cases hstep
  | reap pid =>
    simp only [step] at hstep
    split at hstep
    · split at hstep
      · rw [Option.some.injEq, Prod.mk.injEq] at hstep
        obtain ⟨rfl, rfl⟩ := hstep
        exact .reap pid
      · cases hstep
    · cases hstep
  | reboot =>
    rw [step, Option.some.injEq, Prod.mk.injEq] at hstep
    obtain ⟨rfl, rfl⟩ := hstep
    exact .reboot
  | edit file content =>
    rw [step, Option.some.injEq, Prod.mk.injEq] at hstep
    obtain ⟨rfl, rfl⟩ := hstep
    exact .edit file content
  | read c | probe c | remove c | signal c | unlink c | spawn c | openFile c | write c | fail c =>
    simp only [step, Act.cmd] at hstep
    split at hstep
    · cases hstep
    · rename_i hc
      exact cmdStep_transition hc rfl hstep

/-! ## Frames -/

namespace State

theorem setCmd_cmds {c' : CmdId} {cmd' : Cmd} (hc : (s.setCmd c cmd).cmds c' = some cmd') :
    c' = c ∧ cmd' = cmd ∨ c' ≠ c ∧ s.cmds c' = some cmd' := by
  replace hc : Function.update s.cmds c (some cmd) c' = some cmd' := hc
  by_cases heq : c' = c
  · subst heq
    rw [Function.update_self, Option.some.injEq] at hc
    exact .inl ⟨rfl, hc.symm⟩
  · rw [Function.update_of_ne heq] at hc
    exact .inr ⟨heq, hc⟩

theorem removeFile_cmds (hc : (s.removeFile paths name).cmds c = some cmd) :
    ∃ cmd', s.cmds c = some cmd' ∧ cmd = cmd'.unlinked paths name := by
  obtain ⟨cmd', hcmd', rfl⟩ := Option.map_eq_some_iff.mp hc
  exact ⟨cmd', hcmd', rfl⟩

theorem setFile_lookup {name' : String} {content content' : Bytes}
    (hfile : (s.setFile name content).files.lookup name' = some content') :
    name' = name ∧ content' = content ∨ name' ≠ name ∧ s.files.lookup name' = some content' := by
  by_cases heq : name' = name
  · subst heq
    rw [setFile, AList.lookup_insert, Option.some.injEq] at hfile
    exact .inl ⟨rfl, hfile.symm⟩
  · rw [setFile, AList.lookup_insert_ne heq] at hfile
    exact .inr ⟨heq, hfile⟩

theorem removeFile_lookup {name' : String} {content : Bytes}
    (hfile : (s.removeFile paths name).files.lookup name' = some content) :
    name' ≠ name ∧ s.files.lookup name' = some content := by
  by_cases heq : name' = name
  · subst heq
    rw [removeFile, AList.lookup_erase] at hfile
    cases hfile
  · rw [removeFile, AList.lookup_erase_ne heq] at hfile
    exact ⟨heq, hfile⟩

/-- What holds where a file is removed, and where none is, holds where a path is removed. -/
theorem removePid_induction {P : State → Prop} (hs : P s)
    (hfile : ∀ file, P (s.removeFile paths file)) (name : String) : P (s.removePid paths name) := by
  rw [removePid]
  split
  · exact hfile _
  · exact hs

theorem removePid_of_isFileName (hname : isFileName name = true) :
    s.removePid paths name = s.removeFile paths name := by
  rw [removePid, paths.plain name hname]

theorem pidFile_of_isFileName (hname : isFileName name = true) :
    s.pidFile paths name = s.files.lookup name := by
  rw [pidFile, paths.plain name hname, Option.bind_some]

end State

/-- A change that leaves alone what a process is. -/
def Keeps (f : Proc → Proc) : Prop :=
  ∀ p, (f p).pid = p.pid ∧ (f p).mine = p.mine ∧ (f p).kind = p.kind

theorem keeps_sigterm (pid : UInt32) : Keeps (Proc.sigterm pid) := by
  intro p
  rw [Proc.sigterm]
  split <;> exact ⟨rfl, rfl, rfl⟩

theorem keeps_setLife (pid : UInt32) (life : Life) : Keeps (Proc.setLife pid life) := by
  intro p
  rw [Proc.setLife]
  split <;> exact ⟨rfl, rfl, rfl⟩

theorem keeps_record (name : String) (c : CmdId) (pid : UInt32) :
    Keeps (Proc.record name c pid) := by
  intro p
  rw [Proc.record]
  split <;> exact ⟨rfl, rfl, rfl⟩

theorem keeps_startThread (pid tid : UInt32) : Keeps (Proc.startThread pid tid) := by
  intro p
  rw [Proc.startThread]
  split <;> exact ⟨rfl, rfl, rfl⟩

theorem keeps_endThread (pid tid : UInt32) : Keeps (Proc.endThread pid tid) := by
  intro p
  rw [Proc.endThread]
  split <;> exact ⟨rfl, rfl, rfl⟩

theorem has_eq_true : p.has pid = true ↔ p.pid = pid ∨ pid ∈ p.threads := by
  rw [Proc.has, Bool.or_eq_true, beq_iff_eq, List.contains_iff_mem]

theorem isFree_eq_true :
    s.isFree pid = true ↔ 0 < pid.toInt32 ∧ ∀ p ∈ s.procs, ¬p.has pid = true := by
  rw [State.isFree, Bool.and_eq_true, decide_eq_true_eq, List.all_eq_true]
  simp only [Bool.not_eq_true', Bool.not_eq_true]

/-! ## The numbers of commands -/

/-- Only a number that has been given out has a command. -/
def State.Bounded (s : State) : Prop := ∀ c cmd, s.cmds c = some cmd → c < s.nextCmd

theorem State.Bounded.setCmd (hs : s.Bounded) (hc : s.cmds c ≠ none) :
    (s.setCmd c cmd).Bounded := by
  intro c' cmd' hcmd'
  rcases State.setCmd_cmds hcmd' with ⟨rfl, -⟩ | ⟨-, hcmd'⟩
  · obtain ⟨cmd₀, hcmd₀⟩ := Option.ne_none_iff_exists'.mp hc
    exact hs c' cmd₀ hcmd₀
  · exact hs c' cmd' hcmd'

theorem State.Bounded.removePid (hs : s.Bounded) (name : String) :
    (s.removePid paths name).Bounded := by
  refine State.removePid_induction hs (fun file c' cmd' hcmd' ↦ ?_) name
  obtain ⟨cmd₀, hcmd₀, -⟩ := State.removeFile_cmds hcmd'
  exact hs c' cmd₀ hcmd₀

theorem State.removePid_cmds_ne_none (hc : s.cmds c ≠ none) (name : String) :
    (s.removePid paths name).cmds c ≠ none := by
  refine State.removePid_induction (P := fun s ↦ s.cmds c ≠ none) hc (fun file hnone ↦ ?_) name
  exact hc (Option.map_eq_none_iff.mp hnone)

private theorem Transition.bounded (htr : Transition paths s a t es) (hs : s.Bounded) :
    t.Bounded := by
  have hsome : ∀ {c cmd}, s.cmds c = some cmd → s.cmds c ≠ none := by
    intro c cmd hc
    rw [hc]
    exact Option.some_ne_none cmd
  cases htr with
  | begin =>
    intro c' cmd' hcmd'
    rcases State.setCmd_cmds hcmd' with ⟨rfl, -⟩ | ⟨-, hcmd'⟩
    · exact Nat.lt_succ_self _
    · exact Nat.lt_succ_of_lt (hs c' cmd' hcmd')
  | abandon hc | readNone hc | readPid hc | alive hc | dead hc | signal hc | spawn hc | openFile hc
  | write hc | writeLost hc => exact State.Bounded.setCmd (by exact hs) (hsome hc)
  | remove hc | unlink hc =>
    exact (hs.removePid _).setCmd (State.removePid_cmds_ne_none (hsome hc) _)
  | exec | startThread | endThread | leave | die | reap | edit => exact hs
  | cleanup => exact hs.removePid _
  | reboot =>
    intro c' cmd' hcmd'
    obtain ⟨cmd₀, hcmd₀, -⟩ := Option.map_eq_some_iff.mp hcmd'
    exact hs c' cmd₀ hcmd₀

theorem step_bounded (hstep : step paths s a = some (t, es)) (hs : s.Bounded) : t.Bounded :=
  (step_transition hstep).bounded hs

theorem start_bounded (files : AList fun _ : String ↦ Bytes) : (start files).Bounded := by
  intro c cmd hc
  cases hc

/-! ## File names

Where commands and processes get only file names, they keep to them: the names that a command goes
on with are its own, or were in the directory. -/

/-- A command line whose name, if it has one, is a file name. -/
def Command.isPlain : Command → Bool
  | stop (some name) | detach name => isFileName name
  | status | stop none => true

/-- A kind of process whose name, if it has one, is a file name. -/
def Kind.isPlain (kind : Kind) : Bool :=
  match kind.tunnel with
  | some name => isFileName name
  | none => true

def Caller.names : Caller → List String
  | list _ rest out => rest ++ out.map Prod.fst
  | stop rest => rest
  | spawnDetached => []

/-- The names that a command has to do with from here on. -/
def Cmd.names : Cmd → List String
  | reading caller name _ => name :: caller.names
  | signalling name _ rest | unlinking name rest => name :: rest
  | spawning name | opening name _ | writing name .. => [name]
  | done => []

@[simp] theorem names_stopNext (names : List String) : (stopNext names).names = names := by
  cases names <;> rfl

theorem mem_names_listNext {all : Bool} {out : List (String × UInt32)} {names : List String}
    (hmem : name ∈ (listNext all out names).names) : name ∈ names ∨ name ∈ out.map Prod.fst := by
  cases names with
  | cons n names =>
    rw [listNext, Cmd.names, Caller.names, ← List.cons_append] at hmem
    exact List.mem_append.mp hmem
  | nil =>
    rw [listNext] at hmem
    split at hmem
    · rw [names_stopNext] at hmem
      exact .inr ((((out.perm_insertionSort _).map Prod.fst).mem_iff).mp hmem)
    · cases hmem

theorem mem_names_first {command : Command} {entries : List String}
    (hmem : name ∈ (command.first entries).names) (hplain : command.isPlain = true)
    (hentries : ∀ name ∈ entries, isFileName name = true) : isFileName name = true := by
  have hlist : ∀ all, name ∈ (listNext all [] entries).names → isFileName name = true :=
    fun all hmem ↦ (mem_names_listNext hmem).elim (hentries name) fun h ↦ by cases h
  cases command with
  | status => exact hlist false hmem
  | stop given =>
    cases given with
    | none => exact hlist true hmem
    | some n =>
      rw [Command.first, names_stopNext, List.mem_singleton] at hmem
      rwa [hmem]
  | detach n =>
    rw [Command.first, Cmd.names, Caller.names, List.mem_singleton] at hmem
    rwa [hmem]

theorem mem_names_return {caller : Caller} {name' : String} {o : Option UInt32}
    (hmem : name' ∈ (caller.return name o).names) : name' = name ∨ name' ∈ caller.names := by
  cases caller with
  | list all rest out =>
    rw [Caller.names, List.mem_append]
    cases o with
    | none => exact .inr (mem_names_listNext hmem)
    | some pid =>
      rcases mem_names_listNext hmem with h | h
      · exact .inr (.inl h)
      · rw [List.map_append, List.mem_append, List.map_singleton, List.mem_singleton] at h
        exact h.elim (fun h ↦ .inr (.inr h)) .inl
  | stop rest =>
    cases o with
    | none =>
      rw [Caller.return, names_stopNext] at hmem
      exact .inr hmem
    | some pid => exact List.mem_cons.mp hmem
  | spawnDetached =>
    cases o with
    | none => exact List.mem_cons.mp hmem
    | some pid => cases hmem

@[simp] theorem names_unlinked (file : String) : (cmd.unlinked paths file).names = cmd.names := by
  cases cmd <;> rfl

/-- All commands have to do with file names only. -/
def State.PlainCmds (s : State) : Prop :=
  ∀ c cmd, s.cmds c = some cmd → ∀ name ∈ cmd.names, isFileName name = true

/-- All `http` processes run under file names. -/
def State.PlainProcs (s : State) : Prop :=
  ∀ p ∈ s.procs, ∀ name, p.kind.tunnel = some name → isFileName name = true

theorem State.PlainCmds.setCmd (hs : s.PlainCmds)
    (hcmd : ∀ name ∈ cmd.names, isFileName name = true) : (s.setCmd c cmd).PlainCmds := by
  intro c' cmd' hc' name hmem
  rcases State.setCmd_cmds hc' with ⟨-, rfl⟩ | ⟨-, hc'⟩
  · exact hcmd name hmem
  · exact hs c' cmd' hc' name hmem

theorem State.PlainCmds.removePid (hs : s.PlainCmds) (name : String) :
    (s.removePid paths name).PlainCmds := by
  refine State.removePid_induction hs (fun file c' cmd' hc' name hmem ↦ ?_) name
  obtain ⟨cmd₀, hc₀, rfl⟩ := State.removeFile_cmds hc'
  rw [names_unlinked] at hmem
  exact hs c' cmd₀ hc₀ name hmem

theorem Transition.plainCmds (htr : Transition paths s a t es)
    (hbegin : ∀ command entries, a = .begin command entries → command.isPlain = true)
    (hs : s.PlainCmds) : t.PlainCmds := by
  have hreturn : ∀ {c caller name st o}, s.cmds c = some (.reading caller name st) →
      ∀ name' ∈ (caller.return name o).names, isFileName name' = true := by
    intro c caller name st o hc name' hmem
    rcases mem_names_return hmem with rfl | hmem
    · exact hs _ _ hc _ List.mem_cons_self
    · exact hs _ _ hc _ (List.mem_cons_of_mem _ hmem)
  have hdone : ∀ name ∈ Cmd.done.names, isFileName name = true := fun _ h ↦ by cases h
  cases htr with
  | begin hentries =>
    refine State.PlainCmds.setCmd (by exact hs) fun name hmem ↦ ?_
    exact mem_names_first hmem (hbegin _ _ rfl) hentries
  | abandon => exact hs.setCmd hdone
  | readNone hc | alive hc => exact hs.setCmd (hreturn hc)
  | remove hc => exact (hs.removePid _).setCmd (hreturn hc)
  | readPid hc | dead hc | signal hc | spawn hc | openFile hc =>
    have hnames := hs _ _ hc
    exact State.PlainCmds.setCmd (by exact hs) fun name hmem ↦ hnames name hmem
  | unlink hc =>
    refine (hs.removePid _).setCmd fun name hmem ↦ hs _ _ hc name ?_
    rw [names_stopNext] at hmem
    exact List.mem_cons_of_mem _ hmem
  | write | writeLost => exact State.PlainCmds.setCmd (by exact hs) hdone
  | exec | startThread | endThread | leave | die | reap | edit => exact hs
  | cleanup => exact hs.removePid _
  | reboot =>
    intro c cmd hc
    obtain ⟨cmd₀, -, rfl⟩ := Option.map_eq_some_iff.mp hc
    exact hdone

theorem State.removePid_procs (name : String) : (s.removePid paths name).procs = s.procs :=
  State.removePid_induction (P := fun t ↦ t.procs = s.procs) rfl (fun _ ↦ rfl) name

theorem Transition.plainProcs (htr : Transition paths s a t es)
    (hexec : ∀ pid group mine kind, a = .exec pid group mine kind → kind.isPlain = true)
    (hcmds : s.PlainCmds) (hs : s.PlainProcs) : t.PlainProcs := by
  have hmap : ∀ {f : Proc → Proc}, Keeps f → ∀ p ∈ s.procs.map f,
      ∀ name, p.kind.tunnel = some name → isFileName name = true := by
    intro f hf p hp name hname
    obtain ⟨q, hq, rfl⟩ := List.mem_map.mp hp
    rw [(hf q).2.2] at hname
    exact hs q hq name hname
  cases htr with
  | begin | abandon | readNone | readPid | alive | dead | openFile | edit => exact hs
  | remove | unlink =>
    intro p hp
    replace hp : p ∈ (s.removePid paths _).procs := hp
    rw [State.removePid_procs] at hp
    exact hs p hp
  | signal => exact hmap (keeps_sigterm _)
  | spawn hc =>
    intro p hp name hname
    rcases List.mem_cons.mp hp with rfl | hp
    · cases hname
      exact hcmds _ _ hc _ List.mem_cons_self
    · exact hs p hp name hname
  | @write c name file pid | @writeLost c name pid => exact hmap (keeps_record name c pid)
  | @exec pid group mine kind =>
    intro p hp name hname
    rcases List.mem_cons.mp hp with rfl | hp
    · have hplain := hexec _ _ _ _ rfl
      rwa [Kind.isPlain, hname] at hplain
    · exact hs p hp name hname
  | startThread => exact hmap (keeps_startThread _ _)
  | endThread => exact hmap (keeps_endThread _ _)
  | leave | die => exact hmap (keeps_setLife _ _)
  | cleanup =>
    intro p hp
    replace hp : p ∈ (s.removePid paths _).procs.map _ := hp
    rw [State.removePid_procs] at hp
    exact hmap (keeps_setLife _ _) p hp
  | reap => exact fun p hp ↦ hs p (List.mem_of_mem_filter hp)
  | reboot =>
    intro p hp
    cases hp

end Tunnels

end ZoTunnel
