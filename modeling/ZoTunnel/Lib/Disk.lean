import Mathlib.Data.List.Basic
import Mathlib.Logic.Function.Basic
import ZoTunnel.Lib.Framing

/-!
# Paths and directories

A tree of directories with files and symbolic links, and the walk by which the system finds what a
path stands for. A path is a byte string. The walk goes through its components one after the other,
enters directories, goes back at `..`, and replaces a link by its target; after forty links it gives
up. What it comes to is a directory, or a place in a directory where a file is or could be made.

`join` puts a name behind a directory, and the name is one component if it is a proper name
(`IsName`). Then the walk to the joined path is the walk to the directory and from there to the
entry of that name (`reach_join`), whatever links are on the way.

Files have one name each: there are no hard links, and no permissions. Where a program can be
refused a file, its model takes that as an input.
-/

/-- The name of a directory entry. -/
abbrev FileName := Bytes

/-- A directory, by the names on the way to it. The innermost name comes first. -/
abbrev Directory := List FileName

/-- What a directory has under a name. -/
inductive Node
  | file (content : Bytes)
  | dir
  | link (target : Bytes)
  deriving DecidableEq, Repr

/-- The nodes of the tree, by name and directory, and the current directory. -/
structure Disk where
  nodes : Directory → Option Node
  cwd : Directory

namespace Disk

/-! ## Paths -/

/-- The byte between components. -/
def slash : UInt8 := 47

def dot : FileName := [46]

def dotdot : FileName := [46, 46]

/-- A name that an entry can have. -/
structure IsName (n : FileName) : Prop where
  ne_nil : n ≠ []
  ne_dot : n ≠ dot
  ne_dotdot : n ≠ dotdot
  noSlash : slash ∉ n
  noNul : 0 ∉ n

/-- The portable characters for names: letters and digits, dot, underscore and hyphen. -/
def isPortable (c : Char) : Bool := c.isAlphanum || c == '-' || c == '_' || c == '.'

/-- The components of a path, with empty ones where slashes meet or stand at an end. -/
def components : Bytes → List FileName
  | [] => [[]]
  | b :: bs => if b = slash then [] :: components bs else (components bs).modifyHead (b :: ·)

/-- A path behind a directory. A path that begins with a slash stands for itself. -/
def join (dir path : Bytes) : Bytes :=
  if path.head? = some slash then path
  else if dir = [] ∨ dir.getLast? = some slash then dir ++ path
  else dir ++ slash :: path

/-- The last component of a path, unless that is `..` or there is none. -/
def fileName (path : Bytes) : Option FileName :=
  match ((components path).filter fun n ↦ n ≠ [] ∧ n ≠ dot).getLast? with
  | some n => if n = dotdot then none else some n
  | none => none

theorem toNat_of_isPortable {c : Char} (hc : isPortable c = true) :
    45 ≤ c.toNat ∧ c.toNat ≤ 122 ∧ c.toNat ≠ 47 ∧ c.toNat ≠ 92 := by
  rw [isPortable, Bool.or_eq_true, Bool.or_eq_true, Bool.or_eq_true, beq_iff_eq, beq_iff_eq,
    beq_iff_eq] at hc
  rcases hc with ((h | rfl) | rfl) | rfl
  · have := Framing.toNat_of_isAlphanum h
    omega
  · decide
  · decide
  · decide

/-- A text of portable characters is a name, unless it is empty or a dot or two. -/
theorem isName_utf8 {s : String} (hs : ∀ c ∈ s.toList, isPortable c = true) (hempty : s ≠ "")
    (hdot : s ≠ ".") (hdotdot : s ≠ "..") : IsName (Framing.utf8 s) := by
  have hbyte : ∀ b ∈ Framing.utf8 s, 45 ≤ b.toNat ∧ b.toNat ≠ 47 := by
    intro b hb
    obtain ⟨c, hc, heq⟩ := Framing.exists_of_mem_utf8
      (fun c hc ↦ by have := toNat_of_isPortable (hs c hc); omega) hb
    have := toNat_of_isPortable (hs c hc)
    omega
  refine ⟨fun h ↦ hempty (Framing.utf8_inj h), fun h ↦ hdot (Framing.utf8_inj h),
    fun h ↦ hdotdot (Framing.utf8_inj h), fun h ↦ (hbyte _ h).2 rfl, fun h ↦ ?_⟩
  exact absurd (hbyte _ h).1 (by decide)

theorem components_ne_nil (bs : Bytes) : components bs ≠ [] := by
  induction bs with
  | nil => exact List.cons_ne_nil _ _
  | cons b bs ih =>
    rw [components]
    split
    · exact List.cons_ne_nil _ _
    · obtain ⟨n, ns, hns⟩ := List.exists_cons_of_ne_nil ih
      rw [hns]
      exact List.cons_ne_nil _ _

theorem components_append (a b : Bytes) :
    components (a ++ slash :: b) = components a ++ components b := by
  induction a with
  | nil => exact if_pos rfl
  | cons c a ih =>
    rw [List.cons_append, components, components, ih]
    split
    · rfl
    · obtain ⟨n, ns, hns⟩ := List.exists_cons_of_ne_nil (components_ne_nil a)
      rw [hns]
      rfl

theorem components_of_notMem {n : Bytes} (hn : slash ∉ n) : components n = [n] := by
  induction n with
  | nil => rfl
  | cons b n ih =>
    rw [List.mem_cons, not_or] at hn
    rw [components, if_neg (Ne.symm hn.1), ih hn.2]
    rfl

/-- The components of a name behind a directory are those of the directory and the name, but for
an empty one where the directory is empty or ends in a slash. -/
theorem components_join (dir : Bytes) {n : FileName} (hn : slash ∉ n) :
    ∃ ns, components (join dir n) = ns ++ [n] ∧
      (components dir = ns ∨ components dir = ns ++ [[]]) := by
  have hhead : ¬ n.head? = some slash := fun h ↦ hn (List.mem_of_head? h)
  rw [join, if_neg hhead]
  split
  · rename_i h
    rcases h with rfl | h
    · exact ⟨[], components_of_notMem hn, .inr rfl⟩
    · obtain ⟨a, rfl⟩ := List.getLast?_eq_some_iff.mp h
      refine ⟨components a, ?_, .inr (components_append a [])⟩
      rw [List.append_assoc, List.singleton_append, components_append, components_of_notMem hn]
  · exact ⟨components dir, by rw [components_append, components_of_notMem hn], .inl rfl⟩

theorem fileName_join (dir : Bytes) {n : FileName} (hn : IsName n) :
    fileName (join dir n) = some n := by
  obtain ⟨ns, hjoin, -⟩ := components_join dir hn.noSlash
  have hkeep : [n].filter (fun n ↦ n ≠ [] ∧ n ≠ dot) = [n] :=
    List.filter_eq_self.mpr fun m hm ↦ by
      rw [List.mem_singleton.mp hm]
      exact decide_eq_true ⟨hn.ne_nil, hn.ne_dot⟩
  rw [fileName, hjoin, List.filter_append, hkeep, List.getLast?_concat]
  exact if_neg hn.ne_dotdot

theorem head?_join {dir n : Bytes} (hn : slash ∉ n) :
    (join dir n).head? = some slash ↔ dir.head? = some slash := by
  have hhead : ¬ n.head? = some slash := fun h ↦ hn (List.mem_of_head? h)
  rw [join, if_neg hhead]
  cases dir with
  | nil => simp [hhead]
  | cons b dir => split <;> simp

/-! ## The walk -/

/-- Where a walk ends. -/
inductive Place
  | dir (d : Directory)
  /-- A place in a directory for a file. The file may be there or not. -/
  | entry (d : Directory) (n : FileName)
  deriving DecidableEq, Repr

variable (disk : Disk)

/-- Where a path begins, seen from a directory. -/
def start (d : Directory) (path : Bytes) : Directory := if path.head? = some slash then [] else d

/-- Go through the components with `k` links left. Behind a link, `follow` goes on. -/
def walkWith (k : ℕ) (follow : Directory → List FileName → Option (Place × ℕ)) :
    Directory → List FileName → Option (Place × ℕ)
  | d, [] => some (.dir d, k)
  | d, n :: ns =>
    if n = [] ∨ n = dot then walkWith k follow d ns
    else if n = dotdot then walkWith k follow d.tail ns
    else
      match disk.nodes (n :: d) with
      | some .dir => walkWith k follow (n :: d) ns
      | some (.link target) => follow (start d target) (components target ++ ns)
      | some (.file _) | none => if ns = [] then some (.entry d n, k) else none

/-- Go through the components with a number of links at most. What is left of it comes with the
place. -/
def walk : ℕ → Directory → List FileName → Option (Place × ℕ)
  | 0 => disk.walkWith 0 fun _ _ ↦ none
  | k + 1 => disk.walkWith (k + 1) (walk k)

/-- The place that the names behind a path are looked up from, if that is a directory. -/
def reach (path : Bytes) : Option (Place × ℕ) :=
  disk.walk 40 (start disk.cwd path) (components path)

/-- What a path stands for. The empty path stands for nothing, nor does one with a NUL byte. -/
def stat (path : Bytes) : Option Place :=
  if path = [] ∨ 0 ∈ path then none else (disk.reach path).map Prod.fst

/-- The directory that names behind a path are looked up in. -/
def dirAt (path : Bytes) : Option Directory :=
  match disk.reach path with
  | some (.dir d, _) => some d
  | _ => none

section Walk

variable {disk}

/-- From the place where one walk ends, go on. -/
def onward (disk : Disk) (ms : List FileName) : Place × ℕ → Option (Place × ℕ)
  | (.dir e, k) => disk.walk k e ms
  | (.entry .., _) => none

private theorem walkWith_append {k : ℕ} {follow : Directory → List FileName → Option (Place × ℕ)}
    {ms : List FileName} (hms : ms ≠ []) (hwalk : disk.walkWith k follow = disk.walk k)
    (hfollow : ∀ d ns, follow d (ns ++ ms) = (follow d ns).bind (disk.onward ms)) (d : Directory)
    (ns : List FileName) : disk.walkWith k follow d (ns ++ ms) =
      (disk.walkWith k follow d ns).bind (disk.onward ms) := by
  induction ns generalizing d with
  | nil =>
    rw [List.nil_append, hwalk]
    cases k <;> rfl
  | cons n ns ih =>
    rw [List.cons_append, walkWith, walkWith]
    split
    · exact ih d
    split
    · exact ih d.tail
    split
    · exact ih _
    · rw [← List.append_assoc]
      exact hfollow _ _
    · rw [if_neg fun h ↦ hms (List.append_eq_nil_iff.mp h).2]
      split <;> rfl
    · rw [if_neg fun h ↦ hms (List.append_eq_nil_iff.mp h).2]
      split <;> rfl

/-- **Composition.** A walk along a path and on along another one. -/
theorem walk_append {ms : List FileName} (hms : ms ≠ []) (k : ℕ) (d : Directory)
    (ns : List FileName) :
    disk.walk k d (ns ++ ms) = (disk.walk k d ns).bind (disk.onward ms) := by
  induction k generalizing d ns with
  | zero => exact walkWith_append hms rfl (fun _ _ ↦ rfl) d ns
  | succ k ih => exact walkWith_append hms rfl ih d ns

theorem walk_stay {n : FileName} (hn : n = [] ∨ n = dot) (k : ℕ) (d : Directory) :
    disk.walk k d [n] = some (.dir d, k) := by
  cases k <;> exact if_pos hn

theorem walk_name {n : FileName} (hn : IsName n) (k : ℕ) (d : Directory) : disk.walk k d [n] =
    match disk.nodes (n :: d), k with
    | some .dir, _ => some (.dir (n :: d), k)
    | some (.link target), k + 1 => disk.walk k (start d target) (components target)
    | some (.link _), 0 => none
    | _, _ => some (.entry d n, k) := by
  have hempty : ¬(n = [] ∨ n = dot) := not_or.mpr ⟨hn.ne_nil, hn.ne_dot⟩
  cases k with
  | zero =>
    rw [walk, walkWith, if_neg hempty, if_neg hn.ne_dotdot]
    split <;> simp_all [walkWith]
  | succ k =>
    rw [walk, walkWith, if_neg hempty, if_neg hn.ne_dotdot]
    split <;> simp_all [walkWith]

/-- **A joined path** is walked to its directory and from there to the entry of its name. -/
theorem reach_join (dir : Bytes) {n : FileName} (hn : slash ∉ n) : disk.reach (join dir n) =
    (disk.reach dir).bind (disk.onward [n]) := by
  obtain ⟨ns, hjoin, hdir⟩ := components_join dir hn
  have hstart : start disk.cwd (join dir n) = start disk.cwd dir := by
    rw [start, start, if_congr (head?_join hn) rfl rfl]
  rw [reach, reach, hstart, hjoin, walk_append (List.cons_ne_nil _ _)]
  rcases hdir with hdir | hdir
  · rw [hdir]
  · rw [hdir, walk_append (List.cons_ne_nil _ _) _ _ ns]
    rcases disk.walk 40 (start disk.cwd dir) ns with _ | ⟨e | ⟨e, n'⟩, j⟩
    · rfl
    · simp only [Option.bind_some, onward, walk_stay (Or.inl rfl)]
    · rfl

theorem dirAt_eq_some_iff {path : Bytes} {e : Directory} :
    disk.dirAt path = some e ↔ ∃ k, disk.reach path = some (.dir e, k) := by
  rw [dirAt]
  rcases disk.reach path with _ | ⟨e' | ⟨e', n⟩, k⟩ <;> simp

/-- What a joined path stands for is looked up in the directory. -/
theorem stat_join {dir : Bytes} {n : FileName} (hn : slash ∉ n) {place : Place}
    (h : disk.stat (join dir n) = some place) :
    ∃ e k j, disk.dirAt dir = some e ∧ disk.walk k e [n] = some (place, j) := by
  rw [stat] at h
  split at h
  · cases h
  rw [reach_join dir hn, Option.map_eq_some_iff] at h
  obtain ⟨⟨place, j⟩, hbind, rfl⟩ := h
  obtain ⟨⟨e | ⟨e, n'⟩, k⟩, hreach, hon⟩ := Option.bind_eq_some_iff.mp hbind
  · exact ⟨e, k, j, dirAt_eq_some_iff.mpr ⟨k, hreach⟩, hon⟩
  · cases hon

/-- What a joined path stands for, unless a link is under the name. -/
theorem stat_join_of_not_link {dir : Bytes} {n : FileName} (hn : IsName n) {place : Place}
    (h : disk.stat (join dir n) = some place) :
    ∃ e, disk.dirAt dir = some e ∧ ((∃ target, disk.nodes (n :: e) = some (.link target)) ∨
      place = if disk.nodes (n :: e) = some .dir then .dir (n :: e) else .entry e n) := by
  obtain ⟨e, k, j, hdir, hwalk⟩ := stat_join hn.noSlash h
  refine ⟨e, hdir, ?_⟩
  rw [walk_name hn] at hwalk
  rcases hnode : disk.nodes (n :: e) with _ | content | _ | target
  all_goals simp_all

end Walk

/-! ## What programs do with paths -/

/-- The content of a file. -/
def read (path : Bytes) : Option Bytes :=
  match disk.stat path with
  | some (.entry d n) =>
    match disk.nodes (n :: d) with
    | some (.file content) => some content
    | _ => none
  | _ => none

def isFile (path : Bytes) : Bool := (disk.read path).isSome

def isDir (path : Bytes) : Bool :=
  match disk.stat path with
  | some (.dir _) => true
  | _ => false

def pathExists (path : Bytes) : Bool := disk.isFile path || disk.isDir path

/-- Put a node into the tree, or take it out. -/
def set (p : Directory) (node : Option Node) : Disk :=
  { disk with nodes := Function.update disk.nodes p node }

/-- Write a file, which is made if it is not there. A link is followed. -/
def write (path content : Bytes) : Option Disk :=
  match disk.stat path with
  | some (.entry d n) => some (disk.set (n :: d) (some (.file content)))
  | _ => none

/-- The last component of a path in its directory: no directory, and no link is followed. -/
def located (path : Bytes) : Option Directory :=
  if 0 ∈ path then none
  else
    match disk.walk 40 (start disk.cwd path) (components path).dropLast,
      (components path).getLast? with
    | some (.dir d, _), some n => if n = [] ∨ n = dot ∨ n = dotdot then none else some (n :: d)
    | _, _ => none

/-- Make the directory at the end of these names. -/
def makeDir (d : Directory) (ns : List FileName) : Option Disk :=
  match disk.walk 40 d ns.dropLast, ns.getLast? with
  | some (.dir e, _), some n =>
    if n = [] ∨ n = dot ∨ n = dotdot then none
    else if disk.nodes (n :: e) = none then some (disk.set (n :: e) (some .dir))
    else none
  | _, _ => none

/-- Make all directories on the way that are not there, of which the system allows so many. -/
def makeDirs (d : Directory) : ℕ → List FileName → List FileName → Disk → Disk × Bool
  | _, _, [], disk => (disk, true)
  | allowed, done, n :: ns, disk =>
    match disk.walk 40 d (done ++ [n]) with
    | some (.dir _, _) => makeDirs d allowed (done ++ [n]) ns disk
    | _ =>
      match allowed, disk.makeDir d (done ++ [n]) with
      | allowed + 1, some disk => makeDirs d allowed (done ++ [n]) ns disk
      | _, _ => (disk, false)

/-- Make a directory with everything above it, and whether that is there then. -/
def createDirAll (allowed : ℕ) (path : Bytes) : Disk × Bool :=
  if 0 ∈ path then (disk, false)
  else makeDirs (start disk.cwd path) allowed [] (components path) disk

/-- Remove a file, or a link. -/
def remove (path : Bytes) : Option Disk :=
  match disk.located path with
  | some p =>
    match disk.nodes p with
    | some (.file _) | some (.link _) => some (disk.set p none)
    | _ => none
  | none => none

/-! ## Files behind a directory -/

variable {disk} {dir : Bytes} {n : FileName}

theorem isFile_iff {path : Bytes} :
    disk.isFile path = true ↔ ∃ content, disk.read path = some content :=
  Option.isSome_iff_exists

theorem isFile_join_stay (dir : Bytes) (hn : n = [] ∨ n = dot) :
    disk.isFile (join dir n) = false := by
  have hslash : slash ∉ n := by
    rcases hn with rfl | rfl
    · exact List.not_mem_nil
    · decide
  rw [Bool.eq_false_iff, Ne, isFile_iff]
  rintro ⟨content, hread⟩
  rw [read] at hread
  split at hread
  · rename_i e n' hstat
    obtain ⟨e', k, j, -, hwalk⟩ := stat_join hslash hstat
    rw [walk_stay hn] at hwalk
    cases hwalk
  · cases hread

/-- **What is read from a joined path** is the content of the entry, unless the entry is a link. -/
theorem read_join (hn : IsName n) {content : Bytes} (h : disk.read (join dir n) = some content) :
    ∃ e, disk.dirAt dir = some e ∧ (disk.nodes (n :: e) = some (.file content) ∨
      ∃ target, disk.nodes (n :: e) = some (.link target)) := by
  rw [read] at h
  split at h
  · rename_i e n' hstat
    obtain ⟨e', hdir, ⟨target, hlink⟩ | hplace⟩ := stat_join_of_not_link hn hstat
    · exact ⟨e', hdir, .inr ⟨target, hlink⟩⟩
    · split at hplace
      · cases hplace
      obtain ⟨rfl, rfl⟩ := Place.entry.inj hplace
      split at h
      · rename_i hnode
        rw [← Option.some.inj h]
        exact ⟨e, hdir, .inl hnode⟩
      · cases h
  · cases h

/-! ## Changes -/

theorem set_of_ne {p q : Directory} (hne : q ≠ p) (node : Option Node) :
    (disk.set p node).nodes q = disk.nodes q :=
  Function.update_of_ne hne ..

end Disk
