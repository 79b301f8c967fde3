import ZoTunnel.Update.Version

/-!
# Replacing the installed binary

`upgrade` downloads a release and copies its binary over the installed one. Every step can fail, and
what the system lets a step do is an input here: whether a removal or a command goes through, and
how much of a copy is written before it fails.

`copy_with_fallback` removes the old file first. From then on there is nothing to go back to, so an
error of the copy leaves no binary, or a part of the new one. A copy that fails over the old file,
where that could not be removed, can have written a part of it as well. `upgrade_sound_iff` has the
exact condition under which an error leaves the old binary and success the new one.

Paths are texts. Permission bits are left out: `set_executable` never fails.
-/

namespace ZoTunnel

namespace SelfUpdate

/-! ## Files -/

/-- What is at a path. -/
inductive Entry
  | absent
  | file (content : List UInt8)
  | directory
  deriving DecidableEq, Repr

structure IoError where
  permissionDenied : Bool
  text : String
  deriving DecidableEq, Repr

def notFound : IoError := ⟨false, "No such file or directory (os error 2)"⟩

def isADirectory : IoError := ⟨false, "Is a directory (os error 21)"⟩

/-- What the system lets a copy do: all of it, or it fails, and may have written the first bytes. -/
inductive Copying
  | done
  | failed (e : IoError) (written : Option ℕ)
  deriving DecidableEq, Repr

/-- What becomes of `sudo cp`. -/
inductive SudoCp
  | notRun (e : IoError)
  | done
  | failed (written : Option ℕ)
  deriving DecidableEq, Repr

/-- What the system lets the steps of `copy_with_fallback` do. -/
structure Outcomes where
  visible : Bool
  removeFile : Option IoError
  sudoRm : Bool
  copy : Copying
  sudoCp : SudoCp
  deriving DecidableEq, Repr

/-- `fs::remove_file`. -/
def removeFile (outcome : Option IoError) : Entry → Option IoError × Entry
  | .absent => (some (outcome.getD notFound), .absent)
  | .directory => (some (outcome.getD isADirectory), .directory)
  | .file content =>
    match outcome with
    | none => (none, .absent)
    | some e => (some e, .file content)

/-- `sudo rm -f`. -/
def sudoRm (removed : Bool) : Entry → Entry
  | .file content => if removed then .absent else .file content
  | entry => entry

/-- What is at `dst` after the first bytes of a copy, if any, have been written. -/
def overwrite (new : List UInt8) (written : Option ℕ) (dst : Entry) : Entry :=
  match written, dst with
  | none, _ | _, .directory => dst
  | some n, _ => .file (new.take n)

/-- `fs::copy`. -/
def copy (outcome : Copying) (src dst : Entry) : Option IoError × Entry :=
  match src, outcome with
  | .file new, .done => if dst = .directory then (some isADirectory, dst) else (none, .file new)
  | .file new, .failed e written => (some e, overwrite new written dst)
  | _, .done => (some notFound, dst)
  | _, .failed e _ => (some e, dst)

/-- `sudo cp`, with its exit status. Into a directory it copies, too. -/
def sudoCp (outcome : SudoCp) (src dst : Entry) : Except IoError Bool × Entry :=
  match src, outcome with
  | _, .notRun e => (.error e, dst)
  | .file new, .done => (.ok true, if dst = .directory then dst else .file new)
  | .file new, .failed written => (.ok false, overwrite new written dst)
  | _, _ => (.ok false, dst)

/-! ## The replacement -/

/-- The first half: the old file, if it can be seen, is removed, and no error is reported. -/
def removeOld (o : Outcomes) (dst : Entry) : Entry :=
  if dst ≠ .absent ∧ o.visible then
    match removeFile o.removeFile dst with
    | (none, dst) => dst
    | (some e, dst) => if e.permissionDenied then sudoRm o.sudoRm dst else dst
  else dst

/-- Copy a file, with `sudo` if permission is denied. -/
def copyWithFallback (o : Outcomes) (src dst : Entry) : Except String Bool × Entry :=
  match copy o.copy src (removeOld o dst) with
  | (none, dst) => (.ok true, dst)
  | (some e, dst) =>
    if e.permissionDenied then
      match sudoCp o.sudoCp src dst with
      | (.error e, dst) => (.error e.text, dst)
      | (.ok success, dst) =>
        if success then (.ok true, dst) else (.error "Failed to copy binary with sudo", dst)
    else (.error e.text, dst)

/-- An error leaves what was there, and success leaves all of the source. -/
def Sound {α : Type} (r : Except String α × Entry) (src dst : Entry) : Prop :=
  match r.1 with
  | .error _ => r.2 = dst
  | .ok _ => ∃ new, src = .file new ∧ r.2 = .file new

/-! ## When it is sound -/

/-- The old file is gone before the copy begins. -/
def Outcomes.Removes (o : Outcomes) (dst : Entry) : Prop :=
  (∃ old, dst = .file old) ∧ o.visible = true ∧
    ∀ e, o.removeFile = some e → e.permissionDenied = true ∧ o.sudoRm = true

/-- The copy, or `sudo cp` after a copy without permission, goes through. -/
def Outcomes.copies (o : Outcomes) : Bool :=
  match o.copy, o.sudoCp with
  | .done, _ => true
  | .failed e _, .done => e.permissionDenied
  | .failed _ _, _ => false

/-- What the last copy has written that wrote anything, when none goes through. -/
def Outcomes.written (o : Outcomes) : Option ℕ :=
  match o.copy, o.sudoCp with
  | .done, _ => none
  | .failed e written, .failed written' =>
    if e.permissionDenied then written'.or written else written
  | .failed _ written, _ => written

/-- A copy goes through, or the old file is not removed and nothing is written over it. (What is
written could be the same as the old content.) Over a directory nothing can be copied, so a `sudo
cp` into it must not go through. -/
def Outcomes.Spares (o : Outcomes) (src dst : Entry) : Prop :=
  match src, dst with
  | .file _, .directory => o.copy = .done ∨ o.copies = false
  | .file new, dst =>
    o.copies = true ∨ match o.written with
      | none => ¬o.Removes dst
      | some n => dst = .file (new.take n)
  | _, dst => ¬o.Removes dst

variable {o : Outcomes} {src dst : Entry}

theorem removeOld_of_removes (h : o.Removes dst) : removeOld o dst = .absent := by
  obtain ⟨⟨old, rfl⟩, hvisible, hremove⟩ := h
  rw [removeOld, if_pos ⟨Entry.noConfusion, hvisible⟩]
  cases hout : o.removeFile with
  | none => rfl
  | some e =>
    obtain ⟨hdenied, hsudo⟩ := hremove e hout
    simp only [removeFile, hdenied, sudoRm, hsudo, if_true]

theorem removeOld_of_not_removes (h : ¬o.Removes dst) : removeOld o dst = dst := by
  rw [removeOld]
  split
  next hseen =>
    cases dst with
    | absent => exact absurd rfl hseen.1
    | directory =>
      simp only [removeFile, sudoRm, ite_self]
    | file old =>
      cases hout : o.removeFile with
      | none => exact absurd ⟨⟨old, rfl⟩, hseen.2, fun e he ↦ by rw [hout] at he; cases he⟩ h
      | some e =>
        simp only [removeFile]
        by_cases hdenied : e.permissionDenied = true
        · have hsudo : o.sudoRm = false := by
            rw [← Bool.not_eq_true]
            refine fun hsudo ↦ h ⟨⟨old, rfl⟩, hseen.2, fun e' he' ↦ ?_⟩
            obtain rfl := Option.some.inj (hout.symm.trans he')
            exact ⟨hdenied, hsudo⟩
          rw [if_pos hdenied, sudoRm, hsudo, if_neg Bool.false_ne_true]
        · rw [if_neg hdenied]
  next => rfl

/-- What is removed was a file, so the removal shows. -/
theorem removeOld_eq_iff : removeOld o dst = dst ↔ ¬o.Removes dst := by
  constructor
  · rintro heq hremoves
    rw [removeOld_of_removes hremoves] at heq
    obtain ⟨⟨old, rfl⟩, -⟩ := hremoves
    cases heq
  · exact removeOld_of_not_removes

theorem removeOld_ne_directory (hne : dst ≠ .directory) : removeOld o dst ≠ .directory := by
  by_cases hremoves : o.Removes dst
  · rw [removeOld_of_removes hremoves]
    exact Entry.noConfusion
  · rwa [removeOld_of_not_removes hremoves]

theorem overwrite_overwrite (new : List UInt8) (w w' : Option ℕ) (dst : Entry) :
    overwrite new w' (overwrite new w dst) = overwrite new (w'.or w) dst := by
  cases w with
  | none => cases w' with
    | none => rfl
    | some n => rfl
  | some m => cases w' with
    | none => rfl
    | some n => cases dst <;> rfl

theorem overwrite_directory (new : List UInt8) (w : Option ℕ) :
    overwrite new w .directory = .directory := by
  cases w <;> rfl

/-- Bytes that are written over a file, or where none was, are what is there. -/
theorem overwrite_some {new : List UInt8} {n : ℕ} (hne : dst ≠ .directory) :
    overwrite new (some n) dst = .file (new.take n) := by
  cases dst with
  | absent => rfl
  | file old => rfl
  | directory => exact absurd rfl hne

theorem copyWithFallback_of_copies {new : List UInt8} (hne : dst ≠ .directory)
    (h : o.copies = true) : copyWithFallback o (.file new) dst = (.ok true, .file new) := by
  have hdst := removeOld_ne_directory (o := o) hne
  rw [copyWithFallback]
  rw [Outcomes.copies] at h
  cases hcopy : o.copy with
  | done => simp only [copy, if_neg hdst]
  | failed e w =>
    cases hsudo : o.sudoCp with
    | notRun e' => rw [hcopy, hsudo] at h; cases h
    | failed w' => rw [hcopy, hsudo] at h; cases h
    | done =>
      rw [hcopy, hsudo] at h
      have hover : overwrite new w (removeOld o dst) ≠ .directory := by
        cases w with
        | none => exact hdst
        | some n => rw [overwrite_some hdst]; exact Entry.noConfusion
      simp only [copy, sudoCp, h, if_true, if_neg hover]

/-- When no copy goes through, the error leaves what the removal and the copies have made of the
destination. -/
theorem copyWithFallback_of_not_copies (dst : Entry) (new : List UInt8) (h : o.copies = false) :
    ∃ text, copyWithFallback o (.file new) dst =
      (.error text, overwrite new o.written (removeOld o dst)) := by
  rw [copyWithFallback, Outcomes.written]
  rw [Outcomes.copies] at h
  cases hcopy : o.copy with
  | done => rw [hcopy] at h; cases h
  | failed e w =>
    by_cases hdenied : e.permissionDenied = true
    · cases hsudo : o.sudoCp with
      | notRun e' => exact ⟨e'.text, by simp only [copy, sudoCp, hdenied, if_true]⟩
      | done =>
        rw [hcopy, hsudo] at h
        exact absurd (hdenied.symm.trans h) (by decide)
      | failed w' =>
        refine ⟨"Failed to copy binary with sudo", ?_⟩
        simp only [copy, sudoCp, hdenied, if_true, Bool.false_eq_true, if_false]
        rw [overwrite_overwrite]
    · cases o.sudoCp <;> exact ⟨e.text, by simp only [copy, if_neg hdenied]⟩

theorem copyWithFallback_of_no_source (o : Outcomes) (dst : Entry)
    (hsrc : ∀ new, src ≠ .file new) :
    ∃ text, copyWithFallback o src dst = (.error text, removeOld o dst) := by
  rw [copyWithFallback]
  cases src with
  | file new => exact absurd rfl (hsrc new)
  | absent | directory =>
    cases o.copy with
    | done => exact ⟨_, rfl⟩
    | failed e w =>
      simp only [copy]
      split
      · cases o.sudoCp <;> exact ⟨_, rfl⟩
      · exact ⟨_, rfl⟩

/-- Into a directory `sudo cp` copies, and the destination stays a directory. -/
theorem copyWithFallback_directory (o : Outcomes) (new : List UInt8) :
    ∃ r, copyWithFallback o (.file new) .directory = (r, .directory) ∧
      ((∃ text, r = .error text) ↔ o.copy = .done ∨ o.copies = false) := by
  have hremove : removeOld o .directory = .directory :=
    removeOld_of_not_removes fun h ↦ by obtain ⟨⟨old, hold⟩, -⟩ := h; cases hold
  by_cases hcopies : o.copies = false
  · obtain ⟨text, htext⟩ := copyWithFallback_of_not_copies .directory new hcopies
    rw [hremove, overwrite_directory] at htext
    exact ⟨_, htext, iff_of_true ⟨text, rfl⟩ (.inr hcopies)⟩
  · rw [copyWithFallback, hremove]
    rw [Outcomes.copies] at hcopies
    rw [Outcomes.copies]
    cases hcopy : o.copy with
    | done => exact ⟨_, rfl, iff_of_true ⟨_, rfl⟩ (.inl rfl)⟩
    | failed e w =>
      rw [hcopy] at hcopies
      cases hsudo : o.sudoCp with
      | notRun e' => rw [hsudo] at hcopies; exact absurd rfl hcopies
      | failed w' => rw [hsudo] at hcopies; exact absurd rfl hcopies
      | done =>
        rw [hsudo] at hcopies
        simp only [Bool.not_eq_false] at hcopies
        refine ⟨.ok true, ?_, iff_of_false (by simp) (by simp [hcopies])⟩
        simp only [copy, sudoCp, overwrite_directory, hcopies, if_true]

/-- **When the replacement is sound.** -/
theorem sound_copyWithFallback_iff (o : Outcomes) (src dst : Entry) :
    Sound (copyWithFallback o src dst) src dst ↔ o.Spares src dst := by
  by_cases hsrc : ∃ new, src = .file new
  · obtain ⟨new, rfl⟩ := hsrc
    by_cases hdir : dst = .directory
    · subst hdir
      obtain ⟨r, hr, hiff⟩ := copyWithFallback_directory o new
      rw [hr, Outcomes.Spares, ← hiff]
      cases r with
      | error text => exact iff_of_true rfl ⟨text, rfl⟩
      | ok b => exact iff_of_false (fun ⟨_, _, h⟩ ↦ by cases h) fun ⟨_, h⟩ ↦ by cases h
    · have hspares : o.Spares (.file new) dst ↔ o.copies = true ∨ match o.written with
          | none => ¬o.Removes dst
          | some n => dst = .file (new.take n) := by
        cases dst with
        | absent => exact .rfl
        | file old => exact .rfl
        | directory => exact absurd rfl hdir
      rw [hspares]
      by_cases hcopies : o.copies = true
      · rw [copyWithFallback_of_copies hdir hcopies]
        exact iff_of_true ⟨new, rfl, rfl⟩ (.inl hcopies)
      · obtain ⟨text, htext⟩ := copyWithFallback_of_not_copies dst new
          (Bool.not_eq_true _ ▸ hcopies)
        rw [htext, or_iff_right hcopies]
        cases o.written with
        | none => exact removeOld_eq_iff
        | some n =>
          rw [overwrite_some (removeOld_ne_directory hdir)]
          exact eq_comm
  · have hno : ∀ new, src ≠ .file new := fun new h ↦ hsrc ⟨new, h⟩
    obtain ⟨text, htext⟩ := copyWithFallback_of_no_source o dst hno
    rw [htext]
    cases src with
    | file new => exact absurd rfl (hno new)
    | absent => exact removeOld_eq_iff
    | directory => exact removeOld_eq_iff

/-! ## The upgrade -/

/-- A command that could be started, with whether it succeeded. -/
abbrev Command := Except IoError Bool

/-- What the steps of `upgrade` before the replacement find. -/
structure Download where
  os : String
  arch : String
  tempdir : Except IoError Unit
  curl : Command
  tar : Command
  /-- What the tarball has under the name of the binary. -/
  extracted : Entry
  installDir : Except String Unit
  createDir : Except IoError Unit

def repo : String := "Zobite/zo-tunnel"

def detectTarget (os arch : String) : Except String String := do
  let osLabel ← match os with
    | "linux" => pure "linux"
    | "macos" => pure "darwin"
    | _ => throw ("Unsupported OS: " ++ os)
  let archLabel ← match arch with
    | "x86_64" => pure "amd64"
    | "aarch64" => pure "arm64"
    | _ => throw ("Unsupported architecture: " ++ arch)
  return osLabel ++ "-" ++ archLabel

/-- Fetch and unpack the release, up to the binary that is to be installed. -/
def download (binaryName : String) (d : Download) : Except String Entry := do
  let target ← detectTarget d.os d.arch
  d.tempdir.mapError (·.text)
  let status ← d.curl.mapError fun e ↦ "Failed to run curl: " ++ e.text
  if !status then
    throw ("Download failed. Binary may not be available for " ++ target ++
      ".\nYou can build from source: cargo install --git https://github.com/" ++ repo ++ " " ++
      binaryName)
  let status ← d.tar.mapError (·.text)
  if !status then throw "Failed to extract tarball"
  if d.extracted = .absent then throw ("Binary not found in tarball: " ++ binaryName)
  d.installDir
  d.createDir.mapError (·.text)
  return d.extracted

/-- Upgrade to the latest release, given what the request for its tag comes to. -/
def upgrade (binaryName currentVersion : String) (latest : Except String String) (d : Download)
    (o : Outcomes) (dst : Entry) : Except String Unit × Entry :=
  match latest with
  | .error e => (.error e, dst)
  | .ok latestTag =>
    if !isNewer currentVersion latestTag then (.ok (), dst)
    else
      match download binaryName d with
      | .error e => (.error e, dst)
      | .ok extracted =>
        match copyWithFallback o extracted dst with
        | (.error e, dst) => (.error e, dst)
        | (.ok _, dst) => (.ok (), dst)

/-- The upgrade comes to the replacement, with this source. -/
def Replaces (binaryName currentVersion : String) (latest : Except String String) (d : Download)
    (src : Entry) : Prop :=
  ∃ latestTag, latest = .ok latestTag ∧ isNewer currentVersion latestTag = true ∧
    download binaryName d = .ok src

theorem upgrade_of_replaces {binaryName currentVersion : String} {latest : Except String String}
    {d : Download} (h : Replaces binaryName currentVersion latest d src) :
    upgrade binaryName currentVersion latest d o dst =
      ((copyWithFallback o src dst).1.map fun _ ↦ (), (copyWithFallback o src dst).2) := by
  obtain ⟨latestTag, rfl, hnewer, hdownload⟩ := h
  rw [upgrade, hnewer, Bool.not_true, if_neg Bool.false_ne_true, hdownload]
  simp only
  obtain ⟨r, hr⟩ : ∃ r, copyWithFallback o src dst = r := ⟨_, rfl⟩
  rw [hr]
  cases r with
  | mk result after => cases result <;> rfl

/-- An upgrade that does not come to the replacement leaves the destination alone. -/
theorem upgrade_of_not_replaces {binaryName currentVersion : String}
    {latest : Except String String} {d : Download}
    (h : ∀ src, ¬Replaces binaryName currentVersion latest d src) :
    (upgrade binaryName currentVersion latest d o dst).2 = dst := by
  cases latest with
  | error e => rfl
  | ok latestTag =>
    rw [upgrade]
    split
    next => rfl
    next hnewer =>
      cases hdownload : download binaryName d with
      | error e => rfl
      | ok extracted =>
        rw [Bool.not_eq_true', Bool.not_eq_false] at hnewer
        exact absurd ⟨latestTag, rfl, hnewer, hdownload⟩ (h extracted)

theorem sound_map_iff {α β : Type} (r : Except String α × Entry) (f : α → β) (src dst : Entry) :
    Sound (r.1.map f, r.2) src dst ↔ Sound r src dst := by
  obtain ⟨result, after⟩ := r
  cases result <;> rfl

/-- **When an error leaves the old binary, and success the new one.** For all states of source and
destination and all outcomes of the steps, this holds of the replacement iff it spares the
destination; and of an upgrade iff the replacement that it comes to, if any, does. An upgrade that
comes to none leaves the destination as it is. -/
theorem upgrade_sound_iff (o : Outcomes) (dst : Entry) :
    (∀ src, Sound (copyWithFallback o src dst) src dst ↔ o.Spares src dst) ∧
    ∀ (binaryName currentVersion : String) (latest : Except String String) (d : Download),
      (∀ src, Replaces binaryName currentVersion latest d src →
        (Sound (upgrade binaryName currentVersion latest d o dst) src dst ↔ o.Spares src dst)) ∧
      ((∀ src, ¬Replaces binaryName currentVersion latest d src) →
        (upgrade binaryName currentVersion latest d o dst).2 = dst) := by
  refine ⟨fun src ↦ sound_copyWithFallback_iff o src dst,
    fun binaryName currentVersion latest d ↦ ⟨fun src h ↦ ?_, upgrade_of_not_replaces⟩⟩
  rw [upgrade_of_replaces h, sound_map_iff, sound_copyWithFallback_iff]

/-- The old binary can be removed, and then the disk is full. -/
def diskFull : Outcomes where
  visible := true
  removeFile := none
  sudoRm := false
  copy := .failed ⟨false, "No space left on device (os error 28)"⟩ (some 1)
  sudoCp := .failed none

/-- A release whose tarball has the binary. -/
def sampleDownload (src : Entry) : Download where
  os := "linux"
  arch := "x86_64"
  tempdir := .ok ()
  curl := .ok true
  tar := .ok true
  extracted := src
  installDir := .ok ()
  createDir := .ok ()

/-- An upgrade whose copy goes through is sound, and on a full disk it is not. -/
theorem upgrade_sound_iff_release :
    Sound (upgrade "zotunnel" "1.0.0" (.ok "v1.1.0") (sampleDownload (.file [1, 2]))
      { diskFull with copy := .done } (.file [0])) (.file [1, 2]) (.file [0]) ∧
    ¬Sound (upgrade "zotunnel" "1.0.0" (.ok "v1.1.0") (sampleDownload (.file [1, 2]))
      diskFull (.file [0])) (.file [1, 2]) (.file [0]) := by
  have hreplaces : Replaces "zotunnel" "1.0.0" (.ok "v1.1.0") (sampleDownload (.file [1, 2]))
      (.file [1, 2]) := ⟨"v1.1.0", rfl, by decide +kernel, rfl⟩
  have hiff := fun o ↦ ((upgrade_sound_iff o (.file [0])).2 "zotunnel" "1.0.0" (.ok "v1.1.0")
    (sampleDownload (.file [1, 2]))).1 (.file [1, 2]) hreplaces
  refine ⟨(hiff _).mpr (.inl rfl), fun hsound ↦ ?_⟩
  rcases (hiff _).mp hsound with hcopies | hwritten
  · cases hcopies
  · cases hwritten

/-- After an error on a full disk there is a part of the new binary where the old one was. -/
theorem copyWithFallback_not_sound :
    ¬ ∀ (o : Outcomes) (src dst : Entry), Sound (copyWithFallback o src dst) src dst := by
  intro h
  have hsound := h diskFull (.file [1, 2]) (.file [0])
  have hrun : copyWithFallback diskFull (.file [1, 2]) (.file [0]) =
      (.error "No space left on device (os error 28)", .file [1]) := by rfl
  rw [hrun] at hsound
  cases hsound

end SelfUpdate

end ZoTunnel
