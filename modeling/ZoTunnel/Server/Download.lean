import ZoTunnel.Lib.Disk
import ZoTunnel.Server.Forward

/-!
# Downloads

Anybody can ask the dashboard for a file by its name. `serve_download` refuses names with other
characters than letters, digits, `-`, `_` and `.`, and names with two dots in a row, and looks for
the file in the directory of the clients; if it is not there, it looks for the name with `.tar.gz`
behind it.

Two names that pass the filter are no names of files: the empty one, and `.`. They stand for the
directory, which is no file, so only the second path is left of them, and that ends in a proper
name. Both paths therefore end in an entry of the directory (`served_confined`), and what goes into
the header is a name of the same characters.

Other programs can change the directory in between, so the three looks that the handler takes are
at three disks.
-/

namespace ZoTunnel

namespace Dashboard

open Disk (IsName isPortable)

/-- What the handler finds, at each of its looks. -/
structure Looks where
  /-- When it asks for the file of this name. -/
  named : Disk
  /-- When it asks for the file with `.tar.gz`. -/
  alternative : Disk
  reading : Disk
  readable : Bool
  readError : String

/-- An answer with a file. -/
structure Download where
  status : ℕ
  headers : List (String × String)
  body : Bytes
  deriving DecidableEq, Repr

/-- What the handler comes to. -/
inductive Serving
  | answer (download : Download)
  | refused (status : ℕ) (text : String)
  /-- `unwrap` of the name of the alternative. -/
  | panicked
  deriving DecidableEq, Repr

/-- The file names that the handler takes. -/
def isFilename (filename : String) : Bool :=
  filename.toList.all isPortable && !filename.toList.tails.any (['.', '.'].isPrefixOf ·)

/-- The answer with what has been read. The builder refuses a header value with other bytes than
`isHeaderByte` admits. -/
def attachment (data : Bytes) (disposition : String) : Serving :=
  let value := "attachment; filename=\"" ++ disposition ++ "\""
  if (Framing.utf8 value).all Forward.isHeaderByte then
    .answer ⟨200,
      [("content-type", "application/octet-stream"), ("content-disposition", value)], data⟩
  else .refused 500 "failed to parse header value"

/-- The second half of the handler: the file is read. -/
def readDownload (looks : Looks) (path : Bytes) (disposition : String) : Serving :=
  match looks.readable, looks.reading.read path with
  | true, some data => attachment data disposition
  | _, _ => .refused 500 ("read error: " ++ looks.readError)

/-- The handler, with the path that it reads. -/
def serveDownload (looks : Looks) (clientsDir filename : String) : Option Bytes × Serving :=
  if !isFilename filename then (none, .refused 400 "invalid filename")
  else
    let path := Disk.join (Framing.utf8 clientsDir) (Framing.utf8 filename)
    if looks.named.isFile path then (some path, readDownload looks path filename)
    else
      let alt := Disk.join (Framing.utf8 clientsDir) (Framing.utf8 (filename ++ ".tar.gz"))
      if looks.alternative.isFile alt then
        match Disk.fileName alt with
        | some name => (some alt, readDownload looks alt (Framing.fromUtf8Lossy name))
        | none => (none, .panicked)
      else (none, .refused 404 (filename ++ " not found"))

/-! ## Names that pass -/

theorem isPortable_of_isFilename {filename : String} (h : isFilename filename = true) :
    ∀ c ∈ filename.toList, isPortable c = true :=
  List.all_eq_true.mp (Bool.and_eq_true _ _ ▸ h).1

theorem ne_dotdot_of_isFilename {filename : String} (h : isFilename filename = true) :
    filename ≠ ".." := by
  rintro rfl
  exact absurd h (by decide)

theorem isName_of_isFile {disk : Disk} {dir : Bytes} {filename : String}
    (h : isFilename filename = true)
    (hfile : disk.isFile (Disk.join dir (Framing.utf8 filename)) = true) :
    IsName (Framing.utf8 filename) := by
  refine Disk.isName_utf8 (isPortable_of_isFilename h) ?_ ?_ (ne_dotdot_of_isFilename h)
  · rintro rfl
    exact Bool.false_ne_true ((Disk.isFile_join_stay dir (.inl rfl)).symm.trans hfile)
  · rintro rfl
    exact Bool.false_ne_true ((Disk.isFile_join_stay dir (.inr rfl)).symm.trans hfile)

/-- With `.tar.gz` behind it, every name that passes is a proper name. -/
theorem isName_tarGz {filename : String} (h : isFilename filename = true) :
    (∀ c ∈ (filename ++ ".tar.gz").toList, isPortable c = true) ∧
      IsName (Framing.utf8 (filename ++ ".tar.gz")) := by
  have hchars : ∀ c ∈ (filename ++ ".tar.gz").toList, isPortable c = true := by
    intro c hc
    rw [String.toList_append, List.mem_append] at hc
    rcases hc with hc | hc
    · exact isPortable_of_isFilename h c hc
    · exact List.all_eq_true.mp (by decide : ".tar.gz".toList.all isPortable = true) c hc
  have hne : ∀ s : String, s.length < 7 → filename ++ ".tar.gz" ≠ s := by
    rintro s hs rfl
    have hlen : ".tar.gz".length = 7 := by decide
    rw [String.length_append, hlen] at hs
    omega
  exact ⟨hchars,
    Disk.isName_utf8 hchars (hne _ (by decide)) (hne _ (by decide)) (hne _ (by decide))⟩

/-- What the handler reads, and what it says it has read. -/
theorem serveDownload_cases (looks : Looks) (clientsDir filename : String) :
    (∃ name, (∀ c ∈ name.toList, isPortable c = true) ∧ IsName (Framing.utf8 name) ∧
        (name = filename ∨ name = filename ++ ".tar.gz") ∧
        serveDownload looks clientsDir filename =
          (some (Disk.join (Framing.utf8 clientsDir) (Framing.utf8 name)), readDownload looks
            (Disk.join (Framing.utf8 clientsDir) (Framing.utf8 name)) name)) ∨
      ∃ status text, serveDownload looks clientsDir filename = (none, .refused status text) := by
  rw [serveDownload]
  split
  · exact .inr ⟨_, _, rfl⟩
  rename_i h
  rw [Bool.not_eq_true', Bool.not_eq_false] at h
  dsimp only
  split
  · rename_i hfile
    exact .inl ⟨filename, isPortable_of_isFilename h, isName_of_isFile h hfile, .inl rfl, rfl⟩
  split
  · obtain ⟨hchars, hname⟩ := isName_tarGz h
    refine .inl ⟨_, hchars, hname, .inr rfl, ?_⟩
    rw [Disk.fileName_join _ hname]
    simp only [Framing.fromUtf8Lossy_utf8]
  · exact .inr ⟨_, _, rfl⟩

/-! ## Confinement -/

/-- A character that ends neither a quoted string nor a line, and escapes nothing. -/
def IsQuotedChar (c : Char) : Prop := c ≠ '"' ∧ c ≠ '\\' ∧ 32 < c.toNat ∧ c.toNat < 127

theorem isQuotedChar_of_isPortable {c : Char} (hc : isPortable c = true) : IsQuotedChar c := by
  have := Disk.toNat_of_isPortable hc
  refine ⟨?_, ?_, by omega, by omega⟩
  · rintro rfl
    exact absurd this (by decide)
  · rintro rfl
    exact absurd this (by decide)

private theorem isHeaderByte_of_chars {s : String}
    (hs : ∀ c ∈ s.toList, 32 ≤ c.toNat ∧ c.toNat < 127) :
    (Framing.utf8 s).all Forward.isHeaderByte = true := by
  refine List.all_eq_true.mpr fun b hb ↦ Forward.isHeaderByte_iff.mpr (.inr ?_)
  obtain ⟨c, hc, heq⟩ := Framing.exists_of_mem_utf8
    (fun c hc ↦ (hs c hc).2.trans (by decide)) hb
  have := hs c hc
  rw [UInt8.le_iff_toNat_le, Ne, ← UInt8.toNat_inj, heq]
  exact ⟨this.1, this.2.ne⟩

/-- The builder takes every name that the handler has. -/
theorem attachment_eq (data : Bytes) {name : String}
    (hname : ∀ c ∈ name.toList, isPortable c = true) : attachment data name =
      .answer ⟨200, [("content-type", "application/octet-stream"),
        ("content-disposition", "attachment; filename=\"" ++ name ++ "\"")], data⟩ := by
  have hall : ("attachment; filename=\"".toList ++ "\"".toList).all
      (fun c ↦ decide (32 ≤ c.toNat ∧ c.toNat < 127)) = true := by
    rw [Framing.toList_lit rfl, Framing.toList_lit rfl]
    decide
  have hlit := fun c hc ↦ of_decide_eq_true (List.all_eq_true.mp hall c hc)
  refine if_pos (isHeaderByte_of_chars fun c hc ↦ ?_)
  rw [String.toList_append, String.toList_append, List.mem_append, List.mem_append] at hc
  rcases hc with (hc | hc) | hc
  · exact hlit c (List.mem_append_left _ hc)
  · have := Disk.toNat_of_isPortable (hname c hc)
    omega
  · exact hlit c (List.mem_append_right _ hc)

/-- A download is what was read, under the name that goes with it. -/
theorem eq_of_readDownload {looks : Looks} {path : Bytes} {disposition : String}
    {download : Download} (h : readDownload looks path disposition = .answer download) :
    looks.reading.read path = some download.body ∧ download.status = 200 ∧ download.headers =
      [("content-type", "application/octet-stream"),
        ("content-disposition", "attachment; filename=\"" ++ disposition ++ "\"")] := by
  rw [readDownload] at h
  split at h
  · rename_i data _ hread
    rw [attachment] at h
    split at h
    · rw [← Serving.answer.inj h]
      exact ⟨hread, rfl, rfl⟩
    · cases h
  · cases h

/-- **Downloads stay in the directory.** Whatever the name and the disks, the path that is read is
the directory with one proper name behind it, so what is read is the content of that entry of the
directory, or what is behind the link that the entry is. The name in the header is the same one, and
has no character that means anything in a header. -/
theorem served_confined (looks : Looks) (clientsDir filename : String) :
    (∀ path, (serveDownload looks clientsDir filename).1 = some path → ∃ n, IsName n ∧
      path = Disk.join (Framing.utf8 clientsDir) n ∧
      ∀ content, looks.reading.read path = some content →
        ∃ dir, looks.reading.dirAt (Framing.utf8 clientsDir) = some dir ∧
          (looks.reading.nodes (n :: dir) = some (.file content) ∨
            ∃ target, looks.reading.nodes (n :: dir) = some (.link target))) ∧
    (∀ download, (serveDownload looks clientsDir filename).2 = .answer download → ∃ name,
      (serveDownload looks clientsDir filename).1 =
        some (Disk.join (Framing.utf8 clientsDir) (Framing.utf8 name)) ∧
      looks.reading.read (Disk.join (Framing.utf8 clientsDir) (Framing.utf8 name)) =
        some download.body ∧
      download.headers = [("content-type", "application/octet-stream"),
        ("content-disposition", "attachment; filename=\"" ++ name ++ "\"")] ∧
      ∀ c ∈ name.toList, IsQuotedChar c) ∧
    (serveDownload looks clientsDir filename).2 ≠ .panicked := by
  rcases serveDownload_cases looks clientsDir filename with
    ⟨name, hchars, hname, -, heq⟩ | ⟨status, text, heq⟩
  · rw [heq]
    refine ⟨fun path hpath ↦ ?_, fun download hdownload ↦ ?_, fun hpanicked ↦ ?_⟩
    · obtain rfl := Option.some.inj hpath
      exact ⟨_, hname, rfl, fun content hread ↦ Disk.read_join hname hread⟩
    · obtain ⟨hread, -, hheaders⟩ := eq_of_readDownload hdownload
      exact ⟨name, rfl, hread, hheaders, fun c hc ↦ isQuotedChar_of_isPortable (hchars c hc)⟩
    · simp only [readDownload, attachment] at hpanicked
      split at hpanicked
      · split at hpanicked <;> cases hpanicked
      · cases hpanicked
  · rw [heq]
    exact ⟨fun _ h ↦ (by cases h), fun _ h ↦ (by cases h), fun h ↦ (by cases h)⟩

/-- The directory `/c` has `a.tar.gz`, which is what is read when somebody asks for `a`. -/
def sampleDisk : Disk where
  nodes p :=
    if p = [[99]] then some .dir
    else if p = [Framing.utf8 "a.tar.gz", [99]] then some (.file [31, 139])
    else none
  cwd := []

/-- The handler's looks are all at this disk. -/
def sampleLooks : Looks := ⟨sampleDisk, sampleDisk, sampleDisk, true, ""⟩

/-- Whoever asks for `a` is given the entry `a.tar.gz` of the directory. -/
theorem served_confined_tarGz : ∃ path, (serveDownload sampleLooks "/c" "a").1 = some path ∧
    sampleDisk.read path = some [31, 139] ∧ ∃ n, IsName n ∧
      path = Disk.join (Framing.utf8 "/c") n ∧
      ∃ dir, sampleDisk.dirAt (Framing.utf8 "/c") = some dir ∧
        (sampleDisk.nodes (n :: dir) = some (.file [31, 139]) ∨
          ∃ target, sampleDisk.nodes (n :: dir) = some (.link target)) := by
  have hpath : (serveDownload sampleLooks "/c" "a").1 =
      some (Disk.join (Framing.utf8 "/c") (Framing.utf8 "a.tar.gz")) := by decide +kernel
  have hread : sampleDisk.read (Disk.join (Framing.utf8 "/c") (Framing.utf8 "a.tar.gz")) =
      some [31, 139] := by decide +kernel
  obtain ⟨n, hn, hjoin, hentry⟩ := (served_confined sampleLooks "/c" "a").1 _ hpath
  exact ⟨_, hpath, hread, n, hn, hjoin, hentry _ hread⟩

end Dashboard

end ZoTunnel
