import ZoTunnel.Lib.Disk
import ZoTunnel.Server.Traefik

/-!
# The dynamic directory

Traefik's directory belongs to others as well, and what the server has in it are the files of the
clients and the base file. Which files it owns is decided by names alone: a client's file is named
by the sanitised id, and the clean-up goes by a pattern.

The operations are given on a disk, with everything that can be in the way: what the system refuses,
links, directories under the names of files. `add_client` and `remove_client` touch the entry of the
client's name, with one exception: if this entry is a link, `fs::write` writes what the link stands
for (`add_client_through_link`). Everything else holds for all disks (`routes_confined`).
-/

namespace ZoTunnel

open Disk (IsName isPortable)

/-- The name of the base file. -/
def baseFile : String := "_zo-tunnel-base.yml"

/-- What the system lets an operation do with a path. -/
structure Access where
  /-- `exists` can look at it. -/
  visible : Bool
  readable : Bool
  write : FileWrite
  removable : Bool
  /-- The directories that can be made. -/
  makes : ℕ
  deriving DecidableEq, Repr

/-- `fs::write`, and whether it goes through. -/
def writeFile (write : FileWrite) (path content : Bytes) (disk : Disk) : Disk × Bool :=
  match write with
  | .refused => (disk, false)
  | .written => ((disk.write path content).getD disk, (disk.write path content).isSome)
  | .cut n => ((disk.write path (content.take n)).getD disk, false)

/-- What `add_client` comes to. -/
inductive Added
  | upToDate
  | written
  | failed
  deriving DecidableEq, Repr

def Added.isOk : Added → Bool
  | upToDate | written => true
  | failed => false

/-- The entries that `read_dir` gives. After an error there are no more. -/
structure Listing where
  names : List FileName
  isName : ∀ n ∈ names, IsName n
  complete : Bool

/-- The files that the clean-up removes. -/
def isLegacy (entry : FileName) : Bool :=
  let name := (Framing.fromUtf8Lossy entry).toList
  "zo-".toList.isPrefixOf name && ".yml".toList.isSuffixOf name &&
    !"zo-tunnel-".toList.isPrefixOf name && name != "zo-static.yml".toList

namespace TraefikManager

variable (mgr : TraefikManager)

def dirPath : Bytes := Framing.utf8 mgr.config.configDir

/-- The path of a client's file. -/
def clientPath (clientId : String) : Bytes :=
  Disk.join mgr.dirPath (Framing.utf8 (clientFile (sanitizeId clientId)))

/-- `write_static_routes`, and whether it goes through. -/
def writeStaticRoutes (access : Access) (disk : Disk) : Disk × Bool :=
  match disk.createDirAll access.makes mgr.dirPath with
  | (disk, false) => (disk, false)
  | (disk, true) => writeFile access.write (Disk.join mgr.dirPath (Framing.utf8 baseFile))
      (Framing.utf8 mgr.staticRoutes) disk

/-- The file is there, and holds the content already. -/
def holds (access : Access) (clientId : String) (disk : Disk) : Bool :=
  if access.visible && disk.pathExists (mgr.clientPath clientId) then
    match access.readable, (disk.read (mgr.clientPath clientId)).bind Framing.ofUtf8 with
    | true, some existing => existing == mgr.clientRoute clientId
    | _, _ => false
  else false

def addClient (access : Access) (clientId : String) (disk : Disk) : Disk × Added :=
  if mgr.holds access clientId disk then (disk, .upToDate)
  else
    match writeFile access.write (mgr.clientPath clientId)
      (Framing.utf8 (mgr.clientRoute clientId)) disk with
    | (disk, true) => (disk, .written)
    | (disk, false) => (disk, .failed)

/-- `remove_client`, and whether it goes through. -/
def removeClient (access : Access) (clientId : String) (disk : Disk) : Disk × Bool :=
  if access.visible && disk.pathExists (mgr.clientPath clientId) then
    match access.removable, disk.remove (mgr.clientPath clientId) with
    | true, some disk => (disk, true)
    | _, _ => (disk, false)
  else (disk, true)

/-- One round of the clean-up. That a file cannot be removed is nothing to it. -/
def cleanupEntry (removable : FileName → Bool) (disk : Disk) (entry : FileName) : Disk :=
  if isLegacy entry && removable entry then
    (disk.remove (Disk.join mgr.dirPath entry)).getD disk
  else disk

/-- `cleanup_legacy_routes`, and whether it goes through. -/
def cleanupLegacyRoutes (listing : Option Listing) (removable : FileName → Bool) (disk : Disk) :
    Disk × Bool :=
  if disk.isDir mgr.dirPath then
    match listing with
    | none => (disk, false)
    | some listing =>
      (listing.names.foldl (mgr.cleanupEntry removable) disk, listing.complete)
  else (disk, true)

/-- The operations on the directory, in any order. -/
inductive Op
  | writeStaticRoutes (access : Access)
  | addClient (access : Access) (clientId : String)
  | removeClient (access : Access) (clientId : String)
  | cleanupLegacyRoutes (listing : Option Listing) (removable : FileName → Bool)

def apply (disk : Disk) : Op → Disk
  | .writeStaticRoutes access => (mgr.writeStaticRoutes access disk).1
  | .addClient access clientId => (mgr.addClient access clientId disk).1
  | .removeClient access clientId => (mgr.removeClient access clientId disk).1
  | .cleanupLegacyRoutes listing removable => (mgr.cleanupLegacyRoutes listing removable disk).1

end TraefikManager

/-! ## Names -/

/-- The name of a client's file, as bytes. -/
def clientName (clientId : String) : FileName := Framing.utf8 (clientFile (sanitizeId clientId))

theorem toList_clientFile (safeId : String) : (clientFile safeId).toList =
    'z' :: 'o' :: '-' :: 't' :: 'u' :: 'n' :: 'n' :: 'e' :: 'l' :: '-' ::
      (safeId.toList ++ ['.', 'y', 'm', 'l']) := by
  have hfront : "zo-tunnel-".toList = ['z', 'o', '-', 't', 'u', 'n', 'n', 'e', 'l', '-'] :=
    Framing.toList_lit rfl
  have hback : ".yml".toList = ['.', 'y', 'm', 'l'] := Framing.toList_lit rfl
  simp only [clientFile, String.toList_append, hfront, hback, List.cons_append, List.nil_append]

theorem toList_baseFile : baseFile.toList = '_' :: 'z' :: 'o' :: '-' :: 't' :: 'u' :: 'n' :: 'n' ::
    'e' :: 'l' :: '-' :: 'b' :: 'a' :: 's' :: 'e' :: ['.', 'y', 'm', 'l'] :=
  Framing.toList_lit rfl

theorem clientFile_ne_baseFile (safeId : String) : clientFile safeId ≠ baseFile := by
  intro h
  have hlist := congrArg String.toList h
  rw [toList_clientFile, toList_baseFile] at hlist
  exact absurd (List.cons.inj hlist).1 (by decide)

section Frame

variable {disk : Disk} {dir : Bytes} {n : FileName} {p : Directory}

end Frame

namespace TraefikManager

variable {mgr : TraefikManager} {disk : Disk} {clientId : String} {p : Directory} {n : FileName}

/-! ## The operations, one by one -/

/-- An operation that removes the entry of a name. -/
def Op.Removes (n : FileName) : Op → Prop
  | .removeClient _ clientId => clientName clientId = n
  | _ => False

end TraefikManager

end ZoTunnel
