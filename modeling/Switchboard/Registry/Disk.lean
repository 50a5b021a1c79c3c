import Std.Data.ExtTreeMap
import Std.Data.ExtTreeSet
import Switchboard.Response

/-!
# Disks

A disk holds folders, and a folder holds files under their names. A file is replaced as a whole:
the new content is written beside it and takes its place only once it is complete.

The file is the cache file of `SPEC_FULL.md`, section 6, and replacing it is the temporary file and
the rename of section 4.4.
-/

namespace Switchboard

/-- A folder on the disk, or what stands in its place. -/
structure Folder where
  /-- Whether something that is no folder stands in its place. -/
  isBlocked : Bool := false
  /-- The files by name. -/
  files : Std.ExtTreeMap String Bytes := ∅
  /-- The names of folders inside. -/
  folders : Std.ExtTreeSet String := ∅

/-- Folders under their names; a missing one is created when it is needed. -/
abbrev Disk := Std.ExtTreeMap String Folder

namespace Folder

/-- An empty folder. -/
instance : Inhabited Folder := ⟨{}⟩

/-- A folder with one file in it, or with none. -/
def ofFile (name : String) (content : Option Bytes) : Folder :=
  match content with
  | some bytes => { files := Std.ExtTreeMap.ofList [(name, bytes)] }
  | none => {}

/-- The names inside, in ascending order. -/
def names (f : Folder) : List String :=
  (Std.ExtTreeSet.ofList (f.files.keys ++ f.folders.toList)).toList

/-- The name of the file that keeps other writers of a file away. -/
def lockName (name : String) : String := name ++ ".lock"

/-- Replaces a file. The lock stays behind whether or not the file can be replaced. -/
def replaceFile (f : Folder) (name : String) (content : Bytes) : Outcome Unit × Folder :=
  let failed : Outcome Unit := .error (.io .system)
  if f.isBlocked ∨ f.folders.contains (lockName name) then (failed, f)
  else
    let f := { f with files := f.files.insertIfNew (lockName name) [] }
    if f.folders.contains name then (failed, f)
    else (.ok (), { f with files := f.files.insert name content })

end Folder

namespace Disk

/-- A folder by its name. -/
def folder (d : Disk) (name : String) : Folder := d.getD name {}

/-- The content of a file. -/
def read (d : Disk) (folder name : String) : Option Bytes :=
  let f := Disk.folder d folder
  if f.isBlocked then none else f.files[name]?

/-- Replaces a file, in a folder that is created if it is missing. -/
def replaceFile (d : Disk) (folder name : String) (content : Bytes) : Outcome Unit × Disk :=
  let (outcome, f) := (Disk.folder d folder).replaceFile name content
  (outcome, d.insert folder f)

/-- Deletes a file, and says whether it was there. -/
def deleteFile (d : Disk) (folder name : String) : Bool × Disk :=
  let f := Disk.folder d folder
  if !f.isBlocked ∧ f.files.contains name then
    (true, d.insert folder { f with files := f.files.erase name })
  else (false, d)

end Disk

end Switchboard
