import NukeLab.Tables

namespace NukeLab.ToolchainVolume

open Tables

/-- Where a file lies in a volume: the entry at the root, and the way down from it. -/
structure Path where
  entry : String
  rest : List String
  deriving DecidableEq

/-- An image id as the engines write it, `sha256:<hex>` or the bare digest. -/
structure ImageId where
  algorithm : Option String
  digest : String
  deriving DecidableEq

def ImageId.isEmpty (id : ImageId) : Bool := id.algorithm.isNone && id.digest == ""

/-- What a file holds, as far as it is ever looked at. A file whose writing
broke off is torn. -/
inductive Content
  | text (text : String)
  | json (text : String)
  | stamp (imageId : Option ImageId)
  | torn
  deriving DecidableEq

def Content.parses : Content → Bool
  | .json _ | .stamp _ => true
  | .text _ | .torn => false

structure File where
  path : Path
  content : Content
  deriving DecidableEq

abbrev Volume := Table File.path

def manifestPath : Path := ⟨"nukelab-toolchain.json", []⟩

def stampPath : Path := ⟨".nukelab-toolchain-stamp.json", []⟩

def stampOf (v : Volume) : Option Content := (v.find stampPath).map File.content

def stampPresent (v : Volume) : Bool := (stampOf v).any Content.parses

def Content.imageId : Content → Option ImageId
  | .stamp imageId => imageId
  | _ => none

/-- Both files, or nothing: the image id of the stamp where manifest and stamp parse. -/
def readToolchainManifest (v : Volume) : Option (Option ImageId) :=
  match v.find manifestPath, v.find stampPath with
  | some manifest, some stamp =>
    if manifest.content.parses ∧ stamp.content.parses then some stamp.content.imageId else none
  | _, _ => none

def imageIdsMatch : Option ImageId → Option ImageId → Bool
  | some a, some b => !a.isEmpty && !b.isEmpty && a.digest == b.digest
  | _, _ => false

/-- A toolchain image: its id, and the files under each path it has. -/
structure Image where
  id : Option ImageId
  tree : String → Option (List File)

/-- What `prepare_toolchain_volume` is called with for a volume. -/
structure Call where
  image : Image
  mountPaths : List String

/-- The files the copy commands go through, in their order. A listed path that
the image does not have gives none. -/
def copies (call : Call) : List File := call.mountPaths.flatMap fun path => (call.image.tree path).getD []

/-- What `*` matches. -/
def plain (entry : String) : Bool :=
  match entry.toList with
  | '.' :: _ => false
  | _ => true

/-- What `.[!.]*` matches. -/
def hidden (entry : String) : Bool :=
  match entry.toList with
  | '.' :: c :: _ => c ≠ '.'
  | _ => false

/-- The files the wipe goes through: what the first pattern matches, then what
the second does. -/
def wiped (v : Volume) : List Path :=
  ((v.rows.filter fun file => plain file.path.entry) ++ v.rows.filter fun file => hidden file.path.entry).map File.path

def put (v : Volume) (file : File) : Volume := (v.erase file.path).insert file

theorem find_put (v : Volume) (file : File) (path : Path) :
    (put v file).find path = if path = file.path then some file else v.find path := by
  have hfree : (v.erase file.path).find file.path = none := Table.find_erase_self v file.path
  by_cases h : path = file.path
  · rw [if_pos h, h, put, Table.find_insert_self hfree]
  · rw [if_neg h, put, Table.find_insert_of_ne h, Table.find_erase_of_ne h]

def lastOf (files : List File) (path : Path) : Option File := files.reverse.find? fun file => file.path = path

@[simp] theorem lastOf_nil (path : Path) : lastOf [] path = none := rfl

theorem lastOf_append_singleton (files : List File) (file : File) (path : Path) :
    lastOf (files ++ [file]) path = if path = file.path then some file else lastOf files path := by
  unfold lastOf
  rw [List.reverse_append, List.reverse_singleton, List.singleton_append, List.find?_cons]
  by_cases h : path = file.path
  · simp [h]
  · simp [h, Ne.symm h]

theorem mem_of_lastOf {files : List File} {path : Path} {file : File} (h : lastOf files path = some file) :
    file ∈ files ∧ file.path = path := by
  have hpath := List.find?_some h
  exact ⟨List.mem_reverse.mp (List.mem_of_find?_eq_some h), of_decide_eq_true hpath⟩

def Holds (v : Volume) (files : List File) : Prop :=
  ∀ path, (lastOf files path).isSome → v.find path = lastOf files path

structure Complete (v : Volume) (call : Call) : Prop where
  exist : ∀ path ∈ call.mountPaths, (call.image.tree path).isSome
  copied : Holds v (copies call)

def StampedFor (v : Volume) (call : Call) : Prop :=
  ∃ stamp, stampOf v = some stamp ∧ imageIdsMatch stamp.imageId call.image.id = true

theorem Holds.nil (v : Volume) : Holds v [] := fun _ h => absurd h Bool.false_ne_true

theorem Holds.put {v : Volume} {files : List File} (h : Holds v files) (file : File) :
    Holds (put v file) (files ++ [file]) := by
  intro path hpath
  rw [lastOf_append_singleton] at hpath ⊢
  rw [find_put]
  split
  · rfl
  · rename_i hne
    rw [if_neg hne] at hpath
    exact h path hpath

theorem Holds.of_find {v v' : Volume} {files : List File} (h : Holds v files)
    (hfind : ∀ path, (lastOf files path).isSome → v'.find path = v.find path) : Holds v' files :=
  fun path hpath => (hfind path hpath).trans (h path hpath)

theorem stampOf_congr {v v' : Volume} (h : v'.find stampPath = v.find stampPath) : stampOf v' = stampOf v := by
  rw [stampOf, stampOf, h]

theorem StampedFor.congr {v v' : Volume} {call : Call} (h : v'.find stampPath = v.find stampPath)
    (hstamped : StampedFor v' call) : StampedFor v call := by
  rwa [StampedFor, stampOf_congr h] at hstamped

theorem stampPresent_of_read {v : Volume} {id : Option ImageId} (h : readToolchainManifest v = some id) :
    stampPresent v = true := by
  unfold readToolchainManifest at h
  split at h
  · rename_i manifest stamp _ hstamp
    obtain ⟨hparses, -⟩ := Option.ite_none_right_eq_some.mp h
    rw [stampPresent, stampOf, hstamp]
    exact hparses.2
  · exact absurd h nofun

end NukeLab.ToolchainVolume
