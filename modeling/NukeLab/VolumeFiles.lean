import NukeLab.Administration
import NukeLab.FileSystems
import NukeLab.Queries
import NukeLab.VolumeAccess
import Mathlib.Algebra.Order.Ring.Unbundled.Rat
import Mathlib.Data.Char
import Mathlib.Data.List.Infix
import Mathlib.Data.List.Lex
import Mathlib.Data.Prod.Lex

namespace NukeLab.VolumeFiles

open Administration (Account hasPermission requirePermissions require)
open FileSystems Program Records State

/-- What the file browser reads: accounts, sharing, and the disk under the storage path. -/
structure Shelf where
  accounts : Administration.Site
  sharing : VolumeAccess.Site
  name : Uuid → List Char
  storagePath : List Char
  files : FileSystem (List UInt8)
  modified : Path → ℚ

/-- The parts of a `Path`. -/
def pathOf (text : List Char) : List Name := (parts text).filter fun n => n ≠ [] ∧ n ≠ ['.']

/-- `path / text` -/
def join (path : List Name) (text : List Char) : List Name :=
  if text.head? = some '/' then pathOf text else path ++ pathOf text

def getVolumeBasePath (s : Shelf) (volumeId : Uuid) : List Name :=
  join (join (pathOf s.storagePath) (s.name volumeId)) "_data".toList

def traversal : Raise := .http 403 "Access denied: path traversal detected"

/-- `lstat` refuses a null character, which every name that is not skipped is given to. -/
def securePath (fs : FileSystem (List UInt8)) (basePath : List Name) (subpath : List Char) : Except Raise Path :=
  let base := realpath fs basePath
  if '\x00' ∈ subpath then .error (.exception "lstat: embedded null character in path")
  else
    let requested := realpath fs (join base (subpath.dropWhile (· = '/')))
    if base <+: requested then .ok requested else .error traversal

/-- `except HTTPException: raise`, and anything else is a 500. -/
def shown (detail : String) : Raise → Raise
  | .http status detail => .http status detail
  | .exception _ => .http 500 detail

def located (s : Shelf) (volumeId : Uuid) (path : List Char) (detail : String) : Except Raise Path :=
  (securePath s.files (getVolumeBasePath s volumeId) path).mapError (shown detail)

def requireReading (s : Shelf) (user : Account) : Except Raise Unit :=
  if hasPermission s.accounts user .volumesReadOwn || hasPermission s.accounts user .volumesReadAll then .ok ()
  else .error (.http 403 "Insufficient permissions. Required: volumes:read_own, volumes:read_all")

def requireVolume (s : Shelf) (user : Account) (volumeId : Uuid) (mode : String) : Except Raise Unit :=
  match s.sharing.volumes volumeId with
  | none => .error (.http 404 "Volume not found")
  | some _ =>
    if VolumeAccess.canAccessVolume s.sharing volumeId user.id mode then .ok ()
    else require s.accounts user .adminAccess

def downloadVolumeFile (s : Shelf) (user : Account) (volumeId : Uuid) (path : List Char) :
    Except Raise (List UInt8 × Option Name) := do
  requireReading s user
  requireVolume s user volumeId "read_only"
  let target ← located s volumeId path "Failed to download file. Please try again or contact support."
  match (stat s.files target).bind s.files.entry with
  | some (.file content) => pure (content, target.getLast?)
  | _ => throw (.http 404 "File not found")

structure Item where
  name : Name
  isDirectory : Bool
  size : Option Nat
  modified : ℚ

inductive Response
  | file (name : Option Name) (size : Nat) (modified : ℚ)
  | directory (items : List Item) (total page pageSize totalPages : Int)

/-- What `stat` tells of an entry, which is skipped if that fails. -/
def itemOf (s : Shelf) (target : Path) (n : Name) : Option Item :=
  (stat s.files (target ++ [n])).map fun q =>
    match s.files.entry q with
    | some .dir => ⟨n, true, none, s.modified q⟩
    | some (.file content) => ⟨n, false, some content.length, s.modified q⟩
    | _ => ⟨n, false, none, s.modified q⟩

def iterdir (fs : FileSystem (List UInt8)) (target : Path) : List Name :=
  (fs.rows.filterMap fun row => if row.1.dropLast = target then row.1.getLast? else none).eraseDups

def found (lower : Name → Name) (s : Shelf) (target : Path) (search : Option Name) : List Item :=
  let items := (iterdir s.files target).filterMap (itemOf s target)
  match search with
  | none | some [] => items
  | some search => items.filter fun item => lower search <:+: lower item.name

def rank (sortBy : String) (item : Item) : ℚ :=
  match sortBy with
  | "size" => item.size.getD 0
  | "modified" => item.modified
  | _ => if item.isDirectory then 0 else 1

def key (lower : Name → Name) (sortBy : String) (item : Item) : ℚ ×ₗ List Char := toLex (rank sortBy item, lower item.name)

/-- Any other order is ascending, and so is any other key. -/
def reversed (lower : Name → Name) (sortBy : String) (sortOrder : List Char) : Bool :=
  lower sortOrder = "desc".toList && (sortBy = "name" || sortBy = "size" || sortBy = "modified")

/-- `list.sort` is stable, and so it is with `reverse`. -/
def sorted (lower : Name → Name) (sortBy : String) (sortOrder : List Char) (items : List Item) : List Item :=
  let le := fun a b => decide (key lower sortBy a ≤ key lower sortBy b)
  if reversed lower sortBy sortOrder then (items.reverse.mergeSort le).reverse else items.mergeSort le

/-- `items[start:stop]` -/
def slice {α : Type} (items : List α) (start stop : Int) : List α :=
  let clip := fun i : Int => if i < 0 then max 0 (i + items.length) else min i items.length
  (items.drop (clip start).toNat).take (clip stop - clip start).toNat

def paginated (items : List Item) (page pageSize : Int) : Except Raise Response :=
  if pageSize = 0 then .error (.exception "integer division or modulo by zero")
  else
    let total : Int := items.length
    let totalPages := max 1 ((total + pageSize - 1).fdiv pageSize)
    let page := max 1 (min page totalPages)
    let start := (page - 1) * pageSize
    .ok (.directory (slice items start (start + pageSize)) total page pageSize totalPages)

structure Request where
  path : List Char
  search : Option Name
  sortBy : String
  sortOrder : List Char

def listed (lower : Name → Name) (s : Shelf) (request : Request) (target : Path) (page pageSize : Int) : Except Raise Response :=
  match (stat s.files target).bind fun q => (s.files.entry q).map fun e => (q, e) with
  | some (q, .file content) => .ok (.file target.getLast? content.length (s.modified q))
  | some (_, .dir) =>
    paginated (sorted lower request.sortBy request.sortOrder (found lower s target request.search)) page pageSize
  | _ => .error (.http 404 "Path not found")

def listVolumeFiles (lower : Name → Name) (s : Shelf) (user : Account) (volumeId : Uuid) (request : Request)
    (page pageSize : Int) : Except Raise Response := do
  let detail := "Failed to list files. Please try again or contact support."
  requireReading s user
  requireVolume s user volumeId "read_only"
  let target ← located s volumeId request.path detail
  (listed lower s request target page pageSize).mapError (shown detail)

/-- How a deletion goes wrong: the error, and what is gone by then. -/
structure Fault where
  errno : Nat
  gone : List Path

def refused (fault : Fault) : Raise :=
  if fault.errno = 30 then .http 403 "Volume is read-only. Cannot modify files."
  else .http 500 "Failed to delete file or directory."

/-- Where the system finds an entry itself, not what it links to. -/
def placeOf (fs : FileSystem (List UInt8)) (p : Path) : Option Path :=
  p.getLast?.bind fun n => (stat fs p.dropLast).map fun q => q ++ [n]

/-- `shutil.rmtree` or `unlink`, neither of which follows a link in its last place. -/
def erase (fs : FileSystem (List UInt8)) (target : Path) (fault : Option Fault) :
    FileSystem (List UInt8) × Except Raise Unit :=
  match placeOf fs target, fault with
  | none, _ => (fs, .error (refused ⟨2, []⟩))
  | some place, none => (fs.remove place, .ok ())
  | some place, some fault =>
    let gone := if fs.isDir place then fault.gone.filter fun p => place <+: p else []
    (gone.foldl FileSystem.remove fs, .error (refused fault))

def doomed (s : Shelf) (user : Account) (volumeId : Uuid) (path : List Char) : Except Raise Path := do
  requirePermissions s.accounts user .volumesWriteOwn
  requireVolume s user volumeId "read_write"
  let target ← located s volumeId path "Failed to delete file or directory."
  if stat s.files target = none then throw (.http 404 "Path not found")
  else if target = realpath s.files (getVolumeBasePath s volumeId) then throw (.http 403 "Cannot delete volume root")
  else pure target

def deleteVolumeFile (s : Shelf) (user : Account) (volumeId : Uuid) (path : List Char) (fault : Option Fault) :
    Shelf × Except Raise Unit :=
  match doomed s user volumeId path with
  | .error e => (s, .error e)
  | .ok target =>
    let (files, answer) := erase s.files target fault
    ({ s with files := files }, answer)

section

variable {fs : FileSystem (List UInt8)} {base : List Name} {subpath : List Char} {p q : Path} {s : Shelf} {user : Account}
  {volumeId : Uuid} {path : List Char}

theorem securePath_ok (h : securePath fs base subpath = .ok p) :
    realpath fs base <+: p ∧ Good fs p := by
  rw [securePath] at h
  split at h
  · cases h
  · dsimp only at h
    split at h
    · next hstart =>
        cases h
        exact ⟨hstart, (realpath_spec fs _).2.1⟩
    · cases h

theorem securePath_of_stat (hnull : '\x00' ∉ subpath)
    (h : stat fs (join (realpath fs base) (subpath.dropWhile (· = '/'))) = some q) :
    securePath fs base subpath = if realpath fs base <+: q then .ok q else .error traversal := by
  rw [securePath, if_neg hnull]
  dsimp only
  rw [(realpath_spec fs _).2.2 _ q h]

theorem located_ok {detail : String} (h : located s volumeId path detail = .ok p) :
    securePath s.files (getVolumeBasePath s volumeId) path = .ok p := by
  rw [located] at h
  cases hsecure : securePath s.files (getVolumeBasePath s volumeId) path with
  | error e =>
      rw [hsecure] at h
      cases h
  | ok q =>
      rw [hsecure] at h
      cases h
      rfl

def Permitted (s : Shelf) (user : Account) (volumeId : Uuid) (mode : String) : Prop :=
  (s.sharing.volumes volumeId).isSome ∧
    (VolumeAccess.canAccessVolume s.sharing volumeId user.id mode = true ∨ hasPermission s.accounts user .adminAccess = true)

theorem requireVolume_ok {mode : String} : requireVolume s user volumeId mode = .ok () ↔ Permitted s user volumeId mode := by
  rw [requireVolume, Permitted]
  cases s.sharing.volumes volumeId with
  | none => simp
  | some volume =>
      by_cases haccess : VolumeAccess.canAccessVolume s.sharing volumeId user.id mode = true
      · simp [haccess]
      · simp [haccess, require]

def Reading (s : Shelf) (user : Account) : Prop :=
  hasPermission s.accounts user .volumesReadOwn = true ∨ hasPermission s.accounts user .volumesReadAll = true

theorem requireReading_ok : requireReading s user = .ok () ↔ Reading s user := by
  rw [requireReading, Reading]
  split
  · next h => exact iff_of_true rfl (Bool.or_eq_true_iff.mp h)
  · next h => exact iff_of_false (fun h => nomatch h) fun h' => h (Bool.or_eq_true_iff.mpr h')

/-- What is downloaded is a file below the volume's root, and a file the system finds there is downloaded; one that it
finds elsewhere is refused. -/
theorem downloadVolumeFile_confined (s : Shelf) (user : Account) (volumeId : Uuid) (path : List Char) :
    let base := realpath s.files (getVolumeBasePath s volumeId)
    (∀ content name, downloadVolumeFile s user volumeId path = .ok (content, name) →
      Reading s user ∧ Permitted s user volumeId "read_only" ∧
        ∃ q, base <+: q ∧ s.files.entry q = some (.file content) ∧ name = q.getLast?) ∧
    ∀ q content, '\x00' ∉ path → stat s.files (join base (path.dropWhile (· = '/'))) = some q →
      s.files.entry q = some (.file content) → Reading s user → Permitted s user volumeId "read_only" →
      downloadVolumeFile s user volumeId path = if base <+: q then .ok (content, q.getLast?) else .error traversal := by
  refine ⟨fun content name h => ?_, fun q content hnull hstat hentry hreading hpermitted => ?_⟩
  · obtain ⟨_, hreading, h⟩ := ok_of_bind h
    obtain ⟨_, hpermitted, h⟩ := ok_of_bind h
    obtain ⟨target, htarget, h⟩ := ok_of_bind h
    obtain ⟨hstart, hgood⟩ := securePath_ok (located_ok htarget)
    refine ⟨requireReading_ok.mp hreading, requireVolume_ok.mp hpermitted, target, hstart, ?_⟩
    split at h
    · next content' hfound =>
        obtain ⟨q, hq, hentry⟩ := Option.bind_eq_some_iff.mp hfound
        obtain rfl := hgood.walk_eq hq
        cases h
        exact ⟨hentry, rfl⟩
    · cases h
  · have hsecure := securePath_of_stat hnull hstat
    rw [downloadVolumeFile, requireReading_ok.mpr hreading, requireVolume_ok.mpr hpermitted, located, hsecure]
    by_cases hstart : realpath s.files (getVolumeBasePath s volumeId) <+: q
    · rw [if_pos hstart, if_pos hstart]
      have hself : stat s.files q = some q := by
        refine stat_entry ?_ fun t ht => ?_
        · rw [hentry]
          exact Option.some_ne_none _
        · rw [hentry] at ht
          cases ht
      have hfound : (stat s.files q).bind s.files.entry = some (.file content) := by rw [hself, Option.bind_some, hentry]
      change (match (stat s.files q).bind s.files.entry with
        | some (.file content) => pure (content, q.getLast?)
        | _ => throw (Raise.http 404 "File not found")) = _
      rw [hfound]
      rfl
    · rw [if_neg hstart, if_neg hstart]
      rfl

theorem doomed_ok (h : doomed s user volumeId path = .ok p) :
    hasPermission s.accounts user .volumesWriteOwn = true ∧ Permitted s user volumeId "read_write" ∧
      securePath s.files (getVolumeBasePath s volumeId) path = .ok p ∧ stat s.files p ≠ none ∧
      p ≠ realpath s.files (getVolumeBasePath s volumeId) := by
  obtain ⟨_, hwrite, h⟩ := ok_of_bind h
  obtain ⟨_, hvolume, h⟩ := ok_of_bind h
  obtain ⟨target, htarget, h⟩ := ok_of_bind h
  have hwriting : hasPermission s.accounts user .volumesWriteOwn = true := by
    by_contra hno
    rw [requirePermissions, if_neg hno] at hwrite
    cases hwrite
  split at h
  · cases h
  · next hfound =>
      split at h
      · cases h
      · next hroot =>
          cases h
          exact ⟨hwriting, requireVolume_ok.mp hvolume, located_ok htarget, hfound, hroot⟩

theorem placeOf_eq (hgood : Good fs p) (hstat : stat fs p ≠ none) (hp : p ≠ []) : placeOf fs p = some p := by
  obtain ⟨above, n, rfl⟩ := (List.eq_nil_or_concat' p).resolve_left hp
  obtain ⟨q, hq⟩ := Option.ne_none_iff_exists'.mp hstat
  obtain ⟨r, hr, -⟩ := walk_append hq
  obtain rfl := (hgood.of_prefix (List.prefix_append _ _)).walk_eq hr
  rw [placeOf, List.getLast?_concat, List.dropLast_concat, Option.bind_some, stat, hr, Option.map_some]

theorem Good.ne_nil_of_below {b : Path} (hstart : b <+: p) (hne : p ≠ b) : p ≠ [] := by
  rintro rfl
  exact hne (List.prefix_nil.mp hstart).symm

theorem erase_ok {fault : Option Fault} (hplace : placeOf fs p = some p) (h : (erase fs p fault).2 = .ok ()) :
    (erase fs p fault).1 = fs.remove p := by
  cases fault with
  | none => simp only [erase, hplace]
  | some fault =>
      simp only [erase, hplace] at h
      cases h

theorem erase_entry {fault : Option Fault} (hplace : placeOf fs p = some p) (hq : ¬ p <+: q) :
    (erase fs p fault).1.entry q = fs.entry q := by
  have hkeeps (t : Path) (ht : p <+: t) : keeps t q = true := by
    simp only [keeps, Bool.or_eq_true, decide_eq_true_eq]
    exact .inr fun htq => hq (ht.trans htq)
  cases fault with
  | none =>
      simp only [erase, hplace]
      rw [FileSystem.remove_entry, if_pos (hkeeps p (List.prefix_refl p))]
  | some fault =>
      simp only [erase, hplace]
      refine FileSystem.foldl_remove_entry fs fun t ht => ?_
      split at ht
      · exact hkeeps t (of_decide_eq_true (List.mem_filter.mp ht).2)
      · cases ht

/-- A deletion is by one who may write and reaches only what is below the volume's root, where it stops at what was
asked for; nothing above, beside or at the root is lost, even when it fails halfway. -/
theorem deleteVolumeFile_confined (s : Shelf) (user : Account) (volumeId : Uuid) (path : List Char) (fault : Option Fault) :
    let base := realpath s.files (getVolumeBasePath s volumeId)
    let (t, answer) := deleteVolumeFile s user volumeId path fault
    (t.files = s.files ∧ answer ≠ .ok ()) ∨
      hasPermission s.accounts user .volumesWriteOwn = true ∧ Permitted s user volumeId "read_write" ∧
        ∃ target, base <+: target ∧ target ≠ base ∧ stat s.files target = some target ∧
          (∀ p, ¬ target <+: p → t.files.entry p = s.files.entry p) ∧
          (answer = .ok () → ∀ p, target <+: p → t.files.entry p = none) := by
  dsimp only
  rw [deleteVolumeFile]
  cases hdoomed : doomed s user volumeId path with
  | error e => exact .inl ⟨rfl, fun h => nomatch h⟩
  | ok target =>
      obtain ⟨hwrite, hpermitted, hsecure, hstat, hne⟩ := doomed_ok hdoomed
      obtain ⟨hstart, hgood⟩ := securePath_ok hsecure
      have hplace := placeOf_eq hgood hstat (Good.ne_nil_of_below hstart hne)
      obtain ⟨q, hq⟩ := Option.ne_none_iff_exists'.mp hstat
      obtain rfl := hgood.walk_eq hq
      refine .inr ⟨hwrite, hpermitted, q, hstart, hne, hq, fun p hp => erase_entry hplace hp, fun hok p hp => ?_⟩
      have hfiles := erase_ok hplace hok
      dsimp only
      rw [hfiles, FileSystem.remove_entry, if_neg]
      simp only [keeps, Bool.or_eq_true, decide_eq_true_eq, not_or, not_not]
      exact ⟨fun hnil => Good.ne_nil_of_below hstart hne (List.prefix_nil.mp (hnil ▸ hp)), hp⟩

theorem slice_add {α : Type} (items : List α) (start size : Nat) :
    slice items start (start + size) = (items.drop start).take size := by
  have hclip (i : Nat) : (if (i : Int) < 0 then max 0 ((i : Int) + items.length) else min (i : Int) items.length) = (min i items.length : Nat) := by
    rw [if_neg (by omega)]
    omega
  have hstop : (start : Int) + size = (start + size : Nat) := by omega
  rw [slice, hstop]
  dsimp only
  rw [hclip, hclip, Int.toNat_natCast]
  by_cases hstart : start ≤ items.length
  · rw [Nat.min_eq_left hstart]
    have hcount : (((min (start + size) items.length : Nat) : Int) - (start : Nat)).toNat = min size (items.length - start) := by omega
    rw [hcount, ← List.length_drop]
    exact List.take_eq_take_min.symm
  · rw [List.drop_of_length_le (by omega), List.drop_of_length_le (by omega), List.take_nil, List.take_nil]

def pageCount (total size : Nat) : Nat := max 1 ((total + size - 1) / size)

theorem le_pageCount_mul (total : Nat) {size : Nat} (hsize : 0 < size) : total ≤ pageCount total size * size := by
  have hdiv := Nat.div_add_mod' (total + size - 1) size
  have hmod := Nat.mod_lt (total + size - 1) hsize
  have hmul : (total + size - 1) / size * size ≤ pageCount total size * size := Nat.mul_le_mul_right _ (Nat.le_max_right _ _)
  omega

theorem paginated_eq (items : List Item) (page : Int) {size : Nat} (hsize : 0 < size) :
    paginated items page size =
      let number := max 1 (min page (pageCount items.length size))
      .ok (.directory (Queries.page number.toNat size items) items.length number size (pageCount items.length size)) := by
  have hpages : max 1 (((items.length : Int) + size - 1).fdiv size) = pageCount items.length size := by
    have hcast : (items.length : Int) + size - 1 = (items.length + size - 1 : Nat) := by omega
    rw [hcast, Int.fdiv_eq_ediv_of_nonneg _ (Int.natCast_nonneg _), ← Int.natCast_ediv, pageCount]
    omega
  rw [paginated, if_neg (by omega)]
  dsimp only
  rw [hpages]
  generalize pageCount items.length size = pages
  have hnumber : (0 : Int) ≤ max 1 (min page pages) - 1 := by omega
  obtain ⟨number, hnumber'⟩ := Int.eq_ofNat_of_zero_le hnumber
  have hstart : (max 1 (min page pages) - 1) * (size : Int) = (number * size : Nat) := by rw [hnumber', Int.natCast_mul]
  have hpage : (max 1 (min page pages)).toNat - 1 = number := by omega
  rw [hstart, slice_add, Queries.page, hpage]

def ordered (lower : Name → Name) (request : Request) (a b : Item) : Prop :=
  if reversed lower request.sortBy request.sortOrder then key lower request.sortBy b ≤ key lower request.sortBy a
  else key lower request.sortBy a ≤ key lower request.sortBy b

theorem sorted_spec (lower : Name → Name) (request : Request) (items : List Item) :
    (sorted lower request.sortBy request.sortOrder items).Perm items ∧
      (sorted lower request.sortBy request.sortOrder items).Pairwise (ordered lower request) := by
  have hpairwise (items : List Item) :
      (items.mergeSort fun a b => decide (key lower request.sortBy a ≤ key lower request.sortBy b)).Pairwise
        fun a b => key lower request.sortBy a ≤ key lower request.sortBy b := by
    refine (List.pairwise_mergeSort (fun a b c hab hbc => ?_) (fun a b => ?_) items).imp of_decide_eq_true
    · exact decide_eq_true ((of_decide_eq_true hab).trans (of_decide_eq_true hbc))
    · simpa only [Bool.or_eq_true, decide_eq_true_eq] using le_total (key lower request.sortBy a) (key lower request.sortBy b)
  rw [sorted]
  split
  · next hreversed =>
      refine ⟨(List.reverse_perm _).trans ((List.mergeSort_perm _ _).trans (List.reverse_perm items)), ?_⟩
      rw [List.pairwise_reverse]
      exact (hpairwise items.reverse).imp fun h => by rwa [ordered, if_pos hreversed]
  · next hreversed =>
      exact ⟨List.mergeSort_perm _ _, (hpairwise items).imp fun h => by rwa [ordered, if_neg hreversed]⟩

theorem listVolumeFiles_directory {lower : Name → Name} {request : Request} {page size : Int} {items : List Item}
    {total page' size' pages : Int} (h : listVolumeFiles lower s user volumeId request page size = .ok (.directory items total page' size' pages)) :
    ∃ target, located s volumeId request.path "Failed to list files. Please try again or contact support." = .ok target ∧
      ∀ page size, listVolumeFiles lower s user volumeId request page size =
        (paginated (sorted lower request.sortBy request.sortOrder (found lower s target request.search)) page size).mapError
          (shown "Failed to list files. Please try again or contact support.") := by
  obtain ⟨_, hreading, h⟩ := ok_of_bind h
  obtain ⟨_, hvolume, h⟩ := ok_of_bind h
  obtain ⟨target, htarget, h⟩ := ok_of_bind h
  refine ⟨target, htarget, fun page size => ?_⟩
  rw [listVolumeFiles, hreading, hvolume, htarget]
  change (listed lower s request target page size).mapError _ = _
  rw [listed] at h ⊢
  split at h
  · cases h
  · rfl
  · cases h

/-- Page after page of a directory is everything that matches in it, each item once and in the order asked for; a page
out of range is the nearest one. -/
theorem listVolumeFiles_pages {lower : Name → Name} {s : Shelf} {user : Account} {volumeId : Uuid} {request : Request}
    {shownPage : Int} {size : Nat} {items : List Item} {total page pageSize totalPages : Int} (hsize : 0 < size)
    (h : listVolumeFiles lower s user volumeId request shownPage size = .ok (.directory items total page pageSize totalPages)) :
    ∃ target all, ∃ pages : Nat → List Item,
      located s volumeId request.path "Failed to list files. Please try again or contact support." = .ok target ∧
      all.Perm (found lower s target request.search) ∧ all.Pairwise (ordered lower request) ∧ total = all.length ∧
      (∀ k : Int, listVolumeFiles lower s user volumeId request k size =
        .ok (.directory (pages (max 1 (min k totalPages)).toNat) total (max 1 (min k totalPages)) size totalPages)) ∧
      (List.range totalPages.toNat).flatMap (fun i => pages (i + 1)) = all := by
  obtain ⟨target, htarget, hlist⟩ := listVolumeFiles_directory h
  obtain ⟨hperm, hordered⟩ := sorted_spec lower request (found lower s target request.search)
  generalize sorted lower request.sortBy request.sortOrder (found lower s target request.search) = all at hlist hperm hordered
  rw [hlist, paginated_eq _ _ hsize] at h
  cases h
  refine ⟨target, all, fun k => Queries.page k size all, htarget, hperm, hordered, rfl, fun k => ?_, ?_⟩
  · rw [hlist, paginated_eq _ _ hsize]
    rfl
  · rw [Int.toNat_natCast, Queries.flatMap_page]
    exact List.take_of_length_le (le_pageCount_mul _ hsize)

end

section Cupboard

def ivo : Account := ⟨1, "ivo", "ivo@example.org", none, .user, true, 0⟩

def dataPath : Path := ["v".toList, "data".toList, "_data".toList]

def rows : List (Path × Entry (List UInt8)) :=
  [([], .dir), (["v".toList], .dir), (["v".toList, "data".toList], .dir), (dataPath, .dir),
    (dataPath ++ ["b".toList], .file [1, 2]), (dataPath ++ ["a".toList], .link "b".toList)]

def cupboard : Shelf where
  accounts := ⟨⟨⟨[ivo], by decide⟩, by decide, by decide⟩, Roles.defaultRolePermissions, true⟩
  sharing := { VolumeAccess.site with volumes := fun _ => some ⟨"data", 1, "private"⟩ }
  name _ := "data".toList
  storagePath := "/v".toList
  files := ⟨rows, rfl, under_of_rows (by decide)⟩
  modified _ := 0

theorem stat_dataPath : stat cupboard.files dataPath = some dataPath :=
  stat_entry (by decide) fun t => by
    have hdir : cupboard.files.entry dataPath = some .dir := rfl
    rw [hdir]
    exact fun h => nomatch h

theorem located_dataPath (detail : String) : located cupboard 5 [] detail = .ok dataPath := by
  have hbase : realpath cupboard.files (getVolumeBasePath cupboard 5) = dataPath := by
    have hpath : getVolumeBasePath cupboard 5 = dataPath := by decide
    rw [hpath]
    exact (realpath_spec _ _).2.2 _ _ stat_dataPath
  have hjoin : join dataPath (([] : List Char).dropWhile (· = '/')) = dataPath := by decide
  have hsecure : securePath cupboard.files (getVolumeBasePath cupboard 5) [] = .ok dataPath := by
    rw [securePath_of_stat (by decide) (by rw [hbase, hjoin]; exact stat_dataPath), hbase, if_pos (List.prefix_refl _)]
  rw [located, hsecure]
  rfl

def byName : Request := ⟨[], none, "name", []⟩

theorem listVolumeFiles_dataPath (page pageSize : Int) :
    listVolumeFiles id cupboard ivo 5 byName page pageSize =
      (paginated (sorted id "name" [] (found id cupboard dataPath none)) page pageSize).mapError
        (shown "Failed to list files. Please try again or contact support.") := by
  have hreading : requireReading cupboard ivo = .ok () := requireReading_ok.mpr (.inl (by decide))
  have hvolume : requireVolume cupboard ivo 5 "read_only" = .ok () := requireVolume_ok.mpr ⟨rfl, .inl (by decide)⟩
  have hlisted : listed id cupboard byName dataPath page pageSize =
      paginated (sorted id "name" [] (found id cupboard dataPath none)) page pageSize := by
    rw [listed, stat_dataPath]
    rfl
  rw [listVolumeFiles, hreading, hvolume, byName, located_dataPath, ← hlisted]
  rfl

theorem listVolumeFiles_pages_one_each :
    ∃ all : List Item, ∃ pages : Nat → List Item, ∃ total totalPages : Int,
      all.Perm (found id cupboard dataPath none) ∧ all.Pairwise (ordered id byName) ∧
      (∀ k : Int, listVolumeFiles id cupboard ivo 5 byName k (1 : Nat) =
        .ok (.directory (pages (max 1 (min k totalPages)).toNat) total (max 1 (min k totalPages)) (1 : Nat) totalPages)) ∧
      (List.range totalPages.toNat).flatMap (fun i => pages (i + 1)) = all := by
  have hshown := listVolumeFiles_dataPath 1 (1 : Nat)
  rw [paginated_eq _ _ Nat.one_pos] at hshown
  obtain ⟨target, all, pages, htarget, hperm, hordered, -, hlist, hpages⟩ := listVolumeFiles_pages Nat.one_pos hshown
  rw [byName, located_dataPath] at htarget
  cases htarget
  exact ⟨all, pages, _, _, hperm, hordered, hlist, hpages⟩

end Cupboard

end NukeLab.VolumeFiles
