import NukeLab.Machine
import NukeLab.Md5
import NukeLab.Texts
import Mathlib.Logic.Function.Basic

namespace NukeLab.XfsQuota

open Machine

structure XfsSettings where
  enabled : Bool
  projectIdStart : Nat
  volumeStoragePath : String

def isVolumeChar (c : Char) : Bool := c.isAlphanum || c == '_' || c == '.' || c == '-'

structure VolumeName where
  text : String
  valid : ∀ c ∈ text.toList, isVolumeChar c = true
  deriving DecidableEq

structure Host where
  available : Bool
  home : String
  parentExists : String → Bool
  mountpoint : String → String

def withSlash (path : String) : String := if path.toList.getLast? = some '/' then path else path ++ "/"

def bases (settings : XfsSettings) (host : Host) : List String :=
  (if settings.volumeStoragePath = "" then [] else [withSlash settings.volumeStoragePath]) ++
    ["/var/lib/docker/volumes/", "/var/lib/containers/storage/volumes/",
      host.home ++ "/.local/share/containers/storage/volumes/"]

def candidates (settings : XfsSettings) (host : Host) (name : VolumeName) : List String :=
  (bases settings host).map fun base => base ++ name.text ++ "/_data"

def getVolumePath (settings : XfsSettings) (host : Host) (name : VolumeName) : Option String :=
  match (candidates settings host name).find? host.parentExists with
  | some path => some path
  | none => (candidates settings host name).head?

def utf8 (text : String) : List Nat := text.toList.flatMap fun c => (String.utf8EncodeChar c).map UInt8.toNat

def projectId (settings : XfsSettings) (name : VolumeName) : Nat :=
  settings.projectIdStart + Md5.md5 (utf8 name.text) % 1000000

abbrev Lines := Option (List (List Char))

def startsWith (text line : List Char) : Bool := text.isPrefixOf (Texts.strip line)

def updateLine (file : Lines) (line : List Char) : Lines :=
  let key := line.takeWhile (· ≠ ':') ++ [':']
  let lines := file.getD []
  if lines.any (startsWith key) then some (lines.map fun l => if startsWith key l then line else l)
  else some (lines ++ [line])

def removeLine (file : Lines) (text : List Char) : Lines := file.map fun lines => lines.filter fun l => !startsWith text l

def idPrefix (projectId : Nat) : List Char := Nat.toDigits 10 projectId ++ [':']

def entry (projectId : Nat) (path : String) : List Char := idPrefix projectId ++ path.toList

/-- The projects file, and what the kernel holds: the project of each directory, and
on each filesystem the limit of each project, zero for none. -/
structure World where
  projectsFile : Lines
  projectOf : String → Option Nat
  limits : String → Nat → Int

/-- What a command answers. One that reports success has been applied. -/
structure Reply where
  returncode : Int
  applied : Bool
  honest : returncode = 0 → applied = true

def World.assign (w : World) (reply : Reply) (path : String) (projectId : Nat) : World :=
  if reply.applied then { w with projectOf := Function.update w.projectOf path (some projectId) } else w

def World.limit (w : World) (reply : Reply) (mountpoint : String) (projectId : Nat) (bytes : Int) : World :=
  if reply.applied then
    { w with limits := Function.update w.limits mountpoint (Function.update (w.limits mountpoint) projectId bytes) }
  else w

structure Answers where
  dirMade : Bool
  fileWritable : Bool
  setup : Reply
  limit : Reply

def setQuota (settings : XfsSettings) (host : Host) (w : World) (name : VolumeName) (bytesLimit : Int) (answers : Answers) :
    Bool × World :=
  if ¬ settings.enabled then (false, w)
  else if ¬ host.available then (false, w)
  else
    match getVolumePath settings host name with
    | none => (false, w)
    | some path =>
      if ¬ answers.dirMade then (false, w)
      else
        let id := projectId settings name
        let mountpoint := host.mountpoint path
        if ¬ answers.fileWritable then (false, w)
        else
          let w := { w with projectsFile := updateLine w.projectsFile (entry id path) }
          let w := w.assign answers.setup path id
          if answers.setup.returncode ≠ 0 then (false, w)
          else
            let w := w.limit answers.limit mountpoint id bytesLimit
            if answers.limit.returncode ≠ 0 then (false, w) else (true, w)

def removeQuota (settings : XfsSettings) (host : Host) (w : World) (name : VolumeName) (clear : Reply) : Bool × World :=
  if ¬ settings.enabled then (false, w)
  else if ¬ host.available then (false, w)
  else
    match getVolumePath settings host name with
    | none => (false, w)
    | some path =>
      let id := projectId settings name
      let mountpoint := host.mountpoint path
      -- a clear that fails is logged, and no more
      let w := w.limit clear mountpoint id 0
      (true, { w with projectsFile := removeLine w.projectsFile (idPrefix id) })

def limitInForce (settings : XfsSettings) (host : Host) (w : World) (name : VolumeName) : Int :=
  match getVolumePath settings host name with
  | none => 0
  | some path =>
    match w.projectOf path with
    | none => 0
    | some id => w.limits (host.mountpoint path) id

inductive Event
  | setQuota (name : VolumeName) (bytesLimit : Int) (answers : Answers)
  | removeQuota (name : VolumeName) (clear : Reply)

/-- The world under watch: what was last asked for each volume, the volumes whose
quota stands, and all that ever had one. -/
structure Watched where
  world : World
  wanted : VolumeName → Int
  standing : List VolumeName
  known : List VolumeName

def step (settings : XfsSettings) (host : Host) : Step Watched Event
  | s, .setQuota name bytesLimit answers =>
    match setQuota settings host s.world name bytesLimit answers with
    | (true, w) => some ⟨w, Function.update s.wanted name bytesLimit, name :: s.standing, name :: s.known⟩
    | (false, _) => none
  | s, .removeQuota name clear =>
    match removeQuota settings host s.world name clear with
    | (true, w) => some ⟨w, Function.update s.wanted name 0, s.standing.filter (· ≠ name), s.known⟩
    | (false, _) => none

def fresh : Watched := ⟨⟨none, fun _ => none, fun _ _ => 0⟩, fun _ => 0, [], []⟩

/-- The limit in force for each volume is the one last asked for it, and volumes
with quotas have projects of their own. -/
structure Isolated (settings : XfsSettings) (host : Host) (s : Watched) : Prop where
  limited : ∀ name, limitInForce settings host s.world name = s.wanted name
  distinct : ∀ v ∈ s.standing, ∀ w ∈ s.standing, v ≠ w → projectId settings v ≠ projectId settings w
  recorded : ∀ v ∈ s.standing, ∀ path ∈ getVolumePath settings host v, ∃ lines ∈ s.world.projectsFile, entry (projectId settings v) path ∈ lines

def OwnProject (settings : XfsSettings) (s : Watched) (name : VolumeName) : Prop :=
  ∀ v ∈ s.known, v ≠ name → projectId settings v ≠ projectId settings name

/-- A volume acts on a project of its own, and its limit is cleared when it is removed. -/
def Guarded (settings : XfsSettings) (s : Watched) : Event → Prop
  | .setQuota name _ _ => OwnProject settings s name
  | .removeQuota name clear => OwnProject settings s name ∧ (clear.applied = true ∨ s.wanted name = 0)

section Lines

theorem strip_idText {c : Char} {cs : List Char} (h : Texts.isSpace c = false) : Texts.strip (c :: cs) <+: c :: cs := by
  rw [Texts.strip, List.dropWhile_cons_of_neg (by rw [h]; decide)]
  apply List.reverse_suffix.mp
  rw [List.reverse_reverse]
  exact List.dropWhile_suffix _

theorem isDigit_ne_colon {n : Nat} : ∀ c ∈ Nat.toDigits 10 n, (c ≠ ':') := by
  rintro c hc rfl
  exact Texts.notMem_toDigits rfl n hc

theorem takeWhile_idPrefix (id : Nat) (rest : List Char) :
    (idPrefix id ++ rest).takeWhile (· ≠ ':') = Nat.toDigits 10 id := by
  have hdigits : ∀ c ∈ Nat.toDigits 10 id, decide (c ≠ ':') = true := fun c hc => decide_eq_true (isDigit_ne_colon c hc)
  rw [idPrefix, List.append_assoc, List.takeWhile_append_of_pos hdigits]
  exact List.append_nil _

theorem idPrefix_injective {a b : Nat} (h : Nat.toDigits 10 a = Nat.toDigits 10 b) : a = b :=
  calc
    a = Nat.ofDigitChars 10 (Nat.toDigits 10 a) 0 := Nat.ofDigitChars_ten_toDigits.symm
    _ = Nat.ofDigitChars 10 (Nat.toDigits 10 b) 0 := by rw [h]
    _ = b := Nat.ofDigitChars_ten_toDigits

theorem isSpace_digitChar {c : Char} (h : c.isDigit = true) : Texts.isSpace c = false := by
  have hlow : 48 ≤ c.toNat ∧ c.toNat ≤ 57 := by
    rw [Char.isDigit, Bool.and_eq_true, decide_eq_true_eq, decide_eq_true_eq] at h
    exact h
  rw [Texts.isSpace]
  simp
  omega

theorem entry_cons (id : Nat) (path : String) : ∃ c cs, entry id path = c :: cs ∧ Texts.isSpace c = false := by
  obtain ⟨c, cs, hcs⟩ := List.exists_cons_of_ne_nil (Nat.toDigits_ne_nil (n := id) (b := 10))
  refine ⟨c, cs ++ ':' :: path.toList, by rw [entry, idPrefix, hcs]; simp, isSpace_digitChar ?_⟩
  exact Texts.isDigit_toDigits (n := id) (hcs ▸ List.mem_cons_self)

theorem eq_of_startsWith {id other : Nat} {path : String} (h : startsWith (idPrefix id) (entry other path) = true) :
    id = other := by
  obtain ⟨c, cs, hentry, hspace⟩ := entry_cons other path
  have hstart : idPrefix id <+: entry other path := by
    rw [hentry]
    rw [startsWith, hentry] at h
    exact (List.isPrefixOf_iff_prefix.mp h).trans (strip_idText hspace)
  obtain ⟨rest, hrest⟩ := hstart
  apply idPrefix_injective
  rw [← takeWhile_idPrefix id rest, hrest, entry, takeWhile_idPrefix]

theorem key_entry (id : Nat) (path : String) : (entry id path).takeWhile (· ≠ ':') ++ [':'] = idPrefix id := by
  rw [entry, takeWhile_idPrefix]
  rfl

theorem entry_mem_updateLine (file : Lines) (id : Nat) (path : String) :
    ∃ lines ∈ updateLine file (entry id path), entry id path ∈ lines := by
  rw [updateLine]
  split
  next hany =>
    obtain ⟨l, hl, hstarts⟩ := List.any_eq_true.mp hany
    exact ⟨_, rfl, List.mem_map.mpr ⟨l, hl, if_pos hstarts⟩⟩
  · exact ⟨_, rfl, List.mem_append_right _ (List.mem_singleton_self _)⟩

theorem mem_updateLine {file : Lines} {lines : List (List Char)} {id : Nat} (path : String) {l : List Char} (hfile : lines ∈ file)
    (hl : l ∈ lines) (hother : startsWith (idPrefix id) l ≠ true) : ∃ lines' ∈ updateLine file (entry id path), l ∈ lines' := by
  obtain rfl := Option.mem_def.mp hfile
  rw [updateLine]
  rw [key_entry, Option.getD_some]
  split
  · exact ⟨_, rfl, List.mem_map.mpr ⟨l, hl, if_neg hother⟩⟩
  · exact ⟨_, rfl, List.mem_append_left _ hl⟩

theorem mem_removeLine {file : Lines} {lines : List (List Char)} {id : Nat} {l : List Char} (hfile : lines ∈ file)
    (hl : l ∈ lines) (hother : startsWith (idPrefix id) l ≠ true) : ∃ lines' ∈ removeLine file (idPrefix id), l ∈ lines' := by
  obtain rfl := Option.mem_def.mp hfile
  refine ⟨_, rfl, List.mem_filter.mpr ⟨hl, ?_⟩⟩
  rw [eq_false_of_ne_true hother]
  rfl

end Lines

section Paths

theorem ne_slash_of_isVolumeChar {c : Char} (h : isVolumeChar c = true) : c ≠ '/' := by
  rintro rfl
  cases h

theorem eq_of_append_slash {xs ys as bs : List Char} (hxs : ∀ c ∈ xs, c ≠ '/') (hys : ∀ c ∈ ys, c ≠ '/')
    (h : as ++ '/' :: xs = bs ++ '/' :: ys) : xs = ys := by
  have hlast : ∀ (as : List Char) {xs : List Char}, (∀ c ∈ xs, c ≠ '/') →
      ((as ++ '/' :: xs).reverse.takeWhile (· ≠ '/')).reverse = xs := by
    intro as xs hxs
    have hpos : ∀ c ∈ xs.reverse, decide (c ≠ '/') = true := fun c hc => decide_eq_true (hxs c (List.mem_reverse.mp hc))
    rw [List.reverse_append, List.reverse_cons, List.append_assoc, List.takeWhile_append_of_pos hpos]
    simp
  rw [← hlast as hxs, h, hlast bs hys]

theorem withSlash_toList (path : String) : ∃ cs, (withSlash path).toList = cs ++ ['/'] := by
  rw [withSlash]
  split
  next h => exact ⟨_, (List.dropLast_append_getLast? _ h).symm⟩
  · exact ⟨path.toList, by rw [String.toList_append]; rfl⟩

variable {settings : XfsSettings} {host : Host}

theorem bases_toList {base : String} (h : base ∈ bases settings host) : ∃ cs, base.toList = cs ++ ['/'] := by
  obtain h | h := List.mem_append.mp h
  · split at h
    · cases h
    · obtain rfl := List.mem_singleton.mp h
      exact withSlash_toList _
  · simp only [List.mem_cons, List.not_mem_nil, or_false] at h
    obtain rfl | rfl | rfl := h
    · exact ⟨"/var/lib/docker/volumes".toList, rfl⟩
    · exact ⟨"/var/lib/containers/storage/volumes".toList, rfl⟩
    · refine ⟨host.home.toList ++ "/.local/share/containers/storage/volumes".toList, ?_⟩
      rw [String.toList_append, List.append_assoc]
      rfl

theorem mem_candidates {name : VolumeName} {path : String} (h : getVolumePath settings host name = some path) :
    path ∈ candidates settings host name := by
  rw [getVolumePath] at h
  split at h
  next hfind =>
    cases h
    exact List.mem_of_find?_eq_some hfind
  · exact List.mem_of_head? h

theorem eq_of_getVolumePath {v w : VolumeName} {path : String} (hv : getVolumePath settings host v = some path)
    (hw : getVolumePath settings host w = some path) : v = w := by
  obtain ⟨b, hb, hpath⟩ := List.mem_map.mp (mem_candidates hv)
  obtain ⟨b', hb', hpath'⟩ := List.mem_map.mp (mem_candidates hw)
  obtain ⟨as, has⟩ := bases_toList hb
  obtain ⟨bs, hbs⟩ := bases_toList hb'
  have h := congrArg String.toList (hpath.trans hpath'.symm)
  simp only [String.toList_append, has, hbs, List.append_assoc, List.singleton_append] at h
  have hcancel : (as ++ '/' :: v.text.toList) ++ "/_data".toList = (bs ++ '/' :: w.text.toList) ++ "/_data".toList := by
    simpa using h
  have htext := eq_of_append_slash (fun c hc => ne_slash_of_isVolumeChar (v.valid c hc))
    (fun c hc => ne_slash_of_isVolumeChar (w.valid c hc)) (List.append_cancel_right hcancel)
  cases v
  cases w
  congr
  exact String.toList_inj.mp htext

theorem getVolumePath_isSome (settings : XfsSettings) (host : Host) (name : VolumeName) : ∃ path, getVolumePath settings host name = some path := by
  rw [getVolumePath]
  split
  · exact ⟨_, rfl⟩
  · apply Option.isSome_iff_exists.mp
    rw [List.isSome_head?, candidates, bases]
    simp

end Paths

variable {settings : XfsSettings} {host : Host}

theorem setQuota_true {w w' : World} {name : VolumeName} {bytesLimit : Int} {answers : Answers}
    (h : setQuota settings host w name bytesLimit answers = (true, w')) :
    ∃ path, getVolumePath settings host name = some path ∧
      w' =
        { projectsFile := updateLine w.projectsFile (entry (projectId settings name) path)
          projectOf := Function.update w.projectOf path (some (projectId settings name))
          limits := Function.update w.limits (host.mountpoint path)
            (Function.update (w.limits (host.mountpoint path)) (projectId settings name) bytesLimit) } := by
  obtain ⟨path, hpath⟩ := getVolumePath_isSome settings host name
  rw [setQuota, hpath] at h
  split at h
  · cases h
  · split at h
    · cases h
    · split at h
      next heq => cases heq
      next path' heq =>
        cases heq
        split at h
        · cases h
        · dsimp only at h
          split at h
          · cases h
          · split at h
            · cases h
            next hsetup =>
              split at h
              · cases h
              next hlimit =>
                cases h
                rw [World.limit, if_pos (answers.limit.honest (not_not.mp hlimit)), World.assign,
                  if_pos (answers.setup.honest (not_not.mp hsetup))]
                exact ⟨path, hpath, rfl⟩

theorem removeQuota_true {w w' : World} {name : VolumeName} {clear : Reply}
    (h : removeQuota settings host w name clear = (true, w')) :
    ∃ path, getVolumePath settings host name = some path ∧
      w'.projectsFile = removeLine w.projectsFile (idPrefix (projectId settings name)) ∧ w'.projectOf = w.projectOf ∧
      w'.limits =
        if clear.applied then
          Function.update w.limits (host.mountpoint path)
            (Function.update (w.limits (host.mountpoint path)) (projectId settings name) 0)
        else w.limits := by
  obtain ⟨path, hpath⟩ := getVolumePath_isSome settings host name
  rw [removeQuota, hpath] at h
  split at h
  · cases h
  · split at h
    · cases h
    · split at h
      next heq => cases heq
      next path' heq =>
        cases heq
        cases h
        refine ⟨path, hpath, ?_⟩
        rw [World.limit]
        split <;> exact ⟨rfl, rfl, rfl⟩

/-- Every directory has the project of its volume, once that has been asked for,
and every project the limit last asked for. -/
structure Kept (settings : XfsSettings) (host : Host) (s : Watched) : Prop where
  assigned : ∀ v, ∀ path ∈ getVolumePath settings host v,
    s.world.projectOf path = if v ∈ s.known then some (projectId settings v) else none
  limited : ∀ v ∈ s.known, ∀ path ∈ getVolumePath settings host v,
    s.world.limits (host.mountpoint path) (projectId settings v) = s.wanted v
  unasked : ∀ v ∉ s.known, s.wanted v = 0
  apart : ∀ v ∈ s.known, ∀ w ∈ s.known, v ≠ w → projectId settings v ≠ projectId settings w
  standing : ∀ v ∈ s.standing, v ∈ s.known
  recorded : ∀ v ∈ s.standing, ∀ path ∈ getVolumePath settings host v,
    ∃ lines ∈ s.world.projectsFile, entry (projectId settings v) path ∈ lines

theorem isolated_of_kept {s : Watched} (h : Kept settings host s) : Isolated settings host s where
  limited name := by
    obtain ⟨path, hpath⟩ := getVolumePath_isSome settings host name
    rw [limitInForce, hpath]
    dsimp only
    rw [h.assigned name path hpath]
    by_cases hknown : name ∈ s.known
    · rw [if_pos hknown]
      exact h.limited name hknown path hpath
    · rw [if_neg hknown]
      exact (h.unasked name hknown).symm
  distinct v hv w hw := h.apart v (h.standing v hv) w (h.standing w hw)
  recorded := h.recorded

theorem kept_fresh : Kept settings host fresh where
  assigned _ _ _ := rfl
  limited _ hv := by cases hv
  unasked _ _ := rfl
  apart _ hv := by cases hv
  standing _ hv := by cases hv
  recorded _ hv := by cases hv

theorem kept_setQuota {s : Watched} (hs : Kept settings host s) {name : VolumeName} {bytesLimit : Int} {answers : Answers}
    {w' : World} (hown : OwnProject settings s name)
    (h : setQuota settings host s.world name bytesLimit answers = (true, w')) :
    Kept settings host ⟨w', Function.update s.wanted name bytesLimit, name :: s.standing, name :: s.known⟩ := by
  obtain ⟨path, hpath, rfl⟩ := setQuota_true h
  have hother : ∀ v, v ≠ name → ∀ p ∈ getVolumePath settings host v, p ≠ path := by
    rintro v hv p hp rfl
    exact hv (eq_of_getVolumePath hp hpath)
  constructor
  · intro v p hp
    dsimp only
    by_cases hv : v = name
    · subst hv
      obtain rfl := Option.some.inj (hpath.symm.trans hp)
      rw [Function.update_self, if_pos List.mem_cons_self]
    · rw [Function.update_of_ne (hother v hv p hp), hs.assigned v p hp]
      simp only [List.mem_cons, hv, false_or]
  · intro v hv p hp
    dsimp only
    by_cases heq : v = name
    · subst heq
      obtain rfl := Option.some.inj (hpath.symm.trans hp)
      rw [Function.update_self, Function.update_self, Function.update_self]
    · have hknown := List.mem_of_ne_of_mem heq hv
      rw [Function.update_of_ne heq, ← hs.limited v hknown p hp]
      by_cases hmount : host.mountpoint p = host.mountpoint path
      · rw [hmount, Function.update_self, Function.update_of_ne (hown v hknown heq)]
      · rw [Function.update_of_ne hmount]
  · intro v hv
    obtain ⟨hne, hunknown⟩ := not_or.mp (List.mem_cons.not.mp hv)
    exact (Function.update_of_ne hne _ _).trans (hs.unasked v hunknown)
  · intro v hv w hw hne
    obtain rfl | hknown := List.mem_cons.mp hv
    · exact (hown w (List.mem_of_ne_of_mem hne.symm hw) hne.symm).symm
    · obtain rfl | hknown' := List.mem_cons.mp hw
      · exact hown v hknown hne
      · exact hs.apart v hknown w hknown' hne
  · intro v hv
    obtain rfl | hv := List.mem_cons.mp hv
    · exact List.mem_cons_self
    · exact List.mem_cons_of_mem _ (hs.standing v hv)
  · intro v hv p hp
    by_cases heq : v = name
    · subst heq
      obtain rfl := Option.some.inj (hpath.symm.trans hp)
      exact entry_mem_updateLine _ _ _
    · have hstanding := List.mem_of_ne_of_mem heq hv
      obtain ⟨lines, hlines, hentry⟩ := hs.recorded v hstanding p hp
      refine mem_updateLine path hlines hentry fun hstarts => ?_
      exact hown v (hs.standing v hstanding) heq (eq_of_startsWith hstarts).symm

theorem kept_removeQuota {s : Watched} (hs : Kept settings host s) {name : VolumeName} {clear : Reply} {w' : World}
    (hown : OwnProject settings s name) (hclear : clear.applied = true ∨ s.wanted name = 0)
    (h : removeQuota settings host s.world name clear = (true, w')) :
    Kept settings host ⟨w', Function.update s.wanted name 0, s.standing.filter (· ≠ name), s.known⟩ := by
  obtain ⟨path, hpath, hfile, hproject, hlimits⟩ := removeQuota_true h
  constructor
  · intro v p hp
    dsimp only
    rw [hproject]
    exact hs.assigned v p hp
  · intro v hv p hp
    have hbefore := hs.limited v hv p hp
    dsimp only
    rw [hlimits]
    by_cases heq : v = name
    · subst heq
      obtain rfl := Option.some.inj (hpath.symm.trans hp)
      rw [Function.update_self]
      split
      · rw [Function.update_self, Function.update_self]
      next happlied => exact hbefore.trans (hclear.resolve_left happlied)
    · rw [Function.update_of_ne heq, ← hbefore]
      split
      · by_cases hmount : host.mountpoint p = host.mountpoint path
        · rw [hmount, Function.update_self, Function.update_of_ne (hown v hv heq)]
        · rw [Function.update_of_ne hmount]
      · rfl
  · intro v hv
    by_cases heq : v = name
    · subst heq
      exact Function.update_self ..
    · exact (Function.update_of_ne heq _ _).trans (hs.unasked v hv)
  · exact hs.apart
  · intro v hv
    exact hs.standing v (List.mem_of_mem_filter hv)
  · intro v hv p hp
    obtain ⟨hstanding, hne⟩ := List.mem_filter.mp hv
    obtain ⟨lines, hlines, hentry⟩ := hs.recorded v hstanding p hp
    dsimp only
    rw [hfile]
    refine mem_removeLine hlines hentry fun hstarts => ?_
    exact hown v (hs.standing v hstanding) (of_decide_eq_true hne) (eq_of_startsWith hstarts).symm

theorem kept_step {s t : Watched} {event : Event} (hs : Kept settings host s) (hguard : Guarded settings s event)
    (h : step settings host s event = some t) : Kept settings host t := by
  cases event with
  | setQuota name bytesLimit answers =>
      rw [step] at h
      split at h
      next hset =>
        cases h
        exact kept_setQuota hs hguard hset
      · cases h
  | removeQuota name clear =>
      rw [step] at h
      split at h
      next hremove =>
        cases h
        exact kept_removeQuota hs hguard.1 hguard.2 hremove
      · cases h

/-- Where every operation is on a project of its own and limits are cleared when they
are removed, each volume is held to its own limit. -/
theorem isolated_of_guarded (settings : XfsSettings) (host : Host) (events : List Event)
    (h : AllSteps (step settings host) (Guarded settings) fresh events) :
    AllStates (step settings host) (Isolated settings host) fresh events :=
  (allStates_of_allSteps (fun _ _ _ hs hguard hstep => kept_step hs hguard hstep) kept_fresh h).mono
    fun _ hs => isolated_of_kept hs

def defaultSettings : XfsSettings := ⟨true, 10000, ""⟩

def docker : Host := ⟨true, "/root", fun _ => true, fun _ => "/"⟩

def done : Reply := ⟨0, true, fun _ => rfl⟩

def allDone : Answers := ⟨true, true, done, done⟩

theorem valid_first : ∀ c ∈ "data-124".toList, isVolumeChar c = true :=
  List.all_eq_true.mp (by decide)

theorem valid_second : ∀ c ∈ "data-711".toList, isVolumeChar c = true :=
  List.all_eq_true.mp (by decide)

theorem valid_other : ∀ c ∈ "data-1".toList, isVolumeChar c = true :=
  List.all_eq_true.mp (by decide)

def first : VolumeName := ⟨"data-124", valid_first⟩

def second : VolumeName := ⟨"data-711", valid_second⟩

def other : VolumeName := ⟨"data-1", valid_other⟩

/-- Two volumes with projects of their own. -/
theorem isolated_alone :
    AllStates (step defaultSettings docker) (Isolated defaultSettings docker) fresh
      [.setQuota first 1073741824 allDone, .setQuota other 2147483648 allDone, .removeQuota first done] := by
  have hdistinct : projectId defaultSettings first ≠ projectId defaultSettings other := by decide +kernel
  apply isolated_of_guarded
  apply AllSteps.cons rfl
  · intro v hv
    cases hv
  · apply AllSteps.cons rfl
    · intro v hv _
      rw [List.mem_singleton.mp hv]
      exact hdistinct
    · apply AllSteps.cons rfl
      · refine ⟨fun v hv hne => ?_, .inl rfl⟩
        rcases List.mem_cons.mp hv with rfl | hv
        · exact hdistinct.symm
        · exact absurd (List.mem_singleton.mp hv) hne
      · trivial

/-- Two names of volumes give one project, and the second limit holds for both. -/
theorem limit_overwritten :
    ¬ ∀ (settings : XfsSettings) (host : Host) (events : List Event),
      AllStates (step settings host) (Isolated settings host) fresh events := by
  intro h
  have hrun := (h defaultSettings docker [.setQuota first 1073741824 allDone, .setQuota second 2147483648 allDone]).mono
    fun _ hs => hs.limited first
  revert hrun
  decide +kernel

end NukeLab.XfsQuota
