import NukeLab.Dictionaries
import NukeLab.UuidTexts
import NukeLab.VolumeNames

namespace NukeLab.SpawnBinds

open Records State Dictionaries DockerNames VolumeNames

structure Volume where
  id : Uuid
  name : String
  accepted : NameChars name.toList

structure VolumeMount where
  volumeId : Option Uuid
  mountPath : String
  mode : String

/-- A toolchain image whose volume is prepared, and the paths of its manifest. -/
structure Toolchain where
  image : String
  toolMounts : List String
  manifestMounts : Option (List String)

def Toolchain.mounts (toolchain : Toolchain) : List String :=
  toolchain.manifestMounts.getD (if toolchain.toolMounts = [] then ["/opt/nuke"] else toolchain.toolMounts)

structure SpawnRequest where
  userId : Uuid
  username : String
  serverName : String
  volumeMounts : List VolumeMount
  toolchain : Option Toolchain

structure Site where
  volumes : List Volume
  containerUser : String
  serverAuth : Bool
  lxcfsSupport : Bool
  pathExists : String → Bool

structure Target where
  bind : String
  mode : String
  deriving DecidableEq

section Spawn

variable (site : Site) (request : SpawnRequest)

def homeMountPath : String := "/home/" ++ request.username

/-- The home of the fixed system user is the user's own. -/
def mountPath (path : String) : String :=
  if path = "/home/" ++ request.username ∨ path = "/home/" ++ site.containerUser then homeMountPath request else path

def dataVolume : String := dataVolumeName request.userId request.serverName "data"

def volumeName : Option Uuid → String
  | none => dataVolume request
  | some id =>
    match site.volumes.find? fun volume => volume.id = id with
    | some volume => volume.name
    | none => String.ofList ("nukelab-vol-".toList ++ (uuidText id).toList.take 8)

def mountMode (mode : String) : String := if mode = "read_only" then "ro" else "rw"

def mountVolumes (volumes : Dict String Target) (mount : VolumeMount) : Dict String Target :=
  volumes.put (volumeName site request mount.volumeId) ⟨mountPath site request mount.mountPath, mountMode mount.mode⟩

/-- Without a request the home directory gets a volume of its own. -/
def requestedVolumes : Dict String Target :=
  if request.volumeMounts = [] then Dict.empty.put (dataVolume request) ⟨homeMountPath request, "rw"⟩
  else request.volumeMounts.foldl (mountVolumes site request) Dict.empty

def secretsVolume : String := "nukelab-server-secrets"

def secretsTarget : Target := ⟨"/etc/nukelab/auth", "ro"⟩

def mountSecrets (volumes : Dict String Target) : Dict String Target :=
  if site.serverAuth then volumes.put secretsVolume secretsTarget else volumes

def toolVolumeName (toolchain : Toolchain) : String := makeToolchainVolumeName toolchain.image 240

def mountToolchain (volumes : Dict String Target) : Dict String Target :=
  match request.toolchain with
  | none => volumes
  | some toolchain => toolchain.mounts.foldl (fun volumes path => volumes.put (toolVolumeName toolchain) ⟨path, "ro"⟩) volumes

/-- The volumes that `spawn` hands to the driver. -/
def spawnVolumes : Dict String Target := mountToolchain request (mountSecrets site (requestedVolumes site request))

def bindText (host : String) (container : Target) : String := host ++ ":" ++ container.bind ++ ":" ++ container.mode

def procFiles : List String := ["meminfo", "cpuinfo", "diskstats", "loadavg", "stat", "swaps", "uptime"]

def lxcfsFiles : List String :=
  if site.lxcfsSupport then procFiles.filter fun file => site.pathExists ("/var/lib/lxcfs/proc/" ++ file) else []

def getLxcfsMounts : List String :=
  (lxcfsFiles site).map fun file => bindText ("/var/lib/lxcfs/proc/" ++ file) ⟨"/proc/" ++ file, "rw"⟩

/-- The `Binds` of the container's configuration. -/
def createContainer (volumes : Dict String Target) : List String :=
  (volumes.entries.map fun entry => bindText entry.1 entry.2) ++ getLxcfsMounts site

def binds : List String := createContainer site (spawnVolumes site request)

end Spawn

def parseBind (text : String) : Option (String × Target) :=
  match text.toList.splitOn ':' with
  | [source, path, mode] => some (String.ofList source, ⟨String.ofList path, String.ofList mode⟩)
  | _ => none

section Claims

variable (site : Site) (request : SpawnRequest)

def requested : List (String × Target) :=
  request.volumeMounts.map fun mount =>
    (volumeName site request mount.volumeId, ⟨mountPath site request mount.mountPath, mountMode mount.mode⟩)

def manifest : List (String × Target) :=
  request.toolchain.toList.flatMap fun toolchain => toolchain.mounts.map fun path => (toolVolumeName toolchain, ⟨path, "ro"⟩)

/-- Every mount asked for is among the binds, and no bind is writable at a path that was
asked for as read-only. -/
structure MountsAsked : Prop where
  requested : ∀ mount ∈ requested site request, ∃ text ∈ binds site request, parseBind text = some mount
  manifest : ∀ mount ∈ manifest request, ∃ text ∈ binds site request, parseBind text = some mount
  readOnly : ∀ mount ∈ request.volumeMounts, mount.mode = "read_only" → ∀ text ∈ binds site request, ∀ source target,
    parseBind text = some (source, target) → target.bind = mountPath site request mount.mountPath → target.mode = "ro"

/-- No path has a colon, no volume is to be mounted in two ways, and no path is to be
mounted both read-only and otherwise. -/
structure Separate : Prop where
  colons : ∀ mount ∈ requested site request ++ manifest request, ':' ∉ mount.2.bind.toList
  single : ∀ mount ∈ requested site request ++ manifest request, ∀ other ∈ requested site request ++ manifest request,
    other.1 = mount.1 → other = mount
  secrets : site.serverAuth → ∀ mount ∈ requested site request, mount.1 = secretsVolume → mount.2 = secretsTarget
  readOnly : ∀ mount ∈ request.volumeMounts, mount.mode = "read_only" →
    (∀ other ∈ request.volumeMounts, mountPath site request other.mountPath = mountPath site request mount.mountPath →
      other.mode = "read_only") ∧
    ∀ file ∈ lxcfsFiles site, "/proc/" ++ file ≠ mountPath site request mount.mountPath

end Claims

section Parsing

variable {host : String} {container : Target}

theorem length_splitOn {x : Char} {cs : List Char} (h : x ∈ cs) : 2 ≤ (cs.splitOn x).length := by
  obtain ⟨as, bs, rfl, -⟩ := List.eq_append_cons_of_mem h
  rw [List.splitOn_append_cons_self, List.length_append]
  have has := List.length_pos_iff.mpr (List.splitOn_ne_nil x as)
  have hbs := List.length_pos_iff.mpr (List.splitOn_ne_nil x bs)
  omega

theorem splitOn_bindText (hhost : ':' ∉ host.toList) (hmode : ':' ∉ container.mode.toList) :
    (bindText host container).toList.splitOn ':' =
      host.toList :: (container.bind.toList.splitOn ':' ++ [container.mode.toList]) := by
  have htext : (bindText host container).toList =
      host.toList ++ ':' :: (container.bind.toList ++ ':' :: container.mode.toList) := by
    simp [bindText]
  rw [htext, List.splitOn_append_cons_self_of_not_mem hhost, List.splitOn_append_cons_self, List.splitOn_eq_singleton hmode]

theorem parse_bindText (hhost : ':' ∉ host.toList) (hmode : ':' ∉ container.mode.toList) (hbind : ':' ∉ container.bind.toList) :
    parseBind (bindText host container) = some (host, container) := by
  rw [parseBind, splitOn_bindText hhost hmode, List.splitOn_eq_singleton hbind]
  simp

theorem of_parse_bindText {mount : String × Target} (hhost : ':' ∉ host.toList) (hmode : ':' ∉ container.mode.toList)
    (h : parseBind (bindText host container) = some mount) : ':' ∉ container.bind.toList ∧ mount = (host, container) := by
  have hbind : ':' ∉ container.bind.toList := by
    intro hmem
    have hlength := length_splitOn hmem
    rw [parseBind, splitOn_bindText hhost hmode] at h
    split at h
    · rename_i source path mode heq
      have hthree := congrArg List.length heq
      simp only [List.length_cons, List.length_append, List.length_nil] at hthree
      omega
    · cases h
  rw [parse_bindText hhost hmode hbind] at h
  exact ⟨hbind, (Option.some.inj h).symm⟩

end Parsing

section Names

variable {site : Site} {request : SpawnRequest} {name : String}

theorem not_mem_of_nameChars {c : Char} (h : NameChars name.toList) (halnum : c.isAlphanum = false) (hsep : isSeparator c = false) :
    c ∉ name.toList := by
  intro hc
  rcases h c hc with hc | hc
  · rw [halnum] at hc
    cases hc
  · rw [hsep] at hc
    cases hc

theorem dataVolume_nameChars (request : SpawnRequest) : NameChars (dataVolume request).toList := by
  rw [dataVolume, dataVolumeName]
  exact resourceName_nameChars "nukelab-server" (uuidText request.userId) request.serverName (some "data") 240

theorem volumeName_nameChars (site : Site) (request : SpawnRequest) (volumeId : Option Uuid) :
    NameChars (volumeName site request volumeId).toList := by
  cases volumeId with
  | none => exact dataVolume_nameChars request
  | some id =>
      rw [volumeName]
      split
      · rename_i volume _
        exact volume.accepted
      · rw [String.toList_ofList, ContainerNames.uuidText_toList]
        apply NameChars.append
        · exact nameChars_of_all rfl
        · intro c hc
          rcases UuidTexts.mem_uuidChars (List.mem_of_mem_take hc) with rfl | ⟨d, hd, rfl⟩
          · exact Or.inr rfl
          · exact Or.inl (hexDigit_alphanum hd)

theorem toolVolumeName_nameChars (toolchain : Toolchain) : NameChars (toolVolumeName toolchain).toList :=
  toolchainName_nameChars toolchain.image (by decide)

theorem secretsVolume_nameChars : NameChars secretsVolume.toList := nameChars_of_all (by decide)

theorem toolVolumeName_ne (toolchain : Toolchain) : toolVolumeName toolchain ≠ secretsVolume := by
  intro h
  have htext : ∃ base, (toolVolumeName toolchain).toList = base ++ '-' :: imageDigest toolchain.image := ⟨_, String.toList_ofList⟩
  obtain ⟨base, hbase⟩ := htext
  have hsecrets : secretsVolume.toList = "nukelab-s".toList ++ "erver-secrets".toList := rfl
  rw [h, hsecrets] at hbase
  have hlength : "erver-secrets".toList.length = ('-' :: imageDigest toolchain.image).length := by
    rw [List.length_cons, length_imageDigest]
    rfl
  have hlast := List.append_inj_right' hbase hlength
  exact absurd (List.cons.inj hlast).1 (by decide)

end Names

section Volumes

variable {site : Site} {request : SpawnRequest} {name : String} {target : Target} {mount : String × Target}

theorem requestedVolumes_eq (h : request.volumeMounts ≠ []) :
    requestedVolumes site request = Dict.empty.putAll (requested site request) := by
  rw [requestedVolumes, if_neg h, Dict.putAll, requested, List.foldl_map]
  rfl

theorem mountToolchain_eq (volumes : Dict String Target) : mountToolchain request volumes = volumes.putAll (manifest request) := by
  rw [mountToolchain, manifest]
  cases request.toolchain with
  | none => rfl
  | some toolchain =>
      rw [Option.toList_some, List.flatMap_singleton, Dict.putAll, List.foldl_map]

theorem requested_nil (h : request.volumeMounts = []) : requested site request = [] := by rw [requested, h, List.map_nil]

theorem get_cases (h : (spawnVolumes site request).get name = some target) :
    (name, target) ∈ requested site request ∨ (name, target) ∈ manifest request ∨
      (name = secretsVolume ∧ target = secretsTarget) ∨
      (request.volumeMounts = [] ∧ name = dataVolume request ∧ target = ⟨homeMountPath request, "rw"⟩) := by
  have hempty : ∀ name, (Dict.empty : Dict String Target).get name ≠ some target := fun _ hget => by cases hget
  rw [spawnVolumes, mountToolchain_eq] at h
  rcases Dict.mem_of_get_putAll h with hmem | h
  · exact Or.inr (Or.inl hmem)
  have hrequested : (requestedVolumes site request).get name = some target →
      (name, target) ∈ requested site request ∨
        (request.volumeMounts = [] ∧ name = dataVolume request ∧ target = ⟨homeMountPath request, "rw"⟩) := by
    intro hget
    by_cases hnil : request.volumeMounts = []
    · rw [requestedVolumes, if_pos hnil, Dict.get_put] at hget
      split at hget
      · exact Or.inr ⟨hnil, ‹_›, (Option.some.inj hget).symm⟩
      · exact absurd hget (hempty name)
    · rw [requestedVolumes_eq hnil] at hget
      exact Or.inl ((Dict.mem_of_get_putAll hget).resolve_right (hempty name))
  rw [mountSecrets] at h
  split at h
  · rw [Dict.get_put] at h
    split at h
    · exact Or.inr (Or.inr (Or.inl ⟨‹_›, (Option.some.inj h).symm⟩))
    · rcases hrequested h with hmem | hdefault
      · exact Or.inl hmem
      · exact Or.inr (Or.inr (Or.inr hdefault))
  · rcases hrequested h with hmem | hdefault
    · exact Or.inl hmem
    · exact Or.inr (Or.inr (Or.inr hdefault))

theorem name_requested (h : mount ∈ requested site request) : NameChars mount.1.toList := by
  obtain ⟨m, -, rfl⟩ := List.mem_map.mp h
  exact volumeName_nameChars site request m.volumeId

theorem of_mem_manifest (h : mount ∈ manifest request) : ∃ toolchain, mount.1 = toolVolumeName toolchain ∧ mount.2.mode = "ro" := by
  obtain ⟨toolchain, -, hmount⟩ := List.mem_flatMap.mp h
  obtain ⟨path, -, rfl⟩ := List.mem_map.mp hmount
  exact ⟨toolchain, rfl, rfl⟩

theorem name_manifest (h : mount ∈ manifest request) : NameChars mount.1.toList := by
  obtain ⟨toolchain, hname, -⟩ := of_mem_manifest h
  exact hname ▸ toolVolumeName_nameChars toolchain

theorem mode_requested (h : mount ∈ requested site request) : mount.2.mode = "ro" ∨ mount.2.mode = "rw" := by
  obtain ⟨m, -, rfl⟩ := List.mem_map.mp h
  by_cases hmode : m.mode = "read_only"
  · exact Or.inl (if_pos hmode)
  · exact Or.inr (if_neg hmode)

theorem plain_of_get (h : (spawnVolumes site request).get name = some target) :
    NameChars name.toList ∧ (target.mode = "ro" ∨ target.mode = "rw") := by
  rcases get_cases h with hmem | hmem | ⟨hname, htarget⟩ | ⟨-, hname, htarget⟩
  · exact ⟨name_requested hmem, mode_requested hmem⟩
  · obtain ⟨_, -, hmode⟩ := of_mem_manifest hmem
    exact ⟨name_manifest hmem, Or.inl hmode⟩
  · exact ⟨hname ▸ secretsVolume_nameChars, Or.inl (htarget ▸ rfl)⟩
  · exact ⟨hname ▸ dataVolume_nameChars request, Or.inr (htarget ▸ rfl)⟩

theorem not_mem_mode (h : target.mode = "ro" ∨ target.mode = "rw") : ':' ∉ target.mode.toList := by
  rcases h with h | h
  · rw [h]
    decide
  · rw [h]
    decide

theorem colon_not_mem (h : NameChars name.toList) : ':' ∉ name.toList := not_mem_of_nameChars h (by decide) (by decide)

theorem mem_procFiles {file : String} (h : file ∈ lxcfsFiles site) : file ∈ procFiles := by
  rw [lxcfsFiles] at h
  split at h
  · exact (List.mem_filter.mp h).1
  · cases h

theorem parse_lxcfs {file : String} (h : file ∈ lxcfsFiles site) :
    parseBind (bindText ("/var/lib/lxcfs/proc/" ++ file) ⟨"/proc/" ++ file, "rw"⟩) =
      some ("/var/lib/lxcfs/proc/" ++ file, ⟨"/proc/" ++ file, "rw"⟩) := by
  have hplain : ∀ file ∈ procFiles, ':' ∉ ("/var/lib/lxcfs/proc/" ++ file).toList ∧ ':' ∉ ("/proc/" ++ file).toList := by decide
  obtain ⟨hhost, hbind⟩ := hplain file (mem_procFiles h)
  exact parse_bindText hhost (not_mem_mode (Or.inr rfl)) hbind

theorem bind_cases {text : String} (htext : text ∈ binds site request) (hparse : parseBind text = some mount) :
    ((spawnVolumes site request).get mount.1 = some mount.2 ∧ ':' ∉ mount.2.bind.toList) ∨
      ∃ file ∈ lxcfsFiles site, mount = ("/var/lib/lxcfs/proc/" ++ file, ⟨"/proc/" ++ file, "rw"⟩) := by
  rcases List.mem_append.mp htext with htext | htext
  · obtain ⟨entry, hentry, rfl⟩ := List.mem_map.mp htext
    have hget : (spawnVolumes site request).get entry.1 = some entry.2 := Dict.get_eq_some_iff.mpr hentry
    obtain ⟨hname, hmode⟩ := plain_of_get hget
    obtain ⟨hcolon, rfl⟩ := of_parse_bindText (colon_not_mem hname) (not_mem_mode hmode) hparse
    exact Or.inl ⟨hget, hcolon⟩
  · obtain ⟨file, hfile, rfl⟩ := List.mem_map.mp htext
    rw [parse_lxcfs hfile] at hparse
    exact Or.inr ⟨file, hfile, (Option.some.inj hparse).symm⟩

theorem exists_bind_iff (hname : NameChars mount.1.toList) :
    (∃ text ∈ binds site request, parseBind text = some mount) ↔
      (spawnVolumes site request).get mount.1 = some mount.2 ∧ ':' ∉ mount.2.bind.toList := by
  constructor
  · rintro ⟨text, htext, hparse⟩
    rcases bind_cases htext hparse with h | ⟨file, hfile, rfl⟩
    · exact h
    · have hslash : '/' ∉ ("/var/lib/lxcfs/proc/" ++ file).toList := not_mem_of_nameChars hname (by decide) (by decide)
      exact absurd (by simp) hslash
  · rintro ⟨hget, hcolon⟩
    refine ⟨bindText mount.1 mount.2, ?_, ?_⟩
    · exact List.mem_append_left _ (List.mem_map.mpr ⟨mount, Dict.get_eq_some_iff.mp hget, rfl⟩)
    · exact parse_bindText (colon_not_mem hname) (not_mem_mode (plain_of_get hget).2) hcolon

theorem name_asked (h : mount ∈ requested site request ++ manifest request) : NameChars mount.1.toList := by
  rcases List.mem_append.mp h with h | h
  · exact name_requested h
  · exact name_manifest h

theorem get_of_separate (h : Separate site request) (hmount : mount ∈ requested site request ++ manifest request) :
    (spawnVolumes site request).get mount.1 = some mount.2 := by
  have hsingle : ∀ other ∈ requested site request ++ manifest request, other.1 = mount.1 → other.2 = mount.2 :=
    fun other hother hname => congrArg Prod.snd (h.single mount hmount other hother hname)
  rw [spawnVolumes, mountToolchain_eq]
  by_cases hlast : mount ∈ manifest request
  · exact Dict.get_putAll_of_agree hlast fun other hother => hsingle other (List.mem_append_right _ hother)
  have hmem := (List.mem_append.mp hmount).resolve_right hlast
  have hnone : ∀ other ∈ manifest request, other.1 ≠ mount.1 := fun other hother hname =>
    hlast (h.single mount hmount other (List.mem_append_right _ hother) hname ▸ hother)
  have hne : request.volumeMounts ≠ [] := by
    intro hnil
    rw [requested_nil hnil] at hmem
    cases hmem
  have hrequested : (requestedVolumes site request).get mount.1 = some mount.2 := by
    rw [requestedVolumes_eq hne]
    exact Dict.get_putAll_of_agree hmem fun other hother => hsingle other (List.mem_append_left _ hother)
  rw [Dict.get_putAll_of_not_mem hnone, mountSecrets]
  split
  · rename_i hauth
    rw [Dict.get_put]
    split
    · rename_i hname
      rw [h.secrets hauth mount hmem hname]
    · exact hrequested
  · exact hrequested

theorem get_secrets (h : site.serverAuth) : (spawnVolumes site request).get secretsVolume = some secretsTarget := by
  have hnone : ∀ other ∈ manifest request, other.1 ≠ secretsVolume := by
    intro other hother
    obtain ⟨toolchain, hname, -⟩ := of_mem_manifest hother
    exact hname ▸ toolVolumeName_ne toolchain
  rw [spawnVolumes, mountToolchain_eq, Dict.get_putAll_of_not_mem hnone, mountSecrets, if_pos h, Dict.get_put, if_pos rfl]

theorem mountsAsked_of_separate (h : Separate site request) : MountsAsked site request := by
  have hasked : ∀ mount ∈ requested site request ++ manifest request, ∃ text ∈ binds site request, parseBind text = some mount :=
    fun mount hmount => (exists_bind_iff (name_asked hmount)).mpr ⟨get_of_separate h hmount, h.colons mount hmount⟩
  constructor
  · exact fun mount hmount => hasked mount (List.mem_append_left _ hmount)
  · exact fun mount hmount => hasked mount (List.mem_append_right _ hmount)
  · intro mount hmount hmode text htext source target hparse hpath
    obtain ⟨hothers, hfiles⟩ := h.readOnly mount hmount hmode
    rcases bind_cases htext hparse with ⟨hget, -⟩ | ⟨file, hfile, heq⟩
    · rcases get_cases hget with hmem | hmem | ⟨-, rfl⟩ | ⟨hnil, -⟩
      · obtain ⟨other, hother, heq⟩ := List.mem_map.mp hmem
        obtain ⟨-, rfl⟩ := Prod.mk.inj heq
        exact if_pos (hothers other hother hpath)
      · exact (of_mem_manifest hmem).choose_spec.2
      · rfl
      · rw [hnil] at hmount
        cases hmount
    · obtain ⟨-, rfl⟩ := Prod.mk.inj heq
      exact absurd hpath (hfiles file hfile)

theorem writable : "rw" ≠ "ro" := by decide

theorem separate_of_mountsAsked (h : MountsAsked site request) : Separate site request := by
  have hasked : ∀ mount ∈ requested site request ++ manifest request,
      (spawnVolumes site request).get mount.1 = some mount.2 ∧ ':' ∉ mount.2.bind.toList := by
    intro mount hmount
    apply (exists_bind_iff (name_asked hmount)).mp
    rcases List.mem_append.mp hmount with hmem | hmem
    · exact h.requested mount hmem
    · exact h.manifest mount hmem
  constructor
  · exact fun mount hmount => (hasked mount hmount).2
  · intro mount hmount other hother hname
    have hsame := (hasked other hother).1
    rw [hname, (hasked mount hmount).1] at hsame
    exact Prod.ext hname (Option.some.inj hsame).symm
  · intro hauth mount hmount hname
    have hsame := (hasked mount (List.mem_append_left _ hmount)).1
    rw [hname, get_secrets hauth] at hsame
    exact (Option.some.inj hsame).symm
  · intro mount hmount hmode
    constructor
    · intro other hother hpath
      obtain ⟨text, htext, hparse⟩ := h.requested _ (List.mem_map_of_mem hother)
      have hro := h.readOnly mount hmount hmode text htext _ _ hparse hpath
      by_contra hwritable
      rw [show mountMode other.mode = "rw" from if_neg hwritable] at hro
      exact writable hro
    · intro file hfile hpath
      have htext := List.mem_append_right (((spawnVolumes site request).entries).map fun entry => bindText entry.1 entry.2)
        (List.mem_map_of_mem hfile : _ ∈ getLxcfsMounts site)
      have hro := h.readOnly mount hmount hmode _ htext _ _ (parse_lxcfs hfile) hpath
      exact writable hro

end Volumes

/-- A spawn mounts all that was asked for, and nothing writable in the place of what was
asked for as read-only, exactly where the mounts are separate. -/
theorem mountsAsked_iff (site : Site) (request : SpawnRequest) : MountsAsked site request ↔ Separate site request :=
  ⟨separate_of_mountsAsked, mountsAsked_of_separate⟩

def scratch : Volume := ⟨1, "nukelab-vol-ada-00000001", nameChars_of_all (by decide)⟩

def bareHost : Site := ⟨[scratch], "nukelab", false, false, fun _ => false⟩

def twoPaths : SpawnRequest := ⟨7, "ada", "lab", [⟨some 1, "/data", "read_only"⟩, ⟨some 1, "/work", "read_write"⟩], none⟩

/-- The second path of a volume takes the first one's place. -/
theorem second_path_only : ¬ ∀ site request, MountsAsked site request := by
  intro h
  obtain ⟨text, htext, hparse⟩ := (h bareHost twoPaths).requested ("nukelab-vol-ada-00000001", ⟨"/data", "ro"⟩) (by decide)
  have hbinds : binds bareHost twoPaths = ["nukelab-vol-ada-00000001:/work:rw"] := by decide
  rw [hbinds, List.mem_singleton] at htext
  subst htext
  revert hparse
  decide

end NukeLab.SpawnBinds
