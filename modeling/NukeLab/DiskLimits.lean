import NukeLab.SizeParsers

namespace NukeLab.DiskLimits

open SizeParsers

inductive Status
  | active
  | archived
  | deleting
  | overLimit

structure Volume where
  name : String
  displayName : String
  ownerId : String
  sizeBytes : Option Int
  maxSizeBytes : Option Int
  status : Status

abbrev Volumes := String → Option Volume

inductive Source
  | xfs
  | du

structure Measured where
  bytes : Int
  source : Source

def humanSizeFrom : List String → ℚ → String
  | [], sizeBytes => Double.fixed sizeBytes ++ " PB"
  | unit :: units, sizeBytes =>
    if sizeBytes < 1024 then (if sizeBytes < 0 then "-" else "") ++ Double.fixed |sizeBytes| ++ " " ++ unit
    else humanSizeFrom units (Double.nearest sizeBytes / 1024)

def humanSize (sizeBytes : Int) : String := humanSizeFrom ["B", "KB", "MB", "GB", "TB"] sizeBytes

namespace Volume

variable (v : Volume)

def title : String := if v.displayName = "" then v.name else v.displayName

def capacity : Int := v.maxSizeBytes.getD (v.sizeBytes.getD 0)

def overPlan (planBytes : Int) : Bool := v.sizeBytes.getD 0 ≠ 0 ∧ planBytes < v.sizeBytes.getD 0

/-- The maximum that the size is above; a maximum of zero is none. -/
def exceeded (sizeBytes : Int) : Option Int := v.maxSizeBytes.filter fun limit => limit ≠ 0 ∧ limit < sizeBytes

end Volume

structure Excess where
  totalSize : Int
  planLimit : Int
  overBy : Int
deriving DecidableEq

inductive QuotaCheck
  | allowed
  | refused (reason : String) (excess : Option Excess)
deriving DecidableEq

/-- The tests on the volumes in the order of their ids, and on each of them once. -/
def testVolumes (planDiskLimit : String) (planBytes : Int) (inOrder volumes : List Volume) : QuotaCheck :=
  match inOrder.find? fun v => v.overPlan planBytes with
  | some v =>
    let sizeBytes := v.sizeBytes.getD 0
    .refused ("Volume '" ++ v.title ++ "' (" ++ humanSize sizeBytes ++ ") exceeds plan limit (" ++ planDiskLimit ++
      "). Free up " ++ humanSize (sizeBytes - planBytes) ++ " or upgrade your plan.") none
  | none =>
    let totalBytes := (volumes.map Volume.capacity).sum
    if planBytes < totalBytes then
      .refused ("Total mounted volume capacity (" ++ humanSize totalBytes ++ ") exceeds plan limit (" ++ planDiskLimit ++
        "). Free up " ++ humanSize (totalBytes - planBytes) ++ " or upgrade your plan.")
        (some ⟨totalBytes, planBytes, totalBytes - planBytes⟩)
    else .allowed

section Measuring

variable (measure : String → Option Measured)

def resized (v : Volume) : Volume := { v with sizeBytes := ((measure v.name).map Measured.bytes).or v.sizeBytes }

def updateSize (volumes : Volumes) (vid : String) : Volumes := Function.update volumes vid ((volumes vid).map (resized measure))

/-- `none` is a limit that does not parse, which raises. -/
def checkVolumesQuota (volumes : Volumes) (volumeIds : List String) (planDiskLimit : Option String) :
    Option (QuotaCheck × Volumes) :=
  let missing := volumeIds.dedup.filter fun vid => (volumes vid).isNone
  if missing ≠ [] then
    some (.refused ("Volume(s) not found: " ++ ", ".intercalate (missing.mergeSort (· ≤ ·))) none, volumes)
  else
    let volumes := volumeIds.foldl (updateSize measure) volumes
    planDiskLimit.bind fun text => (VolumeService.parseMemory text).map fun planBytes =>
      (testVolumes text planBytes (volumeIds.filterMap volumes) (volumeIds.dedup.filterMap volumes), volumes)

structure NearLimit where
  userId : String
  volumeName : String
  usagePct : Int

structure Turn where
  volumes : Volumes
  shouldStop : Bool
  overLimitVolumes : List String
  warned : List NearLimit
  xfsUsed : Nat
  duUsed : Nat

namespace Turn

variable (t : Turn)

def counted : Source → Turn
  | .xfs => { t with xfsUsed := t.xfsUsed + 1 }
  | .du => { t with duUsed := t.duUsed + 1 }

def stored (vid : String) (v : Volume) : Turn := { t with volumes := Function.update t.volumes vid (some v) }

def overLimit (vid : String) (v : Volume) (sizeBytes : Int) (limit : String) : Turn :=
  let t := t.stored vid { v with status := .overLimit }
  { t with
    shouldStop := true
    overLimitVolumes := t.overLimitVolumes ++ ["'" ++ v.title ++ "' (" ++ humanSize sizeBytes ++ " / " ++ limit ++ ")"] }

/-- From 90 % of the maximum, or of the plan's limit where there is none. A notification
that raises, and ends the pass, is left out. -/
def nearLimit (v : Volume) (sizeBytes planBytes : Int) : Turn :=
  let limitForWarning := (v.maxSizeBytes.filter fun limit => limit ≠ 0).getD planBytes
  match ((Binary64.Value.ofRat (sizeBytes / limitForWarning)).scale 100).toInt with
  | some usagePct =>
    if 0 < limitForWarning ∧ 90 ≤ usagePct then { t with warned := t.warned ++ [⟨v.ownerId, v.title, usagePct⟩] } else t
  | none => t

end Turn

def inspect (planBytes : Int) (diskLimit : Option String) (t : Turn) (vid : String) : Turn :=
  match t.volumes vid with
  | none => t
  | some volume =>
    match measure volume.name with
    | none => t
    | some m =>
      let volume := { volume with sizeBytes := some m.bytes }
      let t := (t.counted m.source).stored vid volume
      match volume.exceeded m.bytes with
      | some limit => t.overLimit vid volume m.bytes (humanSize limit)
      | none =>
        if planBytes < m.bytes then t.overLimit vid volume m.bytes (diskLimit.getD "None")
        else t.nearLimit volume m.bytes planBytes

structure ServerRow where
  id : String
  diskLimit : Option String
  volumeMounts : List String
deriving DecidableEq

/-- No limit counts as 0 bytes here. -/
def planBytesOf : Option String → Option Int
  | none => some 0
  | some text => if text = "" then some 0 else VolumeService.parseMemory text

def turn (volumes : Volumes) (server : ServerRow) : Option Turn :=
  (planBytesOf server.diskLimit).map fun planBytes =>
    server.volumeMounts.foldl (inspect measure planBytes server.diskLimit) ⟨volumes, false, [], [], 0, 0⟩

/-- The servers that a pass decides to stop. A plan's limit that does not parse ends the pass. -/
def enforceVolumeQuotas : List ServerRow → Volumes → List ServerRow
  | [], _ => []
  | server :: servers, volumes =>
    match turn measure volumes server with
    | none => []
    | some t => (if t.shouldStop then [server] else []) ++ enforceVolumeQuotas servers t.volumes

def Refused (check : Option (QuotaCheck × Volumes)) : Prop :=
  ∃ reason excess after, check = some (.refused reason excess, after)

/-- A server that the check lets start is stopped by no pass over any servers that
measures the same, and the check refuses one that a pass stops. -/
def Agree (volumes : Volumes) (server : ServerRow) : Prop :=
  let check := checkVolumesQuota measure volumes server.volumeMounts server.diskLimit
  ∀ servers, (∀ after, check = some (.allowed, after) → server ∉ enforceVolumeQuotas measure servers volumes) ∧
    (server ∈ enforceVolumeQuotas measure servers volumes → Refused check)

/-- That the volumes are over the limit, one alone or all with their capacities. -/
def OverLimit (volumes : Volumes) (vids : List String) (planBytes : Int) : Prop :=
  (∃ vid ∈ vids, ∃ v ∈ volumes vid, (resized measure v).overPlan planBytes) ∨
    planBytes < ((vids.dedup.filterMap volumes).map fun v => (resized measure v).capacity).sum

def EachMeasured (volumes : Volumes) (vids : List String) (P : Volume → Int → Prop) : Prop :=
  ∀ vid ∈ vids, ∀ v ∈ volumes vid, ∀ m ∈ measure v.name, P v m.bytes

def Volume.limits (v : Volume) : String × Option Int := (v.name, v.maxSizeBytes)

def SameLimits (a b : Volumes) : Prop := ∀ vid, (a vid).map Volume.limits = (b vid).map Volume.limits

def Violates (planBytes : Int) (v : Volume) : Prop :=
  ∃ m ∈ measure v.name, v.exceeded m.bytes ≠ none ∨ planBytes < m.bytes

variable {measure} {volumes other : Volumes} {planBytes bytes : Int} {limit : Option String} {t : Turn} {vid : String}
  {vids : List String} {server : ServerRow}

namespace SameLimits

theorem refl (a : Volumes) : SameLimits a a := fun _ => rfl

theorem trans {a b c : Volumes} (h : SameLimits a b) (h' : SameLimits b c) : SameLimits a c :=
  fun vid => (h vid).trans (h' vid)

theorem symm {a b : Volumes} (h : SameLimits a b) : SameLimits b a := fun vid => (h vid).symm

theorem update {v v' : Volume} (hv : volumes vid = some v) (h : v'.limits = v.limits) :
    SameLimits (Function.update volumes vid (some v')) volumes := by
  intro i
  by_cases hi : i = vid
  · subst hi
    rw [Function.update_self, hv, Option.map_some, Option.map_some, h]
  · rw [Function.update_of_ne hi]

theorem violates (h : SameLimits volumes other) (hviolates : ∃ v ∈ volumes vid, Violates measure planBytes v) :
    ∃ v ∈ other vid, Violates measure planBytes v := by
  obtain ⟨v, hv, m, hm, hover⟩ := hviolates
  have hsame := h vid
  rw [Option.mem_def.mp hv, Option.map_some] at hsame
  obtain ⟨w, hw, hlimits⟩ := Option.map_eq_some_iff.mp hsame.symm
  obtain ⟨hname, hmax⟩ := Prod.mk.inj hlimits
  refine ⟨w, hw, m, hname ▸ hm, ?_⟩
  rwa [Volume.exceeded, hmax, ← Volume.exceeded]

end SameLimits

theorem nearLimit_spec (v : Volume) (sizeBytes : Int) :
    (t.nearLimit v sizeBytes planBytes).volumes = t.volumes ∧
      (t.nearLimit v sizeBytes planBytes).shouldStop = t.shouldStop := by
  rw [Turn.nearLimit]
  split
  · split <;> exact ⟨rfl, rfl⟩
  · exact ⟨rfl, rfl⟩

theorem counted_spec (source : Source) :
    (t.counted source).volumes = t.volumes ∧ (t.counted source).shouldStop = t.shouldStop := by
  cases source <;> exact ⟨rfl, rfl⟩

theorem overLimit_spec {v : Volume} (hv : t.volumes vid = some v) (sizeBytes : Int) (text : String) :
    SameLimits (t.overLimit vid v sizeBytes text).volumes t.volumes ∧ (t.overLimit vid v sizeBytes text).shouldStop = true :=
  ⟨SameLimits.update hv rfl, rfl⟩

theorem inspect_measured {v : Volume} {m : Measured} (hv : t.volumes vid = some v) (hm : measure v.name = some m) :
    ∃ t' : Turn, SameLimits t'.volumes t.volumes ∧ t'.shouldStop = t.shouldStop ∧
      t'.volumes vid = some { v with sizeBytes := some m.bytes } ∧
      inspect measure planBytes limit t vid =
        match v.exceeded m.bytes with
        | some own => t'.overLimit vid { v with sizeBytes := some m.bytes } m.bytes (humanSize own)
        | none =>
          if planBytes < m.bytes then
            t'.overLimit vid { v with sizeBytes := some m.bytes } m.bytes (limit.getD "None")
          else t'.nearLimit { v with sizeBytes := some m.bytes } m.bytes planBytes := by
  obtain ⟨hvolumes, hstop⟩ := counted_spec (t := t) m.source
  refine ⟨(t.counted m.source).stored vid { v with sizeBytes := some m.bytes }, ?_, hstop, ?_, ?_⟩
  · rw [Turn.stored, hvolumes]
    exact SameLimits.update hv rfl
  · exact Function.update_self ..
  · rw [inspect, hv]
    simp only [hm]
    rfl

theorem inspect_spec : SameLimits (inspect measure planBytes limit t vid).volumes t.volumes ∧
    ((inspect measure planBytes limit t vid).shouldStop ↔ t.shouldStop ∨ ∃ v ∈ t.volumes vid, Violates measure planBytes v) := by
  cases hv : t.volumes vid with
  | none =>
      rw [inspect, hv]
      simp [SameLimits.refl]
  | some v =>
      cases hm : measure v.name with
      | none =>
          rw [inspect, hv]
          simp [SameLimits.refl, Violates, hm]
      | some m =>
          obtain ⟨t', hsame, hstop, hstored, hinspect⟩ :=
            @inspect_measured _ planBytes limit _ _ _ _ hv hm
          rw [hinspect]
          cases hown : v.exceeded m.bytes with
          | some own =>
              obtain ⟨hover, htrue⟩ := overLimit_spec hstored m.bytes (humanSize own)
              exact ⟨hover.trans hsame, by simp [htrue, Violates, hm, hown]⟩
          | none =>
              by_cases hplan : planBytes < m.bytes
              · obtain ⟨hover, htrue⟩ := overLimit_spec hstored m.bytes (limit.getD "None")
                simp only [if_pos hplan]
                exact ⟨hover.trans hsame, by simp [htrue, Violates, hm, hplan]⟩
              · obtain ⟨hvolumes, hsameStop⟩ := @nearLimit_spec planBytes t'
                  { v with sizeBytes := some m.bytes } m.bytes
                simp only [if_neg hplan, hvolumes, hsameStop, hstop]
                exact ⟨hsame, by simp [Violates, hm, hown, hplan]⟩

/-- What all of a server's volumes do to it, by the same for one of them. -/
theorem inspectEach_spec : SameLimits (vids.foldl (inspect measure planBytes limit) t).volumes t.volumes ∧
    ((vids.foldl (inspect measure planBytes limit) t).shouldStop ↔
      t.shouldStop ∨ ∃ vid ∈ vids, ∃ v ∈ t.volumes vid, Violates measure planBytes v) := by
  induction vids generalizing t with
  | nil => simp [SameLimits.refl]
  | cons vid vids ih =>
      obtain ⟨hsame, hstop⟩ := @inspect_spec measure planBytes limit t vid
      obtain ⟨hrest, hlast⟩ := ih (t := inspect measure planBytes limit t vid)
      refine ⟨hrest.trans hsame, ?_⟩
      rw [List.foldl_cons, hlast, hstop, or_assoc, List.exists_mem_cons_iff]
      have hlater : (∃ vid' ∈ vids, ∃ v ∈ (inspect measure planBytes limit t vid).volumes vid', Violates measure planBytes v) ↔
          ∃ vid' ∈ vids, ∃ v ∈ t.volumes vid', Violates measure planBytes v := by
        constructor
        · rintro ⟨vid', hmem, h⟩
          exact ⟨vid', hmem, hsame.violates h⟩
        · rintro ⟨vid', hmem, h⟩
          exact ⟨vid', hmem, hsame.symm.violates h⟩
      rw [hlater]

def Stopped (measure : String → Option Measured) (volumes : Volumes) (server : ServerRow) : Prop :=
  ∃ bytes ∈ planBytesOf server.diskLimit, ∃ vid ∈ server.volumeMounts, ∃ v ∈ volumes vid, Violates measure bytes v

theorem SameLimits.stopped (h : SameLimits volumes other) (hstopped : Stopped measure volumes server) :
    Stopped measure other server := by
  obtain ⟨bytes, hbytes, vid, hvid, hviolates⟩ := hstopped
  exact ⟨bytes, hbytes, vid, hvid, h.violates hviolates⟩

theorem turn_spec (h : turn measure volumes server = some t) :
    SameLimits t.volumes volumes ∧ (t.shouldStop ↔ Stopped measure volumes server) := by
  obtain ⟨bytes, hbytes, hturn⟩ := Option.map_eq_some_iff.mp h
  have hspec := @inspectEach_spec measure bytes server.diskLimit
    ⟨volumes, false, [], [], 0, 0⟩ server.volumeMounts
  rw [hturn] at hspec
  refine ⟨hspec.1, ?_⟩
  simp [hspec.2, Stopped, hbytes]

theorem stopped_of_mem {servers : List ServerRow} (h : server ∈ enforceVolumeQuotas measure servers volumes) :
    Stopped measure volumes server := by
  induction servers generalizing volumes with
  | nil => cases h
  | cons first servers ih =>
      rw [enforceVolumeQuotas] at h
      cases hturn : turn measure volumes first with
      | none =>
          rw [hturn] at h
          cases h
      | some t =>
          obtain ⟨hsame, hstop⟩ := turn_spec hturn
          rw [hturn] at h
          rcases List.mem_append.mp h with hfirst | hlater
          · split at hfirst
            · rename_i htrue
              rw [List.mem_singleton.mp hfirst]
              exact hstop.mp htrue
            · cases hfirst
          · exact hsame.stopped (ih hlater)

theorem mem_alone (h : Stopped measure volumes server) : server ∈ enforceVolumeQuotas measure [server] volumes := by
  obtain ⟨bytes, hbytes, -⟩ := id h
  cases hturn : turn measure volumes server with
  | none =>
      rw [turn, Option.mem_def.mp hbytes] at hturn
      cases hturn
  | some t =>
      rw [enforceVolumeQuotas, hturn]
      simp [(turn_spec hturn).2.mpr h]

theorem resized_resized (v : Volume) : resized measure (resized measure v) = resized measure v := by
  have hsize : ∀ new old : Option Int, new.or (new.or old) = new.or old := by
    intro new old
    cases new <;> rfl
  rw [resized, resized, hsize]

theorem updateEach_apply (i : String) :
    vids.foldl (updateSize measure) volumes i = if i ∈ vids then (volumes i).map (resized measure) else volumes i := by
  induction vids generalizing volumes with
  | nil => rfl
  | cons vid vids ih =>
      rw [List.foldl_cons, ih, updateSize]
      by_cases hi : i = vid
      · subst hi
        rw [Function.update_self, if_pos List.mem_cons_self, Option.map_map]
        have hidem : resized measure ∘ resized measure = resized measure := funext resized_resized
        split <;> simp only [hidem]
      · rw [Function.update_of_ne hi]
        simp only [List.mem_cons, hi, false_or]

theorem filterMap_updateEach {picked : List String} (h : ∀ vid ∈ picked, vid ∈ vids) :
    picked.filterMap (vids.foldl (updateSize measure) volumes) = (picked.filterMap volumes).map (resized measure) := by
  rw [List.map_filterMap]
  apply List.filterMap_congr
  intro vid hvid
  rw [updateEach_apply, if_pos (h vid hvid)]

theorem refused_of_missing (h : ∃ vid ∈ vids, volumes vid = none) (limit : Option String) :
    Refused (checkVolumesQuota measure volumes vids limit) := by
  obtain ⟨vid, hvid, hnone⟩ := h
  have hmissing : (vids.dedup.filter fun vid => (volumes vid).isNone) ≠ [] :=
    List.ne_nil_of_mem (List.mem_filter.mpr ⟨List.mem_dedup.mpr hvid, by rw [hnone]; rfl⟩)
  rw [checkVolumesQuota, if_pos hmissing]
  exact ⟨_, _, _, rfl⟩

theorem testVolumes_refused {text : String} {inOrder each : List Volume} :
    (∃ reason excess, testVolumes text bytes inOrder each = .refused reason excess) ↔
      (∃ v ∈ inOrder, v.overPlan bytes) ∨ bytes < (each.map Volume.capacity).sum := by
  rw [testVolumes]
  cases hfind : inOrder.find? fun v => v.overPlan bytes with
  | some v =>
      have hover := List.find?_some hfind
      exact iff_of_true ⟨_, _, rfl⟩ (Or.inl ⟨v, List.mem_of_find?_eq_some hfind, hover⟩)
  | none =>
      have hnone : ¬ ∃ v ∈ inOrder, v.overPlan bytes := by
        rintro ⟨v, hv, hover⟩
        exact List.find?_eq_none.mp hfind v hv hover
      simp only [hnone, false_or]
      by_cases htotal : bytes < (each.map Volume.capacity).sum
      · simp [htotal]
      · simp [htotal]

theorem refused_iff (h : ¬ ∃ vid ∈ vids, volumes vid = none) (limit : Option String) :
    Refused (checkVolumesQuota measure volumes vids limit) ↔
      ∃ text ∈ limit, ∃ bytes ∈ VolumeService.parseMemory text, OverLimit measure volumes vids bytes := by
  have hpresent : ¬ (vids.dedup.filter fun vid => (volumes vid).isNone) ≠ [] := by
    rw [not_not, List.filter_eq_nil_iff]
    intro vid hvid hnone
    exact h ⟨vid, List.mem_dedup.mp hvid, Option.isNone_iff_eq_none.mp hnone⟩
  have hover : ∀ text bytes, (∃ reason excess, testVolumes text bytes (vids.filterMap (vids.foldl (updateSize measure) volumes))
      (vids.dedup.filterMap (vids.foldl (updateSize measure) volumes)) = .refused reason excess) ↔
        OverLimit measure volumes vids bytes := by
    intro text bytes
    rw [testVolumes_refused, filterMap_updateEach fun vid hvid => hvid,
      filterMap_updateEach fun vid hvid => List.mem_dedup.mp hvid, List.map_map, OverLimit]
    apply or_congr _ Iff.rfl
    simp only [List.mem_map, List.mem_filterMap]
    constructor
    · rintro ⟨-, ⟨v, ⟨vid, hvid, hv⟩, rfl⟩, hplan⟩
      exact ⟨vid, hvid, v, hv, hplan⟩
    · rintro ⟨vid, hvid, v, hv, hplan⟩
      exact ⟨_, ⟨v, ⟨vid, hvid, hv⟩, rfl⟩, hplan⟩
  rw [checkVolumesQuota, if_neg hpresent]
  constructor
  · rintro ⟨reason, excess, after, hrefused⟩
    obtain ⟨text, htext, hsome⟩ := Option.bind_eq_some_iff.mp hrefused
    obtain ⟨bytes, hbytes, hpair⟩ := Option.map_eq_some_iff.mp hsome
    exact ⟨text, htext, bytes, hbytes, (hover text bytes).mp ⟨reason, excess, (Prod.mk.inj hpair).1⟩⟩
  · rintro ⟨text, htext, bytes, hbytes, h⟩
    obtain ⟨reason, excess, hrefused⟩ := (hover text bytes).mpr h
    refine ⟨reason, excess, vids.foldl (updateSize measure) volumes, ?_⟩
    rw [Option.mem_def.mp htext, Option.bind_some, Option.mem_def.mp hbytes, Option.map_some, hrefused]

theorem agree_iff_refused : Agree measure volumes server ↔
    (Stopped measure volumes server → Refused (checkVolumesQuota measure volumes server.volumeMounts server.diskLimit)) := by
  constructor
  · intro h hstopped
    exact (h [server]).2 (mem_alone hstopped)
  · intro h servers
    refine ⟨?_, fun hmem => h (stopped_of_mem hmem)⟩
    intro after hallowed hmem
    obtain ⟨reason, excess, after', hrefused⟩ := h (stopped_of_mem hmem)
    rw [hallowed] at hrefused
    cases hrefused

theorem not_stopped_iff (h : planBytesOf server.diskLimit = some bytes) : ¬ Stopped measure volumes server ↔
    EachMeasured measure volumes server.volumeMounts fun v sizeBytes => v.exceeded sizeBytes = none ∧ sizeBytes ≤ bytes := by
  rw [Stopped, h]
  constructor
  · intro hnot vid hvid v hv m hm
    constructor
    · by_contra hown
      exact hnot ⟨bytes, rfl, vid, hvid, v, hv, m, hm, Or.inl hown⟩
    · by_contra hplan
      exact hnot ⟨bytes, rfl, vid, hvid, v, hv, m, hm, Or.inr (not_le.mp hplan)⟩
  · rintro heach ⟨bytes', hbytes, vid, hvid, v, hv, m, hm, hover⟩
    obtain rfl : bytes = bytes' := Option.some.inj hbytes
    obtain ⟨hown, hplan⟩ := heach vid hvid v hv m hm
    rcases hover with hover | hover
    · exact hover hown
    · exact absurd hplan (not_le.mpr hover)

theorem le_of_not_overLimit {v : Volume} {m : Measured} (h : ¬ OverLimit measure volumes vids bytes) (hvid : vid ∈ vids)
    (hv : v ∈ volumes vid) (hm : m ∈ measure v.name) : m.bytes = 0 ∨ m.bytes ≤ bytes := by
  have hsize : (resized measure v).sizeBytes.getD 0 = m.bytes := by
    rw [resized, Option.mem_def.mp hm]
    rfl
  by_contra hover
  push Not at hover
  apply h
  refine Or.inl ⟨vid, hvid, v, hv, ?_⟩
  rw [Volume.overPlan, hsize]
  exact decide_eq_true hover

/-- Without a limit the check raises and the pass stops what holds any data; with one
the check does not look at the volumes' own maxima. -/
theorem limits_agree_iff : Agree measure volumes server ↔
    (∃ vid ∈ server.volumeMounts, volumes vid = none) ∨
      if server.diskLimit.getD "" = "" then
        EachMeasured measure volumes server.volumeMounts fun v sizeBytes => v.exceeded sizeBytes = none ∧ sizeBytes ≤ 0
      else
        ∀ bytes ∈ VolumeService.parseMemory (server.diskLimit.getD ""),
          OverLimit measure volumes server.volumeMounts bytes ∨
            EachMeasured measure volumes server.volumeMounts fun v sizeBytes =>
              v.exceeded sizeBytes = none ∧ (sizeBytes = 0 → 0 ≤ bytes) := by
  rw [agree_iff_refused]
  by_cases hmissing : ∃ vid ∈ server.volumeMounts, volumes vid = none
  · exact iff_of_true (fun _ => refused_of_missing hmissing _) (Or.inl hmissing)
  rw [refused_iff hmissing, or_iff_right hmissing]
  by_cases hunset : server.diskLimit.getD "" = ""
  · have hempty : VolumeService.parseMemory "" = none := by decide
    have hraises : ¬ ∃ text ∈ server.diskLimit, ∃ bytes ∈ VolumeService.parseMemory text,
        OverLimit measure volumes server.volumeMounts bytes := by
      rintro ⟨text, htext, bytes, hbytes, -⟩
      rw [Option.mem_def.mp htext, Option.getD_some] at hunset
      rw [hunset, hempty] at hbytes
      cases hbytes
    have hzero : planBytesOf server.diskLimit = some 0 := by
      rcases hlimit : server.diskLimit with _ | text
      · rfl
      · rw [hlimit, Option.getD_some] at hunset
        rw [planBytesOf, if_pos hunset]
    rw [if_pos hunset, ← not_stopped_iff hzero]
    exact imp_iff_not_or.trans (or_iff_left hraises)
  · obtain ⟨text, hlimit⟩ : ∃ text, server.diskLimit = some text := by
      rcases hlimit : server.diskLimit with _ | text
      · exact absurd (by rw [hlimit]; rfl) hunset
      · exact ⟨text, rfl⟩
    have hset : text ≠ "" := by
      rwa [hlimit, Option.getD_some] at hunset
    have hbytesOf : planBytesOf server.diskLimit = VolumeService.parseMemory text := by
      rw [hlimit, planBytesOf, if_neg hset]
    rw [if_neg hunset, hlimit, Option.getD_some]
    simp only [Option.mem_def, Option.some.injEq, exists_eq_left']
    cases hparse : VolumeService.parseMemory text with
    | none =>
        rw [hparse] at hbytesOf
        simp [Stopped, hbytesOf]
    | some bytes =>
        simp only [Option.some.injEq, exists_eq_left', forall_eq']
        rw [imp_iff_not_or, or_comm, not_stopped_iff (hbytesOf.trans hparse)]
        by_cases hover : OverLimit measure volumes server.volumeMounts bytes
        · exact iff_of_true (Or.inl hover) (Or.inl hover)
        · rw [or_iff_right hover, or_iff_right hover]
          constructor
          · intro heach vid hvid v hv m hm
            obtain ⟨hown, hplan⟩ := heach vid hvid v hv m hm
            exact ⟨hown, fun hsize => hsize ▸ hplan⟩
          · intro heach vid hvid v hv m hm
            obtain ⟨hown, hsize⟩ := heach vid hvid v hv m hm
            refine ⟨hown, ?_⟩
            rcases le_of_not_overLimit hover hvid hv hm with hnothing | hplan
            · rw [hnothing]
              exact hsize hnothing
            · exact hplan

end Measuring

section Outgrown

def data : Volume := ⟨"data", "", "ada", some 0, some (1024 ^ 3), .active⟩

def mounted : Volumes := fun vid => if vid = "1" then some data else none

def twoGiB (_ : String) : Option Measured := some ⟨2 * 1024 ^ 3, .du⟩

/-- Two GiB in a volume for one, on a plan of ten: started, and stopped by the next pass. -/
theorem outgrown_starts :
    (checkVolumesQuota twoGiB mounted ["1"] (some "10g")).map Prod.fst = some .allowed ∧
      enforceVolumeQuotas twoGiB [⟨"s", some "10g", ["1"]⟩] mounted = [⟨"s", some "10g", ["1"]⟩] ∧
        ¬ ∀ measure volumes server, Agree measure volumes server := by
  have hallowed : (checkVolumesQuota twoGiB mounted ["1"] (some "10g")).map Prod.fst = some .allowed := by decide +kernel
  have hstopped : enforceVolumeQuotas twoGiB [⟨"s", some "10g", ["1"]⟩] mounted = [⟨"s", some "10g", ["1"]⟩] := by
    decide +kernel
  refine ⟨hallowed, hstopped, ?_⟩
  intro h
  obtain ⟨⟨check, after⟩, hcheck, hfirst⟩ := Option.map_eq_some_iff.mp hallowed
  have hstarts := (h twoGiB mounted ⟨"s", some "10g", ["1"]⟩ [⟨"s", some "10g", ["1"]⟩]).1 after
    (hcheck.trans (by rw [← hfirst]))
  rw [hstopped] at hstarts
  exact hstarts List.mem_cons_self

example : checkVolumesQuota twoGiB mounted ["1"] (some "") = none ∧
    enforceVolumeQuotas twoGiB [⟨"s", some "", ["1"]⟩] mounted = [⟨"s", some "", ["1"]⟩] :=
  ⟨rfl, by decide +kernel⟩

end Outgrown

end NukeLab.DiskLimits
