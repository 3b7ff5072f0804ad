import NukeLab.UpdateBreaks

namespace NukeLab.UpdateStages

open Program Tables Records State GpuAllocator Quota DockerNames Spawner Lifecycle Launches ServerUpdate UpdateBreaks
open Creation hiding named
open CreationAtomicity hiding Untouched IdsBelow Break Clean mountNames breakOf volumesBreak spawnBreak bodyBreak

section Plans

variable {w v : World} {answers : UpdateAnswers} {actorId : Uuid} {body : UpdateRequest} {server : Server}

def poolDry : Raise := .http 429 "No GPUs available on the host for the new plan (all devices are in use)"

theorem allocate_final (v : World) (serverId : Uuid) {count : Int} (hcount : 0 < count) (henabled : enabled v.settings = true) :
    ∃ devices, (allocate serverId count).run v =
      .ok devices (if allocatable v count then allocated v serverId count else v) := by
  rw [allocate_run v serverId hcount henabled]
  cases allocatable v count with
  | true => exact ⟨_, rfl⟩
  | false => exact ⟨_, rfl⟩

theorem reserveForPlan_run (draft : Server) (plan : ServerPlan) (v : World) :
    (reserveForPlan draft plan).run v =
      if ¬ changesDevices v draft plan then .ok () v
      else if ¬ takesDevices draft plan then .ok () (freed v draft.id)
      else if allocatable (freed v draft.id) plan.gpuLimit then .ok () (allocated (freed v draft.id) draft.id plan.gpuLimit)
      else .error poolDry
        (if draft.allocatedGpu > 0 ∧ allocatable (freed v draft.id) draft.allocatedGpu then
          allocated (freed v draft.id) draft.id draft.allocatedGpu
        else freed v draft.id) := by
  have hchanges : changesDevices v draft plan = true ↔ enabled v.settings = true ∧ plan.gpuLimit ≠ draft.allocatedGpu := by
    simp only [changesDevices, Bool.and_eq_true, decide_eq_true_eq]
  have htakes : takesDevices draft plan = true ↔ plan.gpuLimit > 0 ∧ draft.status.active = true := by
    simp only [takesDevices, Bool.and_eq_true, decide_eq_true_eq]
  by_cases hc : enabled v.settings = true ∧ plan.gpuLimit ≠ draft.allocatedGpu
  · have hrelease : (release draft.id).run v = .ok () (freed v draft.id) := rfl
    rw [if_neg (not_not.mpr (hchanges.mpr hc))]
    by_cases ht : plan.gpuLimit > 0 ∧ draft.status.active = true
    · have hallocate := allocate_run (freed v draft.id) draft.id ht.1 hc.1
      rw [if_neg (not_not.mpr (htakes.mpr ht))]
      cases hall : allocatable (freed v draft.id) plan.gpuLimit with
      | true =>
          rw [hall] at hallocate
          simp only [reserveForPlan, EStateM.run_bind, EStateM.run_get, if_pos hc, hrelease, if_pos ht, hallocate,
            if_true, EStateM.run_pure]
      | false =>
          rw [hall] at hallocate
          by_cases hold : draft.allocatedGpu > 0
          · obtain ⟨devices, hagain⟩ := allocate_final (freed v draft.id) draft.id hold hc.1
            simp only [reserveForPlan, EStateM.run_bind, EStateM.run_get, if_pos hc, hrelease, if_pos ht, hallocate,
              Bool.false_eq_true, if_false, hold, if_true, hagain, run_throw, true_and, poolDry]
          · simp only [reserveForPlan, EStateM.run_bind, EStateM.run_get, if_pos hc, hrelease, if_pos ht, hallocate,
              Bool.false_eq_true, if_false, hold, run_throw, false_and, poolDry]
    · rw [if_pos (mt htakes.mp ht)]
      simp only [reserveForPlan, EStateM.run_bind, EStateM.run_get, if_pos hc, hrelease, if_neg ht, EStateM.run_pure]
  · rw [if_pos (mt hchanges.mp hc)]
    simp only [reserveForPlan, EStateM.run_bind, EStateM.run_get, if_neg hc, EStateM.run_pure]

@[simp] theorem named_id (body : UpdateRequest) (server : Server) : (named body server).id = server.id := by
  unfold named
  split <;> rfl

theorem changesDevices_named (hsettings : v.settings = w.settings) (plan : ServerPlan) :
    changesDevices v (named body server) plan = changesDevices w server plan := by
  unfold changesDevices named
  rw [hsettings]
  split <;> rfl

theorem takesDevices_named (plan : ServerPlan) : takesDevices (named body server) plan = takesDevices server plan := by
  unfold takesDevices named
  split <;> rfl

theorem allocatedGpu_named : (named body server).allocatedGpu = server.allocatedGpu := by
  unfold named
  split <;> rfl

theorem run_commitRow (draft : Server) (v : World) : (commitRow draft).run v = .ok () (final (commitRow draft) v) := rfl

theorem held_checked (body : UpdateRequest) (hfind : w.servers.find server.id = some server) (actorId : Uuid) :
    Held w server.id (named body server) none (reaped w).gpuAllocations
      (final (commitRow (named body server)) (recalculatedWorld w actorId (some server.id))) := by
  have hrecalculated : Held w server.id server none (reaped w).gpuAllocations (recalculatedWorld w actorId (some server.id)) :=
    ⟨rfl, rfl, rfl, rfl, rfl, hfind, fun _ _ => Iff.rfl, rfl, le_rfl⟩
  exact hrecalculated.commitRow (named_id body server)

theorem allocatable_checked (w : World) (body : UpdateRequest) (server : Server) (actorId : Uuid) (count : Int) :
    allocatable (freed (final (commitRow (named body server)) (recalculatedWorld w actorId (some server.id))) server.id)
      count = allocatable (freed (reaped w) server.id) count := rfl

theorem allocated_checked (w : World) (body : UpdateRequest) (server : Server) (actorId : Uuid) (count : Int) :
    (allocated (freed (final (commitRow (named body server)) (recalculatedWorld w actorId (some server.id))) server.id)
      server.id count).gpuAllocations = (allocated (freed (reaped w) server.id) server.id count).gpuAllocations := rfl

theorem quotas_checked (w : World) (body : UpdateRequest) (server : Server) (actorId : Uuid) :
    ((final (commitRow (named body server)) (recalculatedWorld w actorId (some server.id))).quotas actorId).isNone = false ∧
      (quotaOf (final (commitRow (named body server)) (recalculatedWorld w actorId (some server.id))) actorId).maxDiskTotal =
        (quotaOf w actorId).maxDiskTotal := by
  constructor
  · simp [commitRow, modifyServer, recalculatedWorld]
  · simp [commitRow, modifyServer, recalculatedWorld, quotaOf]

theorem applyPlan_raises (hfind : w.servers.find server.id = some server) :
    Raises (applyPlan answers actorId body (named body server)) w fun _ t =>
      ∃ b, planBreak answers actorId body w server = some b ∧ (b = .early ∨ b = .checked ∨ b = .short) ∧
        Left w body server t b := by
  unfold applyPlan planBreak
  cases hplanId : body.planId with
  | none => exact .pure
  | some planId =>
      refine .get_bind ?_
      dsimp only
      cases hplan : w.plans planId with
      | none => exact .throw ⟨.early, rfl, .inl rfl, held_start hfind⟩
      | some plan =>
          dsimp only
          refine .ite (fun hcannot => .throw_bind ?_) fun hcan => .ite (fun hinactive => .throw_bind ?_) fun hactive => ?_
          · exact ⟨.early, if_pos (.inl hcannot), .inl rfl, held_start hfind⟩
          · exact ⟨.early, if_pos (.inr hinactive), .inl rfl, held_start hfind⟩
          rw [if_neg (not_or.mpr ⟨hcan, hactive⟩)]
          rw [named_id]
          refine .bind_of_ok (checkSpawnAllowed_run_excluding w actorId planId _) (.bind_of_ok (run_commitRow _ _) ?_)
          have hchecked := held_checked body hfind actorId
          cases hrefusal : spawnRefusal (recalculatedWorld w actorId (some server.id))
              (quotaOf (recalculatedWorld w actorId (some server.id)) actorId) actorId planId (some server.id) with
          | some refusal => exact .throw ⟨.checked, rfl, .inr (.inl rfl), hchecked⟩
          | none =>
              refine .bind (fun raise t hr => ?_) fun _ _ _ => .pure
              rw [reserveForPlan_run, changesDevices_named hchecked.settings, takesDevices_named, named_id,
                allocatedGpu_named] at hr
              rw [if_neg (by simp)]
              have hallocatable := allocatable_checked w body server actorId
              have hallocated := allocated_checked w body server actorId
              generalize final (commitRow (named body server)) (recalculatedWorld w actorId (some server.id)) = v
                at hchecked hr hallocatable hallocated
              rw [hallocatable, hallocatable] at hr
              by_cases hshort : changesDevices w server plan = true ∧ takesDevices server plan = true ∧
                  ¬ allocatable (freed (reaped w) server.id) plan.gpuLimit = true
              · rw [if_neg (not_not.mpr hshort.1), if_neg (not_not.mpr hshort.2.1), if_neg hshort.2.2] at hr
                refine ⟨.short, if_pos hshort, .inr (.inr rfl), ?_⟩
                cases hr
                unfold Left restoredDevices
                dsimp only
                split
                · rw [← hallocated]
                  exact hchecked.withDevices _ (Nat.le_add_right _ _)
                · exact hchecked.freed
              · split at hr
                · exact nomatch hr
                · rename_i hchanges
                  split at hr
                  · exact nomatch hr
                  · rename_i htakes
                    split at hr
                    · exact nomatch hr
                    · rename_i hdry
                      exact absurd ⟨not_not.mp hchanges, not_not.mp htakes, hdry⟩ hshort

def Allotted (w : World) (body : UpdateRequest) (server : Server) : Prop :=
  ∀ plan ∈ requestedPlan w body, changesDevices w server plan = true → takesDevices server plan = true →
    allocatable (freed (reaped w) server.id) plan.gpuLimit = true

/-- The world an update has come to before its mounts, with that row committed. -/
structure Ready (w : World) (actorId : Uuid) (body : UpdateRequest) (server row : Server) (v : World) : Prop
    extends Held w server.id row none (plannedDevices w body server) v where
  volumes : v.volumes = w.volumes
  quota : (v.quotas actorId).isNone = makesQuota actorId body w
  limits : (quotaOf v actorId).maxDiskTotal = (quotaOf w actorId).maxDiskTotal

def checkedRow (body : UpdateRequest) (server : Server) : Server :=
  if body.planId.isSome then named body server else server

theorem applyPlan_returns (hfind : w.servers.find server.id = some server) :
    Returns (applyPlan answers actorId body (named body server)) w fun d t =>
      planBreak answers actorId body w server = none ∧ d = planned w body (named body server) ∧ Allotted w body server ∧
        Ready w actorId body server (checkedRow body server) t := by
  unfold applyPlan planBreak checkedRow planned
  cases hplanId : body.planId with
  | none =>
      have hnone : requestedPlan w body = none := by rw [requestedPlan, hplanId, Option.bind_none]
      have hallotted : Allotted w body server := by
        intro plan hplan
        rw [hnone] at hplan
        cases hplan
      refine .pure ⟨rfl, rfl, hallotted, ?_, rfl, ?_, rfl⟩
      · have hdevices : plannedDevices w body server = w.gpuAllocations := by rw [plannedDevices, hnone]
        rw [hdevices]
        exact held_start hfind
      · rw [makesQuota, hplanId]
        rfl
  | some planId =>
      refine .get_bind ?_
      dsimp only
      cases hplan : w.plans planId with
      | none => exact .throw _
      | some plan =>
          have hsome : requestedPlan w body = some plan := by rw [requestedPlan, hplanId, Option.bind_some, hplan]
          dsimp only
          refine .ite (fun _ => .throw_bind _) fun hcan => .ite (fun _ => .throw_bind _) fun hactive => ?_
          rw [if_neg (not_or.mpr ⟨hcan, hactive⟩), named_id]
          refine .bind_of_ok (checkSpawnAllowed_run_excluding w actorId planId _) (.bind_of_ok (run_commitRow _ _) ?_)
          have hchecked := held_checked body hfind actorId
          cases hrefusal : spawnRefusal (recalculatedWorld w actorId (some server.id))
              (quotaOf (recalculatedWorld w actorId (some server.id)) actorId) actorId planId (some server.id) with
          | some refusal => exact .throw _
          | none =>
              refine .bind fun _ t hr => .pure ?_
              rw [if_neg (by simp)]
              rw [reserveForPlan_run, changesDevices_named hchecked.settings, takesDevices_named, named_id] at hr
              have hallocatable := allocatable_checked w body server actorId
              have hallocated := allocated_checked w body server actorId
              have hquotas := quotas_checked w body server actorId
              have hvolumes : (final (commitRow (named body server))
                (recalculatedWorld w actorId (some server.id))).volumes = w.volumes := rfl
              generalize final (commitRow (named body server)) (recalculatedWorld w actorId (some server.id)) = v
                at hchecked hr hallocatable hallocated hquotas hvolumes
              have hready {devices : List GpuAllocation} {t : World}
                  (h : Held w server.id (named body server) none devices t) (hdevices : plannedDevices w body server = devices)
                  (hv : t.volumes = v.volumes)
                  (hq : t.quotas = v.quotas) : Ready w actorId body server (named body server) t := by
                refine ⟨hdevices ▸ h, hv.trans hvolumes, ?_, ?_⟩
                · rw [hq, hquotas.1, makesQuota, hplanId]
                  rfl
                · rw [← hquotas.2, quotaOf, quotaOf, hq, h.settings, hchecked.settings]
              have hallotted (hplan : changesDevices w server plan = true → takesDevices server plan = true →
                  allocatable (freed (reaped w) server.id) plan.gpuLimit = true) : Allotted w body server := by
                intro plan' hplan'
                rw [hsome] at hplan'
                cases hplan'
                exact hplan
              rw [hsome]
              by_cases hchanges : changesDevices w server plan = true
              · rw [if_neg (not_not.mpr hchanges)] at hr
                by_cases htakes : takesDevices server plan = true
                · rw [if_neg (not_not.mpr htakes), hallocatable] at hr
                  by_cases hall : allocatable (freed (reaped w) server.id) plan.gpuLimit = true
                  · rw [if_pos hall] at hr
                    cases hr
                    refine ⟨if_neg fun h => h.2.2 hall, rfl, hallotted fun _ _ => hall,
                      hready (hchecked.withDevices _ (Nat.le_add_right _ _)) ?_ rfl rfl⟩
                    rw [plannedDevices, hsome]
                    exact (if_neg (not_not.mpr hchanges)).trans ((if_pos htakes).trans (hallocated _).symm)
                  · rw [if_neg hall] at hr
                    cases hr
                · rw [if_pos htakes] at hr
                  cases hr
                  refine ⟨if_neg fun h => htakes h.2.1, rfl, hallotted fun _ h => absurd h htakes, hready hchecked.freed ?_ rfl rfl⟩
                  rw [plannedDevices, hsome]
                  exact (if_neg (not_not.mpr hchanges)).trans (if_neg htakes)
              · rw [if_pos hchanges] at hr
                cases hr
                refine ⟨if_neg fun h => hchanges h.1, rfl, hallotted fun h => absurd h hchanges, hready hchecked ?_ rfl rfl⟩
                rw [plannedDevices, hsome]
                exact if_pos hchanges


end Plans

theorem beside_modify {f : World → World} (h : ∀ w, Beside w (f w)) : Moves Beside (modify f : Handler PUnit) := .modify h

theorem createVolume_beside (fault : Option VolumeFault) (message name : String) (ownerId : Uuid) (size : Int) :
    Moves Beside (createVolume fault message name ownerId size) := by
  have hid : Moves Beside newUuid := fun _ => ⟨rfl, rfl, rfl, rfl, rfl, rfl, rfl, rfl, Nat.le_succ _⟩
  have hensure : Moves Beside (ensureVolumes [name]) := beside_modify fun _ => ⟨rfl, rfl, rfl, rfl, rfl, rfl, rfl, rfl, le_rfl⟩
  refine .ite (.throw_bind _ _) (.ite (.throw_bind _ _) (.ite (.throw_bind _ _) ?_))
  refine .bind hensure fun _ => .bind .get fun w => .ite (.throw_bind _ _) (.bind hid fun id => ?_)
  exact .bind (beside_modify fun _ => ⟨rfl, rfl, rfl, rfl, rfl, rfl, rfl, rfl, le_rfl⟩) fun _ => .ite (.throw_bind _ _) (.pure _)

theorem delete_beside (runtime : Runtime) (containerId : Option Uuid) : Moves Beside (Spawner.delete runtime containerId) :=
  .ite (.bind (beside_modify fun _ => ⟨rfl, rfl, rfl, rfl, rfl, rfl, rfl, rfl, le_rfl⟩) fun _ => .pure _) (.pure _)

theorem spawn_beside (runtime : Runtime) (request : SpawnRequest) : Moves Beside (spawn runtime request) := by
  have hid : Moves Beside newUuid := fun _ => ⟨rfl, rfl, rfl, rfl, rfl, rfl, rfl, rfl, Nat.le_succ _⟩
  have hensure (names : List String) : Moves Beside (ensureVolumes names) := beside_modify fun _ => ⟨rfl, rfl, rfl, rfl, rfl, rfl, rfl, rfl, le_rfl⟩
  have hremove (name : String) : Moves Beside (removeNamed name) := beside_modify fun _ => ⟨rfl, rfl, rfl, rfl, rfl, rfl, rfl, rfl, le_rfl⟩
  unfold spawn
  refine .bind .get fun w => .ite (.throw_bind _ _) (.ite (.throw_bind _ _) (.bind (hremove _) fun _ => ?_))
  dsimp only
  split
  · exact .bind (hensure _) fun _ => .throw _
  · exact .bind (hensure _) fun _ => .bind (hremove _) fun _ => .throw _
  · exact .bind (hensure _) fun _ => .bind hid fun _ => .bind (beside_modify fun _ => ⟨rfl, rfl, rfl, rfl, rfl, rfl, rfl, rfl, le_rfl⟩) fun _ => .pure _

section Mounts

variable {w v t : World} {answers : UpdateAnswers} {actorId : Uuid} {body : UpdateRequest} {server : Server}

def rowOf (w : World) (body : UpdateRequest) (server : Server) (committed : Bool) : Server :=
  if committed then configuredRow w body server else checkedRow body server

/-- The world while mounts are prepared: which row is committed, and which volume names are taken. -/
structure Preparing (w : World) (body : UpdateRequest) (server : Server) (committed : Bool) (taken : List String) (v : World) :
    Prop extends Held w server.id (rowOf w body server committed) none (plannedDevices w body server) v where
  names : v.volumes.map Volume.name = taken

theorem configuredRow_id (w : World) (body : UpdateRequest) (server : Server) : (configuredRow w body server).id = server.id := by
  unfold configuredRow placed planned withPlan
  split <;> split <;> exact named_id body server

theorem configuredRow_name (w : World) (body : UpdateRequest) (server : Server) :
    (configuredRow w body server).name = (named body server).name := by
  unfold configuredRow placed planned withPlan
  split <;> split <;> rfl

theorem createMountVolume_returns {fault : Option VolumeFault} {message : String} {idx : Nat} {size : Int}
    {committed : Bool} {taken : List String} (h : Preparing w body server committed taken v) :
    Returns (createMountVolume fault message actorId (configuredRow w body server) idx size) v fun id t =>
      volumeBreak fault (autoVolumeName actorId (named body server).name idx) taken committed = none ∧
        (v.nextUuid ≤ id ∧ id < t.nextUuid) ∧
        Preparing w body server true (taken ++ [autoVolumeName actorId (named body server).name idx]) t := by
  unfold createMountVolume
  rw [configuredRow_name]
  generalize autoVolumeName actorId (named body server).name idx = name
  refine .bind fun id u hu => ?_
  obtain ⟨⟨hvalid, hfault, hnew⟩, volume, hvolume, hname, hid, hbegun⟩ := createVolume_returns (begun_start v v.quotas) id u hu
  have hheld := h.toHeld.beside (final_of_ok hu ▸ createVolume_beside _ _ _ _ _ v)
  refine .bind_of_ok (run_commitRow _ _) (.ite (fun _ => .throw_bind _) fun hrefresh => .pure ⟨?_, ?_, ?_, ?_⟩)
  · rw [h.names] at hnew
    rw [if_neg hrefresh] at hfault
    unfold volumeBreak
    rw [if_neg (not_or.mpr ⟨not_not.mpr hvalid, hnew⟩), hfault]
  · exact ⟨hid.ge, hvolume ▸ (hbegun.ids volume (List.mem_singleton_self volume)).2⟩
  · exact hheld.commitRow (configuredRow_id w body server)
  · have hvolumes : u.volumes = v.volumes ++ [volume] := hbegun.volumes
    have hkept : (final (commitRow (configuredRow w body server)) u).volumes = u.volumes := rfl
    rw [hkept, hvolumes, List.map_append, h.names, List.map_singleton, hname]

theorem createMountVolume_raises {fault : Option VolumeFault} {message : String} {idx : Nat} {size : Int}
    {committed : Bool} {taken : List String} (h : Preparing w body server committed taken v) :
    Raises (createMountVolume fault message actorId (configuredRow w body server) idx size) v fun _ t =>
      ∃ c, volumeBreak fault (autoVolumeName actorId (named body server).name idx) taken committed = some c ∧
        Held w server.id (rowOf w body server c) none (plannedDevices w body server) t := by
  unfold createMountVolume
  rw [configuredRow_name]
  generalize autoVolumeName actorId (named body server).name idx = name
  refine .bind (fun raise u hu => ?_) fun id u hu => ?_
  · have hheld := h.toHeld.beside (final_of_error hu ▸ createVolume_beside _ _ _ _ _ v)
    refine ⟨committed, ?_, hheld⟩
    have hbroken : (¬ validVolumeName name ∨ name ∈ taken) ∨ (if fault = some .refresh then none else fault).isSome := by
      have hraises := createVolume_raises (begun_start v v.quotas) raise u hu
      rw [← h.names]
      cases raise with
      | http status detail => exact hraises.1.imp (fun h => .inl (by simp [h])) fun h => by rw [h]; rfl
      | exception text => exact hraises.1.2.2.symm.imp .inr id
    unfold volumeBreak
    split
    · rfl
    · rename_i hfree
      have hfault := hbroken.resolve_left hfree
      cases fault with
      | none => exact nomatch hfault
      | some f => cases f with
        | refresh => exact nomatch hfault
        | driverError | driverFailure | commit => rfl
  · obtain ⟨⟨hvalid, hfault, hnew⟩, -⟩ := createVolume_returns (begun_start v v.quotas) id u hu
    have hheld := h.toHeld.beside (final_of_ok hu ▸ createVolume_beside _ _ _ _ _ v)
    refine .bind_of_ok (run_commitRow _ _) (.ite (fun hrefresh => .throw_bind ⟨true, ?_, ?_⟩) fun _ => .pure)
    · rw [h.names] at hnew
      unfold volumeBreak
      rw [if_neg (not_or.mpr ⟨not_not.mpr hvalid, hnew⟩), hrefresh]
    · exact hheld.commitRow (configuredRow_id w body server)

theorem prepareMounts_returns {message : String} {limit : Int} {requested : List (MountRequest × Nat)} {committed : Bool}
    {taken : List String} (h : Preparing w body server committed taken v) :
    Returns (ServerUpdate.prepareMounts answers message actorId (configuredRow w body server) limit requested) v
      fun mounts t =>
        volumesBreak answers actorId body server requested taken committed = none ∧
          FilledFrom v.nextUuid requested mounts ∧
          Held w server.id (rowOf w body server (committed || requested.any fun r => r.1.volumeId.isNone)) none
            (plannedDevices w body server) t := by
  induction requested generalizing committed taken v with
  | nil => exact .pure ⟨rfl, .nil _, by simpa using h.toHeld⟩
  | cons head rest ih =>
      obtain ⟨mount, idx⟩ := head
      unfold ServerUpdate.prepareMounts
      rw [volumesBreak_cons]
      cases hid : mount.volumeId with
      | some volumeId =>
          dsimp only
          cases hrefusal : answers.mountRefusal idx with
          | some detail => exact .throw_bind _
          | none =>
              refine .bind_of_ok rfl (.bind fun mounts t ht => .pure ?_)
              obtain ⟨hbreak, hfilled, hheld⟩ := ih h mounts t ht
              refine ⟨hbreak, .named volumeId hid hfilled, ?_⟩
              simpa [hid] using hheld
      | none =>
          refine .bind fun id u hu => .bind fun mounts t ht => .pure ?_
          obtain ⟨hstep, hfresh, hmade⟩ := createMountVolume_returns h id u hu
          obtain ⟨hbreak, hfilled, hheld⟩ := ih hmade mounts t ht
          refine ⟨?_, .made id hid hfresh.1 (hfilled.mono hfresh.2), ?_⟩
          · dsimp only
            rw [hstep]
            exact hbreak
          · simpa [hid] using hheld

theorem prepareMounts_raises {message : String} {limit : Int} {requested : List (MountRequest × Nat)} {committed : Bool}
    {taken : List String} (h : Preparing w body server committed taken v) :
    Raises (ServerUpdate.prepareMounts answers message actorId (configuredRow w body server) limit requested) v
      fun _ t =>
        ∃ c, volumesBreak answers actorId body server requested taken committed = some c ∧
          Held w server.id (rowOf w body server c) none (plannedDevices w body server) t := by
  induction requested generalizing committed taken v with
  | nil => exact .pure
  | cons head rest ih =>
      obtain ⟨mount, idx⟩ := head
      unfold ServerUpdate.prepareMounts
      rw [volumesBreak_cons]
      cases hid : mount.volumeId with
      | some volumeId =>
          dsimp only
          cases hrefusal : answers.mountRefusal idx with
          | some detail => exact .throw_bind ⟨committed, rfl, h.toHeld⟩
          | none => exact .bind_of_ok rfl (.bind (ih h) fun _ _ _ => .pure)
      | none =>
          refine .bind (fun raise u hu => ?_) fun id u hu => .bind (fun raise t ht => ?_) fun _ _ _ => .pure
          · obtain ⟨c, hstep, hheld⟩ := createMountVolume_raises h raise u hu
            refine ⟨c, ?_, hheld⟩
            dsimp only
            rw [hstep]
          · obtain ⟨hstep, -, hmade⟩ := createMountVolume_returns h id u hu
            obtain ⟨c, hbreak, hheld⟩ := ih hmade raise t ht
            refine ⟨c, ?_, hheld⟩
            dsimp only
            rw [hstep]
            exact hbreak

theorem diskRefusal_congr (hvolumes : v.volumes = w.volumes)
    (hlimits : (quotaOf v actorId).maxDiskTotal = (quotaOf w actorId).maxDiskTotal) (bytes : Int) :
    diskRefusal v (quotaOf v actorId) actorId bytes = diskRefusal w (quotaOf w actorId) actorId bytes := by
  rw [diskRefusal, diskRefusal, hvolumes, hlimits]

/-- The disk check writes the actor's quota row, and commits the row when that is a new one. -/
theorem checkNewVolumes_run (h : Ready w actorId body server (checkedRow body server) v) (bytes : Int) :
    ∃ t, (ServerUpdate.checkNewVolumes actorId (configuredRow w body server) bytes).run v =
        (if bytes ≠ 0 then
          match diskRefusal w (quotaOf w actorId) actorId bytes with
          | some refusal => .error (.http 429 refusal.reason) t
          | none => .ok () t
        else .ok () t) ∧
      Preparing w body server (bytes != 0 && makesQuota actorId body w) (w.volumes.map Volume.name) t := by
  by_cases hbytes : bytes = 0
  · subst hbytes
    exact ⟨v, rfl, h.toHeld, by rw [h.volumes]⟩
  have hmade : (bytes != 0 && makesQuota actorId body w) = makesQuota actorId body w := by
    rw [bne_iff_ne.mpr hbytes, Bool.true_and]
  have hrest {u : World} (hheld : Held w server.id (rowOf w body server (makesQuota actorId body w)) none
      (plannedDevices w body server) u) (hlimits : (quotaOf u actorId).maxDiskTotal = (quotaOf w actorId).maxDiskTotal)
      (hvolumes : u.volumes = w.volumes) :
      ∃ t, (checkVolumeCreationAllowed actorId bytes).run u = .ok (diskRefusal w (quotaOf w actorId) actorId bytes) t ∧
        Preparing w body server (makesQuota actorId body w) (w.volumes.map Volume.name) t := by
    obtain ⟨quotas, hcheck⟩ := checkVolumeCreationAllowed_run u actorId bytes
    rw [diskRefusal_congr hvolumes hlimits] at hcheck
    exact ⟨_, hcheck, hheld.beside {}, by rw [hvolumes]⟩
  rw [hmade]
  have hquota := h.quota
  cases hmakes : makesQuota actorId body w with
  | false =>
      rw [hmakes] at hrest hquota
      obtain ⟨t, hcheck, hpreparing⟩ := hrest h.toHeld h.limits h.volumes
      refine ⟨t, ?_, hpreparing⟩
      rw [if_pos hbytes, ServerUpdate.checkNewVolumes, if_pos hbytes]
      simp only [EStateM.run_bind, EStateM.run_get, hquota, Bool.false_eq_true, if_false, hcheck]
      cases diskRefusal w (quotaOf w actorId) actorId bytes <;> rfl
  | true =>
      rw [hmakes] at hrest hquota
      have hcommitted : Held w server.id (rowOf w body server true) none (plannedDevices w body server)
          (final (commitRow (configuredRow w body server)) v) := h.toHeld.commitRow (configuredRow_id w body server)
      obtain ⟨t, hcheck, hpreparing⟩ := hrest hcommitted h.limits h.volumes
      refine ⟨t, ?_, hpreparing⟩
      rw [if_pos hbytes, ServerUpdate.checkNewVolumes, if_pos hbytes]
      simp only [EStateM.run_bind, EStateM.run_get, hquota, if_true, run_commitRow, hcheck]
      cases diskRefusal w (quotaOf w actorId) actorId bytes <;> rfl

theorem checkNewVolumes_returns (h : Ready w actorId body server (checkedRow body server) v) (bytes : Int) :
    Returns (ServerUpdate.checkNewVolumes actorId (configuredRow w body server) bytes) v fun _ t =>
      ¬ (bytes ≠ 0 ∧ (diskRefusal w (quotaOf w actorId) actorId bytes).isSome) ∧
        Preparing w body server (bytes != 0 && makesQuota actorId body w) (w.volumes.map Volume.name) t := by
  intro _ t hr
  obtain ⟨u, hrun, hpreparing⟩ := checkNewVolumes_run h bytes
  rw [hrun] at hr
  split at hr
  · cases hd : diskRefusal w (quotaOf w actorId) actorId bytes with
    | some refusal =>
        rw [hd] at hr
        exact nomatch hr
    | none =>
        rw [hd] at hr
        cases hr
        exact ⟨fun h => Bool.false_ne_true h.2, hpreparing⟩
  · rename_i hzero
    cases hr
    exact ⟨fun h => hzero h.1, hpreparing⟩

theorem checkNewVolumes_raises (h : Ready w actorId body server (checkedRow body server) v) (bytes : Int) :
    Raises (ServerUpdate.checkNewVolumes actorId (configuredRow w body server) bytes) v fun _ t =>
      (bytes ≠ 0 ∧ (diskRefusal w (quotaOf w actorId) actorId bytes).isSome) ∧
        Preparing w body server (bytes != 0 && makesQuota actorId body w) (w.volumes.map Volume.name) t := by
  intro raise t hr
  obtain ⟨u, hrun, hpreparing⟩ := checkNewVolumes_run h bytes
  rw [hrun] at hr
  split at hr
  · rename_i hbytes
    cases hd : diskRefusal w (quotaOf w actorId) actorId bytes with
    | some refusal =>
        rw [hd] at hr
        cases hr
        exact ⟨⟨hbytes, rfl⟩, hpreparing⟩
    | none =>
        rw [hd] at hr
        exact nomatch hr
  · exact nomatch hr

theorem diskLimit_held {serverId : Uuid} {row : Server} {mounts : Option (List ServerVolume)}
    {devices : List GpuAllocation} (h : Held w serverId row mounts devices v) (s : Server) : diskLimit v s = diskLimit w s := by
  rw [diskLimit, diskLimit, planOf, planOf, h.plans]

theorem any_zipIdx (requested : List MountRequest) :
    (requested.zipIdx.any fun r => r.1.volumeId.isNone) = requested.any fun m => m.volumeId.isNone := by
  conv_rhs => rw [← List.zipIdx_map_fst 0 requested, List.any_map]
  rfl

theorem applyMounts_raises {message : String} (h : Ready w actorId body server (checkedRow body server) v) :
    Raises (applyMounts answers message actorId body (configuredRow w body server)) v fun _ t =>
      ∃ b, mountsBreak answers actorId body w server = some b ∧ (∃ c, b = .configured c) ∧ Left w body server t b := by
  unfold applyMounts mountsBreak
  cases hmounts : body.volumeMounts with
  | none => exact .pure
  | some requested =>
      refine .get_bind ?_
      rw [diskLimit_held h.toHeld]
      dsimp only
      refine .bind (fun raise u hu => ?_) fun _ u hu => ?_
      · obtain ⟨hrefused, hpreparing⟩ := checkNewVolumes_raises h (newBytes body w server requested) raise u hu
        exact ⟨_, if_pos hrefused, ⟨_, rfl⟩, hpreparing.toHeld⟩
      obtain ⟨hpassed, hpreparing⟩ := checkNewVolumes_returns h (newBytes body w server requested) _ u hu
      rw [if_neg hpassed]
      refine .bind (fun raise t ht => ?_) fun mounts t ht => ?_
      · obtain ⟨c, hbreak, hheld⟩ := prepareMounts_raises hpreparing raise t ht
        rw [hbreak]
        exact ⟨_, rfl, ⟨c, rfl⟩, hheld⟩
      obtain ⟨hbreak, hfilled, hheld⟩ := prepareMounts_returns hpreparing mounts t ht
      rw [hbreak]
      refine .ite (fun hsome => ?_) fun _ => .pure
      cases hrefusal : answers.volumesRefusal with
      | none => exact .pure
      | some reason =>
          have hrequested : requested ≠ [] := by
            rintro rfl
            cases hfilled
            exact hsome rfl
          refine .throw_bind ⟨_, if_pos ⟨hrequested, rfl⟩, ⟨_, rfl⟩, ?_⟩
          rw [any_zipIdx] at hheld
          exact hheld

def MountsFor (w : World) (body : UpdateRequest) (mounts : Option (List VolumeMount)) : Prop :=
  match body.volumeMounts with
  | none => mounts = none
  | some requested => ∃ filled, mounts = some filled ∧ FilledFrom w.nextUuid requested.zipIdx filled

theorem applyMounts_returns {message : String} (h : Ready w actorId body server (checkedRow body server) v) :
    Returns (applyMounts answers message actorId body (configuredRow w body server)) v fun mounts t =>
      mountsBreak answers actorId body w server = none ∧
        MountsFor w body mounts ∧ Held w server.id (rowOf w body server (committed actorId body w server (body.volumeMounts.getD []))) none
          (plannedDevices w body server) t := by
  unfold applyMounts mountsBreak MountsFor
  cases hmounts : body.volumeMounts with
  | none => exact .pure ⟨rfl, rfl, h.toHeld⟩
  | some requested =>
      refine .get_bind ?_
      rw [diskLimit_held h.toHeld]
      dsimp only
      refine .bind fun _ u hu => .bind fun mounts t ht => ?_
      obtain ⟨hpassed, hpreparing⟩ := checkNewVolumes_returns h (newBytes body w server requested) _ u hu
      obtain ⟨hbreak, hfilled, hheld⟩ := prepareMounts_returns hpreparing mounts t ht
      rw [if_neg hpassed, hbreak]
      rw [any_zipIdx] at hheld
      refine .ite (fun hsome => ?_) fun hnone => .pure ⟨if_neg ?_, ⟨mounts, rfl, hfilled.mono hpreparing.bound⟩, hheld⟩
      · cases hrefusal : answers.volumesRefusal with
        | none => exact .pure ⟨if_neg fun h => Bool.false_ne_true h.2, ⟨mounts, rfl, hfilled.mono hpreparing.bound⟩, hheld⟩
        | some reason => exact .throw_bind _
      · rintro ⟨hrequested, -⟩
        rw [not_not.mp hnone] at hfilled
        cases hempty : requested.zipIdx with
        | nil => exact hrequested (List.zipIdx_eq_nil_iff.mp hempty)
        | cons head rest =>
            rw [hempty] at hfilled
            exact nomatch hfilled

end Mounts

section Saving

variable {w v : World} {answers : UpdateAnswers} {body : UpdateRequest} {server : Server}

theorem emptiedRow_id (w : World) (body : UpdateRequest) (server : Server) : (emptiedRow w body server).id = server.id := by
  unfold emptiedRow
  dsimp only
  split <;> exact configuredRow_id w body server

/-- So many of the rows are committed, with the row; or none of them yet. -/
def SavedUpTo (w : World) (body : UpdateRequest) (server row : Server) (rows : List ServerVolume) (count : Nat) (v : World) :
    Prop :=
  if count = 0 then Held w server.id row none (plannedDevices w body server) v
  else Held w server.id (emptiedRow w body server) (some (rows.take count)) (plannedDevices w body server) v

theorem SavedUpTo.commitAll {row : Server} {rows : List ServerVolume} {count : Nat}
    (h : SavedUpTo w body server row rows count v) (draft : Server) (hid : draft.id = server.id) (rows' : List ServerVolume) :
    Held w server.id draft (some rows') (plannedDevices w body server)
      (final (commitMounts server.id rows') (final (commitRow draft) v)) := by
  unfold SavedUpTo at h
  split at h
  · exact (h.commitRow hid).commitMounts rows'
  · exact (h.commitRow hid).commitMounts rows'

structure Pending (w : World) (next : Uuid) (seen : List Uuid) (rows : List ServerVolume) : Prop where
  below : ∀ r ∈ rows, r.volumeId < next
  mem_seen : ∀ id < w.nextUuid, id ∈ seen ↔ ∃ r ∈ rows, r.volumeId = id
  nodup : seen.Nodup

theorem Pending.repeats_iff {next : Uuid} {seen : List Uuid} {rows : List ServerVolume} (h : Pending w next seen rows)
    {id : Uuid} (hid : id < w.nextUuid) : (rows.any fun r => r.volumeId = id) = true ↔ id ∈ seen := by
  rw [h.mem_seen id hid, List.any_eq_true]
  simp only [decide_eq_true_eq]

theorem Pending.named {next : Uuid} {seen : List Uuid} {rows : List ServerVolume} (h : Pending w next seen rows)
    (row : ServerVolume) (hlt : row.volumeId < next) (hnew : row.volumeId ∉ seen) :
    Pending w next (seen ++ [row.volumeId]) (rows ++ [row]) := by
  refine ⟨fun r hr => ?_, fun id hid => ?_, ?_⟩
  · rcases List.mem_append.mp hr with hr | hr
    · exact h.below r hr
    · rwa [List.mem_singleton.mp hr]
  · simp only [List.mem_append, List.mem_singleton, h.mem_seen id hid, or_and_right, exists_or, exists_eq_left]
    exact or_congr_right eq_comm
  · exact List.nodup_append.mpr ⟨h.nodup, List.nodup_singleton _, fun a ha b hb hab =>
      hnew (List.mem_singleton.mp hb ▸ hab ▸ ha)⟩

theorem Pending.made {next : Uuid} {seen : List Uuid} {rows : List ServerVolume} (h : Pending w next seen rows)
    (row : ServerVolume) (hle : next ≤ row.volumeId) (hw : w.nextUuid ≤ next) :
    Pending w (row.volumeId + 1) seen (rows ++ [row]) := by
  refine ⟨fun r hr => ?_, fun id hid => ?_, h.nodup⟩
  · rcases List.mem_append.mp hr with hr | hr
    · exact ((h.below r hr).trans_le hle).trans (Nat.lt_succ_self _)
    · rw [List.mem_singleton.mp hr]
      exact Nat.lt_succ_self _
  · have hne : row.volumeId ≠ id := (hid.trans_le (hw.trans hle)).ne'
    simp [h.mem_seen id hid, or_and_right, exists_or, hne]

theorem SavedUpTo.commit {row : Server} {rows : List ServerVolume} {count n : Nat}
    (h : SavedUpTo w body server row rows count v) (hn : n ≠ 0) {pending : List ServerVolume} (hpending : pending = rows.take n) :
    SavedUpTo w body server row rows n
      (final (commitMounts server.id pending) (final (commitRow (emptiedRow w body server)) v)) := by
  have hheld : ∃ row mounts, Held w server.id row mounts (plannedDevices w body server) v := by
    unfold SavedUpTo at h
    split at h
    · exact ⟨_, _, h⟩
    · exact ⟨_, _, h⟩
  obtain ⟨row', mounts, hheld⟩ := hheld
  rw [SavedUpTo, if_neg hn, ← hpending]
  exact (hheld.commitRow (emptiedRow_id w body server)).commitMounts pending

theorem saveMounts_repeats {message home : String} {draft : Server} {mount : VolumeMount} {rest : List (VolumeMount × Nat)}
    {rows : List ServerVolume} {start : Nat} (hrepeats : (rows.any fun r => r.volumeId = mount.volumeId) = true) :
    (saveMounts answers message home draft ((mount, start) :: rest) rows).run v = .error (.exception message) v := by
  rw [saveMounts, if_pos hrepeats]
  rfl

theorem saveMounts_cons (answers : UpdateAnswers) (message home : String) {row : Server} {mount : VolumeMount}
    (rest : List (VolumeMount × Nat)) {rows tail : List ServerVolume} {count start : Nat} (hnew : (rows.any fun r => r.volumeId = mount.volumeId) = false)
    (hstart : rows.length = start)
    (hsaved : SavedUpTo w body server row (rows ++ mountRow server.id mount :: tail) count v) :
    ∃ u, SavedUpTo w body server row (rows ++ mountRow server.id mount :: tail)
        (if mount.mountPath = home ∧ answers.marksHome start then start + 1 else count) u ∧
      (saveMounts answers message home (emptiedRow w body server) ((mount, start) :: rest) rows).run v =
        (saveMounts answers message home (emptiedRow w body server) rest (rows ++ [mountRow server.id mount])).run u := by
  conv in (saveMounts _ _ _ _ (_ :: _) _) => rw [saveMounts, if_neg (Bool.eq_false_iff.mp hnew), emptiedRow_id]
  by_cases hmarked : mount.mountPath = home ∧ answers.marksHome start
  · rw [if_pos hmarked, if_pos hmarked]
    refine ⟨_, hsaved.commit (Nat.succ_ne_zero start) ?_, rfl⟩
    rw [← hstart, Nat.succ_eq_add_one, List.take_length_add_append]
    rfl
  · rw [if_neg hmarked, if_neg hmarked]
    exact ⟨v, hsaved, rfl⟩

/-- What the loop over the mounts comes to, at its end or where it breaks off. -/
theorem saveMounts_run (answers : UpdateAnswers) (message home : String) {row : Server} {requested : List MountRequest} {mounts : List VolumeMount}
    {next : Uuid} {seen : List Uuid} {rows : List ServerVolume} {count start : Nat} (hw : w.nextUuid ≤ next)
    (hbelow : ∀ m ∈ requested, ∀ id ∈ m.volumeId, id < w.nextUuid)
    (hfilled : FilledFrom next (requested.zipIdx start) mounts) (hpending : Pending w next seen rows)
    (hstart : rows.length = start)
    (hsaved : SavedUpTo w body server row (rows ++ mounts.map (mountRow server.id)) count v) :
    ∃ t, SavedUpTo w body server row (rows ++ mounts.map (mountRow server.id))
        (homed answers home (requested.zipIdx start) seen count) t ∧
      (saveMounts answers message home (emptiedRow w body server) (mounts.zipIdx start) rows).run v =
        if (seen ++ requested.filterMap MountRequest.volumeId).Nodup then
          .ok (rows ++ mounts.map (mountRow server.id)) t
        else .error (.exception message) t := by
  induction requested generalizing mounts next seen rows count start v with
  | nil =>
      cases hfilled
      refine ⟨v, hsaved, ?_⟩
      simp only [List.filterMap_nil, List.append_nil, List.map_nil, if_pos hpending.nodup]
      rfl
  | cons head rest ih =>
      have hrest : ∀ m ∈ rest, ∀ id ∈ m.volumeId, id < w.nextUuid := fun m hm => hbelow m (List.mem_cons_of_mem _ hm)
      have hlength (r : ServerVolume) : (rows ++ [r]).length = start + 1 := by
        rw [List.length_append, hstart, List.length_singleton]
      rw [List.zipIdx_cons] at hfilled ⊢
      cases hfilled with
      | @named _ _ _ _ mounts id hid hfilled =>
          have hold : id < w.nextUuid := hbelow head List.mem_cons_self id hid
          rw [List.zipIdx_cons, homed, hid, List.filterMap_cons_some hid]
          dsimp only
          by_cases hseen : id ∈ seen
          · have hrepeats := (hpending.repeats_iff hold).mpr hseen
            have hdup : ¬ (seen ++ id :: rest.filterMap MountRequest.volumeId).Nodup := fun h =>
              (List.nodup_append.mp h).2.2 id hseen id List.mem_cons_self rfl
            refine ⟨v, by rwa [if_pos hseen], ?_⟩
            rw [if_neg hdup]
            exact saveMounts_repeats hrepeats
          · have hnew : (rows.any fun r => r.volumeId = id) = false :=
              Bool.eq_false_iff.mpr (mt (hpending.repeats_iff hold).mp hseen)
            obtain ⟨u, hu, hstep⟩ := saveMounts_cons answers message home (mounts.zipIdx (start + 1)) hnew hstart hsaved
            have hnext := hpending.named (mountRow server.id (mountFor head start id)) (hold.trans_le hw) hseen
            rw [← List.singleton_append, ← List.append_assoc] at hu
            obtain ⟨t, ht, hrun⟩ := ih hw hrest hfilled hnext (hlength _) hu
            refine ⟨t, ?_, ?_⟩
            · rw [if_neg hseen]
              rwa [List.append_assoc, List.singleton_append] at ht
            · rw [hstep, hrun]
              simp [List.append_assoc]
              rfl
      | @made _ _ _ _ mounts id hid hnext hfilled =>
          have hfresh : ∀ r ∈ rows, r.volumeId ≠ (mountFor head start id).volumeId := fun r hr => ((hpending.below r hr).trans_le hnext).ne
          rw [List.zipIdx_cons, homed, hid, List.filterMap_cons_none hid]
          dsimp only
          have hnew : (rows.any fun r => r.volumeId = (mountFor head start id).volumeId) = false := by
            simpa using hfresh
          obtain ⟨u, hu, hstep⟩ := saveMounts_cons answers message home (mounts.zipIdx (start + 1)) hnew hstart hsaved
          have hmade := hpending.made (mountRow server.id (mountFor head start id)) hnext hw
          rw [← List.singleton_append, ← List.append_assoc] at hu
          obtain ⟨t, ht, hrun⟩ := ih (hw.trans (hnext.trans (Nat.le_succ id))) hrest hfilled hmade (hlength _) hu
          refine ⟨t, ?_, ?_⟩
          · rwa [List.append_assoc, List.singleton_append] at ht
          · rw [hstep, hrun]
            simp [List.append_assoc]

section Stages

variable {row draft : Server} {mounts : Option (List ServerVolume)} {devices : List GpuAllocation} {runtime : Runtime}
  {commits : UpdateCommits} {actorId : Uuid} {actorName : String}

theorem applyEnvironment_raises (h : Held w server.id row mounts devices v) :
    Raises (applyEnvironment answers body draft) v fun _ t =>
      environmentBreak answers body w = some (.configured false) ∧ t = v := by
  unfold applyEnvironment environmentBreak
  cases body.environmentId with
  | none => exact .pure
  | some environmentId =>
      refine .get_bind (.ite (fun hnone => .throw_bind ?_) fun _ => .ite (fun hcannot => .throw_bind ?_) fun _ => .pure)
      · rw [h.environments] at hnone
        exact ⟨if_pos (.inl hnone), rfl⟩
      · exact ⟨if_pos (.inr hcannot), rfl⟩

theorem applyEnvironment_returns (h : Held w server.id row mounts devices v) :
    Returns (applyEnvironment answers body draft) v fun d t =>
      environmentBreak answers body w = none ∧ d = placed body draft ∧ t = v := by
  unfold applyEnvironment environmentBreak placed
  cases body.environmentId with
  | none => exact .pure ⟨rfl, rfl, rfl⟩
  | some environmentId =>
      refine .get_bind (.ite (fun _ => .throw_bind _) fun hsome => .ite (fun _ => .throw_bind _) fun hcan => .pure ?_)
      rw [h.environments] at hsome
      exact ⟨if_neg (not_or.mpr ⟨hsome, hcan⟩), rfl, rfl⟩

theorem configuredRow_containerId (w : World) (body : UpdateRequest) (server : Server) :
    (configuredRow w body server).containerId = server.containerId := by
  unfold configuredRow placed planned withPlan named
  split <;> split <;> split <;> rfl

theorem emptiedRow_userId (w : World) (body : UpdateRequest) (server : Server) :
    (emptiedRow w body server).userId = server.userId := by
  unfold emptiedRow configuredRow placed planned withPlan named
  dsimp only
  split <;> split <;> split <;> split <;> rfl

def sticks (runtime : Runtime) (body : UpdateRequest) (server : Server) : Prop :=
  recreates body ∧ server.containerId.isSome ∧ ¬ runtime.deletes

theorem stop_raises (h : Held w server.id row mounts devices v) :
    Raises (stopContainer runtime body (configuredRow w body server)) v fun _ t =>
      sticks runtime body server ∧ Held w server.id row mounts devices t := by
  unfold stopContainer sticks
  rw [configuredRow_containerId]
  refine .ite (fun hstops => ?_) fun _ => .pure
  refine .bind (fun raise t hr => ?_) fun deleted t hr => .ite (fun hnot => .throw_bind ?_) fun _ => .bind_of_ok rfl .pure
  · unfold Spawner.delete at hr
    split at hr
    · exact nomatch hr
    · exact nomatch hr
  · have hbeside := final_of_ok hr ▸ delete_beside runtime server.containerId v
    refine ⟨⟨hstops.1, hstops.2, ?_⟩, h.beside hbeside⟩
    unfold Spawner.delete at hr
    intro hdeletes
    rw [if_pos hdeletes] at hr
    cases hr
    exact hnot hdeletes

theorem stop_returns (h : Held w server.id row mounts devices v) :
    Returns (stopContainer runtime body (configuredRow w body server)) v fun d t =>
      ¬ sticks runtime body server ∧ d = emptiedRow w body server ∧ Held w server.id row mounts devices t := by
  unfold stopContainer sticks emptiedRow
  dsimp only
  rw [configuredRow_containerId]
  refine .ite (fun hstops => ?_) fun hkeeps => .pure ?_
  · refine .bind fun deleted t hr => .ite (fun _ => .throw_bind _) fun hdeleted => .bind_of_ok rfl (.pure ?_)
    have hheld := h.beside (final_of_ok hr ▸ delete_beside runtime server.containerId v)
    refine ⟨fun hsticks => ?_, ?_, hheld⟩
    · unfold Spawner.delete at hr
      rw [if_neg hsticks.2.2] at hr
      cases hr
      exact hdeleted hsticks.2.2
    · rw [if_pos hstops, hheld.now]
  · exact ⟨fun hsticks => hkeeps ⟨hsticks.1, hsticks.2.1⟩, (if_neg hkeeps).symm, h⟩

theorem SavedUpTo.left {rows : Option (List MountRequest)} (filled : List VolumeMount) {count : Nat} {c : Bool}
    (hbody : body.volumeMounts = rows) (hfilled : Filled w (rows.getD []).zipIdx filled)
    (h : SavedUpTo w body server (rowOf w body server c) (filled.map (mountRow server.id)) count v) :
    Left w body server v (if count = 0 then .configured c else .mounted count) := by
  unfold SavedUpTo at h
  split at h
  · rename_i hzero
    rw [if_pos hzero]
    exact h
  · rename_i hcount
    rw [if_neg hcount]
    rw [← List.map_take] at h
    refine ⟨filled.take count, ?_, h⟩
    rw [hbody]
    exact List.forall₂_take count hfilled

theorem ownerName_held (h : Held w server.id row mounts devices v) :
    ownerName v (emptiedRow w body server) actorName = ownerName w server actorName := by
  rw [ownerName, ownerName, h.users, emptiedRow_userId]

theorem saveBreak_eq (hstops : ¬ sticks runtime body server) {requested : List MountRequest}
    (hbody : body.volumeMounts.getD [] = requested) {count : Nat}
    (hcount : homed answers ("/home/" ++ ownerName w server actorName) requested.zipIdx [] 0 = count) :
    saveBreak answers runtime commits actorId actorName body w server =
      if (requested.filterMap MountRequest.volumeId).Nodup ∧ commits.saved then none
      else some (if count = 0 then .configured (committed actorId body w server requested) else .mounted count) := by
  unfold sticks at hstops
  unfold saveBreak
  dsimp only
  rw [if_neg hstops, hbody, hcount, apply_ite some]

theorem saveUpdate_raises (hmade : NamesMade w body) (hstops : ¬ sticks runtime body server)
    {filled : Option (List VolumeMount)} (hfilled : MountsFor w body filled)
    (h : Held w server.id (rowOf w body server (committed actorId body w server (body.volumeMounts.getD []))) none
      (plannedDevices w body server) v) :
    Raises (saveUpdate answers commits actorName filled (emptiedRow w body server)) v fun _ t =>
      ∃ b, saveBreak answers runtime commits actorId actorName body w server = some b ∧
        b ≠ .broken ∧ Left w body server t b := by
  have hlate (count : Nat) (c : Bool) : (if count = 0 then Break.configured c else .mounted count) ≠ .broken := by
    split <;> nofun
  unfold MountsFor at hfilled
  cases hbody : body.volumeMounts with
  | none =>
      rw [hbody] at hfilled h
      subst hfilled
      have hrequested : body.volumeMounts.getD [] = [] := by rw [hbody]; rfl
      refine .ite (fun hnot => .throw_bind ?_) fun _ => .bind_of_ok (run_commitRow _ _) .pure
      rw [saveBreak_eq hstops hrequested rfl, if_neg fun h => hnot h.2]
      exact ⟨_, rfl, hlate 0 _, SavedUpTo.left [] hbody .nil h⟩
  | some requested =>
      rw [hbody] at hfilled h
      obtain ⟨mounts, rfl, hfilled⟩ := hfilled
      have hrequested : body.volumeMounts.getD [] = requested := by rw [hbody]; rfl
      have hpending : Pending w w.nextUuid [] [] := ⟨nofun, by simp, .nil⟩
      have hstart : SavedUpTo w body server (rowOf w body server (committed actorId body w server requested))
          ([] ++ mounts.map (mountRow server.id)) 0 v := h
      obtain ⟨t, ht, hrun⟩ := saveMounts_run answers commits.message
        ("/home/" ++ ownerName w server actorName) le_rfl (hmade requested hbody) hfilled hpending rfl hstart
      rw [saveBreak_eq hstops hrequested rfl]
      have hleft := SavedUpTo.left mounts hbody (hfilled.filled le_rfl) ht
      refine .get_bind ?_
      dsimp only
      rw [ownerName_held h]
      refine .bind (fun raise u hr => ?_) fun rows u hr => .ite (fun hnot => .throw_bind ?_) fun _ =>
        .bind_of_ok (run_commitRow _ _) (.bind_of_ok rfl .pure)
      · rw [hrun] at hr
        split at hr
        · exact nomatch hr
        · rename_i hdup
          cases hr
          exact ⟨_, if_neg fun h => hdup h.1, hlate _ _, hleft⟩
      · rw [hrun] at hr
        split at hr
        · cases hr
          exact ⟨_, if_neg fun h => hnot h.2, hlate _ _, hleft⟩
        · exact nomatch hr

theorem saveUpdate_returns (hmade : NamesMade w body) (hstops : ¬ sticks runtime body server)
    {filled : Option (List VolumeMount)} (hfilled : MountsFor w body filled)
    (h : Held w server.id row none (plannedDevices w body server) v) :
    Returns (saveUpdate answers commits actorName filled (emptiedRow w body server)) v fun d t =>
      saveBreak answers runtime commits actorId actorName body w server = none ∧
        ∃ rows, SavedAs w body server d rows ∧ Held w server.id d rows (plannedDevices w body server) t := by
  unfold MountsFor at hfilled
  unfold SavedAs
  cases hbody : body.volumeMounts with
  | none =>
      rw [hbody] at hfilled
      subst hfilled
      have hrequested : body.volumeMounts.getD [] = [] := by rw [hbody]; rfl
      refine .ite (fun _ => .throw_bind _) fun hsaved => .bind_of_ok (run_commitRow _ _) (.pure ⟨?_, none, ⟨rfl, rfl⟩, ?_⟩)
      · rw [saveBreak_eq hstops hrequested rfl]
        exact if_pos ⟨.nil, not_not.mp hsaved⟩
      · exact h.commitRow (emptiedRow_id w body server)
  | some requested =>
      rw [hbody] at hfilled
      obtain ⟨mounts, rfl, hfilled⟩ := hfilled
      have hrequested : body.volumeMounts.getD [] = requested := by rw [hbody]; rfl
      have hpending : Pending w w.nextUuid [] [] := ⟨nofun, by simp, .nil⟩
      have hstart : SavedUpTo w body server row ([] ++ mounts.map (mountRow server.id)) 0 v := h
      obtain ⟨t, ht, hrun⟩ := saveMounts_run answers commits.message
        ("/home/" ++ ownerName w server actorName) le_rfl (hmade requested hbody) hfilled hpending rfl hstart
      rw [saveBreak_eq hstops hrequested rfl]
      refine .get_bind ?_
      dsimp only
      rw [ownerName_held h]
      refine .bind fun rows u hr => .ite (fun _ => .throw_bind _) fun hsaved =>
        .bind_of_ok (run_commitRow _ _) (.bind_of_ok rfl (.pure ?_))
      rw [hrun] at hr
      split at hr
      · rename_i hnodup
        cases hr
        refine ⟨if_pos ⟨hnodup, not_not.mp hsaved⟩, _, ⟨mounts, hfilled.filled le_rfl, rfl, rfl⟩, ?_⟩
        have hall := ht.commitAll { emptiedRow w body server with
          volumeId := (primaryVolume mounts).or (emptiedRow w body server).volumeId } (emptiedRow_id w body server)
          ([] ++ mounts.map (mountRow server.id))
        rw [← emptiedRow_id w body server] at hall ⊢
        exact hall
      · exact nomatch hr

end Stages

end Saving

end NukeLab.UpdateStages
