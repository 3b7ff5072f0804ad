import NukeLab.UpdateStages

namespace NukeLab.UpdateAtomicity

open Program Tables Records State GpuAllocator Quota DockerNames Spawner Lifecycle Launches ServerUpdate UpdateBreaks
open UpdateStages
open Creation hiding named
open CreationAtomicity hiding Untouched IdsBelow Break Clean mountNames breakOf volumesBreak spawnBreak bodyBreak

section Respawns

variable {w v : World} {body : UpdateRequest} {server d : Server} {rows : Option (List ServerVolume)} {runtime : Runtime}
  {commits : UpdateCommits} {actorName : String}

def hostFull : Raise :=
  .http 429 "No GPUs available on the host (all devices are in use). Please try again later."

theorem ensureGpuDevices_run (v : World) (serverId : Uuid) (count : Int) :
    ∃ devices, (ensureGpuDevices serverId count).run v =
      if lacksDevices v serverId count then
        if allocatable v count then .ok devices (allocated v serverId count) else .error hostFull v
      else .ok devices v := by
  have hlacks : lacksDevices v serverId count = true ↔
      ¬ (¬ enabled v.settings = true ∨ count ≤ 0) ∧ devicesOf v.gpuAllocations serverId = [] := by
    simp [lacksDevices, not_le]
  have hdevices : (devicesFor serverId).run v = .ok (devicesOf v.gpuAllocations serverId) v := rfl
  by_cases hneeds : ¬ enabled v.settings = true ∨ count ≤ 0
  · refine ⟨none, ?_⟩
    rw [if_neg fun h => (hlacks.mp h).1 hneeds]
    simp only [ensureGpuDevices, EStateM.run_bind, EStateM.run_get, if_pos hneeds, EStateM.run_pure]
  by_cases howned : devicesOf v.gpuAllocations serverId = []
  · have hmissing := hlacks.mpr ⟨hneeds, howned⟩
    obtain ⟨henabled, hcount⟩ := not_or.mp hneeds
    have hallocate := allocate_run v serverId (not_le.mp hcount) (not_not.mp henabled)
    cases hall : allocatable v count with
    | true =>
        rw [hall] at hallocate
        refine ⟨some (taken v count), ?_⟩
        rw [if_pos hmissing]
        simp only [ensureGpuDevices, EStateM.run_bind, EStateM.run_get, if_neg hneeds, hdevices, howned, ne_eq,
          not_true_eq_false, if_false, hallocate, if_true, EStateM.run_pure]
    | false =>
        rw [hall] at hallocate
        refine ⟨none, ?_⟩
        rw [if_pos hmissing]
        simp only [ensureGpuDevices, EStateM.run_bind, EStateM.run_get, if_neg hneeds, hdevices, howned, ne_eq,
          not_true_eq_false, if_false, hallocate, Bool.false_eq_true, run_throw, hostFull]
  · refine ⟨some (devicesOf v.gpuAllocations serverId), ?_⟩
    rw [if_neg fun h => howned (hlacks.mp h).2]
    simp only [ensureGpuDevices, EStateM.run_bind, EStateM.run_get, if_neg hneeds, hdevices, ne_eq, howned,
      not_false_eq_true, if_true, EStateM.run_pure]

theorem spawn_fails (runtime : Runtime) (request : SpawnRequest) (hsettings : v.settings = w.settings) :
    Raises (spawn runtime request) v fun _ _ => (spawnFails runtime w request.gpu []).isSome = true := by
  intro raise t hr
  obtain ⟨-, ensured, hfails, -⟩ := spawn_raises raise t hr
  rw [← isSome_spawnFails runtime hsettings, hfails]
  rfl

theorem spawn_runs (runtime : Runtime) (request : SpawnRequest) (hsettings : v.settings = w.settings) :
    Returns (spawn runtime request) v fun _ _ => ¬ (spawnFails runtime w request.gpu []).isSome = true := by
  intro new t hr
  obtain ⟨hfails, -⟩ := spawn_spawned new t hr
  rw [← isSome_spawnFails runtime hsettings, hfails]
  exact Bool.false_ne_true

theorem savedAs_draft (h : SavedAs w body server d rows) : ∃ volumeId, d = { emptiedRow w body server with volumeId := volumeId } := by
  unfold SavedAs at h
  split at h
  · exact ⟨_, h.1⟩
  · obtain ⟨filled, -, -, hd⟩ := h
    exact ⟨_, hd⟩

theorem savedAs_containerId (hrecreates : recreates body = true) (h : SavedAs w body server d rows) : d.containerId = none := by
  obtain ⟨volumeId, rfl⟩ := savedAs_draft h
  unfold emptiedRow
  dsimp only
  split
  · rfl
  · rename_i hkeeps
    exact Option.not_isSome_iff_eq_none.mp fun hsome => hkeeps ⟨hrecreates, hsome⟩

theorem gpuCount_savedAs (h : SavedAs w body server d rows) :
    serverGpuCount d (planOf w d) = serverGpuCount (configuredRow w body server) (planOf w (configuredRow w body server)) := by
  obtain ⟨volumeId, rfl⟩ := savedAs_draft h
  unfold emptiedRow
  dsimp only
  split <;> rfl

theorem lacksDevices_held {serverId : Uuid} {row : Server} {devices : List GpuAllocation}
    (h : Held w serverId row rows devices v) (count : Int) :
    lacksDevices { w with gpuAllocations := devices } serverId count = lacksDevices v serverId count := by
  rw [lacksDevices, lacksDevices, h.settings, h.devices]

theorem allocatable_held {serverId : Uuid} {row : Server} {devices : List GpuAllocation}
    (h : Held w serverId row rows devices v) (count : Int) :
    allocatable { w with gpuAllocations := devices } count = allocatable v count :=
  allocatable_congr (u := { w with gpuAllocations := devices }) h.settings.symm h.devices.symm count

theorem found_commitRow {serverId : Uuid} {row draft : Server} (h : v.servers.find serverId = some row)
    (hid : draft.id = serverId) : (final (commitRow draft) v).servers.find serverId = some draft := by
  have hrow : row.id = serverId := Table.key_of_find h
  subst hid
  have hfound := Table.find_modify_self (fun s => { draft with id := s.id }) (fun _ => rfl) h
  rw [hrow] at hfound
  exact hfound

theorem respawnUpdated_raises (hrecreates : recreates body = true) (hsaved : SavedAs w body server d rows)
    (h : Held w server.id d rows (plannedDevices w body server) v) :
    Raises (respawnUpdated runtime commits actorName d) v fun _ t =>
      ∃ b, respawnBreak runtime commits body w server = some b ∧ Left w body server t b := by
  have hid : d.id = server.id := Table.key_of_find h.found
  have hplan : planOf v d = planOf w d := by rw [planOf, planOf, h.plans]
  unfold respawnUpdated respawnBreak
  dsimp only
  rw [if_neg (not_not.mpr hrecreates), ← gpuCount_savedAs hsaved]
  refine .get_bind ?_
  rw [hplan, hid]
  generalize hcount : serverGpuCount d (planOf w d) = count
  rw [lacksDevices_held h, allocatable_held h]
  obtain ⟨devices, hensure⟩ := ensureGpuDevices_run v server.id count
  have hlate (missing : Bool) (t : World) (hleft : Left w body server t (.saved missing)) {o : Option Break}
      (ho : o = some (.saved missing)) :
      ∃ b, o = some b ∧ Left w body server t b :=
    ⟨_, ho, hleft⟩
  by_cases hdry : lacksDevices v server.id count = true ∧ ¬ allocatable v count = true
  · rw [if_pos hdry.1, if_neg hdry.2] at hensure
    refine .bind (fun e t hr => ?_) fun _ _ hr => by cases hensure.symm.trans hr
    cases hensure.symm.trans hr
    exact hlate false v ⟨d, rows, hsaved, h⟩ (if_pos hdry)
  rw [if_neg hdry]
  -- From here on the devices are reserved that were missing.
  obtain ⟨u, reserved, hrun, hheld, hleft⟩ : ∃ u reserved, (ensureGpuDevices server.id count).run v = .ok devices u ∧
      Held w server.id d rows reserved u ∧
      ∀ t, Beside u t → Left w body server t (.saved (lacksDevices v server.id count)) := by
    cases hmissing : lacksDevices v server.id count with
    | false =>
        rw [hmissing] at hensure
        exact ⟨v, _, hensure, h, fun t ht => ⟨d, rows, hsaved, h.beside ht⟩⟩
    | true =>
        have hall : allocatable v count = true := by
          by_contra hshort
          exact hdry ⟨hmissing, hshort⟩
        have hcount : 0 < count := by
          simp only [lacksDevices, Bool.and_eq_true, decide_eq_true_eq] at hmissing
          exact hmissing.1.2
        rw [hmissing, hall] at hensure
        have hheld : Held w server.id d rows (allocated v server.id count).gpuAllocations (allocated v server.id count) :=
          h.withDevices _ (Nat.le_add_right _ _)
        exact ⟨_, _, hensure, hheld, fun t ht => ⟨d, rows, hsaved, v, count, hcount, hall, h.bound, hheld.beside ht⟩⟩
  refine .bind_of_ok hrun ?_
  have hgpu : (spawnRequestFor v d (planOf w d) (ownerName v d actorName) devices).gpu = count := hcount
  generalize spawnRequestFor v d (planOf w d) (ownerName v d actorName) devices = request at hgpu
  have hattempt := attempt_run (spawn runtime request) u
  cases hspawn : (spawn runtime request).run u with
  | ok new t =>
      rw [hspawn] at hattempt
      have hruns := spawn_runs runtime request hheld.settings new t hspawn
      rw [hgpu] at hruns
      rw [if_neg hruns]
      refine .bind_of_ok hattempt (.ite (fun hnot => .throw_bind ?_) fun _ => .bind_of_ok rfl (.bind_of_ok rfl .pure))
      exact hlate _ t (hleft t (final_of_ok hspawn ▸ spawn_beside runtime request u)) (if_neg hnot)
  | error e t =>
      rw [hspawn] at hattempt
      have hfails := spawn_fails runtime request hheld.settings e t hspawn
      rw [hgpu] at hfails
      rw [if_pos hfails]
      have hbeside := final_of_error hspawn ▸ spawn_beside runtime request u
      refine .bind_of_ok hattempt (.ite (fun hnot => .throw_bind ?_) fun hrecorded => ?_)
      · exact hlate _ t (hleft t hbeside) (if_neg hnot)
      · refine .bind_of_ok (run_commitRow _ _) (.bind_of_ok rfl (.throw ?_))
        refine ⟨.broken, if_pos (not_not.mp hrecorded), d, rows, reserved, hsaved, ?_⟩
        have hbroken : (brokenFields d).id = server.id := hid
        exact ((hheld.beside hbeside).commitRow hbroken).freed

theorem respawnUpdated_returns (hrecreates : recreates body = true) (hsaved : SavedAs w body server d rows)
    (h : Held w server.id d rows (plannedDevices w body server) v) :
    Returns (respawnUpdated runtime commits actorName d) v fun row t =>
      respawnBreak runtime commits body w server = none ∧ t.servers.find server.id = some row ∧
        ∃ new : Server, new.containerId.isSome = true ∧ row = respawnedFields new w.now d := by
  have hid : d.id = server.id := Table.key_of_find h.found
  have hplan : planOf v d = planOf w d := by rw [planOf, planOf, h.plans]
  unfold respawnUpdated respawnBreak
  dsimp only
  rw [if_neg (not_not.mpr hrecreates), ← gpuCount_savedAs hsaved]
  refine .get_bind ?_
  rw [hplan, hid]
  generalize hcount : serverGpuCount d (planOf w d) = count
  rw [lacksDevices_held h, allocatable_held h]
  obtain ⟨devices, hensure⟩ := ensureGpuDevices_run v server.id count
  by_cases hdry : lacksDevices v server.id count = true ∧ ¬ allocatable v count = true
  · rw [if_pos hdry.1, if_neg hdry.2] at hensure
    exact .bind fun _ _ hr => by cases hensure.symm.trans hr
  rw [if_neg hdry]
  refine .bind fun devices u hr => ?_
  have hu : OffBooks v u := final_of_ok hr ▸ ensureGpuDevices_offBooks server.id count v
  have hgpu : (spawnRequestFor v d (planOf w d) (ownerName v d actorName) devices).gpu = count := hcount
  dsimp only
  generalize spawnRequestFor v d (planOf w d) (ownerName v d actorName) devices = request at hgpu ⊢
  have hattempt := attempt_run (spawn runtime request) u
  cases hspawn : (spawn runtime request).run u with
  | ok new t =>
      rw [hspawn] at hattempt
      have hruns := spawn_runs runtime request (hu.settings.trans h.settings) new t hspawn
      rw [hgpu] at hruns
      obtain ⟨ht, containerId, rfl⟩ := spawn_returns runtime request u new t hspawn
      have hbooks := trans_of OffBooks hu ht
      rw [if_neg hruns]
      refine .bind_of_ok hattempt (.ite (fun _ => .throw_bind _) fun hstarted => .bind_of_ok rfl (.bind_of_ok rfl (.pure ?_)))
      refine ⟨if_pos (not_not.mp hstarted), ?_, _, rfl, by rw [hbooks.now, h.now]⟩
      exact found_commitRow (hbooks.servers ▸ h.found) hid
  | error e t =>
      rw [hspawn] at hattempt
      refine .bind_of_ok hattempt (.ite (fun _ => .throw_bind _) fun _ => .bind fun _ _ _ => .bind fun _ _ _ => .throw _)

end Respawns

section Updates

variable {w t : World} {answers : UpdateAnswers} {runtime : Runtime} {commits : UpdateCommits} {actorId : Uuid}
  {actorName : String} {body : UpdateRequest} {serverId : Uuid} {server : Server}

theorem respawn_raises {v : World} {d : Server} {rows : Option (List ServerVolume)} (hsaved : SavedAs w body server d rows)
    (h : Held w server.id d rows (plannedDevices w body server) v) :
    Raises (if recreates body ∧ d.containerId = none then respawnUpdated runtime commits actorName d else pure d) v
      fun _ t =>
        recreates body = true ∧ ∃ b, respawnBreak runtime commits body w server = some b ∧ Left w body server t b :=
  .ite (fun hrespawns => fun raise t hr => ⟨hrespawns.1, respawnUpdated_raises hrespawns.1 hsaved h raise t hr⟩) fun _ => .pure

/-- Where an update breaks off once its name is free, and what that leaves. -/
theorem applyUpdate_raises (hmade : NamesMade w body) (hfind : w.servers.find server.id = some server) :
    Raises (applyUpdate answers runtime commits actorId actorName body (named body server)) w fun _ t =>
      ∃ b, (planBreak answers actorId body w server).or
          ((environmentBreak answers body w).or
            ((mountsBreak answers actorId body w server).or
              ((saveBreak answers runtime commits actorId actorName body w server).or
                (respawnBreak runtime commits body w server)))) = some b ∧
        (b ≠ .early → b ≠ .checked → b ≠ .short → Allotted w body server) ∧ (b = .broken → recreates body = true) ∧
        Left w body server t b := by
  unfold applyUpdate
  refine .bind (fun raise t hr => ?_) fun _ v hr => ?_
  · obtain ⟨b, hbreak, hearly, hleft⟩ := applyPlan_raises hfind raise t hr
    rw [hbreak]
    refine ⟨b, rfl, fun h₁ h₂ h₃ => (hearly.elim h₁ (Or.rec h₂ h₃)).elim, ?_, hleft⟩
    rintro rfl
    simp at hearly
  obtain ⟨hplan, rfl, hallotted, hready⟩ := applyPlan_returns hfind _ v hr
  rw [hplan]
  clear hr
  refine .bind (fun raise t hr => ?_) fun _ v' hr => ?_
  · obtain ⟨hbreak, rfl⟩ := applyEnvironment_raises hready.toHeld raise t hr
    rw [hbreak]
    exact ⟨_, rfl, fun _ _ _ => hallotted, nofun, hready.toHeld⟩
  obtain ⟨henvironment, rfl, rfl⟩ := applyEnvironment_returns hready.toHeld _ v' hr
  rw [henvironment]
  change Raises (applyMounts answers runtime.message actorId body (configuredRow w body server) >>= _) v' _
  refine .bind (fun raise t hr => ?_) fun filled u hr => ?_
  · obtain ⟨b, hbreak, ⟨c, rfl⟩, hleft⟩ := applyMounts_raises hready raise t hr
    rw [hbreak]
    exact ⟨_, rfl, fun _ _ _ => hallotted, nofun, hleft⟩
  obtain ⟨hmounts, hfilled, hheld⟩ := applyMounts_returns hready filled u hr
  rw [hmounts]
  refine .bind (fun raise t hr => ?_) fun _ u' hr => ?_
  · obtain ⟨hsticks, hheld⟩ := stop_raises hheld raise t hr
    have hbreak : saveBreak answers runtime commits actorId actorName body w server =
        some (.configured (committed actorId body w server (body.volumeMounts.getD []))) := if_pos hsticks
    rw [hbreak]
    exact ⟨_, rfl, fun _ _ _ => hallotted, nofun, hheld⟩
  obtain ⟨hstops, rfl, hheld⟩ := stop_returns hheld _ u' hr
  refine .bind (fun raise t hr => ?_) fun d t' hr => ?_
  · obtain ⟨b, hbreak, hintact, hleft⟩ := saveUpdate_raises hmade hstops hfilled hheld raise t hr
    rw [hbreak]
    exact ⟨b, rfl, fun _ _ _ => hallotted, fun h => absurd h hintact, hleft⟩
  obtain ⟨hsaves, rows, hsaved, hheld⟩ := saveUpdate_returns hmade hstops hfilled hheld d t' hr
  rw [hsaves]
  intro raise t hr
  obtain ⟨hrecreates, b, hbreak, hleft⟩ := respawn_raises hsaved hheld raise t hr
  exact ⟨b, hbreak, fun _ _ _ => hallotted, fun _ => hrecreates, hleft⟩

theorem applyName_returns :
    Returns (applyName body server) w fun d t =>
      (body.name.bind fun name => nameRefusal w server.userId name (some server.id)) = none ∧ d = named body server ∧
        t = w := by
  unfold applyName named
  cases body.name with
  | none => exact .pure ⟨rfl, rfl, rfl⟩
  | some name =>
      refine .get_bind ?_
      rw [Option.bind_some]
      cases nameRefusal w server.userId name (some server.id) with
      | some refusal => exact .throw _
      | none => exact .pure ⟨rfl, rfl, rfl⟩

theorem applyName_raises :
    Raises (applyName body server) w fun _ t =>
      (body.name.bind fun name => nameRefusal w server.userId name (some server.id)).isSome = true ∧ t = w := by
  unfold applyName
  cases body.name with
  | none => exact .pure
  | some name =>
      refine .get_bind ?_
      rw [Option.bind_some]
      cases nameRefusal w server.userId name (some server.id) with
      | some refusal => exact .throw ⟨rfl, rfl⟩
      | none => exact .pure

theorem updateServer_breaks (hmade : NamesMade w body) (hfind : w.servers.find serverId = some server) :
    Raises (updateServer answers runtime commits actorId actorName serverId body) w fun _ t =>
      ∃ b, breakOf answers runtime commits actorId actorName body w serverId = some b ∧
        (b ≠ .early → b ≠ .checked → b ≠ .short → Allotted w body server) ∧ (b = .broken → recreates body = true) ∧
        Left w body server t b := by
  have hid : server.id = serverId := Table.key_of_find hfind
  have hfind' : w.servers.find server.id = some server := hid ▸ hfind
  have hrun : (findServer serverId).run w = .ok (some server) w := by rw [← hfind]; rfl
  have hearly {t : World} (ht : t = w) : Left w body server t .early := by
    rw [ht]
    exact held_start hfind'
  unfold updateServer breakOf
  rw [hfind]
  refine .bind_of_ok hrun ?_
  dsimp only
  cases haccess : answers.accessRefusal with
  | some refusal => exact .throw ⟨.early, if_pos (.inl rfl), fun h => absurd rfl h, nofun, hearly rfl⟩
  | none =>
      refine .bind (fun raise t hr => ?_) fun _ v hr => ?_
      · obtain ⟨htaken, ht⟩ := applyName_raises raise t hr
        exact ⟨.early, if_pos (.inr htaken), fun h => absurd rfl h, nofun, hearly ht⟩
      obtain ⟨hfree, rfl, rfl⟩ := applyName_returns _ v hr
      rw [hfree, if_neg (by simp)]
      exact applyUpdate_raises hmade hfind'

theorem applyUpdate_returns (hmade : NamesMade w body) (hfind : w.servers.find server.id = some server) :
    Returns (applyUpdate answers runtime commits actorId actorName body (named body server)) w fun row t =>
      (planBreak answers actorId body w server).or
          ((environmentBreak answers body w).or
            ((mountsBreak answers actorId body w server).or
              ((saveBreak answers runtime commits actorId actorName body w server).or
                (respawnBreak runtime commits body w server)))) = none ∧
        t.servers.find server.id = some row ∧ ∃ saved rows, SavedAs w body server saved rows ∧
          if recreates body then ∃ new : Server, new.containerId.isSome = true ∧ row = respawnedFields new w.now saved
          else row = saved := by
  unfold applyUpdate
  refine .bind fun _ v hr => ?_
  obtain ⟨hplan, rfl, hallotted, hready⟩ := applyPlan_returns hfind _ v hr
  rw [hplan]
  clear hr
  refine .bind fun _ v' hr => ?_
  obtain ⟨henvironment, rfl, rfl⟩ := applyEnvironment_returns hready.toHeld _ v' hr
  rw [henvironment]
  change Returns (applyMounts answers runtime.message actorId body (configuredRow w body server) >>= _) v' _
  refine .bind fun filled u hr => ?_
  obtain ⟨hmounts, hfilled, hheld⟩ := applyMounts_returns hready filled u hr
  rw [hmounts]
  refine .bind fun _ u' hr => ?_
  obtain ⟨hstops, rfl, hheld⟩ := stop_returns hheld _ u' hr
  refine .bind fun saved t' hr => ?_
  obtain ⟨hsaves, rows, hsaved, hheld⟩ := saveUpdate_returns hmade hstops hfilled hheld saved t' hr
  rw [hsaves]
  refine .ite (fun hrespawns => fun row t hr' => ?_) fun hkeeps => .pure ?_
  · obtain ⟨hbreak, hfound, hrow⟩ := respawnUpdated_returns hrespawns.1 hsaved hheld row t hr'
    refine ⟨hbreak, hfound, saved, rows, hsaved, ?_⟩
    rw [if_pos hrespawns.1]
    exact hrow
  · have hno : ¬ recreates body = true := fun hrecreates => hkeeps ⟨hrecreates, savedAs_containerId hrecreates hsaved⟩
    refine ⟨if_pos hno, hheld.found, saved, rows, hsaved, ?_⟩
    rw [if_neg hno]

theorem updateServer_returns (hmade : NamesMade w body) (hfind : w.servers.find serverId = some server) :
    Returns (updateServer answers runtime commits actorId actorName serverId body) w fun row t =>
      breakOf answers runtime commits actorId actorName body w serverId = none ∧
        t.servers.find serverId = some row ∧ ∃ saved rows, SavedAs w body server saved rows ∧
          if recreates body then ∃ new : Server, new.containerId.isSome = true ∧ row = respawnedFields new w.now saved
          else row = saved := by
  obtain rfl : server.id = serverId := Table.key_of_find hfind
  have hrun : (findServer server.id).run w = .ok (some server) w := by rw [← hfind]; rfl
  unfold updateServer breakOf
  rw [hfind]
  refine .bind_of_ok hrun ?_
  dsimp only
  cases haccess : answers.accessRefusal with
  | some refusal => exact .throw _
  | none =>
      refine .bind fun _ v hr => ?_
      obtain ⟨hfree, rfl, rfl⟩ := applyName_returns _ v hr
      rw [hfree, if_neg (by simp)]
      exact applyUpdate_returns hmade hfind

/-- An update that raises has left the server as it was exactly when what it had
committed by then changes nothing. -/
theorem updateServer_unchanged_iff (answers : UpdateAnswers) (runtime : Runtime) (commits : UpdateCommits) (actorId : Uuid)
    (actorName : String) (body : UpdateRequest) (w : World) (serverId : Uuid) (hids : IdsBelow w body) (raise : Raise)
    (t : World) (h : (updateServer answers runtime commits actorId actorName serverId body).run w = .error raise t) :
    Unchanged serverId w t ↔
      ∀ b ∈ breakOf answers runtime commits actorId actorName body w serverId,
        ∀ server ∈ w.servers.find serverId, Clean w body server b := by
  cases hfind : w.servers.find serverId with
  | none =>
      have hrun : (findServer serverId).run w = .ok none w := by rw [← hfind]; rfl
      rw [updateServer, EStateM.run_bind, hrun] at h
      cases h
      exact iff_of_true ⟨rfl, fun _ _ => Iff.rfl, fun _ _ => Iff.rfl⟩ fun _ _ _ h => nomatch h
  | some server =>
      obtain rfl : server.id = serverId := Table.key_of_find hfind
      obtain ⟨b, hbreak, hallotted, -, hleft⟩ := updateServer_breaks hids.requested hfind raise t h
      rw [hbreak]
      simp only [Option.mem_def, Option.some.injEq, forall_eq']
      exact left_iff hids hfind hallotted hleft

end Updates

/-- Ada's server "lab" runs there, and plan 8 takes more processors than she may have. -/
def labWorld : World :=
  { oneUserWorld with
    plans := fun p =>
      if p = 7 then some (newPlan "small" 5) else if p = 8 then some { newPlan "huge" 5 with cpuLimit := 1000 } else none
    servers := oneUserWorld.servers.insert (newServer 5 1 7 6 "lab" 0) }

def agreeable : UpdateAnswers where
  accessRefusal := none
  canUsePlan := true
  canUseEnvironment := true
  mountRefusal := fun _ => none
  volumesRefusal := none
  volumeFault := fun _ => none
  marksHome := fun _ => false

def toPlan (name : Option String) (planId : Uuid) : UpdateRequest where
  name := name
  planId := some planId
  environmentId := none
  volumeMounts := none

theorem labWorld_ids (name : Option String) : IdsBelow labWorld (toPlan name 8) :=
  ⟨fun _ h => (List.not_mem_nil h).elim, fun _ h => (List.not_mem_nil h).elim, fun _ h => (Option.not_mem_none _ h).elim⟩

/-- A plan that is refused on its own leaves the server as it was. -/
theorem updateServer_unchanged_iff_lab :
    Unchanged 5 labWorld (final (updateServer agreeable (obedient .running) .succeed 1 "ada" 5 (toPlan none 8)) labWorld) := by
  have hraised : (raised (updateServer agreeable (obedient .running) .succeed 1 "ada" 5 (toPlan none 8)) labWorld).isSome =
      true := by decide +kernel
  have hbreak : breakOf agreeable (obedient .running) .succeed 1 "ada" (toPlan none 8) labWorld 5 = some .checked := by
    decide +kernel
  obtain ⟨raise, hraise⟩ := Option.isSome_iff_exists.mp hraised
  rw [updateServer_unchanged_iff agreeable (obedient .running) .succeed 1 "ada" (toPlan none 8) labWorld 5
    (labWorld_ids none) raise _ (run_of_raised hraise), hbreak]
  intro b hb server hserver
  cases hb
  exact ⟨rfl, nofun⟩

/-- The usage check of a plan commits the new name before it refuses the plan. -/
theorem renamed_for_refused_plan :
    IdsBelow labWorld (toPlan (some "desk") 8) ∧
      ∃ raise t, (updateServer agreeable (obedient .running) .succeed 1 "ada" 5 (toPlan (some "desk") 8)).run labWorld =
          .error raise t ∧ ¬ Unchanged 5 labWorld t := by
  have hraised : (raised (updateServer agreeable (obedient .running) .succeed 1 "ada" 5 (toPlan (some "desk") 8))
      labWorld).isSome = true := by decide +kernel
  obtain ⟨raise, hraise⟩ := Option.isSome_iff_exists.mp hraised
  refine ⟨labWorld_ids _, raise, _, run_of_raised hraise, fun hsame => ?_⟩
  exact absurd (congrArg (Option.map Server.name) hsame.row) (by decide +kernel)

end NukeLab.UpdateAtomicity
