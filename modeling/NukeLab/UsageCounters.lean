import NukeLab.Exits
import NukeLab.Launches
import NukeLab.Creation
import NukeLab.ServerQueue
import NukeLab.Machine

namespace NukeLab.UsageCounters

open Program Machine Tables Quantities Records State Ledger GpuAllocator Quota Spawner Billing Lifecycle
  Creation ServerQueue Settlement Exits Launches

def Truthful (userId : Uuid) (w : World) : Prop := (quotaOf w userId).usage = recalculated w userId none

/-- Neither the counters of the user nor what they count have changed. -/
structure Aside (userId : Uuid) (w w' : World) : Prop where
  servers : w'.servers = w.servers := by rfl
  plans : w'.plans = w.plans := by rfl
  usage : (quotaOf w' userId).usage = (quotaOf w userId).usage := by rfl
  nextUuid : w.nextUuid ≤ w'.nextUuid := by first | exact Nat.le_refl _ | exact Nat.le_add_right _ _

instance (userId : Uuid) : IsPreorder World (Aside userId) where
  refl _ := {}
  trans _ _ _ h h' :=
    ⟨h'.servers.trans h.servers, h'.plans.trans h.plans, h'.usage.trans h.usage, h.nextUuid.trans h'.nextUuid⟩

section Frame

variable {userId : Uuid} {w w' : World}

theorem Aside.truthful (h : Aside userId w w') (ht : Truthful userId w) : Truthful userId w' := by
  have hcounts : w'.servers.rows.map (counted userId) = w.servers.rows.map (counted userId) := by rw [h.servers]
  rw [Truthful, h.usage, recalculated_congr hcounts]
  exact ht

theorem OffBooks.aside (h : OffBooks w w') (userId : Uuid) : Aside userId w w' := by
  refine ⟨h.servers, h.plans, ?_, h.nextUuid⟩
  rw [quotaOf, quotaOf, h.quotas, h.settings]

theorem Recorded.aside {draft : TransactionDraft} (h : Recorded draft w w') (userId : Uuid) : Aside userId w w' := by
  cases h with
  | refused => exact refl_of (Aside userId) w
  | posted user huser hnonneg => exact {}

theorem aside_of_offBooks {ε α : Type} {m : EStateM ε World α} (userId : Uuid) (h : Moves OffBooks m) :
    Moves (Aside userId) m :=
  h.mono fun _ _ hw => OffBooks.aside hw userId

theorem updateEntry_offBooks (id : Uuid) (f : QueueEntry → QueueEntry) : Moves OffBooks (updateEntry id f) :=
  offBooks_modify fun _ => ⟨rfl, rfl, rfl, rfl, rfl, rfl, rfl, le_rfl⟩

theorem updateEntry_aside (id : Uuid) (f : QueueEntry → QueueEntry) : Moves (Aside userId) (updateEntry id f) :=
  aside_of_offBooks userId (updateEntry_offBooks id f)

theorem release_offBooks (serverId : Uuid) : Moves OffBooks (release serverId) := offBooks_modify fun _ => ⟨rfl, rfl, rfl, rfl, rfl, rfl, rfl, le_rfl⟩

theorem newUuid_offBooks : Moves OffBooks newUuid := fun _ => ⟨rfl, rfl, rfl, rfl, rfl, rfl, rfl, Nat.le_succ _⟩

theorem giveUp_offBooks (entry : QueueEntry) (serverId : Uuid) (raise : Raise) : Moves OffBooks (giveUp entry serverId raise) :=
  .bind (release_offBooks serverId) fun _ => updateEntry_offBooks _ _

theorem enqueue_offBooks (commits : Commits) (request : CreateRequest) (plan : ServerPlan) :
    Moves OffBooks (enqueue commits userId request plan) := by
  refine .bind newUuid_offBooks fun _ => .bind ?_ fun _ => .pure _
  exact .ite (offBooks_modify fun _ => ⟨rfl, rfl, rfl, rfl, rfl, rfl, rfl, le_rfl⟩) (.throw _)

theorem getOrCreateUserQuota_aside (owner : Uuid) : Moves (Aside userId) (getOrCreateUserQuota owner) := by
  intro w
  refine ⟨rfl, rfl, ?_, Nat.le_refl _⟩
  show (quotaOf { w with quotas := Function.update w.quotas owner (some (quotaOf w owner)) } userId).usage = _
  by_cases h : userId = owner
  · subst h
    rw [quotaOf_update_self]
  · simp only [quotaOf, Function.update_of_ne h]

theorem checkNewVolumes_aside (owner : Uuid) (newBytes : Int) : Moves (Aside userId) (checkNewVolumes owner newBytes) := by
  refine .ite (.bind (.bind (getOrCreateUserQuota_aside owner) fun _ => .bind .get fun _ => .pure _) fun refusal => ?_)
    (.pure _)
  cases refusal with
  | none => exact .pure _
  | some refusal => exact .throw _

theorem createVolume_offBooks (fault : Option VolumeFault) (message name : String) (ownerId : Uuid) (size : Int) :
    Moves OffBooks (createVolume fault message name ownerId size) := by
  refine .ite (.throw_bind _ _) (.ite (.throw_bind _ _) (.ite (.throw_bind _ _) ?_))
  refine .bind (ensureVolumes_offBooks _) fun _ => .bind .get fun _ => .ite (.throw_bind _ _) (.bind newUuid_offBooks fun _ => ?_)
  exact .bind (offBooks_modify fun _ => ⟨rfl, rfl, rfl, rfl, rfl, rfl, rfl, le_rfl⟩) fun _ => .ite (.throw_bind _ _) (.pure _)

theorem moves_listing {R : World → World → Prop} {α : Type} {listed : List String} {expired : Bool} {h : Handler α}
    (hm : Moves R h) : Moves R (listing listed expired h) := by
  intro w
  rw [final_listing]
  exact hm w

theorem prepareMounts_offBooks (answers : CreateAnswers) (message : String) (owner : Uuid) (serverName : String)
    (plan : ServerPlan) (requested : List (MountRequest × Nat)) (listed : List String) :
    Moves OffBooks (prepareMounts answers message owner serverName plan requested listed) := by
  induction requested generalizing listed with
  | nil => exact .pure _
  | cons head rest ih =>
      obtain ⟨mount, idx⟩ := head
      cases hid : mount.volumeId with
      | some volumeId =>
          simp only [prepareMounts, hid]
          exact .bind (ih listed) fun _ => .pure _
      | none =>
          simp only [prepareMounts, hid]
          exact .bind (moves_listing (createVolume_offBooks _ _ _ _ _)) fun _ => .bind (ih _) fun _ => .pure _

theorem spawnNew_offBooks (runtime : Runtime) (request : SpawnRequest) : Moves OffBooks (spawnNew runtime request) :=
  .tryCatch (spawn_offBooks runtime request) fun _ => .bind (.modify fun _ => ⟨rfl, rfl, rfl, rfl, rfl, rfl, rfl, le_rfl⟩) fun _ => .throw _

end Frame

section Creations

variable {w : World} {runtime : Runtime} {commits : Commits} {request : SpawnRequest} {planId : Uuid} {plan : ServerPlan}
  {user : User}

def AsPlanned (request : SpawnRequest) (plan : ServerPlan) : Prop :=
  (⟨request.cpu, request.memory, request.gpu, 1⟩ : Usage) = planUsage plan

def FitsExactly (w : World) (userId : Uuid) (plan : ServerPlan) : Prop :=
  Usage.Exact (shares w userId none ++ [planUsage plan])

theorem created_truthful {v w' : World} (hcreated : Created request planId v w')
    (hnew : v.servers.find request.serverId = none) (hplan : v.plans planId = some plan) (hsize : AsPlanned request plan)
    (hexact : FitsExactly v request.userId plan) (ht : Truthful request.userId v) : Truthful request.userId w' := by
  cases hcreated with
  | saved row quota mounts hv hrow hquota =>
      have hcounted : counted request.userId row = planUsage plan := by
        rw [counted, hrow.userId, hrow.status, if_pos ⟨rfl, rfl⟩, hrow.usage, hsize]
      have hpositive : planUsage plan ≠ 0 := fun h => absurd (congrArg Usage.servers h) Int.one_ne_zero
      have hnew : v.servers.find row.id = none := hrow.id ▸ hnew
      have hkept : [planUsage plan].filter (· ≠ 0) = [planUsage plan] := List.filter_cons_of_pos (decide_eq_true hpositive)
      have hbefore : recalculated v request.userId none = (shares v request.userId none).sum :=
        (hexact.sublist (List.sublist_append_left _ _)).sum
      have htotal : (shares v request.userId none ++ [planUsage plan]).sum =
          (shares v request.userId none).sum + planUsage plan := by
        rw [List.sum_append, List.sum_singleton]
      rw [Truthful, recalculated, shares_eq]
      simp only [Table.rows_insert_of_new hnew, List.map_append, List.map_cons, List.map_nil, List.filter_append,
        hcounted, hkept]
      rw [← shares_eq, hexact.sum, htotal]
      simp only [quotaOf, Function.update_self, Option.getD_some, hquota, hplan, movedBy]
      rw [show (v.quotas request.userId).getD (newQuota v.settings.quotaDefaults) = quotaOf v request.userId from rfl, ht, hbefore]
      exact Usage.plus_eq_add (htotal ▸ hexact.nearest_cpu)

theorem saved_raises {v : World} {new : Server} {userId : Uuid}
    (hv : Aside userId w v) {α : Type} {after : Server → Handler α}
    (hafter : ∀ server t, Raises (after server) t fun _ _ => False) :
    Raises (saveServer commits new planId user >>= after) v fun _ t => Aside userId w t := by
  refine .bind (.get_bind (.bind (commit_raises fun _ => hv) fun _ _ _ => .pure)) fun server t _ => ?_
  exact fun raise t' hr => (hafter server t raise t' hr).elim

theorem incremented_raises {α : Type} {t : World} (reply : α) (hquota : commits.quota = true) (userId : Uuid) :
    Raises (do
      if ¬ commits.quota then throw (.exception commits.message)
      let _ ← incrementUsage userId planId
      return reply : Handler α) t fun _ _ => False := by
  refine .ite (fun h => absurd hquota h) fun _ => ?_
  obtain ⟨quota, hrun, -⟩ := adjustUsage_run Usage.plus userId planId t
  exact .bind_of_ok hrun .pure

theorem provision_raises_aside (hmounts : commits.mounts = true) (hquota : commits.quota = true) (userId : Uuid) :
    Raises (provision runtime commits request planId user) w fun _ t => Aside userId w t := by
  refine .bind_moves (aside_of_offBooks _ (spawnNew_offBooks runtime request)) (fun _ _ h => h) fun new v hv => ?_
  refine saved_raises hv fun server t => .bind (commit_raises fun h => ?_) fun _ t' _ => incremented_raises _ hquota _
  exact absurd (h.symm.trans hmounts) Bool.false_ne_true

theorem provision_truthful (hmounts : commits.mounts = true) (hquota : commits.quota = true)
    (hnew : w.servers.find request.serverId = none) (hplan : w.plans planId = some plan) (hsize : AsPlanned request plan)
    (hexact : FitsExactly w request.userId plan) (ht : Truthful request.userId w) :
    Truthful request.userId (final (provision runtime commits request planId user) w) :=
  final_of_returns_raises (fun row t hr => created_truthful (provision_returns row t hr) hnew hplan hsize hexact ht)
    fun raise t hr => (provision_raises_aside hmounts hquota request.userId raise t hr).truthful ht

theorem chargeQueued_aside (userId : Uuid) : Moves (Aside userId) (chargeQueued commits request plan) := by
  intro w
  rcases chargeQueued_recorded (w := w) plan with h | ⟨draft, -, h⟩
  · rw [h]
    exact refl_of (Aside userId) w
  · exact Recorded.aside h userId

theorem recordQueued_truthful {v : World} {containerId : Uuid} (hquota : commits.quota = true)
    (hnew : w.servers.find request.serverId = none) (hplan : w.plans planId = some plan) (hsize : AsPlanned request plan)
    (hexact : FitsExactly w request.userId plan) (hv : OffBooks w v) (ht : Truthful request.userId w) :
    Truthful request.userId
      (final (recordQueued commits (serverRecord request containerId w.now) request.userId planId user) v) := by
  refine final_of_returns_raises (fun row t hr => ?_) fun raise t hr => ?_
  · exact created_truthful (recordQueued_returns hv row t hr) hnew hplan hsize hexact ht
  · refine (saved_raises (OffBooks.aside hv request.userId) (fun server t => ?_) raise t hr).truthful ht
    exact incremented_raises _ hquota _

end Creations

section Handlers

variable {w : World} {userId : Uuid} {runtime : Runtime} {commits : Commits}

theorem recalculatedWorld_truthful (w : World) (userId : Uuid) : Truthful userId (recalculatedWorld w userId none) := by
  have h : recalculated (recalculatedWorld w userId none) userId none = recalculated w userId none :=
    recalculated_congr rfl
  rw [Truthful, h]
  simp only [recalculatedWorld, quotaOf, Function.update_self, Option.getD_some]

/-- A server identifier drawn now is that of no row. -/
def Fresh (w : World) : Prop := ∀ s ∈ w.servers.rows, s.id < w.nextUuid

theorem FitsExactly.of_servers {v : World} {plan : ServerPlan} (h : FitsExactly w userId plan)
    (hservers : v.servers = w.servers) : FitsExactly v userId plan := by
  have hcounts : v.servers.rows.map (counted userId) = w.servers.rows.map (counted userId) := by rw [hservers]
  rw [FitsExactly, shares_congr hcounts]
  exact h

theorem cleaningUp_truthful {α : Type} {body : Creating α} (container : String) (h : Truthful userId (final body w)) :
    Truthful userId (final (cleaningUp container body) w) := by
  rw [final] at h
  rw [final, cleaningUp_run]
  cases hr : body.run w with
  | ok a t =>
      rw [hr] at h
      exact h
  | error e t =>
      obtain ⟨raise, listed, expired⟩ := e
      rw [hr] at h
      cases raise with
      | http status detail => exact h
      | exception text => exact h

variable {answers : CreateAnswers} {user : User} {request : CreateRequest} {plan : ServerPlan}

theorem spawnPrepared_truthful (hmounts : commits.mounts = true) (hquota : commits.quota = true) (hfresh : Fresh w)
    (hplan : w.plans request.planId = some plan) (hexact : FitsExactly w userId plan) (ht : Truthful userId w)
    (listed : List String) (mounts : List VolumeMount) :
    Truthful userId (final (spawnPrepared answers runtime commits userId user request plan listed mounts) w) := by
  have hrest : Truthful userId (final (do
      let serverId ← newUuid
      let devices ← ensureGpuDevices serverId plan.gpuLimit
      let server ← provision runtime commits (spawnRequestOf userId user request plan mounts serverId devices)
        request.planId user
      return .created server.id : Handler CreateReply) w) := by
    let v : World := { w with nextUuid := w.nextUuid + 1 }
    have hv : Aside userId w v := {}
    rw [final_bind_of_ok (show newUuid.run w = .ok w.nextUuid v from rfl)]
    refine final_bind_moves (aside_of_offBooks _ (ensureGpuDevices_offBooks _ _)) (fun t (h : Aside userId v t) => ?_)
      fun devices t h => ?_
    · exact (trans_of (Aside userId) hv h).truthful ht
    · have hw := trans_of (Aside userId) hv h
      rw [final_bind_pure]
      have hnew : t.servers.find w.nextUuid = none := by
        rw [hw.servers, Table.find_eq_none_iff]
        exact fun s hs => (hfresh s hs).ne
      let spawning := spawnRequestOf userId user request plan mounts w.nextUuid devices
      have hsize : AsPlanned spawning plan := rfl
      exact provision_truthful hmounts hquota hnew (hw.plans ▸ hplan) hsize (hexact.of_servers hw.servers) (hw.truthful ht)
  rw [final_spawnPrepared, checkMounts]
  cases mountsRefusal answers with
  | none => exact hrest
  | some raise => exact ht

theorem createNow_truthful (hmounts : commits.mounts = true) (hquota : commits.quota = true) (hfresh : Fresh w)
    (hplan : w.plans request.planId = some plan) (hexact : FitsExactly w userId plan) (ht : Truthful userId w) :
    Truthful userId (final (createNow answers runtime commits userId user request plan) w) := by
  refine final_bind_moves (moves_listing (checkNewVolumes_aside _ _)) (fun t h => h.truthful ht) fun _ v hv => ?_
  refine final_bind_moves (aside_of_offBooks userId (prepareMounts_offBooks _ _ _ _ _ _ _)) (fun t (h : Aside userId v t) => ?_) fun mounts t h => ?_
  · exact (trans_of (Aside userId) hv h).truthful ht
  · have hw := trans_of (Aside userId) hv h
    refine spawnPrepared_truthful hmounts hquota (fun s hs => ?_) (hw.plans ▸ hplan) (hexact.of_servers hw.servers)
      (hw.truthful ht) _ mounts
    exact (hfresh s (hw.servers ▸ hs)).trans_le hw.nextUuid

theorem plan_of_createRefusal (h : createRefusal w answers userId request = .ok plan) :
    w.plans request.planId = some plan := by
  unfold createRefusal at h
  split at h
  · exact nomatch h
  · split at h
    · exact nomatch h
    · rename_i plan' hplan
      split at h
      · exact nomatch h
      · split at h
        · exact nomatch h
        · split at h
          · exact nomatch h
          · split at h
            · exact nomatch h
            · cases h
              exact hplan

/-- A creation, raising or not, leaves truthful counters, if the commits after
the row's go through. -/
theorem createServer_truthful (hmounts : commits.mounts = true) (hquota : commits.quota = true) (hfresh : Fresh w)
    (hexact : ∀ plan ∈ w.plans request.planId, FitsExactly w userId plan) (ht : Truthful userId w) :
    Truthful userId (final (createServer answers runtime commits userId user request) w) := by
  unfold createServer
  rw [final_get_bind]
  cases hrefusal : createRefusal w answers userId request with
  | error raise => exact ht
  | ok plan =>
      have htruthful := recalculatedWorld_truthful w userId
      dsimp only
      rw [final_bind_of_ok (checkSpawnAllowed_run w userId request.planId), final_get_bind]
      cases admissionRefusal (recalculatedWorld w userId none)
          (spawnRefusal (recalculatedWorld w userId none) (quotaOf (recalculatedWorld w userId none) userId) userId
            request.planId none) userId plan with
      | some raise => exact htruthful
      | none =>
          dsimp only
          split
          · have hplan := plan_of_createRefusal hrefusal
            exact cleaningUp_truthful _ (createNow_truthful hmounts hquota hfresh hplan
              ((hexact plan hplan).of_servers rfl) htruthful)
          · exact (aside_of_offBooks userId (enqueue_offBooks _ _ _) _).truthful htruthful

def AsQueued (w : World) (entry : QueueEntry) : Prop :=
  ∀ plan ∈ w.plans entry.planId,
    (entry.requestedCpu = 0 ∨ entry.requestedCpu = plan.cpuLimit) ∧ entry.requestedMemory = plan.memoryLimit

theorem spawnEntry_truthful {entry : QueueEntry} (hquota : commits.quota = true) (hfresh : Fresh w)
    (hplan : w.plans entry.planId = some plan) (hqueued : AsQueued w entry)
    (hexact : FitsExactly w entry.userId plan) (ht : Truthful entry.userId w) :
    Truthful entry.userId (final (spawnEntry runtime commits entry plan user) w) := by
  have hgiveUp (serverId : Uuid) (raise : Raise) := aside_of_offBooks entry.userId (giveUp_offBooks entry serverId raise)
  have hstep {s t : World} (h : Aside entry.userId w s) (h' : Aside entry.userId s t) : Aside entry.userId w t :=
    trans_of (Aside entry.userId) h h'
  let v : World := { w with nextUuid := w.nextUuid + 1 }
  have hv : Aside entry.userId w v := {}
  unfold spawnEntry
  rw [final_bind_of_ok (show newUuid.run w = .ok w.nextUuid v from rfl)]
  have hdevices := aside_of_offBooks entry.userId (ensureGpuDevices_offBooks w.nextUuid plan.gpuLimit)
  refine final_attempt (fun devices t hr => ?_) fun raise t hr => ?_
  · have ht₁ := hstep hv (final_of_ok hr ▸ hdevices v)
    dsimp only
    refine final_attempt (fun _ t₂ hr => ?_) fun raise t₂ hr => ?_
    · have ht₂ := hstep ht₁ (final_of_ok hr ▸ chargeQueued_aside entry.userId t)
      dsimp only
      refine final_attempt (fun new t₃ hr => ?_) fun raise t₃ hr => ?_
      · obtain ⟨hspawned, containerId, rfl⟩ := spawn_returns _ _ _ new t₃ hr
        dsimp only
        rw [final_logged]
        refine final_bind_keeps ?_ (fun _ => .bind (.bind .get fun _ => .pure _) fun _ => updateEntry_aside _ _)
          fun s t h ht => Aside.truthful h ht
        refine recordQueued_truthful hquota ?_ (ht₂.plans ▸ hplan) ?_ (hexact.of_servers ht₂.servers) hspawned
          (ht₂.truthful ht)
        · rw [ht₂.servers, Table.find_eq_none_iff]
          exact fun s hs => (hfresh s hs).ne
        · obtain ⟨hcpu, hmemory⟩ := hqueued plan hplan
          simp only [AsPlanned, queuedRequest, planUsage, hmemory, Usage.mk.injEq, and_true]
          rcases hcpu with hcpu | hcpu
          · rw [if_pos hcpu]
          · rw [hcpu, ite_self]
      · have ht₃ := hstep ht₂ (final_of_error hr ▸ aside_of_offBooks _ (spawn_offBooks _ _) t₂)
        exact (hstep ht₃ (hgiveUp _ _ t₃)).truthful ht
    · have ht₂ := hstep ht₁ (final_of_error hr ▸ chargeQueued_aside entry.userId t)
      dsimp only
      split
      · exact (hstep ht₂ (hgiveUp _ _ t₂)).truthful ht
      · exact ht₂.truthful ht
  · have ht₁ := hstep hv (final_of_error hr ▸ hdevices v)
    cases raise with
    | http status detail => exact (hstep ht₁ (updateEntry_aside entry.id _ t)).truthful ht
    | exception text => exact (hstep ht₁ (hgiveUp _ _ t)).truthful ht

theorem processEntry_truthful {entry : QueueEntry} (hquota : commits.quota = true) (hfresh : Fresh w)
    (hqueued : AsQueued w entry) (hexact : ∀ plan ∈ w.plans entry.planId, FitsExactly w entry.userId plan)
    (ht : Truthful entry.userId w) :
    Truthful entry.userId (final (processEntry runtime commits entry) w) := by
  unfold processEntry
  rw [final_get_bind]
  cases hadmission : admission w entry with
  | error message => exact (updateEntry_aside entry.id _ w).truthful ht
  | ok admitted =>
      obtain ⟨plan, user⟩ := admitted
      have htruthful := recalculatedWorld_truthful w entry.userId
      dsimp only
      rw [final_bind_of_ok (checkSpawnAllowed_run w entry.userId entry.planId)]
      cases spawnRefusal (recalculatedWorld w entry.userId none)
          (quotaOf (recalculatedWorld w entry.userId none) entry.userId) entry.userId entry.planId none with
      | some refusal => exact (updateEntry_aside entry.id _ _).truthful htruthful
      | none =>
          dsimp only
          rw [final_get_bind]
          split
          · exact (updateEntry_aside entry.id _ _).truthful htruthful
          · have hplan := (admission_ok hadmission).1
            exact spawnEntry_truthful hquota hfresh hplan hqueued ((hexact plan hplan).of_servers rfl) htruthful

end Handlers

section Rows

variable {w w' : World} {userId : Uuid} {server : Server}

theorem opened_truthful {v : World} {f : Server → Server} {hid : ∀ s, (f s).id = s.id} (hv : OffBooks w v)
    (hfind : w.servers.find server.id = some server) (hsame : counted userId (f server) = counted userId server)
    (ht : Truthful userId w) : Truthful userId { v with servers := v.servers.modify server.id f hid } := by
  have hcounts : (v.servers.modify server.id f hid).rows.map (counted userId) = w.servers.rows.map (counted userId) := by
    rw [hv.servers]
    exact Table.map_modify_of_find hfind hsame
  rw [Truthful, recalculated_congr hcounts, ← ht]
  exact (OffBooks.aside hv userId).usage

theorem launched_truthful {usage : Usage} (hlaunched : Launched server usage w w')
    (hfind : w.servers.find server.id = some server) (hactive : server.status.active = true)
    (husage : usage = serverUsage server) (ht : Truthful userId w) : Truthful userId w' := by
  cases hlaunched with
  | opened f hid hv hf hstatus hopened =>
      refine opened_truthful hv hfind ?_ ht
      rw [counted, counted, hf.userId, hstatus, hactive, hopened, husage]
      rfl

def share (w : World) (server : Server) : Usage := ((planOf w server).map planUsage).getD 0

theorem lowered_of_le {usage : Usage} (hle : share w server ≤ usage)
    (h : Binary64.nearest (usage - share w server).cpu = (usage - share w server).cpu) :
    lowered w server usage = usage - share w server := by
  rw [lowered, share] at *
  cases hp : planOf w server with
  | none => exact (sub_zero usage).symm
  | some plan =>
      rw [hp] at hle h
      exact Usage.monus_eq_sub hle h

theorem left_truthful {ps : Parts} (hleft : Left server w ps w') (hfind : w.servers.find server.id = some server)
    (hsame : (if ps.decrements then share w server else 0) = counted server.userId server)
    (hcovers : ps.decrements = true → share w server ≤ recalculated w server.userId none ∧
      Usage.Exact (shares w server.userId none))
    (ht : Truthful server.userId w) : Truthful server.userId w' := by
  have husage : (quotaOf w' server.userId).usage = _ := congrArg Account.usage (hleft.account hfind)
  rw [Truthful, husage, recalculated, hleft.shares server.userId hfind]
  simp only [Account.apply, account]
  cases hdecrements : ps.decrements with
  | false =>
      rw [hdecrements, if_neg Bool.false_ne_true] at hsame
      rw [if_neg Bool.false_ne_true, shares_others_of_idle hfind hsame.symm]
      exact ht
  | true =>
      rw [hdecrements, if_pos rfl] at hsame
      obtain ⟨hle, hexact⟩ := hcovers hdecrements
      have hothers := hexact.sublist (shares_sublist w server.userId (some server.id))
      have hall : recalculated w server.userId none = (shares w server.userId none).sum := hexact.sum
      have hrest : (shares w server.userId (some server.id)).sum =
          recalculated w server.userId none - share w server := by
        rw [sum_shares_others _ hfind, hall, hsame]
      rw [if_pos rfl, hothers.sum, hrest, ht]
      exact lowered_of_le hle (hrest ▸ hothers.nearest_cpu)

/-- The counters of the user and what they count come to the same as before. -/
structure Steady (userId : Uuid) (w w' : World) : Prop where
  recalculated : recalculated w' userId none = recalculated w userId none
  usage : (quotaOf w' userId).usage = (quotaOf w userId).usage

instance (userId : Uuid) : IsPreorder World (Steady userId) where
  refl _ := ⟨rfl, rfl⟩
  trans _ _ _ h h' := ⟨h'.recalculated.trans h.recalculated, h'.usage.trans h.usage⟩

theorem Steady.truthful (h : Steady userId w w') (ht : Truthful userId w) : Truthful userId w' := by
  rw [Truthful, h.usage, h.recalculated]
  exact ht

theorem modifyServer_steady (id : Uuid) (f : Server → Server) (hf : ∀ s, (f s).id = s.id)
    (hcounted : ∀ s, counted userId (f s) = counted userId s) : Moves (Steady userId) (modifyServer id f hf) := by
  refine .modify fun w => ⟨recalculated_congr ?_, rfl⟩
  exact Table.map_modify_of_eq id f hf fun s _ => hcounted s

theorem chargeTick_steady (server : Server) (plan : ServerPlan) : Moves (Steady userId) (chargeTick server plan) := by
  have hcharge (draft : TransactionDraft) : Moves (Steady userId) (createTransaction draft) := by
    intro w
    have h := Recorded.aside (createTransaction_recorded draft w) userId
    exact ⟨recalculated_congr (by rw [h.servers]), h.usage⟩
  refine .bind (.bind (hcharge _) fun _ => modifyServer_steady _ _ _ fun _ => rfl) fun _ => ?_
  exact .bind (.bind .get fun _ => .pure _) fun _ => modifyServer_steady _ _ _ fun _ => rfl

theorem tick_steady {runtime : Runtime} (hparts : parts .creditDepletion w runtime server = none) :
    Steady userId w (final (leave .creditDepletion runtime server) w) := by
  have hrefl := refl_of (Steady userId) w
  simp only [leave, final_get_bind]
  cases hp : planOf w server with
  | none => exact hrefl
  | some plan =>
      simp only [parts, hp, ite_eq_right_iff, reduceCtorEq, imp_false, not_and, Bool.not_eq_true] at hparts
      dsimp only
      unfold billServer
      split
      · exact hrefl
      · rename_i hcost
        rw [final_bind_of_ok (run_getBalance _ _)]
        split
        · rename_i hbalance
          rw [final_get_bind]
          split
          · rename_i hauto
            rw [final_logged, depletionStop, final_delete_refused (hparts (not_le.mp hcost) hbalance hauto)]
            exact hrefl
          · exact hrefl
        · rw [final_logged]
          exact chargeTick_steady server plan w

end Rows

/-- What a user's operations have led to, and whether some decrement was held at zero on the way. -/
structure History where
  world : World
  clamped : Bool

def History.begin (w : World) : History := ⟨w, false⟩

inductive Event
  | create (answers : CreateAnswers) (runtime : Runtime) (commits : Commits) (request : CreateRequest)
  | processQueued (entryId : Uuid) (runtime : Runtime) (commits : Commits)
  | launch (serverId : Uuid) (path : StartPath) (runtime : Runtime)
  | bulkStart (serverId : Uuid) (runtime : Runtime)
  | leave (serverId : Uuid) (path : ExitPath) (runtime : Runtime)
  | wait (duration : Nat)

def clamps (path : ExitPath) (w : World) (runtime : Runtime) (server : Server) : Bool :=
  (parts path w runtime server).any fun ps =>
    ps.decrements && decide (¬ share w server ≤ (quotaOf w server.userId).usage)

instance (w : World) : Decidable (Fresh w) := inferInstanceAs (Decidable (∀ s ∈ w.servers.rows, _))

/-- One operation after the other on one user's servers. An operation that
raises ends where it broke off. -/
def step (userId : Uuid) : Step History Event := fun s event =>
  let w := s.world
  match event with
  | .create answers runtime commits request =>
    match w.users userId with
    | some user =>
      if Fresh w then some { s with world := final (createServer answers runtime commits userId user request) w } else none
    | none => none
  | .processQueued entryId runtime commits =>
    match w.queue.find? fun e => e.id = entryId with
    | some entry =>
      if Fresh w ∧ entry.userId = userId ∧ entry.status = .pending then
        some { s with world := final (processEntry runtime commits entry) w }
      else none
    | none => none
  | .launch serverId path runtime =>
    match w.servers.find serverId with
    | some row => if row.userId = userId then some { s with world := final (launch path runtime row) w } else none
    | none => none
  | .bulkStart serverId runtime =>
    match w.servers.find serverId with
    | some row => if row.userId = userId then some { s with world := final (bulkStart runtime row) w } else none
    | none => none
  | .leave serverId path runtime =>
    match w.servers.find serverId with
    | some row =>
      if row.userId = userId ∧ path.selects row.status then
        some { world := final (Exits.leave path runtime row) w, clamped := s.clamped || clamps path w runtime row }
      else none
    | none => none
  | .wait duration => some { s with world := { w with now := w.now + duration } }

def Agrees (userId : Uuid) (s : History) : Prop := Truthful userId s.world ∧ s.clamped = false

instance (userId : Uuid) : DecidablePred (Agrees userId) := fun _ => inferInstanceAs (Decidable (_ = _ ∧ _ = _))

/-- Leaving lowers the counters by what the server counts for, and by no more than they hold. -/
def LeavesBalanced (w : World) (path : ExitPath) (runtime : Runtime) (row : Server) : Prop :=
  match parts path w runtime row with
  | some ps =>
    (if ps.decrements then share w row else 0) = counted row.userId row ∧
      (ps.decrements = true → share w row ≤ recalculated w row.userId none ∧ Usage.Exact (shares w row.userId none))
  | none => resumes path runtime row = true → row.status.active = true

instance (w : World) (path : ExitPath) (runtime : Runtime) (row : Server) :
    Decidable (LeavesBalanced w path runtime row) :=
  match h : parts path w runtime row with
  | some ps =>
    decidable_of_iff ((if ps.decrements then share w row else 0) = counted row.userId row ∧
      (ps.decrements = true → share w row ≤ recalculated w row.userId none ∧ Usage.Exact (shares w row.userId none)))
        (by rw [LeavesBalanced, h])
  | none => decidable_of_iff (resumes path runtime row = true → row.status.active = true) (by rw [LeavesBalanced, h])

/-- What the operation takes out of the count it takes off the counters, and
what it puts into the count it puts on them, in cores that need no rounding. -/
def Balanced (userId : Uuid) (s : History) (event : Event) : Prop :=
  let w := s.world
  match event with
  | .create _ _ commits request =>
    commits.mounts = true ∧ commits.quota = true ∧ ∀ plan ∈ w.plans request.planId, FitsExactly w userId plan
  | .processQueued entryId _ commits =>
    commits.quota = true ∧ ∀ entry ∈ w.queue.find? fun e => e.id = entryId,
      AsQueued w entry ∧ ∀ plan ∈ w.plans entry.planId, FitsExactly w userId plan
  | .launch serverId path runtime =>
    ∀ row ∈ w.servers.find serverId, begins path w runtime row = true → raised (launch path runtime row) w = none →
      row.status.active = true ∧ launchedUsage path w row = serverUsage row
  | .bulkStart serverId runtime =>
    ∀ row ∈ w.servers.find serverId, raised (bulkStart runtime row) w = none → row.containerId.isSome = true →
      row.status.active = true
  | .leave serverId path runtime => ∀ row ∈ w.servers.find serverId, LeavesBalanced w path runtime row
  | .wait _ => True

instance (w : World) (entry : QueueEntry) : Decidable (AsQueued w entry) :=
  inferInstanceAs (Decidable (∀ plan ∈ w.plans entry.planId, _))

instance (w : World) (userId : Uuid) (plan : ServerPlan) : Decidable (FitsExactly w userId plan) :=
  inferInstanceAs (Decidable (Usage.Exact _))

instance (userId : Uuid) (s : History) (event : Event) : Decidable (Balanced userId s event) :=
  match event with
  | .create _ _ commits request =>
    inferInstanceAs (Decidable (commits.mounts = true ∧ commits.quota = true ∧
      ∀ plan ∈ s.world.plans request.planId, FitsExactly s.world userId plan))
  | .processQueued entryId _ commits =>
    inferInstanceAs (Decidable (commits.quota = true ∧ ∀ entry ∈ s.world.queue.find? fun e => e.id = entryId,
      AsQueued s.world entry ∧ ∀ plan ∈ s.world.plans entry.planId, FitsExactly s.world userId plan))
  | .launch serverId path runtime =>
    inferInstanceAs (Decidable (∀ row ∈ s.world.servers.find serverId, begins path s.world runtime row = true →
      raised (launch path runtime row) s.world = none →
        row.status.active = true ∧ launchedUsage path s.world row = serverUsage row))
  | .bulkStart serverId runtime =>
    inferInstanceAs (Decidable (∀ row ∈ s.world.servers.find serverId, raised (bulkStart runtime row) s.world = none →
      row.containerId.isSome = true → row.status.active = true))
  | .leave serverId path runtime =>
    inferInstanceAs (Decidable (∀ row ∈ s.world.servers.find serverId, LeavesBalanced s.world path runtime row))
  | .wait _ => inferInstanceAs (Decidable True)

section Steps

variable {userId : Uuid} {s t : History}

theorem bulkStart_truthful {w : World} {runtime : Runtime} {row : Server} (hfind : w.servers.find row.id = some row)
    (hactive : raised (bulkStart runtime row) w = none → row.containerId.isSome = true → row.status.active = true)
    (ht : Truthful row.userId w) : Truthful row.userId (final (bulkStart runtime row) w) := by
  have hopened {v : World} (f : Server → Server) (hid : ∀ s, (f s).id = s.id) (hv : OffBooks w v)
      (hrow : row.status.active = true) (huser : ∀ s, (f s).userId = s.userId) (hstatus : ∀ s, (f s).status = .running)
      (husage : ∀ s, serverUsage (f s) = serverUsage s) :
      Truthful row.userId { v with servers := v.servers.modify row.id f hid } := by
    refine opened_truthful hv hfind ?_ ht
    rw [counted, counted, huser, hstatus, hrow, husage]
    rfl
  have hreturns (hrow : row.containerId.isSome = true → row.status.active = true) :
      Returns (bulkStart runtime row) w fun _ t => Truthful row.userId t := by
    refine .ite (fun hc => .get_bind (.ite (fun _ => ?_) fun _ => .ite (fun _ => .throw_bind _) fun _ => ?_)) fun _ => .pure ht
    · refine .bind_moves (respawnServerContainer_offBooks _ _ _) fun new v hv => ?_
      rintro _ _ ⟨⟩
      exact hopened _ _ hv (hrow hc) (fun _ => rfl) (fun _ => rfl) fun _ => rfl
    · rintro _ _ ⟨⟩
      exact hopened _ _ (refl_of OffBooks w) (hrow hc) (fun _ => rfl) (fun _ => rfl) fun _ => rfl
  have hraises : Raises (bulkStart runtime row) w fun _ t => OffBooks w t := by
    refine .ite (fun _ => .get_bind (.ite (fun _ => ?_) fun _ => ?_)) fun _ => .pure
    · exact .bind_moves (respawnServerContainer_offBooks _ _ _) (fun _ _ h => h) fun _ _ _ => fun _ _ hr => by cases hr
    · exact .ite (fun _ => .throw_bind (refl_of OffBooks w)) fun _ => fun _ _ hr => by cases hr
  refine final_of_returns_raises (fun _ t hr => hreturns (hactive ?_) _ t hr) fun raise t hr => ?_
  · rw [raised, hr]
  · exact (OffBooks.aside (hraises raise t hr) row.userId).truthful ht

theorem resumes_truthful {w : World} {path : ExitPath} {runtime : Runtime} {row : Server}
    (hfind : w.servers.find row.id = some row) (hresumes : resumes path runtime row = true)
    (hactive : row.status.active = true) (ht : Truthful row.userId w) :
    Truthful row.userId (final (Exits.leave path runtime row) w) := by
  obtain ⟨rfl, hc, hs, hne⟩ : path = .listServers ∧ row.containerId.isSome = true ∧ runtime.status = .running ∧
      row.status ≠ .running := by simpa only [resumes, decide_eq_true_eq] using hresumes
  have hfinal : final (Exits.leave .listServers runtime row) w =
      { w with
        servers := w.servers.modify row.id (fun s => { s with status := .running, startedAt := some w.now })
          fun _ => rfl } := by
    simp only [Exits.leave, syncStatus, hc, if_true]
    rw [final_bind_of_ok (run_utcNow w)]
    simp only [hs, hne, ne_eq, not_false_eq_true, if_true]
    rfl
  rw [hfinal]
  refine opened_truthful (refl_of OffBooks w) hfind ?_ ht
  rw [counted, counted, hactive]
  rfl

theorem step_agrees {event : Event} (hs : Agrees userId s) (hb : Balanced userId s event) (h : step userId s event = some t) :
    Agrees userId t := by
  obtain ⟨ht, hclamped⟩ := hs
  cases event with
  | create answers runtime commits request =>
      simp only [step] at h
      cases hu : s.world.users userId with
      | none => simp only [hu, reduceCtorEq] at h
      | some user =>
          simp only [hu, Option.ite_none_right_eq_some, Option.some.injEq] at h
          obtain ⟨hfresh, rfl⟩ := h
          exact ⟨createServer_truthful hb.1 hb.2.1 hfresh hb.2.2 ht, hclamped⟩
  | processQueued entryId runtime commits =>
      simp only [step] at h
      cases he : s.world.queue.find? fun e => e.id = entryId with
      | none => simp only [he, reduceCtorEq] at h
      | some entry =>
          simp only [he, Option.ite_none_right_eq_some, Option.some.injEq] at h
          obtain ⟨⟨hfresh, rfl, -⟩, rfl⟩ := h
          obtain ⟨hqueued, hexact⟩ := hb.2 entry he
          exact ⟨processEntry_truthful hb.1 hfresh hqueued hexact ht, hclamped⟩
  | launch serverId path runtime =>
      simp only [step] at h
      cases hrow : s.world.servers.find serverId with
      | none => simp only [hrow, reduceCtorEq] at h
      | some row =>
          simp only [hrow, Option.ite_none_right_eq_some, Option.some.injEq] at h
          obtain ⟨rfl, rfl⟩ := h
          have hfind : s.world.servers.find row.id = some row := (Table.key_of_find hrow).symm ▸ hrow
          refine ⟨final_of_returns_raises (fun _ t hr => ?_) fun _ t hr => ?_, hclamped⟩
          · cases hbegins : begins path s.world runtime row with
            | false => exact (OffBooks.aside (launch_idle path hbegins _ t hr) row.userId).truthful ht
            | true =>
                obtain ⟨hactive, husage⟩ := hb row hrow hbegins (by rw [raised, hr])
                exact launched_truthful (launch_returns path hbegins _ t hr) hfind hactive husage ht
          · exact (OffBooks.aside (launch_raises path _ t hr) row.userId).truthful ht
  | bulkStart serverId runtime =>
      simp only [step] at h
      cases hrow : s.world.servers.find serverId with
      | none => simp only [hrow, reduceCtorEq] at h
      | some row =>
          simp only [hrow, Option.ite_none_right_eq_some, Option.some.injEq] at h
          obtain ⟨rfl, rfl⟩ := h
          have hfind : s.world.servers.find row.id = some row := (Table.key_of_find hrow).symm ▸ hrow
          exact ⟨bulkStart_truthful hfind (hb row hrow) ht, hclamped⟩
  | leave serverId path runtime =>
      simp only [step] at h
      cases hrow : s.world.servers.find serverId with
      | none => simp only [hrow, reduceCtorEq] at h
      | some row =>
          simp only [hrow, Option.ite_none_right_eq_some, Option.some.injEq] at h
          obtain ⟨⟨rfl, -⟩, rfl⟩ := h
          have hfind : s.world.servers.find row.id = some row := (Table.key_of_find hrow).symm ▸ hrow
          have hb := hb row hrow
          unfold LeavesBalanced at hb
          cases hparts : parts path s.world runtime row with
          | some ps =>
              simp only [hparts] at hb
              refine ⟨left_truthful (leave_left path hparts) hfind hb.1 hb.2 ht, ?_⟩
              have hunclamped : clamps path s.world runtime row = false := by
                rw [clamps, hparts, Option.any_some, Bool.and_eq_false_imp]
                intro hdecrements
                have hcovers : share s.world row ≤ (quotaOf s.world row.userId).usage := ht ▸ (hb.2 hdecrements).1
                simp only [hcovers, not_true, decide_false]
              rw [hclamped, hunclamped]
              rfl
          | none =>
              simp only [hparts] at hb
              have hunclamped : clamps path s.world runtime row = false := by rw [clamps, hparts, Option.any_none]
              refine ⟨?_, by rw [hclamped, hunclamped]; rfl⟩
              cases hresumes : resumes path runtime row with
              | true => exact resumes_truthful hfind hresumes (hb hresumes) ht
              | false =>
                  by_cases htick : path = .creditDepletion
                  · subst htick
                    exact (tick_steady hparts).truthful ht
                  · show Truthful row.userId (final (Exits.leave path runtime row) s.world)
                    rw [leave_stays path hparts hresumes htick]
                    exact ht
  | wait duration =>
      cases h
      exact ⟨ht, hclamped⟩

end Steps

/-- Along operations that are all balanced the counters agree with the truth in every state. -/
theorem counters_agree (userId : Uuid) (w : World) (hstart : Truthful userId w) (events : List Event)
    (hbalanced : AllSteps (step userId) (Balanced userId) (.begin w) events) :
    AllStates (step userId) (Agrees userId) (.begin w) events :=
  allStates_of_allSteps (fun _ _ _ hs hb h => step_agrees hs hb h) ⟨hstart, rfl⟩ hbalanced

def createdAndStopped : List Event :=
  [.create willing (obedient .running) .succeed (named "lab"), .leave 1001 .stop (obedient .running)]

theorem counters_agree_sample : AllStates (step 1) (Agrees 1) (.begin oneUserWorld) createdAndStopped :=
  counters_agree 1 oneUserWorld rfl createdAndStopped (by decide +kernel)

/-- A start counts the server again, and no counter goes up. -/
theorem restarted_not_agreeing :
    ¬ AllStates (step 1) (Agrees 1) (.begin oneUserWorld)
      (createdAndStopped ++ [.launch 1001 (.start ⟨true, none⟩ "ada") (obedient .stopped)]) := by
  decide +kernel

end NukeLab.UsageCounters
