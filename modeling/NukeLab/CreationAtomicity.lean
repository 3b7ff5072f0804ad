import NukeLab.Creation
import NukeLab.Launches

namespace NukeLab.CreationAtomicity

open Program Tables Records State Ledger GpuAllocator Quota DockerNames Spawner Lifecycle Creation

/-- The resources of a creation are in the second world exactly as in the first. -/
structure Untouched (w w' : World) : Prop where
  dockerVolumes : ∀ name, name ∈ w'.dockerVolumes ↔ name ∈ w.dockerVolumes
  volumes : ∀ volume, volume ∈ w'.volumes ↔ volume ∈ w.volumes
  containers : ∀ container, container ∈ w'.containers ↔ container ∈ w.containers
  gpuAllocations : ∀ row, row ∈ w'.gpuAllocations ↔ row ∈ w.gpuAllocations
  servers : ∀ server, server ∈ w'.servers.rows ↔ server ∈ w.servers.rows

/-- Identifiers are drawn from a supply no one has seen: neither the rows nor
the request hold one that is still to come. -/
structure IdsBelow (w : World) (request : CreateRequest) : Prop where
  volumes : ∀ volume ∈ w.volumes, volume.id < w.nextUuid
  gpuAllocations : ∀ row ∈ w.gpuAllocations, row.serverId < w.nextUuid
  containers : ∀ c ∈ w.containers, c.id < w.nextUuid
  requested : ∀ id ∈ request.volumeId, id < w.nextUuid
  mounts : ∀ mount ∈ request.volumeMounts, ∀ id ∈ mount.volumeId, id < w.nextUuid

/-- Where a creation that raises breaks off. -/
inductive Break
  /-- before the usage is recalculated -/
  | early
  /-- after that, and before the first volume -/
  | refused
  /-- by an HTTP error, with these volumes made -/
  | midway (made : List String)
  /-- by anything else, with these volumes listed and these Docker volumes ensured: while a volume is made, or while the
  container is spawned -/
  | crash (listed ensured : List String) (spawning : Bool)
  /-- once the container is there -/
  | late
  deriving DecidableEq

section Breaks

variable (answers : CreateAnswers) (runtime : Runtime) (commits : Commits) (userId : Uuid) (user : User)
  (request : CreateRequest)

def volumesBreak (names : List String) : List (MountRequest × Nat) → List String → Option Break
  | [], _ => none
  | (mount, idx) :: rest, listed =>
    match mount.volumeId with
    | some _ => volumesBreak names rest listed
    | none =>
      let name := autoVolumeName userId request.name idx
      if validVolumeName name = false ∨ answers.volumeFault idx = some .driverError then some (.midway listed)
      else if (answers.volumeFault idx).isSome ∨ name ∈ names ∨ name ∈ listed then
        some (.crash (listed ++ [name]) [] false)
      else volumesBreak names rest (listed ++ [name])

def mountNames (w : World) (mounts : List (MountRequest × Nat)) : List String :=
  mounts.map fun m =>
    match m.1.volumeId with
    | some volumeId => mountedVolumeName w.volumes volumeId
    | none => autoVolumeName userId request.name m.2

def reserves (w : World) (plan : ServerPlan) : Bool := enabled w.settings && decide (plan.gpuLimit > 0)

/-- The Docker volumes a spawn that breaks off has ensured by then. -/
def spawnFails (w : World) (gpu : Int) (volumes : List String) : Option (List String) :=
  if (gpu > 0 ∧ ¬ w.settings.gpuEnabled) ∨ runtime.spawnFault = some .beforeWork then some []
  else
    match runtime.spawnFault with
    | some (.ensuringVolumes ensured) => some (volumes.take ensured)
    | some .creatingContainer => some (volumes ++ runtime.toolchainVolume.toList)
    | _ => none

def spawnBreak (w : World) (plan : ServerPlan) : Option Break :=
  let requested := (requestedMounts request user.username).zipIdx
  let listed := autoVolumeNames userId request.name requested
  let volumes := mountNames userId request w requested
  if (mountsRefusal answers).isSome ∨ (reserves w plan ∧ ¬ allocatable w plan.gpuLimit) then some (.midway listed)
  else
    match spawnFails runtime w plan.gpuLimit volumes with
    | some ensured => some (.crash listed ensured true)
    | none => if commits.server ∧ commits.mounts ∧ commits.quota then none else some .late

def diskRefused (w : World) (plan : ServerPlan) : Bool :=
  let newBytes := newVolumeBytes (requestedMounts request user.username) plan
  newBytes != 0 && (diskRefusal w (quotaOf w userId) userId newBytes).isSome

def bodyBreak (w : World) (plan : ServerPlan) : Option Break :=
  if diskRefused userId user request w plan then some .refused
  else
    (volumesBreak answers userId request (w.volumes.map Volume.name) (requestedMounts request user.username).zipIdx []).or
      (spawnBreak answers runtime commits userId user request w plan)

/-- Where this creation breaks off, told from the request, the world before and
what is answered meanwhile. -/
def breakOf (w : World) : Option Break :=
  match createRefusal w answers userId request with
  | .error _ => some .early
  | .ok plan =>
    let w := recalculatedWorld w userId none
    if (admissionRefusal w (spawnRefusal w (quotaOf w userId) userId request.planId none) userId plan).isSome then
      some .refused
    else if canFit w request.planId then bodyBreak answers runtime commits userId user request w plan
    else if commits.queueEntry then none
    else some .refused

end Breaks

def NothingStale (w : World) : Prop :=
  enabled w.settings → ∀ row ∈ w.gpuAllocations, stale w.now w.servers.find row = false

/-- What breaking off here must find in the world before, to leave it untouched. -/
def Clean (w : World) (container : String) : Break → Prop
  | .early => True
  | .refused => NothingStale w
  | .midway made => NothingStale w ∧ made = []
  | .crash listed ensured spawning =>
    NothingStale w ∧ (∀ name ∈ listed, name ∉ w.dockerVolumes) ∧ (∀ volume ∈ w.volumes, volume.name ∉ listed) ∧
      (∀ name ∈ ensured, name ∈ w.dockerVolumes ∨ name ∈ listed) ∧
      (spawning = true → ∀ c ∈ w.containers, c.name ≠ container)
  | .late => False

/-- What breaking off leaves behind, up to the reaping before it. -/
structure Begun (w : World) (made : List Volume) (v : World) : Prop where
  settings : v.settings = w.settings
  plans : v.plans = w.plans
  servers : v.servers = w.servers
  gpuAllocations : v.gpuAllocations = w.gpuAllocations
  containers : v.containers = w.containers
  volumes : v.volumes = w.volumes ++ made
  docker : ∀ name, name ∈ v.dockerVolumes ↔ name ∈ w.dockerVolumes ∨ name ∈ made.map Volume.name
  bound : w.nextUuid ≤ v.nextUuid
  ids : ∀ volume ∈ made, w.nextUuid ≤ volume.id ∧ volume.id < v.nextUuid

structure Crashed (w : World) (container : Option String) (listed ensured : List String) (v : World) : Prop where
  servers : v.servers = w.servers
  gpuAllocations : v.gpuAllocations = w.gpuAllocations
  containers : ∀ c : Container, some c.name ≠ container → (c ∈ v.containers ↔ c ∈ w.containers)
  volumes : ∃ made, v.volumes = w.volumes ++ made ∧ ∀ volume ∈ made, volume.name ∈ listed
  docker : ∀ name, name ∉ listed → (name ∈ v.dockerVolumes ↔ name ∈ w.dockerVolumes ∨ name ∈ ensured)

section Volumes

variable {w v : World} {made : List Volume} {fault : Option VolumeFault} {message name : String} {ownerId : Uuid}
  {size : Int}

/-- The state of a crash while a volume is made: the volume listed last may be half there. -/
structure HalfMade (w : World) (made : List Volume) (name : String) (t : World) : Prop where
  servers : t.servers = w.servers
  gpuAllocations : t.gpuAllocations = w.gpuAllocations
  containers : t.containers = w.containers
  volumes : ∃ half, t.volumes = w.volumes ++ made ++ half ∧ ∀ volume ∈ half, volume.name = name
  docker : ∀ n, n ≠ name → (n ∈ t.dockerVolumes ↔ n ∈ w.dockerVolumes ∨ n ∈ made.map Volume.name)

theorem mem_ensured (names : List String) (w : World) (n : String) :
    n ∈ (final (ensureVolumes names) w).dockerVolumes ↔ n ∈ w.dockerVolumes ∨ n ∈ names := by
  simp only [ensureVolumes, final_modify, List.mem_append, List.mem_filter, decide_eq_true_eq]
  tauto

theorem createVolume_returns (hv : Begun w made v) :
    Returns (createVolume fault message name ownerId size) v fun id t =>
      (validVolumeName name = true ∧ fault = none ∧ name ∉ v.volumes.map Volume.name) ∧
        ∃ volume, volume.id = id ∧ volume.name = name ∧ id = v.nextUuid ∧ Begun w (made ++ [volume]) t := by
  refine .ite (fun _ => .throw_bind _) fun hvalid => .ite (fun _ => .throw_bind _) fun herror => ?_
  refine .ite (fun _ => .throw_bind _) fun hfailure => .bind fun _ v₁ hv₁ => .get_bind ?_
  refine .ite (fun _ => .throw_bind _) fun htaken => .bind fun id v₂ hv₂ => .bind fun _ v₃ hv₃ => ?_
  refine .ite (fun _ => .throw_bind _) fun hrefresh => .pure ?_
  cases hv₁
  cases hv₂
  cases hv₃
  obtain ⟨hname, hcommit⟩ := not_or.mp htaken
  refine ⟨⟨by simpa using hvalid, ?_, by simpa using hname⟩, ⟨v.nextUuid, name, ownerId, some size⟩, rfl, rfl, rfl, ?_⟩
  · cases fault with
    | none => rfl
    | some f => cases f <;> simp_all
  · refine ⟨hv.settings, hv.plans, hv.servers, hv.gpuAllocations, hv.containers, ?_, fun n => ?_, ?_, ?_⟩
    · simp only [hv.volumes, List.append_assoc]
    · refine (mem_ensured [name] v n).trans ?_
      simp only [hv.docker, List.map_append, List.map_cons, List.map_nil, List.mem_append, or_assoc]
    · exact hv.bound.trans (Nat.le_succ _)
    · intro x hx
      rcases List.mem_append.mp hx with hx | hx
      · exact ⟨(hv.ids x hx).1, Nat.lt_succ_of_lt (hv.ids x hx).2⟩
      · rw [List.mem_singleton.mp hx]
        exact ⟨hv.bound, Nat.lt_succ_self _⟩

theorem createVolume_raises (hv : Begun w made v) :
    Raises (createVolume fault message name ownerId size) v fun raise t =>
      match raise with
      | .http _ _ => (validVolumeName name = false ∨ fault = some .driverError) ∧ t = v
      | .exception _ =>
        (validVolumeName name = true ∧ fault ≠ some .driverError ∧ (fault.isSome ∨ name ∈ v.volumes.map Volume.name)) ∧
          HalfMade w made name t := by
  have hstart : HalfMade w made name v :=
    ⟨hv.servers, hv.gpuAllocations, hv.containers, ⟨[], by rw [List.append_nil, hv.volumes], nofun⟩,
      fun n _ => hv.docker n⟩
  have hensured : HalfMade w made name (final (ensureVolumes [name]) v) :=
    ⟨hv.servers, hv.gpuAllocations, hv.containers, ⟨[], by rw [List.append_nil]; exact hv.volumes, nofun⟩,
      fun n hn => by rw [mem_ensured, hv.docker, List.mem_singleton, or_iff_left hn]⟩
  unfold createVolume
  refine .ite (fun hinvalid => ?_) fun hvalid => ?_
  · exact .throw_bind ⟨.inl (by simpa using hinvalid), rfl⟩
  have hvalid : validVolumeName name = true := not_not.mp hvalid
  refine .ite (fun herror => .throw_bind ⟨.inr herror, rfl⟩) fun herror => ?_
  refine .ite (fun hfailure => .throw_bind ⟨⟨hvalid, herror, .inl (by simp [hfailure])⟩, hstart⟩) fun _ => ?_
  refine .bind_of_ok rfl (.get_bind ?_)
  refine .ite (fun htaken => .throw_bind ⟨⟨hvalid, herror, ?_⟩, hensured⟩) fun _ => ?_
  · rcases htaken with htaken | hcommit
    · exact .inr (by simpa using htaken)
    · exact .inl (by simp [hcommit])
  refine .bind_of_ok rfl (.bind_of_ok rfl ?_)
  refine .ite (fun hrefresh => .throw_bind ⟨⟨hvalid, herror, .inl (by simp [hrefresh])⟩, ?_⟩) fun _ => .pure
  refine ⟨hensured.servers, hensured.gpuAllocations, hensured.containers,
    ⟨[⟨v.nextUuid, name, ownerId, some size⟩], ?_, ?_⟩, hensured.docker⟩
  · simp only [hv.volumes]
  · intro x hx
    rw [List.mem_singleton.mp hx]

end Volumes

section Mounts

variable {w : World} {answers : CreateAnswers} {message : String} {userId : Uuid} {request : CreateRequest}
  {plan : ServerPlan}

theorem listing_returns {α : Type} {listed : List String} {expired : Bool} {h : Handler α} {v : World} {Q : α → World → Prop}
    (hr : Returns h v Q) : Returns (listing listed expired h) v Q := by
  intro a t hrun
  rw [listing_run] at hrun
  cases hh : h.run v with
  | ok b u =>
      rw [hh] at hrun
      cases hrun
      exact hr _ _ hh
  | error raise u =>
      rw [hh] at hrun
      exact nomatch hrun

theorem listing_raises {α : Type} {listed : List String} {expired : Bool} {h : Handler α} {v : World}
    {Q : Broken → World → Prop} (hr : Raises h v fun raise t => Q ⟨raise, listed, expired⟩ t) :
    Raises (listing listed expired h) v Q := by
  intro e t hrun
  rw [listing_run] at hrun
  cases hh : h.run v with
  | ok b u =>
      rw [hh] at hrun
      exact nomatch hrun
  | error raise u =>
      rw [hh] at hrun
      cases hrun
      exact hr raise _ hh

theorem mountedVolumeName_old {made : List Volume} {t : World} (ht : Begun w made t) {id : Uuid}
    (hid : id < w.nextUuid) : mountedVolumeName t.volumes id = mountedVolumeName w.volumes id := by
  have hnone : made.find? (fun volume => volume.id = id) = none := by
    rw [List.find?_eq_none]
    intro volume hvolume
    simpa only [decide_eq_true_eq] using (hid.trans_le (ht.ids volume hvolume).1).ne'
  simp only [mountedVolumeName, ht.volumes, List.find?_append, hnone, Option.or_none]

theorem mountedVolumeName_new {made more : List Volume} {volume : Volume} {v t : World} (hv : Begun w made v)
    (hfresh : ∀ volume ∈ w.volumes, volume.id < w.nextUuid) (hid : volume.id = v.nextUuid)
    (ht : t.volumes = w.volumes ++ (made ++ volume :: more)) : mountedVolumeName t.volumes volume.id = volume.name := by
  have hbefore : ∀ x ∈ w.volumes ++ made, x.id ≠ volume.id := by
    intro x hx
    rcases List.mem_append.mp hx with hx | hx
    · exact (((hfresh x hx).trans_le hv.bound).trans_eq hid.symm).ne
    · exact ((hv.ids x hx).2.trans_eq hid.symm).ne
  have hnone : (w.volumes ++ made).find? (fun x => x.id = volume.id) = none := by
    simpa only [List.find?_eq_none, decide_eq_true_eq] using hbefore
  rw [mountedVolumeName, ht, ← List.append_assoc, List.find?_append, hnone, Option.none_or]
  simp only [decide_true, List.find?_cons_of_pos]

theorem prepareMounts_returns (hfresh : ∀ volume ∈ w.volumes, volume.id < w.nextUuid)
    {requested : List (MountRequest × Nat)} (hids : ∀ m ∈ requested, ∀ id ∈ m.1.volumeId, id < w.nextUuid)
    {made : List Volume} {v : World} (hv : Begun w made v) :
    Returns (prepareMounts answers message userId request.name plan requested (made.map Volume.name)) v fun mounts t =>
      volumesBreak answers userId request (w.volumes.map Volume.name) requested (made.map Volume.name) = none ∧
        ∃ more, Begun w (made ++ more) t ∧ more.map Volume.name = autoVolumeNames userId request.name requested ∧
          mounts.map (fun m => mountedVolumeName t.volumes m.volumeId) = mountNames userId request w requested := by
  induction requested generalizing made v with
  | nil => exact .pure ⟨rfl, [], by rwa [List.append_nil], rfl, rfl⟩
  | cons head rest ih =>
      obtain ⟨mount, idx⟩ := head
      have hrest : ∀ m ∈ rest, ∀ id ∈ m.1.volumeId, id < w.nextUuid := fun m hm => hids m (List.mem_cons_of_mem _ hm)
      cases hid : mount.volumeId with
      | some volumeId =>
          simp only [prepareMounts, hid]
          refine .bind fun mounts t ht => .pure ?_
          obtain ⟨hbreak, more, hmore, hnames, hmounts⟩ := ih hrest hv mounts t ht
          have hold := mountedVolumeName_old hmore (hids (mount, idx) List.mem_cons_self volumeId hid)
          refine ⟨?_, more, hmore, ?_, ?_⟩
          · simpa only [volumesBreak, hid] using hbreak
          · simpa only [autoVolumeNames, List.filter_cons, hid, Option.isNone_some, Bool.false_eq_true, if_false] using hnames
          · simp only [List.map_cons, hmounts, mountNames, hid, mountFor, hold]
      | none =>
          simp only [prepareMounts, hid]
          refine .bind fun volumeId v₁ hr => .bind fun mounts t ht => .pure ?_
          obtain ⟨⟨hvalid, hfault, hnew⟩, volume, rfl, hname, hnext, hv₁⟩ :=
            listing_returns (createVolume_returns hv) volumeId v₁ hr
          have hlisted : made.map Volume.name ++ [autoVolumeName userId request.name idx] =
              (made ++ [volume]).map Volume.name := by
            rw [List.map_append, List.map_cons, List.map_nil, hname]
          rw [hlisted] at ht
          obtain ⟨hbreak, more, hmore, hnames, hmounts⟩ := ih hrest hv₁ mounts t ht
          have hvolumes : t.volumes = w.volumes ++ (made ++ volume :: more) := by
            rw [hmore.volumes, List.append_assoc]
            rfl
          refine ⟨?_, volume :: more, ?_, ?_, ?_⟩
          · rw [hv.volumes, List.map_append, List.mem_append, not_or] at hnew
            simp only [volumesBreak, hid, hvalid, hfault, hlisted, hbreak, hnew.1, hnew.2, Bool.true_eq_false, reduceCtorEq,
              or_self, if_false, Option.isSome_none, Bool.false_eq_true]
          · simpa only [List.append_assoc, List.cons_append, List.nil_append] using hmore
          · simp only [autoVolumeNames, List.filter_cons, hid, Option.isNone_none, if_true, List.map_cons] at hnames ⊢
            rw [hnames, hname]
          · simp only [List.map_cons, hmounts, mountNames, hid, mountFor,
              mountedVolumeName_new hv hfresh hnext hvolumes, hname]

theorem prepareMounts_raises {requested : List (MountRequest × Nat)} {made : List Volume} {v : World}
    (hv : Begun w made v) :
    Raises (prepareMounts answers message userId request.name plan requested (made.map Volume.name)) v fun e t =>
      match e.raise with
      | .http _ _ => ∃ more, Begun w (made ++ more) t ∧
          volumesBreak answers userId request (w.volumes.map Volume.name) requested (made.map Volume.name) =
            some (.midway ((made ++ more).map Volume.name))
      | .exception _ =>
        e.expired = true ∧
          volumesBreak answers userId request (w.volumes.map Volume.name) requested (made.map Volume.name) =
            some (.crash e.listed [] false) ∧
          ∃ more name, e.listed = (made ++ more).map Volume.name ++ [name] ∧ HalfMade w (made ++ more) name t := by
  induction requested generalizing made v with
  | nil => exact .pure
  | cons head rest ih =>
      obtain ⟨mount, idx⟩ := head
      cases hid : mount.volumeId with
      | some volumeId =>
          simp only [prepareMounts, volumesBreak, hid]
          exact .bind (ih hv) fun _ _ _ => .pure
      | none =>
          simp only [prepareMounts, volumesBreak, hid]
          refine .bind (listing_raises fun raise t hr => ?_) fun volumeId v₁ hr => ?_
          · have h := createVolume_raises hv raise t hr
            cases raise with
            | http status detail =>
                obtain ⟨hbad, rfl⟩ := h
                rw [if_pos hbad]
                exact ⟨[], by rwa [List.append_nil], by rw [List.append_nil]⟩
            | exception text =>
                obtain ⟨⟨hvalid, herror, hcause⟩, hhalf⟩ := h
                rw [if_neg (by simp only [hvalid, herror, Bool.true_eq_false, or_self, not_false_eq_true])]
                rw [hv.volumes, List.map_append, List.mem_append] at hcause
                rw [if_pos hcause]
                exact ⟨rfl, rfl, [], _, by rw [List.append_nil], by rwa [List.append_nil]⟩
          · obtain ⟨⟨hvalid, hfault, hnew⟩, volume, rfl, hname, hnext, hv₁⟩ :=
              listing_returns (createVolume_returns hv) volumeId v₁ hr
            have hlisted : made.map Volume.name ++ [autoVolumeName userId request.name idx] =
                (made ++ [volume]).map Volume.name := by
              rw [List.map_append, List.map_cons, List.map_nil, hname]
            rw [hv.volumes, List.map_append, List.mem_append, not_or] at hnew
            rw [hlisted]
            refine .bind ?_ fun _ _ _ => .pure
            intro e t ht
            have h := ih hv₁ e t ht
            have hskip : (if validVolumeName (autoVolumeName userId request.name idx) = false ∨
                  answers.volumeFault idx = some .driverError then some (Break.midway (made.map Volume.name))
                else if (answers.volumeFault idx).isSome ∨
                  autoVolumeName userId request.name idx ∈ w.volumes.map Volume.name ∨
                  autoVolumeName userId request.name idx ∈ made.map Volume.name then
                    some (.crash ((made ++ [volume]).map Volume.name) [] false)
                else volumesBreak answers userId request (w.volumes.map Volume.name) rest
                  ((made ++ [volume]).map Volume.name)) =
                volumesBreak answers userId request (w.volumes.map Volume.name) rest
                  ((made ++ [volume]).map Volume.name) := by
              rw [if_neg, if_neg]
              · simp only [hfault, hnew.1, hnew.2, Option.isSome_none, Bool.false_eq_true, or_self, not_false_eq_true]
              · simp only [hvalid, hfault, Bool.true_eq_false, reduceCtorEq, or_self, not_false_eq_true]
            rw [hskip]
            obtain ⟨raise, listed, expired⟩ := e
            cases raise with
            | http status detail =>
                obtain ⟨more, hmore, hbreak⟩ := h
                exact ⟨volume :: more, by simpa using hmore, by simpa using hbreak⟩
            | exception text =>
                obtain ⟨hexpired, hbreak, more, name, hlist, hhalf⟩ := h
                exact ⟨hexpired, hbreak, volume :: more, name, by simpa using hlist, by simpa using hhalf⟩

end Mounts

section Spawns

variable {u t : World} {runtime : Runtime} {request : SpawnRequest}

structure Spawned (u : World) (container : String) (ensured : List String) (t : World) : Prop where
  servers : t.servers = u.servers
  gpuAllocations : t.gpuAllocations = u.gpuAllocations
  volumes : t.volumes = u.volumes
  containers : ∀ c : Container, c.name ≠ container → (c ∈ t.containers ↔ c ∈ u.containers)
  docker : ∀ name, name ∈ t.dockerVolumes ↔ name ∈ u.dockerVolumes ∨ name ∈ ensured

theorem run_removeNamed (name : String) (u : World) :
    (removeNamed name).run u = .ok () (final (removeNamed name) u) := rfl

theorem run_ensureVolumes (names : List String) (u : World) :
    (ensureVolumes names).run u = .ok () (final (ensureVolumes names) u) := rfl

theorem Spawned.refl (u : World) (container : String) : Spawned u container [] u :=
  ⟨rfl, rfl, rfl, fun _ _ => Iff.rfl, fun _ => by simp⟩

theorem spawned_ensured (u : World) (container : String) (ensured : List String) :
    Spawned u container ensured (final (ensureVolumes ensured) (final (removeNamed container) u)) := by
  refine ⟨rfl, rfl, rfl, fun c hc => ?_, fun name => mem_ensured ensured _ name⟩
  simp only [ensureVolumes, removeNamed, final_modify, List.mem_filter, decide_eq_true_eq]
  exact and_iff_left hc

theorem Spawned.removed {container : String} {ensured : List String} (h : Spawned u container ensured t) :
    Spawned u container ensured (final (removeNamed container) t) := by
  refine ⟨h.servers, h.gpuAllocations, h.volumes, fun c hc => ?_, h.docker⟩
  simp only [removeNamed, final_modify, List.mem_filter, decide_eq_true_eq]
  rw [← h.containers c hc]
  exact and_iff_left hc

theorem Spawned.added {container : String} {ensured : List String} (h : Spawned u container ensured t)
    (nextUuid : Uuid) (c : Container) (hc : c.name = container) :
    Spawned u container ensured { t with nextUuid := nextUuid, containers := t.containers ++ [c] } := by
  refine ⟨h.servers, h.gpuAllocations, h.volumes, fun d hd => ?_, h.docker⟩
  rw [← h.containers d hd, List.mem_append, List.mem_singleton, or_iff_left]
  rintro rfl
  exact hd hc

theorem spawn_raises :
    Raises (spawn runtime request) u fun raise t =>
      (∃ text, raise = .exception text) ∧
        ∃ ensured, spawnFails runtime u request.gpu (mountedVolumeNames u request) = some ensured ∧
          Spawned u (containerName request.userId request.serverName) ensured t := by
  unfold spawn
  generalize containerName request.userId request.serverName = name
  refine .get_bind (.ite (fun hgpu => .throw_bind ?_) fun hgpu => .ite (fun hbefore => .throw_bind ?_) fun hbefore => ?_)
  · exact ⟨⟨_, rfl⟩, [], by rw [spawnFails, if_pos (.inl hgpu)], .refl u _⟩
  · exact ⟨⟨_, rfl⟩, [], by rw [spawnFails, if_pos (.inr hbefore)], .refl u _⟩
  have hstarted : ¬ ((request.gpu > 0 ∧ ¬ u.settings.gpuEnabled) ∨ runtime.spawnFault = some .beforeWork) :=
    not_or.mpr ⟨hgpu, hbefore⟩
  rw [spawnFails, if_neg hstarted]
  refine .bind_of_ok rfl ?_
  cases hf : runtime.spawnFault with
  | none => exact .bind_of_ok rfl (.bind_of_ok rfl (.bind_of_ok rfl .pure))
  | some fault =>
      cases fault with
      | beforeWork => exact absurd hf hbefore
      | ensuringVolumes ensured =>
          refine .bind_of_ok rfl (.throw ⟨⟨_, rfl⟩, _, rfl, ?_⟩)
          exact spawned_ensured u _ _
      | creatingContainer =>
          refine .bind_of_ok rfl (.bind_of_ok rfl (.throw ⟨⟨_, rfl⟩, _, rfl, ?_⟩))
          exact (spawned_ensured u _ _).removed

def NewContainer (w t : World) : Prop := ∃ c ∈ t.containers, w.nextUuid ≤ c.id

theorem spawn_spawned :
    Returns (spawn runtime request) u fun _ t =>
      spawnFails runtime u request.gpu (mountedVolumeNames u request) = none ∧
        Spawned u (containerName request.userId request.serverName)
          (mountedVolumeNames u request ++ runtime.toolchainVolume.toList) t ∧ NewContainer u t := by
  unfold spawn
  generalize containerName request.userId request.serverName = name
  refine .get_bind (.ite (fun _ => .throw_bind _) fun hgpu => .ite (fun _ => .throw_bind _) fun hbefore => ?_)
  have hstarted : ¬ ((request.gpu > 0 ∧ ¬ u.settings.gpuEnabled) ∨ runtime.spawnFault = some .beforeWork) :=
    not_or.mpr ⟨hgpu, hbefore⟩
  rw [spawnFails, if_neg hstarted]
  cases hf : runtime.spawnFault with
  | none =>
      have h := spawned_ensured u name (mountedVolumeNames u request ++ runtime.toolchainVolume.toList)
      refine .bind_of_ok (run_removeNamed _ u) (.bind_of_ok (run_ensureVolumes _ _) ?_)
      refine .bind_of_ok rfl (.bind_of_ok rfl (.pure ⟨rfl, h.added _ _ rfl, ?_⟩))
      exact ⟨_, List.mem_append_right _ (List.mem_singleton_self _), le_rfl⟩
  | some fault =>
      cases fault with
      | beforeWork => exact absurd hf hbefore
      | ensuringVolumes ensured => exact .bind fun _ _ _ => .bind fun _ _ _ => .throw _
      | creatingContainer => exact .bind fun _ _ _ => .bind fun _ _ _ => .bind fun _ _ _ => .throw _

theorem isSome_spawnFails {v w : World} (runtime : Runtime) (hs : v.settings = w.settings) (gpu : Int) (volumes : List String) :
    (spawnFails runtime v gpu volumes).isSome = (spawnFails runtime w gpu []).isSome := by
  unfold spawnFails
  rw [hs]
  split
  · rfl
  · cases runtime.spawnFault with
    | none => rfl
    | some fault => cases fault <;> rfl

end Spawns

section Devices

variable {u : World} {serverId : Uuid} {plan : ServerPlan}

theorem reserves_iff : reserves u plan = true ↔ ¬ (¬ enabled u.settings ∨ plan.gpuLimit ≤ 0) := by
  simp only [reserves, Bool.and_eq_true, decide_eq_true_eq, not_or, not_not, not_le, gt_iff_lt]

theorem devicesOf_fresh (hfresh : ∀ row ∈ u.gpuAllocations, row.serverId ≠ serverId) :
    devicesOf u.gpuAllocations serverId = [] := by
  rw [devicesOf, List.map_eq_nil_iff, List.filter_eq_nil_iff]
  simpa only [decide_eq_true_eq] using hfresh

theorem ensureGpuDevices_raises :
    Raises (ensureGpuDevices serverId plan.gpuLimit) u fun raise t =>
      (∃ status detail, raise = .http status detail) ∧ (reserves u plan = true ∧ allocatable u plan.gpuLimit = false) ∧
        t = u := by
  refine .get_bind (.ite (fun _ => .pure) fun hreserves => .bind_of_ok rfl ?_)
  have hr := reserves_iff.mpr hreserves
  obtain ⟨henabled, hcount⟩ := not_or.mp hreserves
  refine .ite (fun _ => .pure) fun _ => ?_
  have hrun := allocate_run u serverId (not_le.mp hcount) (not_not.mp henabled)
  cases ha : allocatable u plan.gpuLimit with
  | true =>
      rw [ha, if_pos rfl] at hrun
      exact .bind_of_ok hrun .pure
  | false =>
      rw [ha] at hrun
      exact .bind_of_ok hrun (.throw ⟨⟨_, _, rfl⟩, ⟨hr, rfl⟩, rfl⟩)

theorem ensureGpuDevices_returns (hfresh : ∀ row ∈ u.gpuAllocations, row.serverId ≠ serverId) :
    Returns (ensureGpuDevices serverId plan.gpuLimit) u fun _ t =>
      (reserves u plan = true → allocatable u plan.gpuLimit = true) ∧
        t = if reserves u plan then allocated u serverId plan.gpuLimit else u := by
  refine .get_bind (.ite (fun hno => .pure ?_) fun hreserves => .bind_of_ok rfl ?_)
  · have hr : reserves u plan = false := by
      rw [← Bool.not_eq_true, reserves_iff]
      exact not_not.mpr hno
    rw [hr]
    exact ⟨nofun, rfl⟩
  have hr := reserves_iff.mpr hreserves
  obtain ⟨henabled, hcount⟩ := not_or.mp hreserves
  refine .ite (fun hdevices => absurd (devicesOf_fresh hfresh) hdevices) fun _ => ?_
  have hrun := allocate_run u serverId (not_le.mp hcount) (not_not.mp henabled)
  cases ha : allocatable u plan.gpuLimit with
  | true =>
      rw [ha, if_pos rfl] at hrun
      rw [hr]
      exact .bind_of_ok hrun (.pure ⟨fun _ => rfl, rfl⟩)
  | false =>
      rw [ha] at hrun
      exact .bind_of_ok hrun (.throw _)

end Devices

section Prepared

variable {w v : World} {answers : CreateAnswers} {runtime : Runtime} {commits : Commits} {userId : Uuid} {user : User}
  {request : CreateRequest} {plan : ServerPlan} {mounts : List VolumeMount} {made : List Volume}

theorem spawnNew_raises {u : World} {request : SpawnRequest} :
    Raises (spawnNew runtime request) u fun raise t =>
      (∃ text, raise = .exception text) ∧
        ∃ ensured, spawnFails runtime u request.gpu (mountedVolumeNames u request) = some ensured ∧
          Spawned { u with gpuAllocations := withoutServer u.gpuAllocations request.serverId }
            (containerName request.userId request.serverName) ensured t := by
  refine .tryCatch fun raise t hr => .bind_of_ok rfl (.throw ?_)
  obtain ⟨htext, ensured, hfails, hspawned⟩ := spawn_raises raise t hr
  exact ⟨htext, ensured, hfails, hspawned.servers, congrArg (withoutServer · request.serverId) hspawned.gpuAllocations,
    hspawned.volumes, hspawned.containers, hspawned.docker⟩

theorem spawnNew_leaves {u : World} {request : SpawnRequest} :
    Returns (spawnNew runtime request) u fun _ t =>
      spawnFails runtime u request.gpu (mountedVolumeNames u request) = none ∧ NewContainer u t :=
  .tryCatch (fun new t hr => (spawn_spawned new t hr).imp_right And.right) fun _ _ => .bind fun _ _ _ => .throw _

theorem recordSpawned_raises {u : World} {new : Server} {request : SpawnRequest} {planId : Uuid} :
    Raises (recordSpawned commits new request planId user) u fun raise t =>
      (∃ text, raise = .exception text) ∧ ¬ (commits.server ∧ commits.mounts ∧ commits.quota) ∧
        t.containers = u.containers := by
  refine .bind (.get_bind (.bind (commit_raises fun hserver => ⟨⟨_, rfl⟩, by simp [hserver], rfl⟩) fun _ _ _ => .pure))
    fun server t hr => ?_
  have ht : t.containers = u.containers := by
    have hsaved : Returns (saveServer commits new planId user) u fun _ t => t.containers = u.containers := by
      refine .get_bind (.bind fun _ v hv => .pure ?_)
      obtain ⟨-, rfl⟩ := commit_returns _ v hv
      rfl
    exact hsaved server t hr
  refine .bind (commit_raises fun hmounts => ⟨⟨_, rfl⟩, by simp [hmounts], ht⟩) fun _ t' hr' => ?_
  obtain ⟨-, rfl⟩ := commit_returns _ t' hr'
  refine .ite (fun hquota => .throw_bind ⟨⟨_, rfl⟩, by simp_all, ht⟩) fun _ => ?_
  obtain ⟨quota, hrun, -⟩ := adjustUsage_run Quantities.Usage.plus request.userId planId _
  exact .bind_of_ok hrun .pure

theorem Begun.next (hv : Begun w made v) : Begun w made { v with nextUuid := v.nextUuid + 1 } :=
  ⟨hv.settings, hv.plans, hv.servers, hv.gpuAllocations, hv.containers, hv.volumes, hv.docker,
    hv.bound.trans (Nat.le_succ _), fun volume hvolume => ⟨(hv.ids volume hvolume).1, (hv.ids volume hvolume).2.trans (Nat.lt_succ_self _)⟩⟩

/-- The devices of a new server, in the world it was given its identifier in. -/
structure Reserved (w : World) (made : List Volume) (serverId : Uuid) (plan : ServerPlan) (u : World) : Prop where
  bound : w.nextUuid ≤ u.nextUuid
  servers : u.servers = w.servers
  settings : u.settings = w.settings
  containers : u.containers = w.containers
  volumes : u.volumes = w.volumes ++ made
  docker : ∀ name, name ∈ u.dockerVolumes ↔ name ∈ w.dockerVolumes ∨ name ∈ made.map Volume.name
  gpuAllocations : ∃ rows, u.gpuAllocations = w.gpuAllocations ++ rows ∧ (rows ≠ [] ↔ reserves w plan = true) ∧
    ∀ row ∈ rows, row.serverId = serverId

theorem reserved_of_begun (hv : Begun w made v) (serverId : Uuid) (hall : reserves w plan = true → allocatable v plan.gpuLimit = true) :
    Reserved w made serverId plan (if reserves v plan then allocated v serverId plan.gpuLimit else v) := by
  have hr : reserves v plan = reserves w plan := by rw [reserves, reserves, hv.settings]
  cases h : reserves w plan with
  | false =>
      rw [hr, h]
      exact ⟨hv.bound, hv.servers, hv.settings, hv.containers, hv.volumes, hv.docker, [], by
        rw [List.append_nil]
        exact hv.gpuAllocations, by simp [h], nofun⟩
  | true =>
      rw [hr, h, if_pos rfl]
      refine ⟨hv.bound.trans (Nat.le_add_right _ _), hv.servers, hv.settings, hv.containers, hv.volumes, hv.docker,
        newRows serverId v.nextUuid (taken v plan.gpuLimit) v.now, ?_, ?_, fun row => serverId_of_mem_newRows⟩
      · rw [allocated, hv.gpuAllocations]
      · have hcount : 0 < plan.gpuLimit := not_le.mp (not_or.mp (reserves_iff.mp h)).2
        have hlength : plan.gpuLimit ≤ (taken v plan.gpuLimit).length := by
          have ha := hall h
          rw [allocatable, Bool.and_eq_true, decide_eq_true_eq] at ha
          exact ha.1
        refine iff_of_true (fun hnil => ?_) h
        have h0 := length_newRows serverId v.nextUuid (taken v plan.gpuLimit) v.now
        rw [hnil, List.length_nil] at h0
        omega

theorem requestedMounts_ne_nil (username : String) : requestedMounts request username ≠ [] := by
  unfold requestedMounts
  split
  · assumption
  · split <;> exact List.cons_ne_nil _ _

theorem crashed_of_spawned {u t : World} {serverId : Uuid} {container : String} {ensured : List String}
    (hu : Reserved w made serverId plan u)
    (hspawned : Spawned { u with gpuAllocations := w.gpuAllocations } container ensured t) :
    Crashed w (some container) (made.map Volume.name) ensured t := by
  refine ⟨hspawned.servers.trans hu.servers, hspawned.gpuAllocations, fun c hc => ?_, ?_, fun name hname => ?_⟩
  · exact (hspawned.containers c fun hname => hc (congrArg some hname)).trans (by rw [hu.containers])
  · exact ⟨made, hspawned.volumes.trans hu.volumes, fun volume hvolume => List.mem_map_of_mem hvolume⟩
  · refine (hspawned.docker name).trans ?_
    rw [hu.docker, or_iff_left hname]

theorem released_of_reserved {u : World} {serverId : Uuid} (hu : Reserved w made serverId plan u)
    (hfresh : ∀ row ∈ w.gpuAllocations, row.serverId ≠ serverId) :
    withoutServer u.gpuAllocations serverId = w.gpuAllocations := by
  obtain ⟨rows, hrows, -, hid⟩ := hu.gpuAllocations
  have hkeep : withoutServer w.gpuAllocations serverId = w.gpuAllocations := by
    rw [withoutServer, List.filter_eq_self]
    simpa only [decide_eq_true_eq] using hfresh
  have hdrop : withoutServer rows serverId = [] := by
    rw [withoutServer, List.filter_eq_nil_iff]
    intro row hrow
    simp [hid row hrow]
  rw [hrows]
  exact (List.filter_append _ _).trans (by rw [← withoutServer, ← withoutServer, hkeep, hdrop, List.append_nil])

theorem allocatable_congr {u v : World} (hs : u.settings = v.settings) (hg : u.gpuAllocations = v.gpuAllocations)
    (count : Int) : allocatable u count = allocatable v count := by
  have h : taken u count = taken v count := by rw [taken, taken, hs, hg]
  rw [allocatable, allocatable, h]

theorem mountsRefusal_http {raise : Raise} (h : mountsRefusal answers = some raise) :
    ∃ status detail, raise = .http status detail := by
  unfold mountsRefusal at h
  split at h
  · exact ⟨_, _, (Option.some.inj h).symm⟩
  · exact ⟨_, _, (Option.some.inj h).symm⟩
  · exact nomatch h

/-- How the steps once every volume is there break off, against the world before the first volume. -/
def SpawnBroken (answers : CreateAnswers) (runtime : Runtime) (commits : Commits) (userId : Uuid) (user : User)
    (request : CreateRequest) (plan : ServerPlan) (made : List Volume) (w : World) (e : Broken) (t : World) : Prop :=
  match e.raise with
  | .http _ _ =>
    spawnBreak answers runtime commits userId user request w plan = some (.midway (made.map Volume.name)) ∧ Begun w made t
  | .exception _ =>
    (e.expired = false ∧ ∃ ensured,
      spawnBreak answers runtime commits userId user request w plan = some (.crash e.listed ensured true) ∧
      Crashed w (some (containerName userId request.name)) e.listed ensured t) ∨
    (e.expired = true ∧ spawnBreak answers runtime commits userId user request w plan = some .late ∧ NewContainer w t)

theorem checkMounts_raises :
    Raises (checkMounts answers) v fun raise t =>
      (∃ status detail, raise = .http status detail) ∧ (mountsRefusal answers).isSome = true ∧ t = v := by
  unfold checkMounts
  cases hrefusal : mountsRefusal answers with
  | none => exact .pure
  | some raise => exact .throw ⟨mountsRefusal_http hrefusal, rfl, rfl⟩

theorem checkMounts_returns : Returns (checkMounts answers) v fun _ t => mountsRefusal answers = none ∧ t = v := by
  unfold checkMounts
  cases mountsRefusal answers with
  | none => exact .pure ⟨rfl, rfl⟩
  | some raise => exact .throw _

theorem listing_newUuid (listed : List String) (expired : Bool) (v : World) :
    (listing listed expired newUuid).run v = .ok v.nextUuid { v with nextUuid := v.nextUuid + 1 } := rfl

theorem spawnPrepared_raises (hv : Begun w made v) (hgpu : ∀ row ∈ w.gpuAllocations, row.serverId < w.nextUuid)
    (hlisted : made.map Volume.name =
      autoVolumeNames userId request.name (requestedMounts request user.username).zipIdx)
    (hmounts : mounts.map (fun m => mountedVolumeName v.volumes m.volumeId) =
      mountNames userId request w (requestedMounts request user.username).zipIdx) :
    Raises (spawnPrepared answers runtime commits userId user request plan (made.map Volume.name) mounts) v
      (SpawnBroken answers runtime commits userId user request plan made w) := by
  have hmidway (h : (mountsRefusal answers).isSome = true ∨
      (reserves w plan = true ∧ ¬ allocatable w plan.gpuLimit = true)) :
      spawnBreak answers runtime commits userId user request w plan = some (.midway (made.map Volume.name)) := by
    rw [spawnBreak, if_pos h, hlisted]
  have hnext := hv.next
  have hfresh : ∀ row ∈ w.gpuAllocations, row.serverId ≠ v.nextUuid :=
    fun row hrow => ((hgpu row hrow).trans_le hv.bound).ne
  have hall : allocatable { v with nextUuid := v.nextUuid + 1 } plan.gpuLimit = allocatable w plan.gpuLimit :=
    allocatable_congr hv.settings hv.gpuAllocations _
  refine .bind (listing_raises fun raise t hr => ?_) fun _ v' hr => ?_
  · obtain ⟨⟨status, detail, rfl⟩, hrefused, rfl⟩ := checkMounts_raises raise t hr
    exact ⟨hmidway (.inl hrefused), hv⟩
  obtain ⟨hno, rfl⟩ := listing_returns checkMounts_returns _ v' hr
  refine .bind_of_ok (listing_newUuid _ _ _) (.bind (listing_raises fun raise t hr => ?_) fun devices u hr => ?_)
  · obtain ⟨⟨status, detail, rfl⟩, ⟨hreserves, hshort⟩, rfl⟩ := ensureGpuDevices_raises raise t hr
    refine ⟨hmidway (.inr ⟨?_, ?_⟩), hnext⟩
    · simpa only [reserves, hv.settings] using hreserves
    · simpa only [hall, Bool.not_eq_true] using hshort
  obtain ⟨hreserved, rfl⟩ := listing_returns (ensureGpuDevices_returns (hv.gpuAllocations.symm ▸ hfresh)) devices u hr
  have hu := reserved_of_begun hnext v'.nextUuid fun h => hreserved (by simpa only [reserves, hv.settings] using h)
  generalize (if reserves { v' with nextUuid := v'.nextUuid + 1 } plan then
    allocated { v' with nextUuid := v'.nextUuid + 1 } v'.nextUuid plan.gpuLimit
    else { v' with nextUuid := v'.nextUuid + 1 }) = u at hu hr
  have hpast : ¬ ((mountsRefusal answers).isSome ∨ (reserves w plan ∧ ¬ allocatable w plan.gpuLimit)) := by
    rw [hno]
    rintro (h | ⟨h, hshort⟩)
    · exact absurd h (by decide)
    · exact hshort (hall ▸ hreserved (by simpa only [reserves, hv.settings] using h))
  have hne : mounts ≠ [] := by
    rintro rfl
    have hlength := congrArg List.length hmounts
    rw [mountNames, List.map_nil, List.length_nil, List.length_map, List.length_zipIdx] at hlength
    exact requestedMounts_ne_nil user.username (List.length_eq_zero_iff.mp hlength.symm)
  have hvolumes : mountedVolumeNames u (spawnRequestOf userId user request plan mounts v'.nextUuid devices) =
      mountNames userId request w (requestedMounts request user.username).zipIdx := by
    have hsame : u.volumes = v'.volumes := hu.volumes.trans hv.volumes.symm
    rw [mountedVolumeNames, hsame, ← hmounts]
    exact if_neg hne
  -- whether the spawn breaks off, and with which volumes ensured, is the same in the world before
  have hfails : spawnFails runtime u plan.gpuLimit
      (mountedVolumeNames u (spawnRequestOf userId user request plan mounts v'.nextUuid devices)) =
      spawnFails runtime w plan.gpuLimit (mountNames userId request w (requestedMounts request user.username).zipIdx) := by
    rw [hvolumes, spawnFails, spawnFails, hu.settings]
  refine .bind (listing_raises fun raise t hr => ?_) fun new t hr => .bind (listing_raises fun raise t' hr' => ?_) fun _ _ _ => .pure
  · obtain ⟨⟨text, rfl⟩, ensured, hbroken, hspawned⟩ := spawnNew_raises raise t hr
    refine .inl ⟨rfl, ensured, ?_, crashed_of_spawned hu ?_⟩
    · rw [spawnBreak, if_neg hpast, ← hlisted]
      simp only [hfails.symm.trans hbroken]
    · rwa [spawnRequestOf, released_of_reserved hu hfresh] at hspawned
  · obtain ⟨hspawned, c, hc, hid⟩ := listing_returns spawnNew_leaves new t hr
    obtain ⟨⟨text, rfl⟩, hcommits, hkept⟩ := recordSpawned_raises raise t' hr'
    refine .inr ⟨rfl, ?_, c, hkept ▸ hc, hu.bound.trans hid⟩
    rw [spawnBreak, if_neg hpast]
    simp only [hfails.symm.trans hspawned, if_neg hcommits]

end Prepared

section Residue

variable {w t : World} {userId : Uuid} {container : String} {listed ensured : List String} {spawning : Bool}

theorem mem_recalculated_iff (w : World) (userId : Uuid) :
    (∀ row, row ∈ (recalculatedWorld w userId none).gpuAllocations ↔ row ∈ w.gpuAllocations) ↔ NothingStale w := by
  unfold recalculatedWorld NothingStale
  cases enabled w.settings with
  | false => simp
  | true =>
      simp only [if_true, List.mem_filter, decide_eq_true_eq, Bool.not_eq_true, and_iff_left_iff_imp, forall_const]

theorem recalculated_subset {row : GpuAllocation} (h : row ∈ (recalculatedWorld w userId none).gpuAllocations) :
    row ∈ w.gpuAllocations := by
  unfold recalculatedWorld at h
  cases he : enabled w.settings with
  | false => simpa only [he, Bool.false_eq_true, if_false] using h
  | true =>
      simp only [he, if_true] at h
      exact (List.mem_filter.mp h).1

theorem untouched_of_begun {made : List Volume} (hfresh : ∀ volume ∈ w.volumes, volume.id < w.nextUuid)
    (h : Begun (recalculatedWorld w userId none) made t) :
    Untouched w t ↔ Clean w container (.midway (made.map Volume.name)) := by
  have hgpu := h.gpuAllocations
  constructor
  · intro hu
    refine ⟨(mem_recalculated_iff w userId).mp fun row => hgpu ▸ hu.gpuAllocations row, ?_⟩
    cases made with
    | nil => rfl
    | cons volume rest =>
        have hmem : volume ∈ w.volumes :=
          (hu.volumes volume).mp (h.volumes ▸ List.mem_append_right _ List.mem_cons_self)
        exact absurd (hfresh volume hmem) (not_lt.mpr (h.ids volume List.mem_cons_self).1)
  · rintro ⟨hstale, hmade⟩
    rw [List.map_eq_nil_iff] at hmade
    subst hmade
    refine ⟨fun name => ?_, fun volume => ?_, fun c => ?_, fun row => ?_, fun server => ?_⟩
    · rw [h.docker, List.map_nil, or_iff_left (List.not_mem_nil)]
      rfl
    · rw [h.volumes, List.append_nil]
      rfl
    · rw [h.containers]
      rfl
    · rw [hgpu]
      exact (mem_recalculated_iff w userId).mpr hstale row
    · rw [h.servers]
      rfl

theorem untouched_of_crashed
    (h : Crashed (recalculatedWorld w userId none) (if spawning then some container else none) listed ensured t) :
    Untouched w (final (cleanUp listed (if spawning then some container else none)) t) ↔
      Clean w container (.crash listed ensured spawning) := by
  obtain ⟨made, hmade, hnames⟩ := h.volumes
  have hname (c : Container) : some c.name ≠ (if spawning then some container else none) ↔
      (spawning = true → c.name ≠ container) := by cases spawning <;> simp
  generalize (if spawning then some container else none) = cleaned at h hname ⊢
  have hvolumes (volume : Volume) : volume ∈ (final (cleanUp listed cleaned) t).volumes ↔
      volume ∈ w.volumes ∧ volume.name ∉ listed := by
    simp only [cleanUp, final_modify, List.mem_filter, decide_eq_true_eq, hmade, List.mem_append]
    refine and_congr_left fun hname => or_iff_left fun hvolume => hname (hnames volume hvolume)
  have hdocker (name : String) : name ∈ (final (cleanUp listed cleaned) t).dockerVolumes ↔
      (name ∈ w.dockerVolumes ∨ name ∈ ensured) ∧ name ∉ listed := by
    simp only [cleanUp, final_modify, List.mem_filter, decide_eq_true_eq]
    exact and_congr_left fun hname => h.docker name hname
  have hcontainers (c : Container) : c ∈ (final (cleanUp listed cleaned) t).containers ↔
      c ∈ w.containers ∧ some c.name ≠ cleaned := by
    simp only [cleanUp, final_modify, List.mem_filter, decide_eq_true_eq]
    exact and_congr_left fun hname => h.containers c hname
  have hgpu : (final (cleanUp listed cleaned) t).gpuAllocations = (recalculatedWorld w userId none).gpuAllocations :=
    h.gpuAllocations
  constructor
  · intro hu
    refine ⟨(mem_recalculated_iff w userId).mp fun row => ?_, fun name hname hold => ?_, fun volume hvolume => ?_,
      fun name hname => ?_, fun hspawning c hc => ?_⟩
    · rw [← hu.gpuAllocations row, hgpu]
    · exact ((hdocker name).mp ((hu.dockerVolumes name).mpr hold)).2 hname
    · exact ((hvolumes volume).mp ((hu.volumes volume).mpr hvolume)).2
    · by_cases hlisted : name ∈ listed
      · exact .inr hlisted
      · exact .inl ((hu.dockerVolumes name).mp ((hdocker name).mpr ⟨.inr hname, hlisted⟩))
    · exact (hname c).mp ((hcontainers c).mp ((hu.containers c).mpr hc)).2 hspawning
  · rintro ⟨hstale, hold, hrecords, hensured, hclash⟩
    refine ⟨fun name => ?_, fun volume => ?_, fun c => ?_, fun row => ?_, fun server => ?_⟩
    · rw [hdocker]
      constructor
      · rintro ⟨hname | hname, hlisted⟩
        · exact hname
        · exact (hensured name hname).resolve_right hlisted
      · exact fun hname => ⟨.inl hname, fun hlisted => hold name hlisted hname⟩
    · rw [hvolumes]
      exact and_iff_left_of_imp (hrecords volume)
    · rw [hcontainers]
      exact and_iff_left_of_imp fun hc => (hname c).mpr fun hspawning => hclash hspawning c hc
    · rw [hgpu]
      exact (mem_recalculated_iff w userId).mpr hstale row
    · show server ∈ t.servers.rows ↔ _
      rw [h.servers]
      rfl

theorem not_untouched_of_left (hfresh : ∀ c ∈ w.containers, c.id < w.nextUuid)
    (h : NewContainer (recalculatedWorld w userId none) t) : ¬ Untouched w (final (cleanUp listed none) t) := by
  obtain ⟨c, hc, hid⟩ := h
  intro hu
  have hkept : c ∈ (final (cleanUp listed none) t).containers := by
    simp only [cleanUp, final_modify, List.mem_filter, decide_eq_true_eq]
    exact ⟨hc, nofun⟩
  exact absurd (hfresh c ((hu.containers c).mp hkept)) (not_lt.mpr hid)

end Residue

section Creations

variable {w : World} {answers : CreateAnswers} {runtime : Runtime} {commits : Commits} {userId : Uuid} {user : User}
  {request : CreateRequest} {plan : ServerPlan}

theorem crashed_of_halfMade {made : List Volume} {name : String} {t : World} (h : HalfMade w made name t) :
    Crashed w none (made.map Volume.name ++ [name]) [] t := by
  obtain ⟨half, hhalf, hname⟩ := h.volumes
  refine ⟨h.servers, h.gpuAllocations, fun c _ => by rw [h.containers],
    ⟨made ++ half, by rw [hhalf, List.append_assoc], fun volume hvolume => ?_⟩, fun n hn => ?_⟩
  · rcases List.mem_append.mp hvolume with hmade | hlast
    · exact List.mem_append_left _ (List.mem_map_of_mem hmade)
    · exact List.mem_append_right _ (List.mem_singleton.mpr (hname volume hlast))
  · rw [List.mem_append, List.mem_singleton, not_or] at hn
    rw [h.docker n hn.2, or_iff_left hn.1, or_iff_left List.not_mem_nil]

theorem requestedMounts_below (hids : IdsBelow w request) (username : String) :
    ∀ m ∈ (requestedMounts request username).zipIdx, ∀ id ∈ m.1.volumeId, id < w.nextUuid := by
  intro m hm id hid
  have hmount : m.1 ∈ requestedMounts request username := (List.mem_zipIdx' hm).2 ▸ List.getElem_mem _
  unfold requestedMounts at hmount
  split at hmount
  · exact hids.mounts m.1 hmount id hid
  · split at hmount
    · rename_i volumeId hvolume
      rw [List.mem_singleton.mp hmount] at hid
      exact hids.requested id (hvolume ▸ hid)
    · rw [List.mem_singleton.mp hmount] at hid
      exact nomatch hid

def BodyBroken (answers : CreateAnswers) (runtime : Runtime) (commits : Commits) (userId : Uuid) (user : User)
    (request : CreateRequest) (plan : ServerPlan) (w : World) (e : Broken) (t : World) : Prop :=
  match e.raise with
  | .http _ _ =>
    ∃ made, Begun w made t ∧
      ((bodyBreak answers runtime commits userId user request w plan = some .refused ∧ made = []) ∨
        bodyBreak answers runtime commits userId user request w plan = some (.midway (made.map Volume.name)))
  | .exception _ =>
    (∃ ensured spawning, e.expired = !spawning ∧
      bodyBreak answers runtime commits userId user request w plan = some (.crash e.listed ensured spawning) ∧
        Crashed w (if spawning then some (containerName userId request.name) else none) e.listed ensured t) ∨
      (e.expired = true ∧ bodyBreak answers runtime commits userId user request w plan = some .late ∧ NewContainer w t)

theorem begun_start (w : World) (quotas : Uuid → Option ResourceQuota) : Begun w [] { w with quotas := quotas } :=
  ⟨rfl, rfl, rfl, rfl, rfl, (List.append_nil _).symm, fun _ => by simp, le_rfl, nofun⟩

theorem checkVolumeCreationAllowed_run (w : World) (userId : Uuid) (bytes : Int) :
    ∃ quotas, (checkVolumeCreationAllowed userId bytes).run w =
      .ok (diskRefusal w (quotaOf w userId) userId bytes) { w with quotas := quotas } :=
  ⟨_, rfl⟩

/-- The disk check writes the owner's quota row and nothing else. -/
theorem checkNewVolumes_run (w : World) (userId : Uuid) (newBytes : Int) :
    ∃ quotas, (checkNewVolumes userId newBytes).run w =
      if newBytes ≠ 0 then
        match diskRefusal w (quotaOf w userId) userId newBytes with
        | some refusal => .error (.http 429 refusal.reason) { w with quotas := quotas }
        | none => .ok () { w with quotas := quotas }
      else .ok () { w with quotas := quotas } := by
  by_cases hbytes : newBytes = 0
  · subst hbytes
    exact ⟨w.quotas, rfl⟩
  · obtain ⟨quotas, hrun⟩ := checkVolumeCreationAllowed_run w userId newBytes
    refine ⟨quotas, ?_⟩
    rw [checkNewVolumes, if_pos hbytes, if_pos hbytes, EStateM.run_bind, hrun]
    cases diskRefusal w (quotaOf w userId) userId newBytes <;> rfl

theorem checkNewVolumes_raises (newBytes : Int) :
    Raises (checkNewVolumes userId newBytes) w fun raise t =>
      (∃ detail, raise = .http 429 detail) ∧ Begun w [] t ∧
        (newBytes != 0 && (diskRefusal w (quotaOf w userId) userId newBytes).isSome) = true := by
  intro raise t hr
  obtain ⟨quotas, hrun⟩ := checkNewVolumes_run w userId newBytes
  rw [hrun] at hr
  split at hr
  · rename_i hne
    cases hd : diskRefusal w (quotaOf w userId) userId newBytes with
    | none =>
        rw [hd] at hr
        exact nomatch hr
    | some refusal =>
        rw [hd] at hr
        cases hr
        exact ⟨⟨_, rfl⟩, begun_start w quotas, by simp [hne]⟩
  · exact nomatch hr

theorem checkNewVolumes_returns (newBytes : Int) :
    Returns (checkNewVolumes userId newBytes) w fun _ t =>
      Begun w [] t ∧ (newBytes != 0 && (diskRefusal w (quotaOf w userId) userId newBytes).isSome) = false := by
  intro _ t hr
  obtain ⟨quotas, hrun⟩ := checkNewVolumes_run w userId newBytes
  rw [hrun] at hr
  split at hr
  · cases hd : diskRefusal w (quotaOf w userId) userId newBytes with
    | none =>
        rw [hd] at hr
        cases hr
        exact ⟨begun_start w quotas, by simp⟩
    | some refusal =>
        rw [hd] at hr
        exact nomatch hr
  · rename_i hzero
    cases hr
    exact ⟨begun_start w quotas, by simp [not_not.mp hzero]⟩

theorem createNow_raises (hids : IdsBelow w request) :
    Raises (createNow answers runtime commits userId user request plan) w
      (BodyBroken answers runtime commits userId user request plan w) := by
  unfold createNow
  refine .bind (listing_raises fun raise t hr => ?_) (listing_returns fun _ v hr => ?_)
  · obtain ⟨⟨detail, rfl⟩, hstart, hrefused⟩ := checkNewVolumes_raises _ raise t hr
    exact ⟨[], hstart, .inl ⟨if_pos hrefused, rfl⟩⟩
  obtain ⟨hstart, hpassed⟩ := checkNewVolumes_returns _ _ v hr
  have hbody : bodyBreak answers runtime commits userId user request w plan =
      (volumesBreak answers userId request (w.volumes.map Volume.name) (requestedMounts request user.username).zipIdx []).or
        (spawnBreak answers runtime commits userId user request w plan) :=
    if_neg (Bool.not_eq_true _ ▸ hpassed)
  refine .bind (fun e t ht => ?_) fun mounts t ht => fun e t' ht' => ?_
  · have h := prepareMounts_raises hstart e t ht
    obtain ⟨raise, listed, expired⟩ := e
    cases raise with
    | http status detail =>
        obtain ⟨more, hmore, hbreak⟩ := h
        refine ⟨more, hmore, .inr ?_⟩
        rw [List.map_nil, List.nil_append] at hbreak
        rw [hbody, hbreak, Option.some_or]
    | exception text =>
        obtain ⟨hexpired, hbreak, more, name, rfl, hhalf⟩ := h
        rw [List.map_nil] at hbreak
        exact .inl ⟨[], false, hexpired, by rw [hbody, hbreak, Option.some_or], crashed_of_halfMade hhalf⟩
  · obtain ⟨hbreak, more, hmore, hnames, hmounts⟩ :=
      prepareMounts_returns hids.volumes (requestedMounts_below hids user.username) hstart mounts t ht
    rw [List.map_nil] at hbreak
    rw [hbreak, Option.none_or] at hbody
    rw [← hnames] at ht'
    have h := spawnPrepared_raises hmore hids.gpuAllocations hnames hmounts e t' ht'
    obtain ⟨raise, listed, expired⟩ := e
    unfold BodyBroken
    rw [hbody]
    cases raise with
    | http status detail => exact ⟨more, h.2, .inr h.1⟩
    | exception text => exact h.imp_left fun ⟨hexpired, ensured, hcrash⟩ => ⟨ensured, true, hexpired, hcrash⟩

theorem IdsBelow.recalculated (hids : IdsBelow w request) (userId : Uuid) :
    IdsBelow (recalculatedWorld w userId none) request :=
  ⟨hids.volumes, fun row hrow => hids.gpuAllocations row (recalculated_subset hrow), hids.containers,
    hids.requested, hids.mounts⟩

theorem untouched_recalculated (nextUuid : Uuid) :
    Untouched w { recalculatedWorld w userId none with nextUuid := nextUuid } ↔ NothingStale w := by
  rw [← mem_recalculated_iff w userId]
  exact ⟨fun h => h.gpuAllocations, fun h => ⟨fun _ => Iff.rfl, fun _ => Iff.rfl, fun _ => Iff.rfl, h, fun _ => Iff.rfl⟩⟩

/-- The cleanup runs after an exception only, and finds the container after a failed spawn only. -/
theorem cleaningUp_raises {body : Creating CreateReply} (hids : IdsBelow w request)
    (hbody : Raises body (recalculatedWorld w userId none)
      (BodyBroken answers runtime commits userId user request plan (recalculatedWorld w userId none))) :
    Raises (cleaningUp (containerName userId request.name) body) (recalculatedWorld w userId none) fun _ t =>
      ∃ b, bodyBreak answers runtime commits userId user request (recalculatedWorld w userId none) plan = some b ∧
        (Untouched w t ↔ Clean w (containerName userId request.name) b) := by
  unfold BodyBroken at hbody
  generalize containerName userId request.name = container at hbody ⊢
  intro raise u hrun
  rw [cleaningUp_run] at hrun
  cases hr : body.run (recalculatedWorld w userId none) with
  | ok reply t =>
      rw [hr] at hrun
      exact nomatch hrun
  | error e t =>
      obtain ⟨raise', listed, expired⟩ := e
      have hbroken := hbody _ t hr
      rw [hr] at hrun
      cases raise' with
      | http status detail =>
          cases hrun
          obtain ⟨made, hmade, hbreak⟩ := hbroken
          have hiff : Untouched w u ↔ Clean w container (.midway (made.map Volume.name)) :=
            untouched_of_begun hids.volumes hmade
          rcases hbreak with ⟨hbreak, rfl⟩ | hbreak
          · exact ⟨_, hbreak, hiff.trans (and_iff_left rfl)⟩
          · exact ⟨_, hbreak, hiff⟩
      | exception text =>
          cases hrun
          rcases hbroken with ⟨ensured, spawning, hexpired, hbreak, hcrashed⟩ | ⟨hexpired, hbreak, hleft⟩
          · have hcleaned : (if expired then none else some container) = if spawning then some container else none := by
              change expired = !spawning at hexpired
              subst hexpired
              cases spawning <;> rfl
            rw [hcleaned]
            exact ⟨_, hbreak, untouched_of_crashed hcrashed⟩
          · rw [show expired = true from hexpired]
            exact ⟨_, hbreak, iff_of_false (not_untouched_of_left hids.containers hleft) not_false⟩

end Creations

/-- The home volume of a server named "lab" has outlived the server. -/
def leftoverWorld : World :=
  { oneUserWorld with
    volumes := [⟨5, autoVolumeName 1 "lab" 0, 1, some mebibyte⟩]
    dockerVolumes := [autoVolumeName 1 "lab" 0] }

theorem leftoverWorld_ids (name : String) : IdsBelow leftoverWorld (named name) := by
  have hid (v : Volume) (hv : v.id < 1000) : ∀ volume ∈ [v], volume.id < 1000 := fun volume hvolume => by
    rwa [List.mem_singleton.mp hvolume]
  exact ⟨hid _ (by decide), fun _ h => (List.not_mem_nil h).elim,
    fun _ h => (List.not_mem_nil h).elim, fun _ h => (Option.not_mem_none _ h).elim, fun _ h => (List.not_mem_nil h).elim⟩

def createFailed : Raise := .http 500 "Failed to create server. Please try again or contact support."

end NukeLab.CreationAtomicity
