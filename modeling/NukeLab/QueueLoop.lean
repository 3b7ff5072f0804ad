import NukeLab.Launches
import NukeLab.Notifications
import NukeLab.ServerQueue
import NukeLab.SizeParsers

namespace NukeLab.QueueLoop

open Program Records State Ledger GpuAllocator Quota Spawner Lifecycle Launches ServerQueue
open Notifications (Readable getUserNotificationPrefs shouldSend shouldSend_readable shouldSend_unreadable)
open RetentionPolicy (Json)
open SizeParsers (ResourcePoolService.parseMemory QuotaService.parseMemory)

/-- The texts of the sizes whose numbers the world holds. One that is not set is
the empty text. -/
structure Sizes where
  planMemory : Uuid → String
  planDisk : Uuid → String
  serverMemory : Uuid → String
  serverDisk : Uuid → String
  entryMemory : Uuid → String
  entryDisk : Uuid → String
  /-- The limit in the quota that the user has, or would get. -/
  maxMemory : Uuid → String

/-- What the database holds, and what the task's session sees: on top of that,
all it wrote since it last committed. -/
structure Session where
  stored : World
  seen : World
  sizes : Sizes
  preferences : Uuid → Json

abbrev Work (α : Type) := EStateM Raise Session α

/-- Statements on what the session sees. -/
def onSeen {α : Type} (body : Handler α) : Work α := fun s =>
  match body.run s.seen with
  | .ok a w => .ok a { s with seen := w }
  | .error raise w => .error raise { s with seen := w }

def commit : Work Unit := modify fun s => { s with stored := s.seen }

/-- What was not committed is gone. Identifiers that were drawn stay drawn. -/
def rollback : Work Unit := modify fun s => { s with seen := { s.stored with nextUuid := s.seen.nextUuid } }

def pending (w : World) : List QueueEntry := w.queue.filter fun e => e.status = .pending

/-- What is done elsewhere while one entry has its turn, and what the driver answers.
No new entry arrives. -/
structure Turn where
  elsewhere : Session → Session
  pending_elsewhere : ∀ s, (pending (elsewhere s).seen).Sublist (pending s.seen)
  rivals : List GpuAllocation
  runtime : Runtime

/-- Other processes commit device rows of their own. -/
def arrive (rivals : List GpuAllocation) : Work Unit :=
  modify fun s =>
    { s with
      stored := { s.stored with gpuAllocations := s.stored.gpuAllocations ++ rivals }
      seen := { s.seen with gpuAllocations := s.seen.gpuAllocations ++ rivals } }

/-- The rivals' rows come between the look for free devices and the insert. -/
def allocate (rivals : List GpuAllocation) (serverId : Uuid) (count : Int) : Work (Option (List Device)) := do
  let w := (← get).seen
  if count ≤ 0 ∨ ¬ enabled w.settings then return some []
  let devices := (availableIn w.settings.gpuDeviceList w.gpuAllocations).take count.toNat
  if devices.length < count then return none
  arrive rivals
  let w := (← get).seen
  match insertRows w.gpuAllocations serverId w.nextUuid devices w.now with
  | none =>
    rollback
    return none
  | some rows =>
    onSeen (set { w with gpuAllocations := rows, nextUuid := w.nextUuid + devices.length })
    commit
    return some devices

def ensureGpuDevices (rivals : List GpuAllocation) (serverId : Uuid) (gpuCount : Int) : Work (Option (List Device)) := do
  let w := (← get).seen
  if ¬ enabled w.settings ∨ gpuCount ≤ 0 then return none
  let devices ← onSeen (devicesFor serverId)
  if devices ≠ [] then return some devices
  match ← allocate rivals serverId gpuCount with
  | none =>
    throw (.http 429 "No GPUs available on the host (all devices are in use). Please try again later.")
  | some devices => return some devices

/-- An exhausted pool and a lost race are reported alike. -/
def reserve (rivals : List GpuAllocation) (serverId : Uuid) (gpuCount : Int) :
    Work (Except String (Option (List Device))) :=
  tryCatch (do return .ok (← ensureGpuDevices rivals serverId gpuCount)) fun raise =>
    match raise with
    | .http _ detail => return .error detail
    | .exception _ => throw raise

/-- To a user who takes notifications in the app one is created, which commits. -/
def notify (userId : Uuid) (eventKey : String) : Work Unit := do
  match shouldSend (getUserNotificationPrefs ((← get).preferences userId)) eventKey "in_app" with
  | .error raise => throw raise
  | .ok inApp => if inApp then commit

def cancelled (e : QueueEntry) : QueueEntry :=
  { e with status := .cancelled, errorMessage := some "Queue timeout - server was not started within 1 hour" }

def timedOut (w : World) : List QueueEntry :=
  w.queue.filter fun e => e.status = .pending ∧ e.requestedAt < w.now - hour

def cancelTimedOut : Work Unit := do
  (timedOut (← get).seen).forM fun entry => do
    onSeen (updateEntry entry.id cancelled)
    notify entry.userId "queue_position"

section Sizes

def sizeError : Raise := .exception "ValueError"

def inMegabytes (text : String) : Bool := (ResourcePoolService.parseMemory text).isSome

def Legible (s : Session) (planId : Uuid) : Prop :=
  (∀ server ∈ s.seen.servers.rows, server.status.active = true →
    inMegabytes (s.sizes.serverMemory server.id) ∧ inMegabytes (s.sizes.serverDisk server.id)) ∧
  inMegabytes (s.sizes.planMemory planId) ∧ inMegabytes (s.sizes.planDisk planId)

instance (s : Session) (planId : Uuid) : Decidable (Legible s planId) := inferInstanceAs (Decidable (_ ∧ _))

def canFit (s : Session) (planId : Uuid) : Except Raise Bool :=
  if (s.seen.plans planId).isSome ∧ ¬ Legible s planId then .error sizeError else .ok (Quota.canFit s.seen planId)

def firstFit (s : Session) : List QueueEntry → Except Raise (Option QueueEntry)
  | [] => .ok none
  | entry :: entries =>
    match canFit s entry.planId with
    | .error raise => .error raise
    | .ok true => .ok (some entry)
    | .ok false => firstFit s entries

def getNextInQueue (s : Session) : Except Raise (Option QueueEntry) :=
  firstFit s ((pending s.seen).insertionSort Precedes)

def beforeMemory : SpawnRefusal → Bool
  | .planNotFound | .serverLimit _ | .planLimit _ _ | .cpuLimit _ _ _ _ => true
  | .memoryLimit _ _ _ _ | .gpuLimit _ _ _ _ | .gpuPool _ => false

def quotaParses (text : String) : Bool := (QuotaService.parseMemory text).isSome

def Countable (s : Session) (userId : Uuid) : Prop :=
  ∀ server ∈ activeServers s.seen userId none, quotaParses (s.sizes.serverMemory server.id)

instance (s : Session) (userId : Uuid) : Decidable (Countable s userId) := inferInstanceAs (Decidable (∀ _ ∈ _, _))

def Comparable (sizes : Sizes) (entry : QueueEntry) (refusal : Option SpawnRefusal) : Prop :=
  refusal.any beforeMemory ∨ quotaParses (sizes.planMemory entry.planId) ∧ quotaParses (sizes.maxMemory entry.userId)

instance (sizes : Sizes) (entry : QueueEntry) (refusal : Option SpawnRefusal) : Decidable (Comparable sizes entry refusal) :=
  inferInstanceAs (Decidable (_ ∨ _))

/-- What comes before the sum, with its commits: rows of devices that are stale
go, and a user without a quota gets one. -/
def prepareQuota (userId : Uuid) : Work Unit := do
  let w := (← get).seen
  onSeen do
    if enabled w.settings then reconcile
    let _ ← getOrCreateUserQuota userId
  if (enabled w.settings ∧ w.gpuAllocations.any fun row => stale w.now w.servers.find row) ∨ (w.quotas userId).isNone then
    commit

/-- The check commits the usage it recalculates. -/
def checkQuota (entry : QueueEntry) : Work (Option SpawnRefusal) := do
  if ¬ Countable (← get) entry.userId then
    prepareQuota entry.userId
    throw sizeError
  let refusal ← onSeen (checkSpawnAllowed entry.userId entry.planId none)
  commit
  if ¬ Comparable (← get).sizes entry refusal then throw sizeError
  return refusal

/-- A server has the sizes that were asked for, or else its plan's. -/
def recordSizes (serverId : Uuid) (entry : QueueEntry) : Work Unit :=
  modify fun s =>
    let orPlan (text plan : String) : String := if text = "" then plan else text
    { s with
      sizes :=
        { s.sizes with
          serverMemory := Function.update s.sizes.serverMemory serverId
            (orPlan (s.sizes.entryMemory entry.id) (s.sizes.planMemory entry.planId))
          serverDisk := Function.update s.sizes.serverDisk serverId
            (orPlan (s.sizes.entryDisk entry.id) (s.sizes.planDisk entry.planId)) } }

end Sizes

def charge (request : SpawnRequest) (plan : ServerPlan) : Work Unit := do
  onSeen (chargeQueued .succeed request plan)
  if (← get).seen.settings.creditsEnabled ∧ plan.costPerHour > 0 then commit

def giveUp (entry : QueueEntry) (serverId : Uuid) (raise : Raise) : Work Unit := do
  onSeen (release serverId)
  commit
  onSeen (updateEntry entry.id fun e => { failed (raiseText raise) e with retryCount := e.retryCount + 1 })
  notify entry.userId "server_failed"

def provision (runtime : Runtime) (entry : QueueEntry) (plan : ServerPlan) (user : User) (request : SpawnRequest) :
    Work Unit := do
  charge request plan
  let new ← onSeen (spawn runtime request)
  let server ← onSeen (recordQueued .succeed new entry.userId entry.planId user)
  recordSizes server.id entry
  commit
  let now ← onSeen utcNow
  onSeen (updateEntry entry.id fun e => { e with status := .started, startedAt := some now })
  notify entry.userId "server_start"

/-- Without devices the entry fails there and then. -/
def trySpawn (turn : Turn) (entry : QueueEntry) (plan : ServerPlan) (user : User) (serverId : Uuid) : Work Unit := do
  match ← reserve turn.rivals serverId plan.gpuLimit with
  | .error detail => onSeen (updateEntry entry.id (failed detail))
  | .ok devices => provision turn.runtime entry plan user (queuedRequest entry plan user serverId (devices.getD []))

/-- What is raised gives the entry up. -/
def spawnEntry (turn : Turn) (entry : QueueEntry) (plan : ServerPlan) (user : User) : Work Unit := do
  let serverId ← onSeen newUuid
  tryCatch (trySpawn turn entry plan user serverId) fun raise => giveUp entry serverId raise

/-- One turn of the loop. The quota check commits the statuses of the turns
before with the usage. -/
def processEntry (turn : Turn) (entry : QueueEntry) : Work Unit := do
  match admission (← get).seen entry with
  | .error message => onSeen (updateEntry entry.id (failed message))
  | .ok (plan, user) =>
    match ← checkQuota entry with
    | some refusal => onSeen (updateEntry entry.id (failed refusal.reason))
    | none =>
      if lacksCredits (← get).seen entry plan then onSeen (updateEntry entry.id (failed "Insufficient NUKE credits"))
      else spawnEntry turn entry plan user

/-- The loop of the task, cut off when the fuel runs out: true when it was left. -/
def loop : Nat → (Nat → Turn) → Work Bool
  | 0, _ => return false
  | fuel + 1, turns => do
    modify (turns 0).elsewhere
    match getNextInQueue (← get) with
    | .error raise => throw raise
    | .ok none => return true
    | .ok (some entry) =>
      processEntry (turns 0) entry
      loop fuel fun i => turns (i + 1)

/-- What is raised past the loop ends the task with what was committed by then. -/
def processServerQueue (fuel : Nat) (turns : Nat → Turn) : Work Bool := do
  cancelTimedOut
  let left ← loop fuel turns
  commit
  return left

def SameQueue (w t : World) : Prop := t.queue = w.queue

instance : IsPreorder World SameQueue where
  refl _ := rfl
  trans _ _ _ h h' := h'.trans h

section Statements

theorem chargeQueued_queue (commits : Commits) (request : SpawnRequest) (plan : ServerPlan) :
    Moves SameQueue (chargeQueued commits request plan) := by
  intro w
  obtain h | ⟨draft, -, h⟩ := @chargeQueued_recorded w commits request plan
  · rw [h]
    exact refl_of SameQueue w
  · generalize final (chargeQueued commits request plan) w = t at h ⊢
    cases h <;> rfl

theorem spawn_queue (runtime : Runtime) (request : SpawnRequest) : Moves SameQueue (spawn runtime request) :=
  spawn_moves (fun _ _ _ _ _ => rfl) runtime request

theorem recordQueued_queue (commits : Commits) (new : Server) (userId planId : Uuid) (user : User) :
    Moves SameQueue (recordQueued commits new userId planId user) := by
  have hsave : Moves SameQueue (saveServer commits new planId user) := by
    refine .bind .get fun w => .bind ?_ fun _ => .pure _
    cases hc : commits.server with
    | true => exact fun _ => rfl
    | false => exact .throw _
  have hcount : Moves SameQueue (incrementUsage userId planId) := by
    intro w
    obtain ⟨quota, hrun, -⟩ := adjustUsage_run Quantities.Usage.plus userId planId w
    rw [incrementUsage, final_of_ok hrun]
    rfl
  refine .bind hsave fun server => .ite (.bind (.throw _) fun _ => ?_) ?_
  all_goals exact .bind hcount fun _ => .pure _

end Statements

def Held (queue : List QueueEntry) (s : Session) : Prop := s.stored.queue = queue ∧ s.seen.queue = queue

def Holds (s t : Session) : Prop := ∀ queue, Held queue s → Held queue t

instance : IsPreorder Session Holds where
  refl _ _ h := h
  trans _ _ _ h h' queue hs := h' queue (h queue hs)

section Reservation

variable {α : Type}

theorem onSeen_run (body : Handler α) (s : Session) :
    (onSeen body).run s =
      match body.run s.seen with
      | .ok a w => .ok a { s with seen := w }
      | .error raise w => .error raise { s with seen := w } := rfl

@[simp] theorem final_onSeen (body : Handler α) (s : Session) :
    final (onSeen body) s = { s with seen := final body s.seen } := by
  rw [final, final, onSeen_run]
  cases body.run s.seen <;> rfl

theorem onSeen_holds {body : Handler α} (h : Moves SameQueue body) : Moves Holds (onSeen body) := by
  intro s queue hs
  rw [final_onSeen]
  exact ⟨hs.1, (h s.seen).trans hs.2⟩

theorem commit_holds : Moves Holds commit := fun _ _ hs => ⟨hs.2, hs.2⟩

theorem rollback_holds : Moves Holds rollback := fun _ _ hs => ⟨hs.1, hs.1⟩

theorem arrive_holds (rivals : List GpuAllocation) : Moves Holds (arrive rivals) := fun _ _ hs => hs

/-- Neither a lost race nor a reservation touches the queue: what the rollback
would take back was committed before. -/
theorem allocate_holds (rivals : List GpuAllocation) (serverId : Uuid) (count : Int) :
    Moves Holds (allocate rivals serverId count) := by
  unfold allocate
  refine .bind .get fun s => .ite (.pure _) (.ite (.pure _) (.bind (arrive_holds _) fun _ => ?_))
  intro t queue ht
  rw [final_get_bind]
  dsimp only
  split
  · exact Moves.bind rollback_holds (fun _ => .pure _) t queue ht
  · exact ⟨ht.2, ht.2⟩

theorem ensureGpuDevices_holds (rivals : List GpuAllocation) (serverId : Uuid) (gpuCount : Int) :
    Moves Holds (ensureGpuDevices rivals serverId gpuCount) := by
  unfold ensureGpuDevices
  refine .bind .get fun s => .ite (.pure _) (.bind (onSeen_holds fun _ => rfl) fun devices => .ite (.pure _) ?_)
  refine .bind (allocate_holds _ _ _) fun devices => ?_
  cases devices with
  | none => exact .throw _
  | some devices => exact .pure _

theorem reserve_holds (rivals : List GpuAllocation) (serverId : Uuid) (gpuCount : Int) :
    Moves Holds (reserve rivals serverId gpuCount) := by
  refine .tryCatch (.bind (ensureGpuDevices_holds _ _ _) fun _ => .pure _) fun raise => ?_
  cases raise with
  | http status detail => exact .pure _
  | exception text => exact .throw _

theorem charge_holds (request : SpawnRequest) (plan : ServerPlan) : Moves Holds (charge request plan) :=
  .bind (onSeen_holds (chargeQueued_queue _ _ _)) fun _ => .bind .get fun _ => .ite commit_holds (.pure _)

end Reservation

structure Closing (f : QueueEntry → QueueEntry) : Prop where
  closes : ∀ e, (f e).status ≠ .pending
  id_eq : ∀ e, (f e).id = e.id

def Kept (queue : List QueueEntry) (id : Uuid) (s : Session) : Prop :=
  ∃ f : QueueEntry → QueueEntry, (∀ e, (f e).id = e.id) ∧ s.seen.queue = queue.map fun e => if e.id = id then f e else e

def Closed (queue : List QueueEntry) (id : Uuid) (s : Session) : Prop :=
  ∃ f, Closing f ∧ s.seen.queue = queue.map fun e => if e.id = id then f e else e

def Closes (queue : List QueueEntry) (id : Uuid) (m : Work Unit) (s : Session) : Prop :=
  ∃ t, m.run s = .ok () t ∧ Closed queue id t

/-- The program closes the entry, or raises with the rest of the queue as it was. -/
structure Attempted (queue : List QueueEntry) (id : Uuid) (m : Work Unit) (s : Session) : Prop where
  returns : Returns m s fun _ t => Closed queue id t
  raises : Raises m s fun _ t => Kept queue id t

section Condition

/-- What the quota check answers, where it can read all the sizes. -/
def refusalOf (w : World) (entry : QueueEntry) : Option SpawnRefusal :=
  spawnRefusal (recalculatedWorld w entry.userId none) (quotaOf (recalculatedWorld w entry.userId none) entry.userId)
    entry.userId entry.planId none

def checked (s : Session) (entry : QueueEntry) : Session :=
  { s with stored := recalculatedWorld s.seen entry.userId none, seen := recalculatedWorld s.seen entry.userId none }

/-- What the turn of an admitted entry reads: the sizes in the quota check and,
where the attempt to spawn it fails, the channels of its owner. -/
structure Taken (turn : Turn) (s : Session) (entry : QueueEntry) (plan : ServerPlan) (user : User) : Prop where
  countable : Countable s entry.userId
  comparable : Comparable s.sizes entry (refusalOf s.seen entry)
  told : refusalOf s.seen entry = none → lacksCredits (checked s entry).seen entry plan = false →
    Raises (do let serverId ← onSeen newUuid; trySpawn turn entry plan user serverId) (checked s entry) fun _ t =>
      Readable (t.preferences entry.userId) "server_failed"

/-- All that a turn reads can be read. Of the entries that wait those are looked at
that come before the first that fits, and that one. -/
structure Orderly (turn : Turn) (s : Session) : Prop where
  legible : ∀ before entry after, (pending s.seen).insertionSort Precedes = before ++ entry :: after →
    (∀ e ∈ before, Quota.canFit s.seen e.planId = false) → (s.seen.plans entry.planId).isSome → Legible s entry.planId
  taken : ∀ entry ∈ ServerQueue.getNextInQueue s.seen, ∀ plan user, admission s.seen entry = .ok (plan, user) →
    Taken turn s entry plan user

/-- After that many turns of the task the next one starts in this session. -/
def Starts (turns : Nat → Turn) (s : Session) (i : Nat) (t : Session) : Prop :=
  ∃ u v, cancelTimedOut.run s = .ok () u ∧ (loop i turns).run u = .ok false v ∧ t = (turns i).elsewhere v

/-- The loop is left, however its spawns and allocations come out, and then no
entry waits whose plan fits. -/
def SkipsNone (turns : Nat → Turn) (s : Session) : Prop :=
  ∃ t, (∀ fuel, (pending s.seen).length < fuel → (processServerQueue fuel turns).run s = .ok true t) ∧
    ∀ entry ∈ t.stored.queue, entry.status = .pending → Quota.canFit t.stored entry.planId = false

end Condition

section Reads

theorem ok_of_run_bind {α β : Type} {m : Work α} {f : α → Work β} {s t : Session} {b : β}
    (h : (m >>= f).run s = .ok b t) : ∃ a u, m.run s = .ok a u ∧ (f a).run u = .ok b t := by
  rw [EStateM.run_bind] at h
  split at h
  next a u hm => exact ⟨a, u, hm, h⟩
  next => cases h

variable {s : Session} {userId : Uuid} {eventKey : String}

theorem notify_readable (h : Readable (s.preferences userId) eventKey) :
    ∃ t, (notify userId eventKey).run s = .ok () t ∧ t.seen = s.seen ∧ t.preferences = s.preferences := by
  obtain ⟨inApp, hinApp⟩ := shouldSend_readable h "in_app"
  rw [notify, EStateM.run_bind, EStateM.run_get]
  dsimp only
  rw [hinApp]
  cases inApp with
  | true => exact ⟨_, rfl, rfl, rfl⟩
  | false => exact ⟨_, rfl, rfl, rfl⟩

theorem notify_unreadable (h : ¬ Readable (s.preferences userId) eventKey) :
    (notify userId eventKey).run s = .error Notifications.attributeError s := by
  rw [notify, EStateM.run_bind, EStateM.run_get]
  dsimp only
  rw [shouldSend_unreadable h]
  rfl

theorem readable_of_notify : Returns (notify userId eventKey) s fun _ _ => Readable (s.preferences userId) eventKey := by
  intro _ t hr
  by_contra hunreadable
  cases (notify_unreadable hunreadable).symm.trans hr

theorem firstFit_legible {entries : List QueueEntry}
    (h : ∀ before entry after, entries = before ++ entry :: after → (∀ e ∈ before, Quota.canFit s.seen e.planId = false) →
      (s.seen.plans entry.planId).isSome → Legible s entry.planId) :
    firstFit s entries = .ok (entries.find? fun e => Quota.canFit s.seen e.planId) := by
  induction entries with
  | nil => rfl
  | cons entry entries ih =>
      have hread : ¬ ((s.seen.plans entry.planId).isSome ∧ ¬ Legible s entry.planId) := fun hplan =>
        hplan.2 (h [] entry entries rfl (fun _ he => absurd he List.not_mem_nil) hplan.1)
      rw [firstFit, canFit, if_neg hread]
      cases hfit : Quota.canFit s.seen entry.planId with
      | true => rw [List.find?_cons_of_pos (by exact hfit)]
      | false =>
          rw [List.find?_cons_of_neg (by simp [hfit])]
          refine ih fun before e after hentries hunfit => ?_
          refine h (entry :: before) e after (by rw [hentries]; rfl) fun b hb => ?_
          rcases List.mem_cons.mp hb with rfl | hb
          · exact hfit
          · exact hunfit b hb

theorem legible_of_firstFit {entries : List QueueEntry} {next : Option QueueEntry} (h : firstFit s entries = .ok next)
    (before : List QueueEntry) (entry : QueueEntry) (after : List QueueEntry) (hentries : entries = before ++ entry :: after)
    (hunfit : ∀ e ∈ before, Quota.canFit s.seen e.planId = false) (hplan : (s.seen.plans entry.planId).isSome) :
    Legible s entry.planId := by
  subst hentries
  induction before with
  | nil =>
      by_contra hillegible
      rw [List.nil_append, firstFit, canFit, if_pos ⟨hplan, hillegible⟩] at h
      cases h
  | cons first before ih =>
      refine ih (fun e he => hunfit e (List.mem_cons_of_mem first he)) ?_
      rw [List.cons_append, firstFit, canFit] at h
      split at h
      next hraise => cases h
      next hfit =>
        split at hfit
        · cases hfit
        · rw [hunfit first List.mem_cons_self] at hfit
          cases hfit
      next => exact h

theorem checkQuota_run {entry : QueueEntry} (hcountable : Countable s entry.userId)
    (hcomparable : Comparable s.sizes entry (refusalOf s.seen entry)) :
    (checkQuota entry).run s = .ok (refusalOf s.seen entry) (checked s entry) := by
  have hcheck : (onSeen (checkSpawnAllowed entry.userId entry.planId none)).run s =
      .ok (refusalOf s.seen entry) { s with seen := recalculatedWorld s.seen entry.userId none } := by
    rw [onSeen_run, checkSpawnAllowed_run]
    rfl
  rw [checkQuota, EStateM.run_bind, EStateM.run_get]
  dsimp only
  rw [if_neg (not_not.mpr hcountable), EStateM.run_bind, hcheck]
  dsimp only
  rw [EStateM.run_bind, commit, EStateM.run_modify]
  dsimp only
  rw [EStateM.run_bind, EStateM.run_get]
  dsimp only
  rw [if_neg (not_not.mpr hcomparable)]
  rfl

theorem read_of_checkQuota {entry : QueueEntry} : Returns (checkQuota entry) s fun _ _ =>
    Countable s entry.userId ∧ Comparable s.sizes entry (refusalOf s.seen entry) := by
  refine .get_bind (.ite (fun _ => .bind fun _ _ _ => .throw _) fun hcountable => ?_)
  have hcheck : (onSeen (checkSpawnAllowed entry.userId entry.planId none)).run s =
      .ok (refusalOf s.seen entry) { s with seen := recalculatedWorld s.seen entry.userId none } := by
    rw [onSeen_run, checkSpawnAllowed_run]
    rfl
  refine .bind fun refusal t hr => .bind fun _ u hr' => .get_bind (.ite (fun _ => .throw_bind _) fun hcomparable => .pure ?_)
  cases hcheck.symm.trans hr
  cases hr'
  exact ⟨not_not.mp hcountable, not_not.mp hcomparable⟩

end Reads

section Turns

variable {α : Type} {queue : List QueueEntry} {id : Uuid} {s : Session}

theorem Held.kept (id : Uuid) (h : Held queue s) : Kept queue id s := by
  refine ⟨fun e => e, fun _ => rfl, ?_⟩
  simp only [ite_self, List.map_id']
  exact h.2

theorem Closed.kept (h : Closed queue id s) : Kept queue id s := by
  obtain ⟨f, hf, hqueue⟩ := h
  exact ⟨f, hf.id_eq, hqueue⟩

theorem Closes.bind {m : Work α} {f : α → Work Unit} {a : α} {t : Session} (hm : m.run s = .ok a t)
    (hf : Closes queue id (f a) t) : Closes queue id (m >>= f) s := by
  obtain ⟨u, hrun, hu⟩ := hf
  refine ⟨u, ?_, hu⟩
  rw [EStateM.run_bind, hm]
  exact hrun

theorem Closes.attempted {m : Work Unit} (h : Closes queue id m s) : Attempted queue id m s := by
  obtain ⟨t, hrun, ht⟩ := h
  constructor
  · intro _ u hr
    cases hrun.symm.trans hr
    exact ht
  · intro _ u hr
    exact nomatch hrun.symm.trans hr

theorem Attempted.bind {m : Work α} {f : α → Work Unit} (hs : Held queue s) (hm : Moves Holds m)
    (hf : ∀ a t, Held queue t → Attempted queue id (f a) t) : Attempted queue id (m >>= f) s where
  returns := .bind_moves hm fun a t ht => (hf a t (ht queue hs)).returns
  raises := .bind_moves hm (fun _ _ ht => (ht queue hs).kept id) fun a t ht => (hf a t (ht queue hs)).raises

theorem updateEntry_closed (hs : Kept queue id s) {f : QueueEntry → QueueEntry} (hf : Closing f) :
    Closed queue id { s with seen := final (updateEntry id f) s.seen } := by
  obtain ⟨g, hg, hqueue⟩ := hs
  refine ⟨f ∘ g, ⟨fun e => hf.closes (g e), fun e => (hf.id_eq _).trans (hg e)⟩, ?_⟩
  show s.seen.queue.map _ = _
  rw [hqueue, List.map_map]
  refine List.map_congr_left fun e _ => ?_
  by_cases hid : e.id = id
  · simp only [Function.comp_apply, if_pos hid, hg]
  · simp only [Function.comp_apply, if_neg hid]

theorem updateEntry_closes (hs : Kept queue id s) {f : QueueEntry → QueueEntry} (hf : Closing f) :
    Closes queue id (onSeen (updateEntry id f)) s :=
  ⟨_, rfl, updateEntry_closed hs hf⟩

theorem notify_closes {entry : QueueEntry} {eventKey : String} (hs : Closed queue id s)
    (hreadable : Readable (s.preferences entry.userId) eventKey) :
    Closes queue id (notify entry.userId eventKey) s := by
  obtain ⟨t, hrun, hseen, -⟩ := notify_readable hreadable
  exact ⟨t, hrun, by rwa [Closed, hseen]⟩

theorem notify_attempted {entry : QueueEntry} {eventKey : String} (hs : Closed queue id s) :
    Attempted queue id (notify entry.userId eventKey) s := by
  by_cases hreadable : Readable (s.preferences entry.userId) eventKey
  · exact (notify_closes hs hreadable).attempted
  · have hraise := notify_unreadable hreadable
    refine ⟨fun _ t hr => ?_, fun raise t hr => ?_⟩
    · cases hraise.symm.trans hr
    · cases hraise.symm.trans hr
      exact hs.kept

theorem closing_failed (message : String) : Closing (failed message) := ⟨fun _ => nofun, fun _ => rfl⟩

theorem giveUp_closes (entry : QueueEntry) (serverId : Uuid) (raise : Raise) (hs : Kept queue entry.id s)
    (hreadable : Readable (s.preferences entry.userId) "server_failed") :
    Closes queue entry.id (giveUp entry serverId raise) s := by
  have hclosing : Closing fun e => { failed (raiseText raise) e with retryCount := e.retryCount + 1 } :=
    ⟨fun _ => nofun, fun _ => rfl⟩
  refine .bind rfl (.bind rfl (.bind rfl (notify_closes (updateEntry_closed ?_ hclosing) hreadable)))
  exact hs

theorem readable_of_giveUp (entry : QueueEntry) (serverId : Uuid) (raise : Raise) :
    Returns (giveUp entry serverId raise) s fun _ _ => Readable (s.preferences entry.userId) "server_failed" :=
  .bind_of_ok rfl (.bind_of_ok rfl (.bind_of_ok rfl readable_of_notify))

theorem recordSizes_holds (serverId : Uuid) (entry : QueueEntry) : Moves Holds (recordSizes serverId entry) := fun _ _ hs => hs

theorem provision_attempted (runtime : Runtime) (entry : QueueEntry) (plan : ServerPlan) (user : User)
    (request : SpawnRequest) (hs : Held queue s) :
    Attempted queue entry.id (provision runtime entry plan user request) s := by
  refine .bind hs (charge_holds _ _) fun _ s₁ hs₁ => ?_
  refine .bind hs₁ (onSeen_holds (spawn_queue _ _)) fun new s₂ hs₂ => ?_
  refine .bind hs₂ (onSeen_holds (recordQueued_queue _ _ _ _ _)) fun server s₃ hs₃ => ?_
  refine .bind hs₃ (recordSizes_holds _ _) fun _ s₄ hs₄ => ?_
  refine .bind hs₄ commit_holds fun _ s₅ hs₅ => ?_
  refine .bind hs₅ (onSeen_holds fun _ => rfl) fun now s₆ hs₆ => ?_
  -- The entry is marked as started before its owner is told.
  have hstarted : Closing fun e => { e with status := .started, startedAt := some now } := ⟨fun _ => nofun, fun _ => rfl⟩
  have hclosed := updateEntry_closed (hs₆.kept entry.id) hstarted
  exact ⟨.bind_of_ok rfl (notify_attempted hclosed).returns, .bind_of_ok rfl (notify_attempted hclosed).raises⟩

theorem trySpawn_attempted (turn : Turn) (entry : QueueEntry) (plan : ServerPlan) (user : User) (serverId : Uuid)
    (hs : Held queue s) : Attempted queue entry.id (trySpawn turn entry plan user serverId) s := by
  refine .bind hs (reserve_holds _ _ _) fun reserved t ht => ?_
  cases reserved with
  | error detail => exact (updateEntry_closes (ht.kept _) (closing_failed detail)).attempted
  | ok devices => exact provision_attempted _ _ _ _ _ ht

theorem spawnEntry_closes (turn : Turn) (entry : QueueEntry) (plan : ServerPlan) (user : User) (hs : Held queue s)
    (htold : Raises (do let serverId ← onSeen newUuid; trySpawn turn entry plan user serverId) s fun _ t =>
      Readable (t.preferences entry.userId) "server_failed") :
    Closes queue entry.id (spawnEntry turn entry plan user) s := by
  refine .bind rfl ?_
  obtain ⟨hreturns, hraises⟩ := trySpawn_attempted turn entry plan user s.seen.nextUuid
    (s := { s with seen := { s.seen with nextUuid := s.seen.nextUuid + 1 } }) hs
  rw [Closes, run_tryCatch]
  cases hr : (trySpawn turn entry plan user s.seen.nextUuid).run
      { s with seen := { s.seen with nextUuid := s.seen.nextUuid + 1 } } with
  | ok a t => exact ⟨t, rfl, hreturns a t hr⟩
  | error raise t => exact giveUp_closes entry _ raise (hraises raise t hr) (htold raise t hr)

theorem checked_held (h : s.seen.queue = queue) (entry : QueueEntry) : Held queue (checked s entry) := ⟨h, h⟩

/-- Whatever happens in its turn, the entry is closed at the end of it, where all
can be read. The commit of the quota check comes before anything that rolls back. -/
theorem processEntry_closes (turn : Turn) (entry : QueueEntry) (hs : s.seen.queue = queue)
    (htaken : ∀ plan user, admission s.seen entry = .ok (plan, user) → Taken turn s entry plan user) :
    Closes queue entry.id (processEntry turn entry) s := by
  have hkept : Kept queue entry.id s := ⟨fun e => e, fun _ => rfl, by simp [hs]⟩
  refine .bind rfl ?_
  cases hadmission : admission s.seen entry with
  | error message => exact updateEntry_closes hkept (closing_failed message)
  | ok admitted =>
      obtain ⟨plan, user⟩ := admitted
      obtain ⟨hcountable, hcomparable, htold⟩ := htaken plan user hadmission
      refine .bind (checkQuota_run hcountable hcomparable) ?_
      have hheld := checked_held hs entry
      cases hrefusal : refusalOf s.seen entry with
      | some refusal => exact updateEntry_closes (hheld.kept _) (closing_failed refusal.reason)
      | none =>
          refine .bind rfl ?_
          split
          · exact updateEntry_closes (hheld.kept _) (closing_failed _)
          next hcredits => exact spawnEntry_closes turn entry plan user hheld (htold hrefusal (Bool.eq_false_of_not_eq_true hcredits))

theorem told_of_spawnEntry (turn : Turn) (entry : QueueEntry) (plan : ServerPlan) (user : User) :
    Returns (spawnEntry turn entry plan user) s fun _ _ =>
      Raises (do let serverId ← onSeen newUuid; trySpawn turn entry plan user serverId) s fun _ t =>
        Readable (t.preferences entry.userId) "server_failed" := by
  intro _ t hr raise u hraise
  -- Both draw the server's id first.
  have hattempt : (trySpawn turn entry plan user s.seen.nextUuid).run
      { s with seen := { s.seen with nextUuid := s.seen.nextUuid + 1 } } = .error raise u := hraise
  have hcatch : (tryCatch (trySpawn turn entry plan user s.seen.nextUuid) fun raise =>
      giveUp entry s.seen.nextUuid raise).run { s with seen := { s.seen with nextUuid := s.seen.nextUuid + 1 } } = .ok () t := hr
  rw [run_tryCatch, hattempt] at hcatch
  exact readable_of_giveUp entry _ raise _ t hcatch

theorem taken_of_processEntry (turn : Turn) (entry : QueueEntry) : Returns (processEntry turn entry) s fun _ _ =>
    ∀ plan user, admission s.seen entry = .ok (plan, user) → Taken turn s entry plan user := by
  refine .get_bind ?_
  cases admission s.seen entry with
  | error message => exact fun _ _ _ _ _ h => nomatch h
  | ok admitted =>
      obtain ⟨plan, user⟩ := admitted
      refine .bind fun refusal t hcheck => ?_
      obtain ⟨hcountable, hcomparable⟩ := read_of_checkQuota refusal t hcheck
      cases (checkQuota_run hcountable hcomparable).symm.trans hcheck
      cases hrefusal : refusalOf s.seen entry with
      | some refusal =>
          intro _ _ _ plan' user' hadmitted
          cases hadmitted
          exact ⟨hcountable, hcomparable, fun h => nomatch hrefusal.symm.trans h⟩
      | none =>
          refine .get_bind (.ite (fun hlacks => ?_) fun _ => ?_)
          · intro _ _ _ plan' user' hadmitted
            cases hadmitted
            exact ⟨hcountable, hcomparable, fun _ h => nomatch hlacks.symm.trans h⟩
          · intro _ u hr plan' user' hadmitted
            cases hadmitted
            exact ⟨hcountable, hcomparable, fun _ _ => told_of_spawnEntry turn entry plan user () u hr⟩

end Turns

section Run

variable {s : Session} {turns : Nat → Turn}

theorem mem_of_getNextInQueue {w : World} {entry : QueueEntry} (h : ServerQueue.getNextInQueue w = some entry) :
    entry ∈ w.queue ∧ entry.status = .pending := by
  have hmem := (List.mem_insertionSort Precedes).mp (List.mem_of_find?_eq_some h)
  simpa using hmem

theorem unfit_of_getNextInQueue {w : World} (h : ServerQueue.getNextInQueue w = none) {entry : QueueEntry}
    (hmem : entry ∈ w.queue) (hpending : entry.status = .pending) : Quota.canFit w entry.planId = false := by
  have hall := List.find?_eq_none.mp h entry
  rw [List.mem_insertionSort] at hall
  simpa using hall (List.mem_filter.mpr ⟨hmem, by simpa using hpending⟩)

theorem countP_closing_le {f : QueueEntry → QueueEntry} (hf : Closing f) (id : Uuid) (queue : List QueueEntry) :
    (queue.map fun e => if e.id = id then f e else e).countP (fun e => e.status = .pending) ≤
      queue.countP fun e => e.status = .pending := by
  rw [List.countP_map]
  apply List.countP_mono_left
  intro e _ he
  by_cases hid : e.id = id
  · simp [hid, hf.closes e] at he
  · simpa [hid] using he

theorem pending_closed {queue : List QueueEntry} {entry : QueueEntry} (h : Closed queue entry.id s) (hmem : entry ∈ queue)
    (hpending : entry.status = .pending) :
    (pending s.seen).length < queue.countP fun e => e.status = .pending := by
  obtain ⟨f, hf, hqueue⟩ := h
  obtain ⟨before, after, rfl⟩ := List.append_of_mem hmem
  have hbefore := countP_closing_le hf entry.id before
  have hafter := countP_closing_le hf entry.id after
  rw [pending, ← List.countP_eq_length_filter, hqueue]
  simp only [List.map_append, List.map_cons, List.countP_append, List.countP_cons, if_true, hpending, hf.closes entry,
    decide_true, decide_false, Bool.false_eq_true, if_false]
  omega

theorem getNextInQueue_orderly {turn : Turn} (h : Orderly turn s) :
    getNextInQueue s = .ok (ServerQueue.getNextInQueue s.seen) := firstFit_legible h.legible

theorem next_of_getNextInQueue {next : Option QueueEntry} (h : getNextInQueue s = .ok next) :
    next = ServerQueue.getNextInQueue s.seen :=
  Except.ok.inj (h.symm.trans (firstFit_legible (legible_of_firstFit h)))

theorem loop_left {fuel : Nat} (hnext : getNextInQueue ((turns 0).elsewhere s) = .ok none) :
    (loop (fuel + 1) turns).run s = .ok true ((turns 0).elsewhere s) := by
  simp only [loop, EStateM.run_bind, EStateM.run_modify, EStateM.run_get, hnext, EStateM.run_pure]

theorem loop_next {fuel : Nat} {entry : QueueEntry} {u : Session}
    (hnext : getNextInQueue ((turns 0).elsewhere s) = .ok (some entry))
    (hturn : (processEntry (turns 0) entry).run ((turns 0).elsewhere s) = .ok () u) :
    (loop (fuel + 1) turns).run s = (loop fuel fun i => turns (i + 1)).run u := by
  simp only [loop, EStateM.run_bind, EStateM.run_modify, EStateM.run_get, hnext, hturn]

/-- With more fuel than there are entries waiting the loop is left, and then nothing is picked any more. -/
theorem loop_ends (n : Nat) (hn : (pending s.seen).length ≤ n)
    (horderly : ∀ i v, (loop i turns).run s = .ok false v → Orderly (turns i) ((turns i).elsewhere v)) :
    ∃ t, ServerQueue.getNextInQueue t.seen = none ∧ ∀ fuel, n < fuel → (loop fuel turns).run s = .ok true t := by
  induction n using Nat.strong_induction_on generalizing turns s with
  | _ n ih =>
      have harrived := ((turns 0).pending_elsewhere s).length_le
      have hfirst : Orderly (turns 0) ((turns 0).elsewhere s) := horderly 0 s rfl
      have hpicked := getNextInQueue_orderly hfirst
      cases hnext : ServerQueue.getNextInQueue ((turns 0).elsewhere s).seen with
      | none =>
          refine ⟨(turns 0).elsewhere s, hnext, fun fuel hfuel => ?_⟩
          obtain ⟨k, rfl⟩ : ∃ k, fuel = k + 1 := ⟨fuel - 1, by omega⟩
          exact loop_left (hpicked.trans (congrArg Except.ok hnext))
      | some entry =>
          have hnext' := hpicked.trans (congrArg Except.ok hnext)
          obtain ⟨hmem, hpending⟩ := mem_of_getNextInQueue hnext
          obtain ⟨u, hturn, hclosed⟩ := processEntry_closes (turns 0) entry rfl (hfirst.taken entry hnext)
          have hless := pending_closed hclosed hmem hpending
          rw [List.countP_eq_length_filter, ← pending] at hless
          have hrest (i : Nat) (v : Session) (hr : (loop i fun j => turns (j + 1)).run u = .ok false v) :
              Orderly (turns (i + 1)) ((turns (i + 1)).elsewhere v) :=
            horderly (i + 1) v ((loop_next hnext' hturn).trans hr)
          obtain ⟨t, hend, hrun⟩ := ih _ (by omega) (s := u) le_rfl hrest
          refine ⟨t, hend, fun fuel hfuel => ?_⟩
          obtain ⟨k, rfl⟩ : ∃ k, fuel = k + 1 := ⟨fuel - 1, by omega⟩
          exact (loop_next hnext' hturn).trans (hrun k (by omega))

theorem loop_succ_ok {fuel : Nat} {left : Bool} {t : Session} (hr : (loop (fuel + 1) turns).run s = .ok left t) :
    (getNextInQueue ((turns 0).elsewhere s) = .ok none ∧ left = true) ∨
      ∃ entry u, getNextInQueue ((turns 0).elsewhere s) = .ok (some entry) ∧
        (processEntry (turns 0) entry).run ((turns 0).elsewhere s) = .ok () u ∧
          (loop fuel fun i => turns (i + 1)).run u = .ok left t := by
  cases hnext : getNextInQueue ((turns 0).elsewhere s) with
  | error raise =>
      simp only [loop, EStateM.run_bind, EStateM.run_modify, EStateM.run_get, hnext] at hr
      cases hr
  | ok next =>
      cases next with
      | none =>
          cases (loop_left hnext).symm.trans hr
          exact Or.inl ⟨rfl, rfl⟩
      | some entry =>
          cases hturn : (processEntry (turns 0) entry).run ((turns 0).elsewhere s) with
          | error raise u =>
              simp only [loop, EStateM.run_bind, EStateM.run_modify, EStateM.run_get, hnext, hturn] at hr
              cases hr
          | ok _ u => exact Or.inr ⟨entry, u, rfl, hturn, (loop_next hnext hturn).symm.trans hr⟩

theorem orderly_of_loop {fuel : Nat} {t : Session} (hr : (loop fuel turns).run s = .ok true t) (i : Nat) (v : Session)
    (hv : (loop i turns).run s = .ok false v) : Orderly (turns i) ((turns i).elsewhere v) := by
  induction i generalizing fuel turns s with
  | zero =>
      cases hv
      cases fuel with
      | zero => cases hr
      | succ fuel =>
          obtain ⟨hnext, -⟩ | ⟨entry, u, hnext, hturn, -⟩ := loop_succ_ok hr
          · refine ⟨legible_of_firstFit hnext, fun entry hentry => ?_⟩
            rw [← next_of_getNextInQueue hnext] at hentry
            cases hentry
          · refine ⟨legible_of_firstFit hnext, fun entry' hentry => ?_⟩
            rw [← next_of_getNextInQueue hnext] at hentry
            cases hentry
            exact taken_of_processEntry (turns 0) entry () u hturn
  | succ i ih =>
      cases fuel with
      | zero => cases hr
      | succ fuel =>
          obtain ⟨-, hleft⟩ | ⟨entry, u, hnext, hturn, hv'⟩ := loop_succ_ok hv
          · cases hleft
          · obtain ⟨hnone, -⟩ | ⟨entry', u', hnext', hturn', hr'⟩ := loop_succ_ok hr
            · cases hnone.symm.trans hnext
            · cases hnext'.symm.trans hnext
              cases hturn'.symm.trans hturn
              exact ih hr' hv'

theorem updateEntry_run (f : QueueEntry → QueueEntry) (id : Uuid) (s : Session) :
    (onSeen (updateEntry id f)).run s = .ok () { s with seen := final (updateEntry id f) s.seen } := rfl

/-- Those that have waited too long are cancelled, as far as their owners can be told. -/
theorem cancelAll_ends (entries : List QueueEntry) (s : Session)
    (hreadable : ∀ entry ∈ entries, Readable (s.preferences entry.userId) "queue_position") :
    ∃ t, (entries.forM fun entry => do
        onSeen (updateEntry entry.id cancelled)
        notify entry.userId "queue_position").run s = .ok () t ∧ (pending t.seen).length ≤ (pending s.seen).length := by
  induction entries generalizing s with
  | nil => exact ⟨s, rfl, le_rfl⟩
  | cons entry entries ih =>
      have hfirst : Readable (s.preferences entry.userId) "queue_position" := hreadable entry List.mem_cons_self
      obtain ⟨u, hnotify, hseen, hpreferences⟩ := notify_readable
        (s := { s with seen := final (updateEntry entry.id cancelled) s.seen }) hfirst
      have hle := countP_closing_le (f := cancelled) ⟨fun _ => nofun, fun _ => rfl⟩ entry.id s.seen.queue
      obtain ⟨t, hrun, ht⟩ := ih u fun e he => by
        rw [hpreferences]
        exact hreadable e (List.mem_cons_of_mem entry he)
      refine ⟨t, ?_, ht.trans ?_⟩
      · simp only [List.forM, EStateM.run_bind, updateEntry_run, hnotify, hrun]
      · rw [hseen, pending, pending, ← List.countP_eq_length_filter, ← List.countP_eq_length_filter]
        exact hle

theorem readable_of_cancelAll (entries : List QueueEntry) (s : Session) :
    Returns (entries.forM fun entry => do
      onSeen (updateEntry entry.id cancelled)
      notify entry.userId "queue_position") s fun _ _ =>
        ∀ entry ∈ entries, Readable (s.preferences entry.userId) "queue_position" := by
  induction entries generalizing s with
  | nil => exact fun _ _ _ _ h => absurd h List.not_mem_nil
  | cons entry entries ih =>
      refine .bind fun _ u hr => ?_
      have hreadable : Readable (s.preferences entry.userId) "queue_position" :=
        Returns.bind_of_ok (updateEntry_run cancelled entry.id s) readable_of_notify () u hr
      have hpreferences : u.preferences = s.preferences := by
        rw [EStateM.run_bind, updateEntry_run] at hr
        obtain ⟨t, hnotify, -, ht⟩ := notify_readable
          (s := { s with seen := final (updateEntry entry.id cancelled) s.seen }) hreadable
        cases hnotify.symm.trans hr
        exact ht
      intro _ v hrest e he
      rcases List.mem_cons.mp he with rfl | he
      · exact hreadable
      · exact hpreferences ▸ ih u () v hrest e he

end Run

section Kilobytes

def waitingEntry (id planId : Uuid) (priority : Int) : QueueEntry :=
  ⟨id, 2, 6, planId, .pending, priority, "lab", 1, 2048, 10240, 0, none, none, 0⟩

/-- Two entries wait. The plan of the first has been given 512k of memory since. -/
def waitingWorld : World :=
  { blankWorld with
    users := fun id => if id = 2 then some (newUser "bo") else none
    plans := fun id => if id = 3 then some { newPlan "small" 0 with memoryLimit := 0 } else if id = 4 then some (newPlan "large" 0) else none
    queue := [waitingEntry 10 3 1, waitingEntry 11 4 0] }

def waitingSession : Session where
  stored := waitingWorld
  seen := waitingWorld
  sizes :=
    { planMemory := fun id => if id = 3 then "512k" else "2g"
      planDisk := fun _ => "10g"
      serverMemory := fun _ => "2g"
      serverDisk := fun _ => "10g"
      entryMemory := fun _ => "2g"
      entryDisk := fun _ => "10g"
      maxMemory := fun _ => "16g" }
  preferences := fun _ => .null

def quietTurn : Turn := ⟨id, fun _ => List.Sublist.refl _, [], obedient .running⟩

theorem waitingSession_illegible : getNextInQueue waitingSession = .error sizeError := by
  have hplan : ¬ Legible waitingSession 3 := by decide +kernel
  have hsort : (pending waitingSession.seen).insertionSort Precedes = [waitingEntry 10 3 1, waitingEntry 11 4 0] := rfl
  rw [getNextInQueue, hsort, firstFit, canFit, if_pos ⟨rfl, hplan⟩]

end Kilobytes

end NukeLab.QueueLoop
