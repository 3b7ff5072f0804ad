import NukeLab.GpuAllocator
import NukeLab.Interleaving
import NukeLab.Texts

namespace NukeLab.GpuReservation

open Program Tables Machine Interleaving Records State Texts GpuAllocator

def gpuDeviceList (gpuDevices : String) : List Device :=
  (((gpuDevices.toList.splitOn ',').map strip).filter fun cs => cs ≠ []).map String.ofList

example : gpuDeviceList " gpu=0,, gpu=1 ,gpu=0" = ["gpu=0", "gpu=1", "gpu=0"] := by decide

def deviceWidth : Nat := 100

/-- The allocation table, whose device column is unique. -/
structure Reservations where
  allocations : Table GpuAllocation.device
  nextUuid : Uuid

inductive Refusal
  | tooLong
  | notUnique

/-- The rows of one transaction, inserted in turn; the first that is refused
takes back those before it. -/
def insertEach (t : Table GpuAllocation.device) : List GpuAllocation → Except Refusal (Table GpuAllocation.device)
  | [] => .ok t
  | row :: rows =>
    if row.device.length > deviceWidth then .error .tooLong
    else if row.device ∈ t.rows.map GpuAllocation.device then .error .notUnique
    else insertEach (t.insert row) rows

inductive Request
  | allocate (serverId : Uuid) (count : Int)
  | release (serverId : Uuid)
  | reconcile

/-- How far a call has come. Between two turns other calls may commit. -/
inductive Phase
  | allocate (serverId : Uuid) (count : Int)
  | picked (serverId : Uuid) (count : Int) (devices : List Device)
  | release (serverId : Uuid)
  | reconcile
  | selected (rows : List GpuAllocation)
  | condemned (ids : List Uuid)
  | returned (devices : Option (List Device))
  | raised
  | done

def begin : Request → Phase
  | .allocate serverId count => .allocate serverId count
  | .release serverId => .release serverId
  | .reconcile => .reconcile

structure Answer where
  now : Instant
  server? : Uuid → Option Server

def advance (gpuDevices : String) : Advance Reservations Phase Answer := fun _ s p answer =>
  match p with
  | .allocate serverId count =>
    let pool := gpuDeviceList gpuDevices
    if count ≤ 0 ∨ pool.length = 0 then some (s, .returned (some []))
    else
      let devices := (availableIn pool s.allocations.rows).take count.toNat
      if devices.length < count then some (s, .returned none) else some (s, .picked serverId count devices)
  | .picked serverId _ devices =>
    match insertEach s.allocations (newRows serverId s.nextUuid devices answer.now) with
    | .ok t => some (⟨t, s.nextUuid + devices.length⟩, .returned (some devices))
    | .error .notUnique => some (s, .returned none)
    | .error .tooLong => some (s, .raised)
  | .release serverId =>
    some ({ s with allocations := s.allocations.filter fun row => row.serverId ≠ serverId }, .done)
  | .reconcile => some (s, if s.allocations.rows = [] then .done else .selected s.allocations.rows)
  | .selected rows => some (s, .condemned ((rows.filter (stale answer.now answer.server?)).map GpuAllocation.id))
  | .condemned ids => some ({ s with allocations := s.allocations.filter fun row => row.id ∉ ids }, .done)
  | .returned _ | .raised | .done => none

def Phase.turnsLeft : Phase → Nat
  | .reconcile => 3
  | .allocate _ _ | .selected _ => 2
  | .picked _ _ _ | .release _ | .condemned _ => 1
  | .returned _ | .raised | .done => 0

theorem advance_progress (gpuDevices : String) (i : Nat) (s : Reservations) (p : Phase) (answer : Answer)
    (hp : p.turnsLeft ≠ 0) : ∃ u q, advance gpuDevices i s p answer = some (u, q) ∧ q.turnsLeft < p.turnsLeft := by
  cases p with
  | allocate serverId count =>
      simp only [advance]
      split
      · exact ⟨_, _, rfl, Nat.zero_lt_two⟩
      · split
        · exact ⟨_, _, rfl, Nat.zero_lt_two⟩
        · exact ⟨_, _, rfl, Nat.one_lt_two⟩
  | picked serverId count devices =>
      simp only [advance]
      split
      · exact ⟨_, _, rfl, Nat.one_pos⟩
      · exact ⟨_, _, rfl, Nat.one_pos⟩
      · exact ⟨_, _, rfl, Nat.one_pos⟩
  | reconcile =>
      refine ⟨_, _, rfl, ?_⟩
      split
      · exact Nat.succ_pos 2
      · exact Nat.lt_succ_self 2
  | selected rows => exact ⟨_, _, rfl, Nat.one_lt_two⟩
  | release serverId => exact ⟨_, _, rfl, Nat.one_pos⟩
  | condemned ids => exact ⟨_, _, rfl, Nat.one_pos⟩
  | returned devices => exact absurd rfl hp
  | raised => exact absurd rfl hp
  | done => exact absurd rfl hp

theorem rows_of_insertEach {t u : Table GpuAllocation.device} {rows : List GpuAllocation}
    (h : insertEach t rows = .ok u) : u.rows = t.rows ++ rows := by
  induction rows generalizing t with
  | nil =>
      cases h
      rw [List.append_nil]
  | cons row rows ih =>
      rw [insertEach] at h
      by_cases hlong : row.device.length > deviceWidth
      · rw [if_pos hlong] at h
        exact nomatch h
      by_cases htaken : row.device ∈ t.rows.map GpuAllocation.device
      · rw [if_neg hlong, if_pos htaken] at h
        exact nomatch h
      rw [if_neg hlong, if_neg htaken] at h
      rw [ih h, Table.insert, dif_neg htaken, List.append_assoc, List.singleton_append]

theorem devices_newRows (serverId firstId : Uuid) (devices : List Device) (now : Instant) :
    (newRows serverId firstId devices now).map GpuAllocation.device = devices := by
  apply List.ext_getElem
  · rw [List.length_map, length_newRows]
  · intro i hi hi'
    simp only [newRows, List.getElem_map, List.getElem_mapIdx]

def Holds (s : Reservations) (serverId : Uuid) (device : Device) : Prop :=
  ∃ row ∈ s.allocations.rows, row.serverId = serverId ∧ row.device = device

def Exclusive (s : Reservations) : Prop :=
  ∀ device a b, Holds s a device → Holds s b device → a = b

def Phase.allocating : Phase → Bool
  | .allocate _ _ | .picked _ _ _ => true
  | _ => false

/-- All that one turn of an allocation can come to, given the pool. -/
inductive AllocateTurn (pool : List Device) (s : Reservations) : Phase → Reservations → Phase → Prop
  | nothingToDo {serverId count} (hidle : count ≤ 0 ∨ pool = []) :
      AllocateTurn pool s (.allocate serverId count) s (.returned (some []))
  | short {serverId count} (hshort : ((availableIn pool s.allocations.rows).length : Int) < count) :
      AllocateTurn pool s (.allocate serverId count) s (.returned none)
  | picked {serverId count devices} :
      AllocateTurn pool s (.allocate serverId count) s (.picked serverId count devices)
  | lost {serverId count devices} : AllocateTurn pool s (.picked serverId count devices) s (.returned none)
  | tooLong {serverId count devices} (hlong : ∃ device ∈ pool, device.length > deviceWidth) :
      AllocateTurn pool s (.picked serverId count devices) s .raised
  | granted {serverId count devices u} (hcount : (devices.length : Int) = count) (hnodup : devices.Nodup)
      (hpool : ∀ device ∈ devices, device ∈ pool)
      (hfree : ∀ device ∈ devices, ∀ holder, ¬ Holds s holder device)
      (hheld : ∀ holder device, Holds u holder device ↔ Holds s holder device ∨ holder = serverId ∧ device ∈ devices) :
      AllocateTurn pool s (.picked serverId count devices) u (.returned (some devices))

/-- What was picked from the pool, whatever is committed before it is inserted. -/
def FromPool (pool : List Device) : Phase → Prop
  | .picked _ count devices => (devices.length : Int) = count ∧ ∀ device ∈ devices, device ∈ pool
  | _ => True

theorem exclusive (s : Reservations) : Exclusive s := by
  rintro device a b ⟨row, hrow, rfl, hdevice⟩ ⟨row', hrow', rfl, hdevice'⟩
  rw [Table.eq_of_mem_of_key hrow hrow' (hdevice.trans hdevice'.symm)]

theorem insertEach_tooLong {t : Table GpuAllocation.device} {rows : List GpuAllocation}
    (h : insertEach t rows = .error .tooLong) : ∃ row ∈ rows, row.device.length > deviceWidth := by
  induction rows generalizing t with
  | nil => exact nomatch h
  | cons row rows ih =>
      rw [insertEach] at h
      by_cases hlong : row.device.length > deviceWidth
      · exact ⟨row, List.mem_cons_self, hlong⟩
      by_cases htaken : row.device ∈ t.rows.map GpuAllocation.device
      · rw [if_neg hlong, if_pos htaken] at h
        exact nomatch h
      rw [if_neg hlong, if_neg htaken] at h
      obtain ⟨row', hrow', hlong'⟩ := ih h
      exact ⟨row', List.mem_cons_of_mem row hrow', hlong'⟩

theorem mem_pool_of_taken {pool : List Device} {rows : List GpuAllocation} {n : Nat} {device : Device}
    (h : device ∈ (availableIn pool rows).take n) : device ∈ pool :=
  (List.mem_filter.mp (List.mem_of_mem_take h)).1

theorem advance_fromPool {gpuDevices : String} {i : Nat} {s u : Reservations} {p q : Phase} {answer : Answer}
    (h : advance gpuDevices i s p answer = some (u, q)) : FromPool (gpuDeviceList gpuDevices) q := by
  cases p with
  | allocate serverId count =>
      simp only [advance] at h
      split at h
      · cases h
        trivial
      · next hstart =>
          split at h
          · cases h
            trivial
          · next hshort =>
              cases h
              refine ⟨?_, fun device => mem_pool_of_taken⟩
              have hle := List.length_take_le count.toNat (availableIn (gpuDeviceList gpuDevices) s.allocations.rows)
              omega
  | picked serverId count devices =>
      simp only [advance] at h
      split at h <;> (cases h; trivial)
  | reconcile =>
      simp only [advance] at h
      split at h <;> (cases h; trivial)
  | selected | release | condemned =>
      cases h
      trivial
  | returned | raised | done => exact nomatch h

theorem holds_newRows (serverId firstId : Uuid) (devices : List Device) (now : Instant) (holder : Uuid)
    (device : Device) :
    (∃ row ∈ newRows serverId firstId devices now, row.serverId = holder ∧ row.device = device) ↔
      holder = serverId ∧ device ∈ devices := by
  constructor
  · rintro ⟨row, hrow, rfl, rfl⟩
    refine ⟨serverId_of_mem_newRows hrow, ?_⟩
    rw [← devices_newRows serverId firstId devices now]
    exact List.mem_map_of_mem hrow
  · rintro ⟨rfl, hdevice⟩
    rw [← devices_newRows holder firstId devices now] at hdevice
    obtain ⟨row, hrow, hrowdevice⟩ := List.mem_map.mp hdevice
    exact ⟨row, hrow, serverId_of_mem_newRows hrow, hrowdevice⟩

theorem granted_of_insertEach {s : Reservations} {t : Table GpuAllocation.device} {serverId firstId : Uuid}
    {devices : List Device} {now : Instant}
    (h : insertEach s.allocations (newRows serverId firstId devices now) = .ok t) (nextUuid : Uuid) :
    devices.Nodup ∧ (∀ device ∈ devices, ∀ holder, ¬ Holds s holder device) ∧
      ∀ holder device,
        Holds ⟨t, nextUuid⟩ holder device ↔ Holds s holder device ∨ holder = serverId ∧ device ∈ devices := by
  have hrows := rows_of_insertEach h
  have hunique := t.nodup
  rw [hrows, List.map_append, devices_newRows, List.nodup_append] at hunique
  obtain ⟨-, hnodup, hapart⟩ := hunique
  refine ⟨hnodup, ?_, ?_⟩
  · rintro device hdevice holder ⟨row, hrow, -, hrowdevice⟩
    exact hapart row.device (List.mem_map_of_mem hrow) device hdevice hrowdevice
  · intro holder device
    rw [← holds_newRows serverId firstId devices now]
    simp only [Holds, hrows, List.mem_append, or_and_right, exists_or]

theorem advance_allocateTurn {gpuDevices : String} {i : Nat} {s u : Reservations} {p q : Phase} {answer : Answer}
    (hp : FromPool (gpuDeviceList gpuDevices) p) (h : advance gpuDevices i s p answer = some (u, q))
    (hallocating : p.allocating) : AllocateTurn (gpuDeviceList gpuDevices) s p u q := by
  cases p with
  | allocate serverId count =>
      simp only [advance] at h
      split at h
      · next hidle =>
          cases h
          exact .nothingToDo (hidle.imp_right List.length_eq_zero_iff.mp)
      · next hstart =>
          split at h
          · next hshort =>
              cases h
              rw [List.length_take] at hshort
              refine .short ?_
              omega
          · cases h
            exact .picked
  | picked serverId count devices =>
      obtain ⟨hcount, hpool⟩ := hp
      simp only [advance] at h
      split at h
      · next t hinsert =>
          cases h
          obtain ⟨hnodup, hfree, hheld⟩ := granted_of_insertEach hinsert (s.nextUuid + devices.length)
          exact .granted hcount hnodup hpool hfree hheld
      · cases h
        exact .lost
      · next hinsert =>
          cases h
          obtain ⟨row, hrow, hlong⟩ := insertEach_tooLong hinsert
          refine .tooLong ⟨row.device, hpool _ ?_, hlong⟩
          rw [← devices_newRows serverId s.nextUuid devices answer.now]
          exact List.mem_map_of_mem hrow
  | release | reconcile | selected | condemned | returned | raised | done => exact nomatch hallocating

/-- In every run the servers' devices stay apart, a turn of an allocation comes
to one of the outcomes above, and no call ever waits for another. Whether an insert
waits for another's open transaction lies within a turn. -/
theorem allocations_exclusive (gpuDevices : String) (prior : Reservations) (events : List (Event Request Answer)) :
    AllStates (step begin (advance gpuDevices)) (fun s => Exclusive s.shared) ⟨prior, []⟩ events ∧
      AllSteps (step begin (advance gpuDevices))
        (EveryTurn (advance gpuDevices) fun _ s p u q =>
          p.allocating → AllocateTurn (gpuDeviceList gpuDevices) s p u q)
        ⟨prior, []⟩ events ∧
      ∀ i s p answer, p.turnsLeft ≠ 0 →
        ∃ u q, advance gpuDevices i s p answer = some (u, q) ∧ q.turnsLeft < p.turnsLeft := by
  have hsound : AllStates (step begin (advance gpuDevices))
      (Sound (fun _ => True) fun _ _ p => FromPool (gpuDeviceList gpuDevices) p) ⟨prior, []⟩ events := by
    apply allStates_sound
    · intro i s request _
      cases request <;> trivial
    · exact fun i s p answer u q _ _ h => ⟨trivial, advance_fromPool h⟩
    · exact fun i s p answer u q j r _ _ _ hr _ => hr
    · exact ⟨trivial, fun i p hp => nomatch hp⟩
  have hturns : ∀ i s p answer u q, True → FromPool (gpuDeviceList gpuDevices) p →
      advance gpuDevices i s p answer = some (u, q) → p.allocating →
      AllocateTurn (gpuDeviceList gpuDevices) s p u q :=
    fun i s p answer u q _ hp h => advance_allocateTurn hp h
  exact ⟨hsound.mono fun s _ => exclusive s.shared, allSteps_everyTurn hturns hsound, advance_progress gpuDevices⟩

/-- Where no pool is configured, devices asked for are neither handed out nor refused. -/
theorem unpooled_grants_none :
    ¬ ∀ gpuDevices serverId count s u answer devices,
      advance gpuDevices 0 s (.allocate serverId count) answer = some (u, .returned (some devices)) →
        (devices.length : Int) = count := by
  intro h
  exact absurd (h "" 9 1 ⟨Table.empty _, 0⟩ _ ⟨0, fun _ => none⟩ [] rfl) (by decide)

theorem insertEach_of_fits {t : Table GpuAllocation.device} {rows : List GpuAllocation}
    (hfits : ∀ row ∈ rows, row.device.length ≤ deviceWidth) :
    insertEach t rows =
      if h : ((t.rows ++ rows).map GpuAllocation.device).Nodup then .ok ⟨t.rows ++ rows, h⟩ else .error .notUnique := by
  induction rows generalizing t with
  | nil => simp [insertEach, t.nodup]
  | cons row rows ih =>
      have hfit := not_lt.mpr (hfits row List.mem_cons_self)
      rw [insertEach, if_neg hfit]
      by_cases htaken : row.device ∈ t.rows.map GpuAllocation.device
      · rw [if_pos htaken, dif_neg]
        intro hnodup
        rw [List.map_append, List.map_cons, List.nodup_append] at hnodup
        exact hnodup.2.2 _ htaken _ List.mem_cons_self rfl
      · rw [if_neg htaken, ih fun row' hrow' => hfits row' (List.mem_cons_of_mem row hrow')]
        simp only [Table.insert, dif_neg htaken, List.append_assoc, List.singleton_append]

theorem insertEach_newRows {t : Table GpuAllocation.device} {devices : List Device} (serverId firstId : Uuid)
    (now : Instant) (hfits : ∀ device ∈ devices, device.length ≤ deviceWidth) :
    match insertRows t.rows serverId firstId devices now with
    | some rows => ∃ u : Table GpuAllocation.device,
        insertEach t (newRows serverId firstId devices now) = .ok u ∧ u.rows = rows
    | none => insertEach t (newRows serverId firstId devices now) = .error .notUnique := by
  have hrows : ∀ row ∈ newRows serverId firstId devices now, row.device.length ≤ deviceWidth := by
    intro row hrow
    apply hfits
    rw [← devices_newRows serverId firstId devices now]
    exact List.mem_map_of_mem hrow
  have hnodup : ((t.rows ++ newRows serverId firstId devices now).map GpuAllocation.device).Nodup ↔
      devices.Nodup ∧ ∀ device ∈ devices, device ∉ t.rows.map GpuAllocation.device := by
    rw [List.map_append, devices_newRows, List.nodup_append, and_iff_right t.nodup]
    exact and_congr_right' ⟨fun h d hd ht => h d ht d hd rfl, fun h a ha b hb hab => h b hb (hab ▸ ha)⟩
  rw [insertEach_of_fits hrows, insertRows]
  by_cases h : devices.Nodup ∧ ∀ device ∈ devices, device ∉ t.rows.map GpuAllocation.device
  · rw [if_pos h, dif_pos (hnodup.mpr h)]
    exact ⟨_, rfl, rfl⟩
  · rw [if_neg h, dif_neg (mt hnodup.mp h)]

/-- An allocation that nothing comes between does what the handler does. -/
theorem allocate_alone (gpuDevices : String) (w : World) (hpool : w.settings.gpuDeviceList = gpuDeviceList gpuDevices)
    (hfits : ∀ device ∈ gpuDeviceList gpuDevices, device.length ≤ deviceWidth)
    (hunique : (w.gpuAllocations.map GpuAllocation.device).Nodup) (serverId : Uuid) (count : Int) :
    ∃ reply t u, (allocate serverId count).run w = .ok reply t ∧
      alone (advance gpuDevices) ⟨w.now, w.servers.find⟩ 2 ⟨⟨w.gpuAllocations, hunique⟩, w.nextUuid⟩
        (.allocate serverId count) = (u, .returned reply) ∧
      u.allocations.rows = t.gpuAllocations := by
  by_cases hidle : count ≤ 0 ∨ (gpuDeviceList gpuDevices).length = 0
  · refine ⟨some [], w, ⟨⟨w.gpuAllocations, hunique⟩, w.nextUuid⟩, ?_, ?_, rfl⟩
    · have hidle' : count ≤ 0 ∨ ¬ enabled w.settings := hidle.imp_right fun h => by simp [enabled, hpool, h]
      simp only [allocate, EStateM.run_bind, EStateM.run_get, if_pos hidle', EStateM.run_pure]
    · simp only [alone, advance, if_pos hidle]
  have hidle' : ¬ (count ≤ 0 ∨ ¬ enabled w.settings) := by
    rw [enabled, hpool, decide_eq_true_iff, Nat.not_lt, Nat.le_zero]
    exact hidle
  generalize hdevices : (availableIn (gpuDeviceList gpuDevices) w.gpuAllocations).take count.toNat = devices
  by_cases hshort : (devices.length : Int) < count
  · refine ⟨none, w, ⟨⟨w.gpuAllocations, hunique⟩, w.nextUuid⟩, ?_, ?_, rfl⟩
    · simp only [allocate, EStateM.run_bind, EStateM.run_get, if_neg hidle', hpool, hdevices, if_pos hshort,
        EStateM.run_pure]
    · simp only [alone, advance, if_neg hidle, hdevices, if_pos hshort]
  have hinsert := insertEach_newRows (t := ⟨w.gpuAllocations, hunique⟩) serverId w.nextUuid w.now
    fun device (hdevice : device ∈ devices) => hfits device (mem_pool_of_taken (hdevices ▸ hdevice))
  cases hrows : insertRows w.gpuAllocations serverId w.nextUuid devices w.now with
  | none =>
      simp only [hrows] at hinsert
      refine ⟨none, w, ⟨⟨w.gpuAllocations, hunique⟩, w.nextUuid⟩, ?_, ?_, rfl⟩
      · simp only [allocate, EStateM.run_bind, EStateM.run_get, if_neg hidle', hpool, hdevices, if_neg hshort, hrows,
          EStateM.run_pure]
      · simp only [alone, advance, if_neg hidle, hdevices, if_neg hshort, hinsert]
  | some rows =>
      simp only [hrows] at hinsert
      obtain ⟨u, hu, rfl⟩ := hinsert
      refine ⟨some devices, { w with gpuAllocations := u.rows, nextUuid := w.nextUuid + devices.length },
        ⟨u, w.nextUuid + devices.length⟩, ?_, ?_, rfl⟩
      · simp only [allocate, EStateM.run_bind, EStateM.run_get, if_neg hidle', hpool, hdevices, if_neg hshort, hrows,
          EStateM.run_set, EStateM.run_pure]
      · simp only [alone, advance, if_neg hidle, hdevices, if_neg hshort, hu]

end NukeLab.GpuReservation
