import Mathlib.Data.Finset.Basic
import NukeLab.Dictionaries
import NukeLab.Machine

namespace NukeLab.LogSubscriptions

open Dictionaries Machine

/-- A place in the room `logs:{server_id}`, and a key of `log_streams`. The server's id is
the text as it was sent. -/
structure Key where
  websocket : Nat
  serverId : String
  deriving DecidableEq

/-- A task that is cancelled before its first step never comes to its `finally`. -/
inductive Phase
  | created
  | streaming
  | done
  deriving DecidableEq

structure Task where
  key : Key
  phase : Phase
  cancelled : Bool
  deriving DecidableEq

/-- Where a socket's handler is. After a disconnect it cancels and awaits the
socket's tasks in turn. -/
inductive Handler
  | serving
  | awaiting (task : Nat) (tasksToCancel : List Nat)
  | closed
  deriving DecidableEq

/-- The tables, with what runs over them. A socket that is served is in
`connection_users`. Nothing reads `latest`: by its key, the task of the latest
subscription that was accepted. -/
structure Tables where
  handlers : List Handler
  connections : Finset Key
  logStreams : Dict Key Nat
  tasks : List Task
  latest : Dict Key Nat

inductive Event
  | connect
  /-- whether the user has access to the server, and it has a container -/
  | subscribeLogs (key : Key) (allowed : Bool)
  | unsubscribeLogs (key : Key)
  | disconnect (websocket : Nat)
  /-- the task that the handler awaits is done -/
  | joined (websocket : Nat)
  /-- whether there is a line, and it could be sent -/
  | turn (i : Nat) (sent : Bool)

/-- What is done is cancelled to no effect. -/
def Task.cancel (task : Task) : Task := if task.phase = .done then task else { task with cancelled := true }

def cancel (tasks : List Task) : Option Nat → List Task
  | none => tasks
  | some i => tasks.modify i Task.cancel

def Handler.next : List Nat → Handler
  | [] => .closed
  | task :: rest => .awaiting task rest

namespace Tables

def blank : Tables := ⟨[], ∅, .empty, [], .empty⟩

def Serving (s : Tables) (websocket : Nat) : Prop := s.handlers[websocket]? = some .serving

instance (s : Tables) (websocket : Nat) : Decidable (s.Serving websocket) :=
  inferInstanceAs (Decidable (s.handlers[websocket]? = some .serving))

def subscribeLogs (s : Tables) (key : Key) : Tables :=
  { s with
    connections := insert key s.connections
    tasks := cancel s.tasks (s.logStreams.get key) ++ [⟨key, .created, false⟩]
    logStreams := s.logStreams.put key s.tasks.length
    latest := s.latest.put key s.tasks.length }

def unsubscribeLogs (s : Tables) (key : Key) : Tables :=
  { s with
    connections := s.connections.erase key
    tasks := cancel s.tasks (s.logStreams.get key)
    logStreams := s.logStreams.pop key
    latest := s.latest.pop key }

def leave (s : Tables) (websocket : Nat) (tasksToCancel : List Nat) : Tables :=
  { s with
    handlers := s.handlers.set websocket (.next tasksToCancel)
    tasks := cancel s.tasks tasksToCancel.head? }

def disconnect (s : Tables) (websocket : Nat) : Tables :=
  let tasksToCancel := (s.logStreams.entries.filter fun e => e.1.websocket = websocket).map Prod.snd
  { s with
    connections := s.connections.filter fun key => key.websocket ≠ websocket
    latest := s.latest.filter fun key => key.websocket ≠ websocket }.leave websocket tasksToCancel

def isDone (s : Tables) (i : Nat) : Bool := s.tasks[i]?.any fun task => task.phase = .done

def GoesOn (s : Tables) (task : Task) (sent : Bool) : Prop :=
  task.cancelled = false ∧ sent = true ∧ s.Serving task.key.websocket ∧ task.key ∈ s.connections

instance (s : Tables) (task : Task) (sent : Bool) : Decidable (s.GoesOn task sent) :=
  inferInstanceAs (Decidable (_ ∧ _ ∧ _ ∧ _))

def enter (s : Tables) (i : Nat) (task : Task) (phase : Phase) : Tables :=
  { s with tasks := s.tasks.set i { task with phase } }

/-- What stands in `finally`: by the key, whichever task is registered under it. -/
def cleanUp (s : Tables) (key : Key) : Tables :=
  { s with connections := s.connections.erase key, logStreams := s.logStreams.pop key }

def turn (s : Tables) (i : Nat) (sent : Bool) (task : Task) : Option Tables :=
  match task.phase with
  | .created => some (s.enter i task (if task.cancelled then .done else .streaming))
  | .streaming => some (if s.GoesOn task sent then s else (s.enter i task .done).cleanUp task.key)
  | .done => none

end Tables

def step : Step Tables Event
  | s, .connect => some { s with handlers := s.handlers ++ [.serving] }
  | s, .subscribeLogs key allowed =>
    if s.Serving key.websocket then some (if allowed then s.subscribeLogs key else s) else none
  | s, .unsubscribeLogs key => if s.Serving key.websocket then some (s.unsubscribeLogs key) else none
  | s, .disconnect websocket => if s.Serving websocket then some (s.disconnect websocket) else none
  | s, .joined websocket =>
    match s.handlers[websocket]? with
    | some (.awaiting task rest) => if s.isDone task then some (s.leave websocket rest) else none
    | _ => none
  | s, .turn i sent => s.tasks[i]?.bind (s.turn i sent)

def Task.Live (task : Task) : Prop := task.phase ≠ .done ∧ task.cancelled = false

instance (task : Task) : Decidable task.Live := inferInstanceAs (Decidable (_ ∧ _))

def Ended (s : Tables) (i : Nat) : Prop := ∃ task ∈ s.tasks[i]?, task.phase = .done ∧ task.cancelled = false

instance (s : Tables) (i : Nat) : Decidable (Ended s i) :=
  inferInstanceAs (Decidable (∃ task ∈ s.tasks[i]?, task.phase = .done ∧ task.cancelled = false))

structure Booked (s : Tables) : Prop where
  subscribed : ∀ key i, s.latest.get key = some i → ¬ Ended s i →
    key ∈ s.connections ∧ s.logStreams.get key = some i ∧ ∃ task ∈ s.tasks[i]?, task.key = key ∧ task.Live
  single : ∀ (i j : Nat) (task task' : Task), s.tasks[i]? = some task → s.tasks[j]? = some task' →
    task.Live → task'.Live → task.key = task'.key → i = j
  left : ∀ websocket, s.handlers[websocket]? = some .closed →
    (∀ task ∈ s.tasks, task.key.websocket = websocket → ¬ task.Live) ∧
      ((∀ task ∈ s.tasks, task.key.websocket = websocket → task.phase = .done) →
        (∀ key ∈ s.connections, key.websocket ≠ websocket) ∧ ∀ e ∈ s.logStreams.entries, e.1.websocket ≠ websocket)

/-- No stream of a socket that is served cleans up while another is registered
under its key, and no task ends registered that was cancelled before its first step. -/
def Orderly (s : Tables) : Event → Prop
  | .turn i sent => ∀ task ∈ s.tasks[i]?,
      (task.phase = .created → task.cancelled = true → s.logStreams.get task.key ≠ some i) ∧
        (task.phase = .streaming → ¬ s.GoesOn task sent → s.Serving task.key.websocket →
          ∀ j ∈ s.logStreams.get task.key, j = i)
  | _ => True

instance (s : Tables) (event : Event) : Decidable (Orderly s event) :=
  match event with
  | .turn i sent => inferInstanceAs (Decidable (∀ task ∈ s.tasks[i]?,
      (task.phase = .created → task.cancelled = true → s.logStreams.get task.key ≠ some i) ∧
        (task.phase = .streaming → ¬ s.GoesOn task sent → s.Serving task.key.websocket →
          ∀ j ∈ s.logStreams.get task.key, j = i)))
  | .connect | .subscribeLogs _ _ | .unsubscribeLogs _ | .disconnect _ | .joined _ => .isTrue trivial

def Tables.awaited (s : Tables) (websocket : Nat) : List Nat :=
  match s.handlers[websocket]? with
  | some (.awaiting task rest) => task :: rest
  | _ => []

structure Linked (s : Tables) : Prop where
  registered : ∀ key i, s.logStreams.get key = some i → ∃ task, s.tasks[i]? = some task ∧ task.key = key ∧
    task.phase ≠ .done ∧ (s.Serving key.websocket ∧ task.cancelled = false ∨ i ∈ s.awaited key.websocket)
  live : ∀ i task, s.tasks[i]? = some task → task.Live →
    s.Serving task.key.websocket ∧ s.logStreams.get task.key = some i ∨ i ∈ (s.awaited task.key.websocket).tail
  single : ∀ (i j : Nat) (task task' : Task), s.tasks[i]? = some task → s.tasks[j]? = some task' →
    task.Live → task'.Live → task.key = task'.key → i = j
  current : ∀ key i, s.latest.get key = some i →
    s.Serving key.websocket ∧ (Ended s i ∨ key ∈ s.connections ∧ s.logStreams.get key = some i)
  joined : ∀ key ∈ s.connections, s.Serving key.websocket
  awaited : ∀ websocket, ∀ i ∈ s.awaited websocket, ∃ task, s.tasks[i]? = some task ∧ task.key.websocket = websocket

section Steps

variable {s t : Tables} {key : Key} {websocket i : Nat} {task : Task}

theorem awaited_of_serving (h : s.Serving websocket) : s.awaited websocket = [] := by rw [Tables.awaited, h]

theorem not_live_cancel (task : Task) : ¬ task.cancel.Live := by
  rw [Task.cancel]
  split
  · rename_i hdone
    exact fun hlive => hlive.1 hdone
  · exact fun hlive => Bool.noConfusion hlive.2

theorem key_cancel (task : Task) : task.cancel.key = task.key := by
  rw [Task.cancel]
  split <;> rfl

theorem phase_cancel (task : Task) : task.cancel.phase = task.phase := by
  rw [Task.cancel]
  split <;> rfl

theorem cancel_of_done (h : task.phase = .done) : task.cancel = task := if_pos h

/-- Some of the tasks are cancelled, and nothing else becomes of any. -/
structure Cancels (p : Nat → Prop) (tasks tasks' : List Task) : Prop where
  length : tasks'.length = tasks.length
  task : ∀ j task, tasks[j]? = some task → ∃ task', tasks'[j]? = some task' ∧ task'.key = task.key ∧
    task'.phase = task.phase ∧ (¬ p j ∨ task.phase = .done → task' = task)
  live : ∀ j task, tasks'[j]? = some task → task.Live → ¬ p j ∧ tasks[j]? = some task

theorem cancels (tasks : List Task) (o : Option Nat) : Cancels (fun j => o = some j) tasks (cancel tasks o) := by
  cases o with
  | none => exact ⟨rfl, fun _ task h => ⟨task, h, rfl, rfl, fun _ => rfl⟩, fun _ _ h _ => ⟨(fun hsome => by cases hsome), h⟩⟩
  | some i =>
      refine ⟨List.length_modify .., fun j task h => ?_, fun j task h hlive => ?_⟩
      · rw [cancel, List.getElem?_modify, h]
        by_cases hij : i = j
        · refine ⟨task.cancel, by simp [hij], key_cancel task, phase_cancel task, ?_⟩
          rintro (hne | hdone)
          · exact absurd (congrArg some hij) hne
          · exact cancel_of_done hdone
        · exact ⟨task, by simp [hij], rfl, rfl, fun _ => rfl⟩
      · rw [cancel, List.getElem?_modify] at h
        obtain ⟨task', htask', rfl⟩ := Option.map_eq_some_iff.mp h
        by_cases hij : i = j
        · rw [if_pos hij] at hlive
          exact absurd hlive (not_live_cancel task')
        · rw [if_neg hij]
          exact ⟨fun hsome => hij (Option.some.inj hsome), htask'⟩

theorem Cancels.ended {p : Nat → Prop} (h : Cancels p s.tasks t.tasks) (hended : Ended s i) : Ended t i := by
  obtain ⟨task, htask, hdone, hcancelled⟩ := hended
  obtain ⟨task', htask', -, -, hsame⟩ := h.task i task htask
  obtain rfl := hsame (Or.inr hdone)
  exact ⟨task', htask', hdone, hcancelled⟩

theorem Cancels.owned {p : Nat → Prop} (h : Cancels p s.tasks t.tasks)
    (howned : ∃ task, s.tasks[i]? = some task ∧ task.key.websocket = websocket) :
    ∃ task, t.tasks[i]? = some task ∧ task.key.websocket = websocket := by
  obtain ⟨task, htask, hwebsocket⟩ := howned
  obtain ⟨task', htask', hkey, -, -⟩ := h.task i task htask
  exact ⟨task', htask', hkey ▸ hwebsocket⟩

theorem Linked.key_eq (hs : Linked s) {key' : Key} (h : s.logStreams.get key = some i) (h' : s.logStreams.get key' = some i) :
    key = key' := by
  obtain ⟨task, htask, hkey, -⟩ := hs.registered key i h
  obtain ⟨task', htask', hkey', -⟩ := hs.registered key' i h'
  obtain rfl := Option.some.inj (htask.symm.trans htask')
  exact hkey.symm.trans hkey'

theorem Linked.connect (hs : Linked s) : Linked { s with handlers := s.handlers ++ [.serving] } := by
  have hserving : ∀ w, s.Serving w → Tables.Serving { s with handlers := s.handlers ++ [.serving] } w := by
    intro w h
    obtain ⟨hlt, -⟩ := List.getElem?_eq_some_iff.mp h
    exact (List.getElem?_append_left hlt).trans h
  have hawaited : ∀ w, Tables.awaited { s with handlers := s.handlers ++ [.serving] } w = s.awaited w := by
    intro w
    simp only [Tables.awaited]
    rcases Nat.lt_trichotomy w s.handlers.length with hlt | rfl | hgt
    · rw [List.getElem?_append_left hlt]
    · simp
    · rw [List.getElem?_eq_none (by rw [List.length_append]; exact hgt), List.getElem?_eq_none hgt.le]
  constructor
  · intro key i h
    obtain ⟨task, htask, hkey, hphase, ⟨hserved, hcancelled⟩ | hdue⟩ := hs.registered key i h
    · exact ⟨task, htask, hkey, hphase, Or.inl ⟨hserving _ hserved, hcancelled⟩⟩
    · exact ⟨task, htask, hkey, hphase, Or.inr ((hawaited _).symm ▸ hdue)⟩
  · intro i task htask hlive
    rcases hs.live i task htask hlive with ⟨hserved, hregistered⟩ | hdue
    · exact Or.inl ⟨hserving _ hserved, hregistered⟩
    · exact Or.inr ((hawaited _).symm ▸ hdue)
  · exact hs.single
  · intro key i h
    obtain ⟨hserved, hcurrent⟩ := hs.current key i h
    exact ⟨hserving _ hserved, hcurrent⟩
  · intro key hkey
    exact hserving _ (hs.joined key hkey)
  · intro w i hi
    rw [hawaited] at hi
    exact hs.awaited w i hi

theorem Linked.unsubscribeLogs (hs : Linked s) : Linked (s.unsubscribeLogs key) := by
  have hcancels := cancels s.tasks (s.logStreams.get key)
  constructor
  · intro k i h
    obtain ⟨hregistered, hk⟩ := Dict.get_pop_eq_some_iff.mp h
    obtain ⟨task, htask, hkey, hphase, hheld⟩ := hs.registered k i hregistered
    obtain ⟨task', htask', -, -, hsame⟩ := hcancels.task i task htask
    obtain rfl := hsame (Or.inl fun hother => hk (hs.key_eq hregistered hother))
    exact ⟨task', htask', hkey, hphase, hheld⟩
  · intro i task h hlive
    obtain ⟨hkept, htask⟩ := hcancels.live i task h hlive
    rcases hs.live i task htask hlive with ⟨hserved, hregistered⟩ | hdue
    · exact Or.inl ⟨hserved, Dict.get_pop_eq_some_iff.mpr ⟨hregistered, fun hk => hkept (hk ▸ hregistered)⟩⟩
    · exact Or.inr hdue
  · intro i j task task' h h' hlive hlive' hkeys
    exact hs.single i j task task' (hcancels.live i task h hlive).2 (hcancels.live j task' h' hlive').2 hlive hlive' hkeys
  · intro k i h
    obtain ⟨hlatest, hk⟩ := Dict.get_pop_eq_some_iff.mp h
    obtain ⟨hserved, hended | ⟨hjoined, hregistered⟩⟩ := hs.current k i hlatest
    · exact ⟨hserved, Or.inl (Cancels.ended (t := s.unsubscribeLogs key) hcancels hended)⟩
    · exact ⟨hserved, Or.inr ⟨Finset.mem_erase.mpr ⟨hk, hjoined⟩, Dict.get_pop_eq_some_iff.mpr ⟨hregistered, hk⟩⟩⟩
  · intro k hk
    exact hs.joined k (Finset.mem_of_mem_erase hk)
  · intro w i hi
    exact Cancels.owned (t := s.unsubscribeLogs key) hcancels (hs.awaited w i hi)

theorem Linked.subscribeLogs (hs : Linked s) (hserving : s.Serving key.websocket) : Linked (s.subscribeLogs key) := by
  have hcancels := cancels s.tasks (s.logStreams.get key)
  have hold : ∀ {i task}, (cancel s.tasks (s.logStreams.get key))[i]? = some task → i ≠ s.tasks.length ∧
      (s.subscribeLogs key).tasks[i]? = some task := by
    intro i task h
    obtain ⟨hlt, -⟩ := List.getElem?_eq_some_iff.mp h
    rw [hcancels.length] at hlt
    refine ⟨hlt.ne, ?_⟩
    rw [Tables.subscribeLogs, List.getElem?_append_left (by rwa [hcancels.length]), h]
  have hnew : (s.subscribeLogs key).tasks[s.tasks.length]? = some ⟨key, .created, false⟩ := by
    rw [Tables.subscribeLogs, List.getElem?_append_right (by rw [hcancels.length]), hcancels.length, Nat.sub_self]
    rfl
  have hcases : ∀ {i task}, (s.subscribeLogs key).tasks[i]? = some task → task.Live →
      i = s.tasks.length ∧ task = ⟨key, .created, false⟩ ∨
        s.logStreams.get key ≠ some i ∧ s.tasks[i]? = some task := by
    intro i task h hlive
    rcases Nat.lt_trichotomy i s.tasks.length with hlt | rfl | hgt
    · rw [Tables.subscribeLogs, List.getElem?_append_left (by rwa [hcancels.length])] at h
      exact Or.inr (hcancels.live i task h hlive)
    · exact Or.inl ⟨rfl, Option.some.inj (h.symm.trans hnew)⟩
    · rw [Tables.subscribeLogs, List.getElem?_eq_none (by simp [hcancels.length]; omega)] at h
      cases h
  have hnone : ∀ {i task}, s.logStreams.get key ≠ some i → s.tasks[i]? = some task → task.Live → task.key ≠ key := by
    rintro i task hkept htask hlive rfl
    rcases hs.live i task htask hlive with ⟨-, hregistered⟩ | hdue
    · exact hkept hregistered
    · rw [awaited_of_serving hserving] at hdue
      cases hdue
  constructor
  · intro k i h
    rw [Tables.subscribeLogs, Dict.get_put] at h
    split at h
    · rename_i hk
      obtain rfl := Option.some.inj h
      exact ⟨_, hnew, hk.symm, by simp, Or.inl ⟨hk ▸ hserving, rfl⟩⟩
    · rename_i hk
      obtain ⟨task, htask, hkey, hphase, hheld⟩ := hs.registered k i h
      obtain ⟨task', htask', -, -, hsame⟩ := hcancels.task i task htask
      obtain rfl := hsame (Or.inl fun hother => hk (hs.key_eq h hother))
      exact ⟨task', (hold htask').2, hkey, hphase, hheld⟩
  · intro i task h hlive
    rcases hcases h hlive with ⟨rfl, rfl⟩ | ⟨hkept, htask⟩
    · exact Or.inl ⟨hserving, by rw [Tables.subscribeLogs, Dict.get_put, if_pos rfl]⟩
    · rcases hs.live i task htask hlive with ⟨hserved, hregistered⟩ | hdue
      · refine Or.inl ⟨hserved, ?_⟩
        rw [Tables.subscribeLogs, Dict.get_put, if_neg (hnone hkept htask hlive), hregistered]
      · exact Or.inr hdue
  · intro i j task task' h h' hlive hlive' hkeys
    rcases hcases h hlive with ⟨rfl, rfl⟩ | ⟨hkept, htask⟩
    · rcases hcases h' hlive' with ⟨rfl, -⟩ | ⟨hkept', htask'⟩
      · rfl
      · exact absurd hkeys.symm (hnone hkept' htask' hlive')
    · rcases hcases h' hlive' with ⟨-, rfl⟩ | ⟨-, htask'⟩
      · exact absurd hkeys (hnone hkept htask hlive)
      · exact hs.single i j task task' htask htask' hlive hlive' hkeys
  · intro k i h
    rw [Tables.subscribeLogs, Dict.get_put] at h
    split at h
    · rename_i hk
      obtain rfl := Option.some.inj h
      refine ⟨hk ▸ hserving, Or.inr ⟨Finset.mem_insert.mpr (Or.inl hk), ?_⟩⟩
      rw [Tables.subscribeLogs, Dict.get_put, if_pos hk]
    · rename_i hk
      obtain ⟨hserved, ⟨task, htask, hdone⟩ | ⟨hjoined, hregistered⟩⟩ := hs.current k i h
      · obtain ⟨task', htask', -, -, hsame⟩ := hcancels.task i task htask
        obtain rfl := hsame (Or.inr hdone.1)
        exact ⟨hserved, Or.inl ⟨task', (hold htask').2, hdone⟩⟩
      · refine ⟨hserved, Or.inr ⟨Finset.mem_insert_of_mem hjoined, ?_⟩⟩
        rw [Tables.subscribeLogs, Dict.get_put, if_neg hk, hregistered]
  · intro k hk
    rcases Finset.mem_insert.mp hk with rfl | hk
    · exact hserving
    · exact hs.joined k hk
  · intro w i hi
    obtain ⟨task, htask, hwebsocket⟩ := hs.awaited w i hi
    obtain ⟨task', htask', hkey, -, -⟩ := hcancels.task i task htask
    exact ⟨task', (hold htask').2, hkey ▸ hwebsocket⟩

/-- What a handler leaves by: `tasksToCancel` are all that is left of its socket. -/
structure Leaving (s : Tables) (websocket : Nat) (tasksToCancel : List Nat) : Prop where
  known : websocket < s.handlers.length
  registered : ∀ key i, s.logStreams.get key = some i → ∃ task, s.tasks[i]? = some task ∧ task.key = key ∧
    task.phase ≠ .done ∧ if key.websocket = websocket then i ∈ tasksToCancel else
      s.Serving key.websocket ∧ task.cancelled = false ∨ i ∈ s.awaited key.websocket
  live : ∀ i task, s.tasks[i]? = some task → task.Live → if task.key.websocket = websocket then i ∈ tasksToCancel else
    s.Serving task.key.websocket ∧ s.logStreams.get task.key = some i ∨ i ∈ (s.awaited task.key.websocket).tail
  single : ∀ (i j : Nat) (task task' : Task), s.tasks[i]? = some task → s.tasks[j]? = some task' →
    task.Live → task'.Live → task.key = task'.key → i = j
  current : ∀ key i, s.latest.get key = some i → key.websocket ≠ websocket ∧ s.Serving key.websocket ∧
    (Ended s i ∨ key ∈ s.connections ∧ s.logStreams.get key = some i)
  joined : ∀ key ∈ s.connections, key.websocket ≠ websocket ∧ s.Serving key.websocket
  awaited : ∀ other ≠ websocket, ∀ i ∈ s.awaited other, ∃ task, s.tasks[i]? = some task ∧ task.key.websocket = other
  due : ∀ i ∈ tasksToCancel, ∃ task, s.tasks[i]? = some task ∧ task.key.websocket = websocket

theorem serving_leave {other : Nat} (h : other ≠ websocket) (tasksToCancel : List Nat) :
    (s.leave websocket tasksToCancel).Serving other ↔ s.Serving other := by
  rw [Tables.Serving, Tables.leave, List.getElem?_set_ne h.symm, Tables.Serving]

theorem awaited_leave {other : Nat} (h : other ≠ websocket) (tasksToCancel : List Nat) :
    (s.leave websocket tasksToCancel).awaited other = s.awaited other := by
  rw [Tables.awaited, Tables.leave, List.getElem?_set_ne h.symm, Tables.awaited]

theorem awaited_leave_self (h : websocket < s.handlers.length) (tasksToCancel : List Nat) :
    (s.leave websocket tasksToCancel).awaited websocket = tasksToCancel := by
  rw [Tables.awaited, Tables.leave, List.getElem?_set_self h]
  cases tasksToCancel <;> rfl

theorem Leaving.leave {tasksToCancel : List Nat} (hs : Leaving s websocket tasksToCancel) :
    Linked (s.leave websocket tasksToCancel) := by
  have hcancels := cancels s.tasks tasksToCancel.head?
  have hself := awaited_leave_self hs.known tasksToCancel
  have hother : ∀ {i task}, s.tasks[i]? = some task → task.key.websocket ≠ websocket → tasksToCancel.head? ≠ some i := by
    intro i task htask hne hhead
    obtain ⟨task', htask', hwebsocket⟩ := hs.due i (List.mem_of_mem_head? hhead)
    obtain rfl := Option.some.inj (htask.symm.trans htask')
    exact hne hwebsocket
  constructor
  · intro key i h
    obtain ⟨task, htask, hkey, hphase, hheld⟩ := hs.registered key i h
    obtain ⟨task', htask', hkey', hphase', hsame⟩ := hcancels.task i task htask
    split at hheld
    · rename_i hwebsocket
      exact ⟨task', htask', hkey'.trans hkey, hphase' ▸ hphase, Or.inr (by rwa [hwebsocket, hself])⟩
    · rename_i hwebsocket
      obtain rfl := hsame (Or.inl (hother htask (hkey ▸ hwebsocket)))
      refine ⟨task', htask', hkey, hphase, ?_⟩
      rwa [serving_leave hwebsocket, awaited_leave hwebsocket]
  · intro i task h hlive
    obtain ⟨hkept, htask⟩ := hcancels.live i task h hlive
    have hheld := hs.live i task htask hlive
    split at hheld
    · rename_i hwebsocket
      right
      rw [hwebsocket, hself]
      cases tasksToCancel with
      | nil => cases hheld
      | cons head rest =>
          rcases List.mem_cons.mp hheld with rfl | hrest
          · exact absurd rfl hkept
          · exact hrest
    · rename_i hwebsocket
      rwa [serving_leave hwebsocket, awaited_leave hwebsocket]
  · intro i j task task' h h' hlive hlive' hkeys
    exact hs.single i j task task' (hcancels.live i task h hlive).2 (hcancels.live j task' h' hlive').2 hlive hlive' hkeys
  · intro key i h
    obtain ⟨hwebsocket, hserved, hcurrent⟩ := hs.current key i h
    refine ⟨(serving_leave hwebsocket _).mpr hserved, ?_⟩
    rcases hcurrent with hended | hcurrent
    · exact Or.inl (Cancels.ended (t := s.leave websocket tasksToCancel) hcancels hended)
    · exact Or.inr hcurrent
  · intro key hkey
    obtain ⟨hwebsocket, hserved⟩ := hs.joined key hkey
    exact (serving_leave hwebsocket _).mpr hserved
  · intro other i hi
    apply Cancels.owned (t := s.leave websocket tasksToCancel) hcancels
    by_cases hwebsocket : other = websocket
    · rw [hwebsocket, hself] at hi
      exact hwebsocket ▸ hs.due i hi
    · rw [awaited_leave hwebsocket] at hi
      exact hs.awaited other hwebsocket i hi

theorem Linked.disconnect (hs : Linked s) (hserving : s.Serving websocket) : Linked (s.disconnect websocket) := by
  have hdue : ∀ {key i}, s.logStreams.get key = some i → key.websocket = websocket →
      i ∈ (s.logStreams.entries.filter fun e => e.1.websocket = websocket).map Prod.snd := by
    intro key i h hwebsocket
    exact List.mem_map.mpr ⟨(key, i), List.mem_filter.mpr ⟨Dict.get_eq_some_iff.mp h, decide_eq_true hwebsocket⟩, rfl⟩
  apply Leaving.leave
  constructor
  · exact (List.getElem?_eq_some_iff.mp hserving).1
  · intro key i h
    obtain ⟨task, htask, hkey, hphase, hheld⟩ := hs.registered key i h
    refine ⟨task, htask, hkey, hphase, ?_⟩
    split
    · rename_i hwebsocket
      exact hdue h hwebsocket
    · exact hheld
  · intro i task htask hlive
    have hheld := hs.live i task htask hlive
    split
    · rename_i hwebsocket
      rcases hheld with ⟨-, hregistered⟩ | htail
      · exact hdue hregistered hwebsocket
      · rw [hwebsocket, awaited_of_serving hserving] at htail
        cases htail
    · exact hheld
  · exact hs.single
  · intro key i h
    obtain ⟨hlatest, hne⟩ := Dict.get_filter_eq_some_iff.mp h
    have hwebsocket : key.websocket ≠ websocket := of_decide_eq_true hne
    obtain ⟨hserved, hended | ⟨hjoined, hregistered⟩⟩ := hs.current key i hlatest
    · exact ⟨hwebsocket, hserved, Or.inl hended⟩
    · exact ⟨hwebsocket, hserved, Or.inr ⟨Finset.mem_filter.mpr ⟨hjoined, hwebsocket⟩, hregistered⟩⟩
  · intro key hkey
    obtain ⟨hjoined, hwebsocket⟩ := Finset.mem_filter.mp hkey
    exact ⟨hwebsocket, hs.joined key hjoined⟩
  · intro other _ i hi
    exact hs.awaited other i hi
  · intro i hi
    obtain ⟨e, he, rfl⟩ := List.mem_map.mp hi
    obtain ⟨hmem, hwebsocket⟩ := List.mem_filter.mp he
    obtain ⟨task, htask, hkey, -⟩ := hs.registered e.1 e.2 (Dict.get_eq_some_iff.mpr hmem)
    exact ⟨task, htask, hkey ▸ of_decide_eq_true hwebsocket⟩

theorem Linked.joinedTask (hs : Linked s) {head : Nat} {rest : List Nat}
    (hawaiting : s.handlers[websocket]? = some (.awaiting head rest)) (hdone : s.isDone head = true) :
    Linked (s.leave websocket rest) := by
  have hawaited : s.awaited websocket = head :: rest := by rw [Tables.awaited, hawaiting]
  have hnot : ¬ s.Serving websocket := by
    rw [Tables.Serving, hawaiting]
    simp
  apply Leaving.leave
  constructor
  · exact (List.getElem?_eq_some_iff.mp hawaiting).1
  · intro key i h
    obtain ⟨task, htask, hkey, hphase, hheld⟩ := hs.registered key i h
    refine ⟨task, htask, hkey, hphase, ?_⟩
    split
    · rename_i hwebsocket
      rcases hheld with ⟨hserved, -⟩ | hmem
      · exact absurd (hwebsocket ▸ hserved) hnot
      · rw [hwebsocket, hawaited] at hmem
        rcases List.mem_cons.mp hmem with rfl | hrest
        · rw [Tables.isDone, htask] at hdone
          exact absurd (of_decide_eq_true hdone) hphase
        · exact hrest
    · exact hheld
  · intro i task htask hlive
    have hheld := hs.live i task htask hlive
    split
    · rename_i hwebsocket
      rcases hheld with ⟨hserved, -⟩ | htail
      · exact absurd (hwebsocket ▸ hserved) hnot
      · rwa [hwebsocket, hawaited] at htail
    · exact hheld
  · exact hs.single
  · intro key i h
    obtain ⟨hserved, hcurrent⟩ := hs.current key i h
    exact ⟨fun hwebsocket => hnot (hwebsocket ▸ hserved), hserved, hcurrent⟩
  · intro key hkey
    have hserved := hs.joined key hkey
    exact ⟨fun hwebsocket => hnot (hwebsocket ▸ hserved), hserved⟩
  · intro other _ i hi
    exact hs.awaited other i hi
  · intro i hi
    exact hs.awaited websocket i (hawaited ▸ List.mem_cons_of_mem head hi)

theorem Linked.goOn (hs : Linked s) {phase : Phase} (htask : s.tasks[i]? = some task) (hphase : task.phase ≠ .done)
    (hhandlers : t.handlers = s.handlers) (htasks : t.tasks = s.tasks.set i { task with phase })
    (hlatest : t.latest = s.latest) (hconnections : t.connections ⊆ s.connections)
    (hregistered : ∀ key j, t.logStreams.get key = some j → s.logStreams.get key = some j ∧ (j = i → phase ≠ .done))
    (hlive : ∀ key j, s.Serving key.websocket → s.logStreams.get key = some j → (j = i → phase ≠ .done) →
      t.logStreams.get key = some j)
    (hcurrent : ∀ key j, s.Serving key.websocket → key ∈ s.connections → s.logStreams.get key = some j →
      Ended t j ∨ key ∈ t.connections ∧ t.logStreams.get key = some j) : Linked t := by
  have hserving : ∀ w, t.Serving w ↔ s.Serving w := fun w => by rw [Tables.Serving, hhandlers, Tables.Serving]
  have hawaited : ∀ w, t.awaited w = s.awaited w := fun w => by rw [Tables.awaited, hhandlers, Tables.awaited]
  have hlt := (List.getElem?_eq_some_iff.mp htask).1
  have hself : t.tasks[i]? = some { task with phase } := by rw [htasks, List.getElem?_set_self hlt]
  have hother : ∀ {j}, j ≠ i → t.tasks[j]? = s.tasks[j]? := by
    intro j hj
    rw [htasks, List.getElem?_set_ne hj.symm]
  have hback : ∀ {j task'}, t.tasks[j]? = some task' → task'.Live → ∃ old, s.tasks[j]? = some old ∧ old.Live ∧
      old.key = task'.key ∧ (j = i → phase ≠ .done) := by
    intro j task' h hlive
    by_cases hj : j = i
    · subst hj
      obtain rfl := Option.some.inj (hself.symm.trans h)
      exact ⟨task, htask, ⟨hphase, hlive.2⟩, rfl, fun _ => hlive.1⟩
    · rw [hother hj] at h
      exact ⟨task', h, hlive, rfl, fun hself => absurd hself hj⟩
  constructor
  · intro key j h
    obtain ⟨hold, hfresh⟩ := hregistered key j h
    obtain ⟨task', htask', hkey, hphase', hheld⟩ := hs.registered key j hold
    rw [hserving, hawaited]
    by_cases hj : j = i
    · subst hj
      obtain rfl := Option.some.inj (htask.symm.trans htask')
      exact ⟨_, hself, hkey, hfresh rfl, hheld⟩
    · exact ⟨task', (hother hj).trans htask', hkey, hphase', hheld⟩
  · intro j task' h hlive'
    obtain ⟨old, hold, holdLive, hkey, hfresh⟩ := hback h hlive'
    rw [hserving, hawaited, ← hkey]
    rcases hs.live j old hold holdLive with ⟨hserved, hheld⟩ | hdue
    · exact Or.inl ⟨hserved, hlive old.key j hserved hheld hfresh⟩
    · exact Or.inr hdue
  · intro j k task' task'' h h' hlive' hlive'' hkeys
    obtain ⟨old, hold, holdLive, hkey, -⟩ := hback h hlive'
    obtain ⟨old', hold', holdLive', hkey', -⟩ := hback h' hlive''
    exact hs.single j k old old' hold hold' holdLive holdLive' (hkey.trans (hkeys.trans hkey'.symm))
  · intro key j h
    rw [hlatest] at h
    rw [hserving]
    obtain ⟨hserved, ⟨task', htask', hended⟩ | ⟨hjoined, hheld⟩⟩ := hs.current key j h
    · have hj : j ≠ i := by
        rintro rfl
        obtain rfl := Option.some.inj (htask.symm.trans htask')
        exact hphase hended.1
      exact ⟨hserved, Or.inl ⟨task', (hother hj).trans htask', hended⟩⟩
    · exact ⟨hserved, hcurrent key j hserved hjoined hheld⟩
  · intro key hkey
    exact (hserving _).mpr (hs.joined key (hconnections hkey))
  · intro w j hj
    rw [hawaited] at hj
    obtain ⟨task', htask', hwebsocket⟩ := hs.awaited w j hj
    by_cases hji : j = i
    · subst hji
      obtain rfl := Option.some.inj (htask.symm.trans htask')
      exact ⟨_, hself, hwebsocket⟩
    · exact ⟨task', (hother hji).trans htask', hwebsocket⟩

theorem Linked.turn (hs : Linked s) {sent : Bool} (horderly : Orderly s (.turn i sent)) (htask : s.tasks[i]? = some task)
    (h : s.turn i sent task = some t) : Linked t := by
  obtain ⟨hcreated, hstreaming⟩ := horderly task htask
  rw [Tables.turn] at h
  cases hphase : task.phase with
  | created =>
      rw [hphase] at h
      obtain rfl := Option.some.inj h
      have hstays : ∀ key, s.logStreams.get key = some i → (if task.cancelled then Phase.done else .streaming) ≠ .done := by
        intro key hregistered
        obtain ⟨task', htask', hkey, -⟩ := hs.registered key i hregistered
        obtain rfl := Option.some.inj (htask.symm.trans htask')
        split
        · rename_i hcancelled
          exact absurd (hkey ▸ hregistered) (hcreated hphase hcancelled)
        · simp
      apply @Linked.goOn s (s.enter i task (if task.cancelled then .done else .streaming)) i task hs
        (if task.cancelled then .done else .streaming) htask (by simp [hphase]) rfl rfl rfl (Finset.Subset.refl _)
      · intro key j hregistered
        exact ⟨hregistered, fun hj => hstays key (hj ▸ hregistered)⟩
      · intro key j _ hregistered _
        exact hregistered
      · intro key j _ hjoined hregistered
        exact Or.inr ⟨hjoined, hregistered⟩
  | streaming =>
      rw [hphase] at h
      obtain rfl := Option.some.inj h
      by_cases hgoes : s.GoesOn task sent
      · rwa [if_pos hgoes]
      rw [if_neg hgoes]
      have hsame : ∀ {j}, s.Serving task.key.websocket → s.logStreams.get task.key = some j → j = i :=
        fun hserved hregistered => hstreaming hphase hgoes hserved _ hregistered
      apply @Linked.goOn s ((s.enter i task .done).cleanUp task.key) i task hs .done htask (by simp [hphase]) rfl rfl rfl
        (Finset.erase_subset _ _)
      · intro key j hregistered
        obtain ⟨hold, hne⟩ := Dict.get_pop_eq_some_iff.mp hregistered
        refine ⟨hold, ?_⟩
        rintro rfl
        obtain ⟨task', htask', hkey, -⟩ := hs.registered key j hold
        obtain rfl := Option.some.inj (htask.symm.trans htask')
        exact absurd hkey.symm hne
      · intro key j hserved hregistered hfresh
        refine Dict.get_pop_eq_some_iff.mpr ⟨hregistered, ?_⟩
        rintro rfl
        exact hfresh (hsame hserved hregistered) rfl
      · intro key j hserved hjoined hregistered
        by_cases hkey : key = task.key
        · subst hkey
          left
          obtain rfl := hsame hserved hregistered
          obtain ⟨task', htask', -, -, ⟨-, hcancelled⟩ | hdue⟩ := hs.registered _ j hregistered
          · obtain rfl := Option.some.inj (htask.symm.trans htask')
            have hlt := (List.getElem?_eq_some_iff.mp htask).1
            exact ⟨_, List.getElem?_set_self hlt, rfl, hcancelled⟩
          · rw [awaited_of_serving hserved] at hdue
            cases hdue
        · exact Or.inr ⟨Finset.mem_erase.mpr ⟨hkey, hjoined⟩, Dict.get_pop_eq_some_iff.mpr ⟨hregistered, hkey⟩⟩
  | done =>
      rw [hphase] at h
      cases h

theorem Linked.step {event : Event} (hs : Linked s) (horderly : Orderly s event) (h : step s event = some t) : Linked t := by
  cases event with
  | connect =>
      obtain rfl := Option.some.inj h
      exact hs.connect
  | subscribeLogs key allowed =>
      obtain ⟨hserving, h⟩ := Option.ite_none_right_eq_some.mp h
      obtain rfl := Option.some.inj h
      cases allowed with
      | false => exact hs
      | true => exact hs.subscribeLogs hserving
  | unsubscribeLogs key =>
      obtain ⟨-, h⟩ := Option.ite_none_right_eq_some.mp h
      obtain rfl := Option.some.inj h
      exact hs.unsubscribeLogs
  | disconnect websocket =>
      obtain ⟨hserving, h⟩ := Option.ite_none_right_eq_some.mp h
      obtain rfl := Option.some.inj h
      exact hs.disconnect hserving
  | joined websocket =>
      rw [LogSubscriptions.step] at h
      split at h
      · rename_i head rest hawaiting
        obtain ⟨hdone, h⟩ := Option.ite_none_right_eq_some.mp h
        obtain rfl := Option.some.inj h
        exact hs.joinedTask hawaiting hdone
      · cases h
  | turn i sent =>
      obtain ⟨task, htask, hturn⟩ := Option.bind_eq_some_iff.mp h
      exact hs.turn horderly htask hturn

theorem Linked.booked (hs : Linked s) : Booked s where
  subscribed key i h hended := by
    obtain ⟨hserved, hcurrent⟩ := hs.current key i h
    obtain ⟨hjoined, hregistered⟩ := hcurrent.resolve_left hended
    obtain ⟨task, htask, hkey, hphase, ⟨-, hcancelled⟩ | hdue⟩ := hs.registered key i hregistered
    · exact ⟨hjoined, hregistered, task, htask, hkey, hphase, hcancelled⟩
    · rw [awaited_of_serving hserved] at hdue
      cases hdue
  single := hs.single
  left websocket hclosed := by
    have hnot : ¬ s.Serving websocket := by
      rw [Tables.Serving, hclosed]
      simp
    have hnone : s.awaited websocket = [] := by rw [Tables.awaited, hclosed]
    refine ⟨?_, fun _ => ⟨?_, ?_⟩⟩
    · rintro task htask rfl hlive
      obtain ⟨i, hi⟩ := List.getElem?_of_mem htask
      rcases hs.live i task hi hlive with ⟨hserved, -⟩ | hdue
      · exact hnot hserved
      · rw [hnone] at hdue
        cases hdue
    · rintro key hkey rfl
      exact hnot (hs.joined key hkey)
    · rintro ⟨key, i⟩ he rfl
      obtain ⟨task, -, -, -, ⟨hserved, -⟩ | hdue⟩ := hs.registered key i (Dict.get_eq_some_iff.mpr he)
      · exact hnot hserved
      · rw [hnone] at hdue
        cases hdue

end Steps

theorem linked_blank : Linked .blank where
  registered _ _ h := by cases h
  live _ _ h := by cases h
  single _ _ _ _ h := by cases h
  current _ _ h := by cases h
  joined _ h := by cases h
  awaited _ _ h := by cases h

/-- The tables are in order all along a run in which each stream cleans up after itself alone. -/
theorem booked_of_orderly (events : List Event) (h : AllSteps step Orderly .blank events) :
    AllStates step Booked .blank events := by
  have hlinked : AllStates step Linked .blank events :=
    allStates_of_allSteps (fun _ _ _ hs horderly hstep => hs.step horderly hstep) linked_blank h
  exact hlinked.mono fun _ hs => hs.booked

/-- A stream, and another after the first has ended; then the client goes. -/
theorem subscribed_in_turn : AllStates step Booked .blank
    [.connect, .subscribeLogs ⟨0, "lab"⟩ true, .turn 0 true, .turn 0 true, .unsubscribeLogs ⟨0, "lab"⟩, .turn 0 false,
      .subscribeLogs ⟨0, "lab"⟩ true, .turn 1 true, .disconnect 0, .turn 1 false, .joined 0] :=
  booked_of_orderly _ (by decide +kernel)

def resubscribed : List Event :=
  [.connect, .subscribeLogs ⟨0, "lab"⟩ true, .turn 0 true, .subscribeLogs ⟨0, "lab"⟩ true, .turn 0 false]

/-- The first stream is cancelled by the second subscription, and takes that one's place and registration with it. -/
theorem late_cleanup : ¬ ∀ events, AllStates step Booked .blank events := by
  intro h
  have hbooked : Booked _ := (h resubscribed).last rfl
  obtain ⟨hjoined, -⟩ := hbooked.subscribed ⟨0, "lab"⟩ 1 (by decide +kernel) (by decide +kernel)
  exact absurd hjoined (by decide +kernel)

/-- A disconnect before the stream's first step leaves its entry behind. -/
example : ¬ AllStates step Booked .blank
    [.connect, .subscribeLogs ⟨0, "lab"⟩ true, .disconnect 0, .turn 0 true, .joined 0] := by
  intro h
  have hbooked : Booked _ := h.last rfl
  obtain ⟨-, hleft⟩ := hbooked.left 0 (by decide +kernel)
  exact absurd (hleft (by decide +kernel)).2 (by decide +kernel)

end NukeLab.LogSubscriptions
