import Mathlib.Algebra.Ring.Nat
import Mathlib.Data.List.Nodup
import NukeLab.Machine

namespace NukeLab.MetricsBuffer

open Machine

section Custody

variable {π α : Type} [DecidableEq α] (held : π → List α)

def inHand (tasks : List π) (a : α) : Nat := (tasks.map fun p => (held p).count a).sum

variable {held} {tasks extra : List π} {a : α}

@[simp] theorem inHand_nil : inHand held [] a = 0 := rfl

@[simp] theorem inHand_cons (p : π) : inHand held (p :: tasks) a = (held p).count a + inHand held tasks a := rfl

theorem inHand_append : inHand held (tasks ++ extra) a = inHand held tasks a + inHand held extra a := by
  simp [inHand]

theorem inHand_eq_zero_iff : inHand held tasks a = 0 ↔ ∀ p ∈ tasks, a ∉ held p := by
  induction tasks with
  | nil => simp
  | cons p tasks ih => simp [ih, List.count_eq_zero]

theorem inHand_set {i : Nat} {p : π} (q : π) (hp : tasks[i]? = some p) :
    inHand held (tasks.set i q) a + (held p).count a = inHand held tasks a + (held q).count a := by
  induction tasks generalizing i with
  | nil =>
      rw [List.getElem?_nil] at hp
      cases hp
  | cons r tasks ih =>
      cases i with
      | zero =>
          obtain rfl : r = p := Option.some.inj hp
          simp only [List.set_cons_zero, inHand_cons]
          omega
      | succ i =>
          have hrest := ih hp
          simp only [List.set_cons_succ, inHand_cons]
          omega

end Custody

inductive Kind
  | add
  | periodicFlush
  | shutdown
  deriving DecidableEq

/-- Where a task waits. The lock is never held across an await, so that what is
done under it is one turn. -/
inductive Phase
  | begin
  | sleeping
  /-- before the lock of `flush` -/
  | flush
  /-- the rows are on their way, and the commit is not -/
  | inserting (batch : List Nat)
  | committing (batch : List Nat)
  | awaiting (task : Nat)
  | draining (pending : List Nat)
  | gathering (stillPending : List Nat)
  | done (returned : Bool)
  deriving DecidableEq

def Kind.afterFlush : Kind → Phase
  | .add | .shutdown => .done true
  | .periodicFlush => .sleeping

structure Task where
  kind : Kind
  phase : Phase
  deriving DecidableEq

/-- The buffer with the tasks of its loop and the table that it writes to. A
record goes by the number of the task that adds it. `_loop` is set and cleared
along with `started`. -/
structure RequestMetricsBuffer where
  buffer : List Nat
  flushTask : Option Nat
  started : Bool
  pendingAdds : List Nat
  tasks : List Task
  cancelled : List Nat
  written : List Nat

inductive Event
  /-- the middleware tracks its adds -/
  | add (tracked : Bool)
  | shutdown
  /-- the answer is that of the database, or whether the time is out -/
  | turn (i : Nat) (answer : Bool)

namespace RequestMetricsBuffer

def blank : RequestMetricsBuffer := ⟨[], none, false, [], [], [], []⟩

def isDone (s : RequestMetricsBuffer) (i : Nat) : Bool :=
  s.tasks[i]?.any fun task =>
    match task.phase with
    | .done _ => true
    | _ => false

def goOn (s : RequestMetricsBuffer) (i : Nat) (kind : Kind) (phase : Phase) : RequestMetricsBuffer :=
  { s with tasks := s.tasks.set i ⟨kind, phase⟩ }

/-- A new periodic task, in place of any that still runs. -/
def start (s : RequestMetricsBuffer) : RequestMetricsBuffer :=
  { s with
    started := true
    flushTask := some s.tasks.length
    tasks := s.tasks ++ [⟨.periodicFlush, .sleeping⟩]
    cancelled := (s.flushTask.filter fun i => !s.isDone i).toList ++ s.cancelled }

def ensureStarted (s : RequestMetricsBuffer) : RequestMetricsBuffer :=
  if !s.started || s.flushTask.all s.isDone then s.start else s

def append (s : RequestMetricsBuffer) (maxSize i : Nat) : RequestMetricsBuffer :=
  let buffer := s.buffer ++ [i]
  { s.goOn i .add (if maxSize ≤ buffer.length then .flush else .done true) with buffer }

def leave (s : RequestMetricsBuffer) (i : Nat) (kind : Kind) : RequestMetricsBuffer :=
  { s.goOn i kind kind.afterFlush with started := s.started && kind ≠ .shutdown }

def flush (s : RequestMetricsBuffer) (i : Nat) (kind : Kind) : RequestMetricsBuffer :=
  if s.buffer = [] then s.leave i kind else { s.goOn i kind (.inserting s.buffer) with buffer := [] }

def finalFlush (s : RequestMetricsBuffer) (i : Nat) : RequestMetricsBuffer :=
  { s.goOn i .shutdown .flush with pendingAdds := [] }

def drain (s : RequestMetricsBuffer) (i : Nat) : RequestMetricsBuffer :=
  let pending := s.pendingAdds.filter fun j => !s.isDone j
  if pending = [] then s.finalFlush i else s.goOn i .shutdown (.draining pending)

def stopPeriodic (s : RequestMetricsBuffer) (i : Nat) : RequestMetricsBuffer :=
  match s.flushTask.filter fun j => !s.isDone j with
  | none => s.drain i
  | some task =>
    let s := { s with cancelled := task :: s.cancelled }
    if s.started then s.goOn i .shutdown (.awaiting task) else s.drain i

/-- `CancelledError` at the point where the task waits. `flush` does not catch
it; a commit that is on its way may have reached the table. -/
def raiseCancelled (s : RequestMetricsBuffer) (i : Nat) (kind : Kind) (phase : Phase) (answer : Bool) :
    RequestMetricsBuffer :=
  { s.goOn i kind (.done false) with
    started := s.started && kind ≠ .shutdown
    written :=
      match phase with
      | .committing batch => if answer then s.written ++ batch else s.written
      | _ => s.written }

end RequestMetricsBuffer

variable (maxSize : Nat)

def turn (s : RequestMetricsBuffer) (i : Nat) (answer : Bool) : Task → Option RequestMetricsBuffer
  | ⟨_, .done _⟩ => none
  | ⟨kind, phase⟩ =>
    if i ∈ s.cancelled then some (s.raiseCancelled i kind phase answer)
    else
      match kind, phase with
      | .add, .begin => some (s.ensureStarted.append maxSize i)
      | .periodicFlush, .sleeping => some (s.goOn i .periodicFlush .flush)
      | .shutdown, .begin => some (s.stopPeriodic i)
      | .shutdown, .awaiting task => if s.isDone task then some (s.drain i) else none
      | .shutdown, .draining pending =>
        let stillPending := pending.filter fun j => !s.isDone j
        if stillPending = [] then some (s.finalFlush i)
        else if answer then
          some { s.goOn i .shutdown (.gathering stillPending) with cancelled := stillPending ++ s.cancelled }
        else none
      | .shutdown, .gathering stillPending => if stillPending.all s.isDone then some (s.finalFlush i) else none
      | kind, .flush => some (s.flush i kind)
      | kind, .inserting batch => some (if answer then s.goOn i kind (.committing batch) else s.leave i kind)
      | kind, .committing batch =>
        some { s.leave i kind with written := if answer then s.written ++ batch else s.written }
      | _, _ => none

def step : Step RequestMetricsBuffer Event
  | s, .add tracked =>
    some { s with
      tasks := s.tasks ++ [⟨.add, .begin⟩]
      pendingAdds := if tracked then s.tasks.length :: s.pendingAdds else s.pendingAdds }
  | s, .shutdown => some { s with tasks := s.tasks ++ [⟨.shutdown, .begin⟩] }
  | s, .turn i answer => s.tasks[i]?.bind (turn maxSize s i answer)

def completed (s : RequestMetricsBuffer) : List Nat :=
  (List.range s.tasks.length).filter fun n => s.tasks[n]? = some ⟨.add, .done true⟩

def Once (s : RequestMetricsBuffer) : Prop := s.written.Nodup

def Phase.isWriting : Phase → Bool
  | .inserting _ | .committing _ => true
  | _ => false

def Phase.isInserting : Phase → Bool
  | .inserting _ => true
  | _ => false

def Commits (s : RequestMetricsBuffer) : Event → Prop
  | .turn i answer => ∀ task ∈ s.tasks[i]?, task.phase.isWriting → answer = true
  | _ => True

instance (s : RequestMetricsBuffer) (event : Event) : Decidable (Commits s event) :=
  match event with
  | .turn i answer => inferInstanceAs (Decidable (∀ task ∈ s.tasks[i]?, task.phase.isWriting → answer = true))
  | .add _ | .shutdown => .isTrue trivial

def returns (t : RequestMetricsBuffer) : Event → Prop
  | .turn i _ => t.tasks[i]? = some ⟨.shutdown, .done true⟩
  | _ => False

instance (t : RequestMetricsBuffer) (event : Event) : Decidable (returns t event) :=
  match event with
  | .turn i _ => inferInstanceAs (Decidable (t.tasks[i]? = some ⟨.shutdown, .done true⟩))
  | .add _ | .shutdown => .isFalse id

def Flushed (s : RequestMetricsBuffer) (event : Event) : Prop :=
  ∀ t ∈ step maxSize s event, returns t event → ∀ n ∈ completed t, n ∈ t.written

instance (s : RequestMetricsBuffer) (event : Event) : Decidable (Flushed maxSize s event) :=
  inferInstanceAs (Decidable (∀ t ∈ step maxSize s event, returns t event → ∀ n ∈ completed t, n ∈ t.written))

/-- No cancellation reaches a task that has taken a batch and has yet to commit it. -/
def Lands (s : RequestMetricsBuffer) : Event → Prop
  | .turn i _ => i ∈ s.cancelled → ∀ task ∈ s.tasks[i]?, task.phase.isInserting = false
  | _ => True

instance (s : RequestMetricsBuffer) (event : Event) : Decidable (Lands s event) :=
  match event with
  | .turn i _ => inferInstanceAs (Decidable (i ∈ s.cancelled → ∀ task ∈ s.tasks[i]?, task.phase.isInserting = false))
  | .add _ | .shutdown => .isTrue trivial

def Phase.held : Phase → List Nat
  | .inserting batch | .committing batch => batch
  | _ => []

def Task.held (task : Task) : List Nat := task.phase.held

def lastOfFlush (s : RequestMetricsBuffer) : Phase → Prop
  | .flush => s.buffer = []
  | .committing _ => True
  | _ => False

instance (s : RequestMetricsBuffer) (phase : Phase) : Decidable (lastOfFlush s phase) :=
  match phase with
  | .flush => inferInstanceAs (Decidable (s.buffer = []))
  | .committing _ => .isTrue trivial
  | .begin | .sleeping | .inserting _ | .awaiting _ | .draining _ | .gathering _ | .done _ => .isFalse id

def Absent (s : RequestMetricsBuffer) (i n : Nat) : Prop :=
  n ∉ s.buffer ∧ ∀ j < s.tasks.length, j ≠ i → ∀ other ∈ s.tasks[j]?, n ∉ other.held

instance (s : RequestMetricsBuffer) (i n : Nat) : Decidable (Absent s i n) :=
  inferInstanceAs (Decidable (n ∉ s.buffer ∧ ∀ j < s.tasks.length, j ≠ i → ∀ other ∈ s.tasks[j]?, n ∉ other.held))

/-- When a shutdown ends its flush, no record of a completed add has come into the
buffer behind it or is with another flush. -/
def Settled (s : RequestMetricsBuffer) : Event → Prop
  | .turn i _ =>
    i ∉ s.cancelled → ∀ task ∈ s.tasks[i]?, task.kind = .shutdown → lastOfFlush s task.phase →
      ∀ n ∈ completed s, Absent s i n
  | _ => True

instance (s : RequestMetricsBuffer) (event : Event) : Decidable (Settled s event) :=
  match event with
  | .turn i _ => inferInstanceAs (Decidable (i ∉ s.cancelled → ∀ task ∈ s.tasks[i]?, task.kind = .shutdown →
      lastOfFlush s task.phase → ∀ n ∈ completed s, Absent s i n))
  | .add _ | .shutdown => .isTrue trivial

def total (s : RequestMetricsBuffer) (n : Nat) : Nat := s.buffer.count n + inHand Task.held s.tasks n + s.written.count n

def Waiting (s : RequestMetricsBuffer) (n : Nat) : Prop := s.tasks[n]? = none ∨ s.tasks[n]? = some ⟨.add, .begin⟩

def Brought (s : RequestMetricsBuffer) (n : Nat) : Prop :=
  ∃ phase, s.tasks[n]? = some ⟨.add, phase⟩ ∧ phase ≠ .begin ∧ phase ≠ .done false

def Appends (s : RequestMetricsBuffer) : Event → Nat → Prop
  | .turn i _, n => n = i ∧ s.tasks[i]? = some ⟨.add, .begin⟩ ∧ i ∉ s.cancelled
  | _, _ => False

instance (s : RequestMetricsBuffer) (event : Event) (n : Nat) : Decidable (Appends s event n) :=
  match event with
  | .turn i _ => inferInstanceAs (Decidable (n = i ∧ s.tasks[i]? = some ⟨.add, .begin⟩ ∧ i ∉ s.cancelled))
  | .add _ | .shutdown => .isFalse id

structure Effect (s : RequestMetricsBuffer) (event : Event) (t : RequestMetricsBuffer) : Prop where
  le : ∀ n, total t n ≤ total s n + if Appends s event n then 1 else 0
  eq : Commits s event → Lands s event → ∀ n, total t n = total s n + if Appends s event n then 1 else 0
  waiting : ∀ n, Waiting t n → Waiting s n ∧ ¬ Appends s event n
  brought : ∀ n, Brought t n → Brought s n ∨ Appends s event n

section Effects

variable {maxSize} {s t : RequestMetricsBuffer} {event : Event} {i : Nat} {answer : Bool} {kind : Kind} {phase phase' : Phase}

/-- The task that takes its turn goes on, and may have started a periodic one. -/
structure Turned (s t : RequestMetricsBuffer) (i : Nat) (kind : Kind) (phase phase' : Phase) : Prop where
  before : s.tasks[i]? = some ⟨kind, phase⟩
  tasks : ∃ extra, (∀ task ∈ extra, task = ⟨.periodicFlush, .sleeping⟩) ∧ t.tasks = (s.tasks ++ extra).set i ⟨kind, phase'⟩
  fresh : phase' ≠ .begin

theorem Turned.of_set (hi : s.tasks[i]? = some ⟨kind, phase⟩) (ht : t.tasks = s.tasks.set i ⟨kind, phase'⟩)
    (hfresh : phase' ≠ .begin) : Turned s t i kind phase phase' :=
  ⟨hi, ⟨[], fun _ h => (nomatch h), by rw [ht, List.append_nil]⟩, hfresh⟩

theorem Turned.self (h : Turned s t i kind phase phase') : t.tasks[i]? = some ⟨kind, phase'⟩ := by
  obtain ⟨extra, -, ht⟩ := h.tasks
  have hlt := (List.getElem?_eq_some_iff.mp h.before).1
  rw [ht, List.getElem?_set_self (by rw [List.length_append]; omega)]

theorem Turned.other (h : Turned s t i kind phase phase') {n : Nat} (hn : n ≠ i) :
    t.tasks[n]? = s.tasks[n]? ∨ s.tasks[n]? = none ∧ t.tasks[n]? = some ⟨.periodicFlush, .sleeping⟩ := by
  obtain ⟨extra, hextra, ht⟩ := h.tasks
  rw [ht, List.getElem?_set_ne (Ne.symm hn), List.getElem?_append]
  split
  · exact Or.inl rfl
  · rename_i hlt
    have hnone : s.tasks[n]? = none := List.getElem?_eq_none (Nat.not_lt.mp hlt)
    rw [hnone]
    cases htask : extra[n - s.tasks.length]? with
    | none => exact Or.inl rfl
    | some task => exact Or.inr ⟨rfl, congrArg some (hextra task (List.mem_of_getElem? htask))⟩

theorem Turned.hand (h : Turned s t i kind phase phase') (n : Nat) :
    inHand Task.held t.tasks n + phase.held.count n = inHand Task.held s.tasks n + phase'.held.count n := by
  obtain ⟨extra, hextra, ht⟩ := h.tasks
  have hlt := (List.getElem?_eq_some_iff.mp h.before).1
  have hbefore : (s.tasks ++ extra)[i]? = some ⟨kind, phase⟩ := by rw [List.getElem?_append_left hlt, h.before]
  have hempty : inHand Task.held extra n = 0 := by
    rw [inHand_eq_zero_iff]
    intro task htask
    rw [hextra task htask]
    exact List.not_mem_nil
  have hset : inHand Task.held ((s.tasks ++ extra).set i ⟨kind, phase'⟩) n + phase.held.count n =
      inHand Task.held (s.tasks ++ extra) n + phase'.held.count n := inHand_set ⟨kind, phase'⟩ hbefore
  rw [inHand_append, hempty, ← ht] at hset
  exact hset

/-- What a turn does to a record, from what it does to the buffer, the table and its own batch. -/
theorem Turned.effect (h : Turned s t i kind phase phase') (hlive : ∀ returned, phase ≠ .done returned)
    (hbegin : kind = .add → phase = .begin → phase' = .done false ∨ i ∉ s.cancelled)
    (hle : ∀ n, t.buffer.count n + phase'.held.count n + t.written.count n ≤
      s.buffer.count n + phase.held.count n + s.written.count n + if Appends s (.turn i answer) n then 1 else 0)
    (heq : Commits s (.turn i answer) → Lands s (.turn i answer) → ∀ n,
      t.buffer.count n + phase'.held.count n + t.written.count n =
        s.buffer.count n + phase.held.count n + s.written.count n + if Appends s (.turn i answer) n then 1 else 0) :
    Effect s (.turn i answer) t where
  le n := by
    have hhand := h.hand n
    have hown := hle n
    unfold total
    omega
  eq hcommits hlands n := by
    have hhand := h.hand n
    have hown := heq hcommits hlands n
    unfold total
    omega
  waiting n hn := by
    have hne : n ≠ i := by
      rintro rfl
      rcases hn with hn | hn
      · exact nomatch h.self.symm.trans hn
      · have hsame := Option.some.inj (h.self.symm.trans hn)
        exact h.fresh (congrArg Task.phase hsame)
    refine ⟨?_, fun happends => hne happends.1⟩
    rcases h.other hne with hsame | ⟨hnone, -⟩
    · rwa [Waiting, ← hsame]
    · exact Or.inl hnone
  brought n hn := by
    obtain ⟨own, htask, hown, hown'⟩ := hn
    by_cases hne : n = i
    · subst hne
      have hsame := Option.some.inj (h.self.symm.trans htask)
      obtain ⟨rfl, rfl⟩ : kind = .add ∧ phase' = own := ⟨congrArg Task.kind hsame, congrArg Task.phase hsame⟩
      by_cases hphase : phase = .begin
      · rcases hbegin rfl hphase with hdone | hrun
        · exact absurd hdone hown'
        · exact Or.inr ⟨rfl, hphase ▸ h.before, hrun⟩
      · exact Or.inl ⟨phase, h.before, hphase, hlive false⟩
    · rcases h.other hne with hsame | ⟨-, hnew⟩
      · exact Or.inl ⟨own, hsame ▸ htask, hown, hown'⟩
      · exact nomatch hnew.symm.trans htask

theorem Turned.moves (h : Turned s t i kind phase phase') (hlive : ∀ returned, phase ≠ .done returned)
    (hbegin : kind = .add → phase = .begin → phase' = .done false ∧ i ∈ s.cancelled)
    (hle : ∀ n, t.buffer.count n + phase'.held.count n + t.written.count n ≤
      s.buffer.count n + phase.held.count n + s.written.count n)
    (heq : Commits s (.turn i answer) → Lands s (.turn i answer) → ∀ n,
      t.buffer.count n + phase'.held.count n + t.written.count n =
        s.buffer.count n + phase.held.count n + s.written.count n) : Effect s (.turn i answer) t := by
  have hnone : ∀ n, ¬ Appends s (.turn i answer) n := by
    intro n happends
    obtain ⟨-, htask, hrun⟩ := happends
    have hsame := Option.some.inj (h.before.symm.trans htask)
    exact hrun (hbegin (congrArg Task.kind hsame) (congrArg Task.phase hsame)).2
  refine h.effect hlive (fun hkind hphase => Or.inl (hbegin hkind hphase).1) (fun n => ?_) fun hcommits hlands n => ?_
  · rw [if_neg (hnone n)]
    exact hle n
  · rw [if_neg (hnone n)]
    exact heq hcommits hlands n

inductive Ends (s : RequestMetricsBuffer) (answer : Bool) : Phase → List Nat → Prop
  | empty (h : s.buffer = []) : Ends s answer .flush s.written
  | failed (batch : List Nat) (h : answer = false) : Ends s answer (.inserting batch) s.written
  | committed (batch : List Nat) :
    Ends s answer (.committing batch) (if answer then s.written ++ batch else s.written)

inductive Went (s t : RequestMetricsBuffer) (i : Nat) (answer : Bool) (kind : Kind) : Phase → Phase → Prop
  | cancelled (phase : Phase) (hc : i ∈ s.cancelled) (ht : t = s.raiseCancelled i kind phase answer) :
    Went s t i answer kind phase (.done false)
  | append (phase' : Phase) (hc : i ∉ s.cancelled) (hkind : kind = .add) (hheld : phase'.held = [])
    (hbuffer : t.buffer = s.buffer ++ [i]) (hwritten : t.written = s.written) : Went s t i answer kind .begin phase'
  | take (hbuffer : t.buffer = []) (hsome : s.buffer ≠ []) (hwritten : t.written = s.written) :
    Went s t i answer kind .flush (.inserting s.buffer)
  | left (phase : Phase) (hc : i ∉ s.cancelled) (hbuffer : t.buffer = s.buffer) (hends : Ends s answer phase t.written) :
    Went s t i answer kind phase kind.afterFlush
  | still (phase phase' : Phase) (hbegin : kind = .add → phase ≠ .begin) (hdone : phase' ≠ .done true)
    (hbuffer : t.buffer = s.buffer) (hwritten : t.written = s.written) (hheld : phase'.held = phase.held)
    (hlast : ¬ lastOfFlush s phase) : Went s t i answer kind phase phase'

def Goes (s t : RequestMetricsBuffer) (i : Nat) (answer : Bool) (kind : Kind) (phase : Phase) : Prop :=
  ∃ phase', Turned s t i kind phase phase' ∧ Went s t i answer kind phase phase'

theorem turn_of_cancelled (hlive : ∀ returned, phase ≠ .done returned) (hi : i ∈ s.cancelled) :
    turn maxSize s i answer ⟨kind, phase⟩ = some (s.raiseCancelled i kind phase answer) := by
  cases phase with
  | done returned => exact absurd rfl (hlive returned)
  | _ => exact if_pos hi

theorem goes_still (hi : s.tasks[i]? = some ⟨kind, phase⟩) (hbegin : kind = .add → phase ≠ .begin)
    (hlast : ¬ lastOfFlush s phase) (hheld : phase.held = [])
    (h : ∃ phase', t.tasks = s.tasks.set i ⟨kind, phase'⟩ ∧ phase' ≠ .begin ∧ phase' ≠ .done true ∧ phase'.held = [])
    (hbuffer : t.buffer = s.buffer) (hwritten : t.written = s.written) : Goes s t i answer kind phase := by
  obtain ⟨phase', ht, hfresh, hdone, hheld'⟩ := h
  exact ⟨phase', Turned.of_set hi ht hfresh, .still _ _ hbegin hdone hbuffer hwritten (hheld'.trans hheld.symm) hlast⟩

theorem drain_still (s : RequestMetricsBuffer) (i : Nat) :
    (∃ phase', (s.drain i).tasks = s.tasks.set i ⟨.shutdown, phase'⟩ ∧ phase' ≠ .begin ∧ phase' ≠ .done true ∧
      phase'.held = []) ∧ (s.drain i).buffer = s.buffer ∧ (s.drain i).written = s.written := by
  rw [RequestMetricsBuffer.drain]
  split
  · exact ⟨⟨.flush, rfl, nofun, nofun, rfl⟩, rfl, rfl⟩
  · exact ⟨⟨.draining _, rfl, nofun, nofun, rfl⟩, rfl, rfl⟩

theorem stopPeriodic_still (s : RequestMetricsBuffer) (i : Nat) :
    (∃ phase', (s.stopPeriodic i).tasks = s.tasks.set i ⟨.shutdown, phase'⟩ ∧ phase' ≠ .begin ∧ phase' ≠ .done true ∧
      phase'.held = []) ∧ (s.stopPeriodic i).buffer = s.buffer ∧ (s.stopPeriodic i).written = s.written := by
  rw [RequestMetricsBuffer.stopPeriodic]
  split
  · exact drain_still s i
  · rename_i task _
    dsimp only
    split
    · exact ⟨⟨.awaiting task, rfl, nofun, nofun, rfl⟩, rfl, rfl⟩
    · exact drain_still { s with cancelled := task :: s.cancelled } i

theorem append_goes (hi : s.tasks[i]? = some ⟨.add, .begin⟩) (hc : i ∉ s.cancelled) :
    Goes s (s.ensureStarted.append maxSize i) i answer .add .begin := by
  have hstarted : s.ensureStarted.buffer = s.buffer ∧ s.ensureStarted.written = s.written ∧
      ∃ extra, (∀ task ∈ extra, task = ⟨.periodicFlush, .sleeping⟩) ∧ s.ensureStarted.tasks = s.tasks ++ extra := by
    rw [RequestMetricsBuffer.ensureStarted]
    split
    · exact ⟨rfl, rfl, _, fun _ h => List.mem_singleton.mp h, rfl⟩
    · exact ⟨rfl, rfl, [], fun _ h => (nomatch h), (List.append_nil _).symm⟩
  obtain ⟨hbuffer, hwritten, extra, hextra, htasks⟩ := hstarted
  refine ⟨if maxSize ≤ (s.ensureStarted.buffer ++ [i]).length then .flush else .done true, ⟨hi, ⟨extra, hextra, ?_⟩, ?_⟩, ?_⟩
  · rw [← htasks]
    rfl
  · split <;> exact nofun
  · refine .append _ hc rfl ?_ (congrArg (· ++ [i]) hbuffer) hwritten
    split <;> rfl

theorem leave_goes (hi : s.tasks[i]? = some ⟨kind, phase⟩) (hc : i ∉ s.cancelled) {written : List Nat}
    (hends : Ends s answer phase written) : Goes s { s.leave i kind with written } i answer kind phase := by
  refine ⟨kind.afterFlush, Turned.of_set hi rfl ?_, .left _ hc rfl hends⟩
  cases kind <;> exact nofun

theorem flush_goes (hi : s.tasks[i]? = some ⟨kind, .flush⟩) (hc : i ∉ s.cancelled) :
    Goes s (s.flush i kind) i answer kind .flush := by
  rw [RequestMetricsBuffer.flush]
  split
  · exact leave_goes hi hc (.empty ‹_›)
  · exact ⟨.inserting s.buffer, Turned.of_set hi rfl nofun, .take rfl ‹_› rfl⟩

theorem inserting_goes {batch : List Nat} (hi : s.tasks[i]? = some ⟨kind, .inserting batch⟩) (hc : i ∉ s.cancelled) :
    Goes s (if answer then s.goOn i kind (.committing batch) else s.leave i kind) i answer kind (.inserting batch) := by
  cases answer with
  | true => exact ⟨.committing batch, Turned.of_set hi rfl nofun, .still _ _ nofun nofun rfl rfl rfl id⟩
  | false => exact leave_goes hi hc (.failed batch rfl)

theorem turn_goes (hi : s.tasks[i]? = some ⟨kind, phase⟩) (h : turn maxSize s i answer ⟨kind, phase⟩ = some t) :
    (∀ returned, phase ≠ .done returned) ∧ Goes s t i answer kind phase := by
  by_cases hlive : ∀ returned, phase ≠ .done returned
  · refine ⟨hlive, ?_⟩
    by_cases hc : i ∈ s.cancelled
    · rw [turn_of_cancelled hlive hc] at h
      cases h
      exact ⟨.done false, Turned.of_set hi rfl nofun, .cancelled phase hc rfl⟩
    · cases phase with
      | begin =>
          cases kind with
          | add =>
              obtain rfl := Option.some.inj ((if_neg hc).symm.trans h)
              exact append_goes hi hc
          | periodicFlush => exact nomatch (if_neg hc).symm.trans h
          | shutdown =>
              obtain rfl := Option.some.inj ((if_neg hc).symm.trans h)
              obtain ⟨hstill, hbuffer, hwritten⟩ := stopPeriodic_still s i
              exact goes_still hi nofun id rfl hstill hbuffer hwritten
      | sleeping =>
          cases kind with
          | periodicFlush =>
              obtain rfl := Option.some.inj ((if_neg hc).symm.trans h)
              exact goes_still hi nofun id rfl ⟨.flush, rfl, nofun, nofun, rfl⟩ rfl rfl
          | _ => exact nomatch (if_neg hc).symm.trans h
      | flush =>
          have hflush : turn maxSize s i answer ⟨kind, .flush⟩ = some (s.flush i kind) := by
            cases kind <;> exact if_neg hc
          obtain rfl := Option.some.inj (hflush.symm.trans h)
          exact flush_goes hi hc
      | inserting batch =>
          have hinsert : turn maxSize s i answer ⟨kind, .inserting batch⟩ =
              some (if answer then s.goOn i kind (.committing batch) else s.leave i kind) := by
            cases kind <;> exact if_neg hc
          obtain rfl := Option.some.inj (hinsert.symm.trans h)
          exact inserting_goes hi hc
      | committing batch =>
          have hcommit : turn maxSize s i answer ⟨kind, .committing batch⟩ =
              some { s.leave i kind with written := if answer then s.written ++ batch else s.written } := by
            cases kind <;> exact if_neg hc
          obtain rfl := Option.some.inj (hcommit.symm.trans h)
          exact leave_goes hi hc (.committed batch)
      | awaiting task =>
          cases kind with
          | shutdown =>
              obtain ⟨-, h⟩ := Option.ite_none_right_eq_some.mp ((if_neg hc).symm.trans h)
              cases h
              obtain ⟨hstill, hbuffer, hwritten⟩ := drain_still s i
              exact goes_still hi nofun id rfl hstill hbuffer hwritten
          | _ => exact nomatch (if_neg hc).symm.trans h
      | draining pending =>
          cases kind with
          | shutdown =>
              have hdrain := (if_neg hc).symm.trans h
              dsimp only at hdrain
              split at hdrain
              · cases hdrain
                exact goes_still hi nofun id rfl ⟨.flush, rfl, nofun, nofun, rfl⟩ rfl rfl
              · obtain ⟨-, hdrain⟩ := Option.ite_none_right_eq_some.mp hdrain
                cases hdrain
                exact goes_still hi nofun id rfl ⟨.gathering _, rfl, nofun, nofun, rfl⟩ rfl rfl
          | _ => exact nomatch (if_neg hc).symm.trans h
      | gathering stillPending =>
          cases kind with
          | shutdown =>
              obtain ⟨-, h⟩ := Option.ite_none_right_eq_some.mp ((if_neg hc).symm.trans h)
              cases h
              exact goes_still hi nofun id rfl ⟨.flush, rfl, nofun, nofun, rfl⟩ rfl rfl
          | _ => exact nomatch (if_neg hc).symm.trans h
      | done returned => exact absurd rfl (hlive returned)
  · obtain ⟨returned, hdone⟩ := not_forall.mp hlive
    obtain rfl := not_not.mp hdone
    exact nomatch h

theorem raiseCancelled_effect (h : Turned s (s.raiseCancelled i kind phase answer) i kind phase (.done false))
    (hlive : ∀ returned, phase ≠ .done returned) (hc : i ∈ s.cancelled) :
    Effect s (.turn i answer) (s.raiseCancelled i kind phase answer) := by
  refine h.moves hlive (fun _ _ => ⟨rfl, hc⟩) (fun n => ?_) fun hcommits hlands n => ?_
  · cases phase with
    | committing batch =>
        cases answer <;> simp [RequestMetricsBuffer.raiseCancelled, RequestMetricsBuffer.goOn, Phase.held]
        omega
    | _ => simp [RequestMetricsBuffer.raiseCancelled, RequestMetricsBuffer.goOn, Phase.held]
  · cases phase with
    | inserting batch => exact nomatch hlands hc _ h.before
    | committing batch =>
        obtain rfl : answer = true := hcommits _ h.before rfl
        simp [RequestMetricsBuffer.raiseCancelled, RequestMetricsBuffer.goOn, Phase.held]
        omega
    | _ => simp [RequestMetricsBuffer.raiseCancelled, RequestMetricsBuffer.goOn, Phase.held]

theorem Ends.count_le {written : List Nat} (h : Ends s answer phase written) (n : Nat) :
    written.count n ≤ phase.held.count n + s.written.count n := by
  cases h with
  | empty _ => exact Nat.le_add_left _ _
  | failed batch h => exact Nat.le_add_left _ _
  | committed batch => cases answer <;> simp [Phase.held, Nat.add_comm]

theorem Ends.count_eq {written : List Nat} (h : Ends s answer phase written) (hcommits : Commits s (.turn i answer))
    (hi : s.tasks[i]? = some ⟨kind, phase⟩) (n : Nat) : written.count n = phase.held.count n + s.written.count n := by
  cases h with
  | empty _ => exact (Nat.zero_add _).symm
  | failed batch h => exact absurd (h.symm.trans (hcommits _ hi rfl)) Bool.false_ne_true
  | committed batch =>
      obtain rfl : answer = true := hcommits _ hi rfl
      simp [Phase.held, Nat.add_comm]

theorem Ends.last {written : List Nat} (h : Ends s answer phase written) (hcommits : Commits s (.turn i answer))
    (hi : s.tasks[i]? = some ⟨kind, phase⟩) : lastOfFlush s phase := by
  cases h with
  | empty h => exact h
  | failed batch h => exact absurd (h.symm.trans (hcommits _ hi rfl)) Bool.false_ne_true
  | committed batch => trivial

theorem effect_of_went (hlive : ∀ returned, phase ≠ .done returned) (h : Turned s t i kind phase phase')
    (hwent : Went s t i answer kind phase phase') : Effect s (.turn i answer) t := by
  have hi := h.before
  cases hwent with
  | cancelled _ hc ht =>
      subst ht
      exact raiseCancelled_effect h hlive hc
  | append _ hc hkind hheld hbuffer hwritten =>
      subst hkind
      have hsame : ∀ n, t.buffer.count n + phase'.held.count n + t.written.count n =
          s.buffer.count n + Phase.begin.held.count n + s.written.count n +
            if Appends s (.turn i answer) n then 1 else 0 := by
        intro n
        rw [hbuffer, hwritten, hheld, List.count_append, List.count_singleton]
        by_cases hn : n = i
        · subst hn
          have happends : Appends s (.turn n answer) n := ⟨rfl, hi, hc⟩
          simp [happends, Phase.held]
          omega
        · have hnone : ¬ Appends s (.turn i answer) n := fun happends => hn happends.1
          simp [hnone, Ne.symm hn, Phase.held]
      exact h.effect nofun (fun _ _ => Or.inr hc) (fun n => Nat.le_of_eq (hsame n)) fun _ _ => hsame
  | take hbuffer _ hwritten =>
      have hsame : ∀ n, t.buffer.count n + s.buffer.count n + t.written.count n =
          s.buffer.count n + Phase.flush.held.count n + s.written.count n := by
        intro n
        rw [hbuffer, hwritten]
        simp [Phase.held]
      exact h.moves nofun nofun (fun n => Nat.le_of_eq (hsame n)) fun _ _ => hsame
  | left _ hc hbuffer hends =>
      have hheld : kind.afterFlush.held = [] := by cases kind <;> rfl
      have hbegin : phase ≠ .begin := by
        rintro rfl
        exact nomatch hends
      refine h.moves hlive (fun _ hphase => absurd hphase hbegin) (fun n => ?_) fun hcommits _ n => ?_
      · have hle := hends.count_le n
        rw [hbuffer, hheld, List.count_nil]
        omega
      · have heq := hends.count_eq hcommits hi n
        rw [hbuffer, hheld, List.count_nil]
        omega
  | still _ _ hbegin _ hbuffer hwritten hheld _ =>
      have hsame : ∀ n, t.buffer.count n + phase'.held.count n + t.written.count n =
          s.buffer.count n + phase.held.count n + s.written.count n := by
        intro n
        rw [hbuffer, hwritten, hheld]
      exact h.moves hlive (fun hkind hphase => absurd hphase (hbegin hkind)) (fun n => Nat.le_of_eq (hsame n)) fun _ _ => hsame

theorem effect_of_spawn {kind : Kind} (ht : t.tasks = s.tasks ++ [⟨kind, .begin⟩]) (hbuffer : t.buffer = s.buffer)
    (hwritten : t.written = s.written) (hnone : ∀ n, ¬ Appends s event n) : Effect s event t := by
  have hsame : ∀ n, total t n = total s n + if Appends s event n then 1 else 0 := by
    intro n
    rw [if_neg (hnone n), total, total, ht, hbuffer, hwritten, inHand_append]
    simp [Task.held, Phase.held]
  have hother : ∀ n : Nat, t.tasks[n]? = s.tasks[n]? ∨ s.tasks[n]? = none ∧ t.tasks[n]? = some ⟨kind, .begin⟩ := by
    intro n
    rw [ht, List.getElem?_append]
    split
    · exact Or.inl rfl
    · rename_i hlt
      have hgone : s.tasks[n]? = none := List.getElem?_eq_none (Nat.not_lt.mp hlt)
      rw [hgone]
      cases htask : ([⟨kind, .begin⟩] : List Task)[n - s.tasks.length]? with
      | none => exact Or.inl rfl
      | some task => exact Or.inr ⟨rfl, congrArg some (List.mem_singleton.mp (List.mem_of_getElem? htask))⟩
  refine ⟨fun n => Nat.le_of_eq (hsame n), fun _ _ => hsame, fun n hn => ⟨?_, hnone n⟩, fun n hn => Or.inl ?_⟩
  · rcases hother n with heq | ⟨hgone, -⟩
    · rwa [Waiting, ← heq]
    · exact Or.inl hgone
  · obtain ⟨phase, htask, hphase, hphase'⟩ := hn
    rcases hother n with heq | ⟨-, hnew⟩
    · exact ⟨phase, heq ▸ htask, hphase, hphase'⟩
    · have hsame := Option.some.inj (hnew.symm.trans htask)
      exact absurd (congrArg Task.phase hsame).symm hphase

theorem step_effect (h : step maxSize s event = some t) : Effect s event t := by
  cases event with
  | add tracked =>
      cases h
      exact effect_of_spawn rfl rfl rfl fun _ => id
  | shutdown =>
      cases h
      exact effect_of_spawn rfl rfl rfl fun _ => id
  | turn i answer =>
      obtain ⟨⟨kind, phase⟩, hi, hturn⟩ := Option.bind_eq_some_iff.mp h
      obtain ⟨hlive, phase', hturned, hwent⟩ := turn_goes hi hturn
      exact effect_of_went hlive hturned hwent

def Carried (s : RequestMetricsBuffer) : Prop := ∀ n, total s n ≤ 1 ∧ (Waiting s n → total s n = 0)

theorem Carried.step (hs : Carried s) (h : step maxSize s event = some t) : Carried t := by
  have heffect := step_effect h
  intro n
  have hle := heffect.le n
  constructor
  · by_cases happends : Appends s event n
    · have hwaiting : Waiting s n := by
        cases event with
        | turn i answer => exact Or.inr (happends.1 ▸ happends.2.1)
        | _ => exact happends.elim
      rw [if_pos happends, (hs n).2 hwaiting] at hle
      exact hle
    · rw [if_neg happends] at hle
      exact Nat.le_trans hle (hs n).1
  · intro hwaiting
    obtain ⟨hwaiting, hnone⟩ := heffect.waiting n hwaiting
    rw [if_neg hnone, (hs n).2 hwaiting] at hle
    exact Nat.le_zero.mp hle

theorem Carried.once (hs : Carried s) : Once s := by
  rw [Once, List.nodup_iff_count_le_one]
  intro n
  exact Nat.le_trans (Nat.le_add_left _ _) (hs n).1

def Kept (s : RequestMetricsBuffer) : Prop := Carried s ∧ ∀ n, Brought s n → total s n = 1

theorem Kept.step (hs : Kept s) (hcommits : Commits s event) (hlands : Lands s event) (h : step maxSize s event = some t) :
    Kept t := by
  have heffect := step_effect h
  have hcarried := hs.1.step h
  refine ⟨hcarried, fun n hn => ?_⟩
  have hle := (hcarried n).1
  have heq := heffect.eq hcommits hlands n
  rcases heffect.brought n hn with hbrought | happends
  · have hone := hs.2 n hbrought
    split at heq <;> omega
  · rw [if_pos happends] at heq
    omega

theorem mem_completed {n : Nat} : n ∈ completed s ↔ s.tasks[n]? = some ⟨.add, .done true⟩ := by
  simp only [completed, List.mem_filter, List.mem_range, decide_eq_true_eq]
  exact ⟨fun h => h.2, fun h => ⟨(List.getElem?_eq_some_iff.mp h).1, h⟩⟩

theorem Went.last (h : Turned s t i kind phase phase') (hwent : Went s t i answer kind phase phase')
    (hcommits : Commits s (.turn i answer)) (hreturns : returns t (.turn i answer)) :
    i ∉ s.cancelled ∧ kind = .shutdown ∧ lastOfFlush s phase := by
  have hself : t.tasks[i]? = some ⟨.shutdown, .done true⟩ := hreturns
  have hsame := Option.some.inj (h.self.symm.trans hself)
  obtain ⟨rfl, hdone⟩ : kind = .shutdown ∧ phase' = .done true := ⟨congrArg Task.kind hsame, congrArg Task.phase hsame⟩
  cases hwent with
  | cancelled _ _ _ => exact nomatch hdone
  | append _ _ hkind _ _ _ => exact nomatch hkind
  | take _ _ _ => exact nomatch hdone
  | still _ _ _ hother _ _ _ _ => exact absurd hdone hother
  | left _ hc _ hends =>
      exact ⟨hc, rfl, hends.last hcommits h.before⟩

theorem Went.left_of_last (hwent : Went s t i answer .shutdown phase phase') (hc : i ∉ s.cancelled)
    (hlast : lastOfFlush s phase) : phase' = .done true ∧ t.buffer = s.buffer := by
  cases hwent with
  | cancelled _ hcancelled _ => exact absurd hcancelled hc
  | append _ _ hkind _ _ _ => exact nomatch hkind
  | take _ hsome _ => exact absurd hlast hsome
  | left _ _ hbuffer _ => exact ⟨rfl, hbuffer⟩
  | still _ _ _ _ _ _ _ hnot => exact absurd hlast hnot

theorem Turned.completed_iff (h : Turned s t i .shutdown phase phase') (n : Nat) : n ∈ completed t ↔ n ∈ completed s := by
  rw [mem_completed, mem_completed]
  by_cases hn : n = i
  · subst hn
    rw [h.self, h.before]
    exact iff_of_false nofun nofun
  · rcases h.other hn with hsame | ⟨hnone, hnew⟩
    · rw [hsame]
    · rw [hnone, hnew]
      exact iff_of_false nofun nofun

theorem Turned.written_iff (h : Turned s t i .shutdown phase (.done true)) (hkept : Kept t) (hbuffer : t.buffer = s.buffer)
    {n : Nat} (hn : n ∈ completed s) :
    n ∈ t.written ↔ Absent s i n := by
  have hbrought : Brought t n := ⟨.done true, mem_completed.mp ((h.completed_iff n).mpr hn), nofun, nofun⟩
  have hone : t.buffer.count n + inHand Task.held t.tasks n + t.written.count n = 1 := hkept.2 n hbrought
  have hhand : inHand Task.held t.tasks n = 0 ↔
      ∀ j < s.tasks.length, j ≠ i → ∀ other ∈ s.tasks[j]?, n ∉ other.held := by
    rw [inHand_eq_zero_iff]
    constructor
    · intro hall j _ hj other hother
      rcases h.other hj with hsame | ⟨hnone, -⟩
      · exact hall other (List.mem_of_getElem? (hsame.trans hother))
      · exact nomatch hnone.symm.trans hother
    · intro hall task htask
      obtain ⟨j, hj⟩ := List.mem_iff_getElem?.mp htask
      by_cases hji : j = i
      · subst hji
        obtain rfl := Option.some.inj (h.self.symm.trans hj)
        exact List.not_mem_nil
      · rcases h.other hji with hsame | ⟨-, hnew⟩
        · have hbefore := hsame.symm.trans hj
          exact hall j (List.getElem?_eq_some_iff.mp hbefore).1 hji task hbefore
        · obtain rfl := Option.some.inj (hnew.symm.trans hj)
          exact List.not_mem_nil
  rw [Absent, ← hhand, ← hbuffer, ← List.count_eq_zero, ← List.count_pos_iff]
  omega

theorem flushed_iff (hs : Kept s) (hcommits : Commits s event) (hlands : Lands s event)
    (h : step maxSize s event = some t) : Flushed maxSize s event ↔ Settled s event := by
  have hkept := hs.step hcommits hlands h
  cases event with
  | turn i answer =>
      obtain ⟨⟨kind, phase⟩, hi, hturn⟩ := Option.bind_eq_some_iff.mp h
      obtain ⟨-, phase', hturned, hwent⟩ := turn_goes hi hturn
      constructor
      · intro hflushed hc task htask hkind hlast n hn
        obtain rfl := Option.some.inj (hi.symm.trans htask)
        obtain rfl : kind = .shutdown := hkind
        obtain ⟨rfl, hbuffer⟩ := hwent.left_of_last hc hlast
        have hwritten := hflushed t h hturned.self n ((hturned.completed_iff n).mpr hn)
        exact (hturned.written_iff hkept hbuffer hn).mp hwritten
      · intro hsettled u hu hreturns n hn
        obtain rfl := Option.some.inj (h.symm.trans hu)
        obtain ⟨hc, rfl, hlast⟩ := hwent.last hturned hcommits hreturns
        obtain ⟨rfl, hbuffer⟩ := hwent.left_of_last hc hlast
        have hn := (hturned.completed_iff n).mp hn
        exact (hturned.written_iff hkept hbuffer hn).mpr (hsettled hc _ hi rfl hlast n hn)
  | _ => exact iff_of_true (fun _ _ hreturns => hreturns.elim) trivial

end Effects

theorem kept_blank : Kept .blank := by
  refine ⟨fun n => ⟨Nat.zero_le 1, fun _ => rfl⟩, fun n hn => ?_⟩
  obtain ⟨phase, htask, -⟩ := hn
  exact nomatch htask

instance (s : RequestMetricsBuffer) : Decidable (Once s) := inferInstanceAs (Decidable s.written.Nodup)

/-- No record is written twice; and where every commit succeeds and no
cancellation comes upon a batch that has yet to be committed, the shutdowns leave
no completed add unwritten exactly when nothing has been left behind them. -/
theorem written_once_iff (maxSize : Nat) (events : List Event) :
    AllStates (step maxSize) Once .blank events ∧
      (AllSteps (step maxSize) Commits .blank events → AllSteps (step maxSize) Lands .blank events →
        (AllSteps (step maxSize) (Flushed maxSize) .blank events ↔ AllSteps (step maxSize) Settled .blank events)) := by
  have hcarried : AllStates (step maxSize) Carried .blank events :=
    allStates_of_steps (fun _ _ _ hs h => hs.step h) kept_blank.1
  refine ⟨hcarried.mono fun _ hs => hs.once, fun hcommits hlands => ?_⟩
  have hsteps := hcommits.and hlands
  have hkept : AllStates (step maxSize) Kept .blank events :=
    allStates_of_allSteps (fun _ _ _ hs hstep h => hs.step hstep.1 hstep.2 h) kept_blank hsteps
  constructor
  · intro hflushed
    exact AllSteps.of_states (fun _ _ _ hs hstep h => (flushed_iff hs hstep.1.1 hstep.1.2 h).mp hstep.2) hkept
      (hsteps.and hflushed)
  · intro hsettled
    exact AllSteps.of_states (fun _ _ _ hs hstep h => (flushed_iff hs hstep.1.1 hstep.1.2 h).mpr hstep.2) hkept
      (hsteps.and hsettled)

/-- A flush at full size, and a shutdown that finds nothing more to write. -/
theorem written_in_turn :
    AllSteps (step 2) (Flushed 2) .blank
      [.add true, .turn 0 true, .add true, .turn 2 true, .turn 2 true, .turn 2 true, .turn 2 true, .shutdown, .turn 3 true,
        .turn 1 true, .turn 3 true, .turn 3 true] :=
  ((written_once_iff 2 _).2 (by decide +kernel) (by decide +kernel)).mpr (by decide +kernel)

def cancelledFlush : List Event :=
  [.add true, .turn 0 true, .turn 1 true, .turn 1 true, .shutdown, .turn 2 true, .turn 1 true, .turn 2 true, .turn 2 true]

/-- The batch is dropped with the cancelled task, and no commit is attempted. -/
theorem cancelled_batch_lost :
    ¬ ∀ (maxSize : Nat) (events : List Event),
      AllStates (step maxSize) Once .blank events ∧
        (AllSteps (step maxSize) Commits .blank events → AllSteps (step maxSize) (Flushed maxSize) .blank events) := by
  intro h
  obtain ⟨-, hflushed⟩ := h 100 cancelledFlush
  have hcommits : AllSteps (step 100) Commits .blank cancelledFlush := by decide +kernel
  exact absurd (hflushed hcommits) (by decide +kernel)

/-- The shutdown is writing its last batch when another add comes and goes. -/
example : ¬ AllSteps (step 100) (Flushed 100) .blank
    [.add true, .turn 0 true, .shutdown, .turn 2 true, .turn 1 true, .turn 2 true, .turn 2 true, .add true, .turn 3 true,
      .turn 2 true, .turn 2 true] := by
  decide +kernel

end NukeLab.MetricsBuffer
