import NukeLab.ServerQueue
import NukeLab.UuidTexts

namespace NukeLab.QueuePositions

open Records State ContainerNames ServerQueue UuidTexts

/-- Where a text is the id of one of the entries, counted from one. -/
def scan (queueEntryId : String) : List QueueEntry → Nat → Nat
  | [], _ => 0
  | entry :: entries, idx => if uuidText entry.id = queueEntryId then idx + 1 else scan queueEntryId entries (idx + 1)

/-- The query leaves out the entry that is then looked for. -/
def getQueuePosition (w : World) (queueEntryId : String) : Option Nat := do
  let id ← parseUuid queueEntryId
  let entries := (w.queue.filter fun e => e.status = .pending ∧ e.id ≠ id).insertionSort Precedes
  return scan queueEntryId entries 0

def pending (w : World) : List QueueEntry := w.queue.filter fun e => e.status = .pending

def Ahead (a b : QueueEntry) : Prop :=
  a.priority > b.priority ∨ a.priority = b.priority ∧ a.requestedAt < b.requestedAt

instance : DecidableRel Ahead := fun _ _ => inferInstanceAs (Decidable (_ ∨ _))

def rank (entries : List QueueEntry) (e : QueueEntry) : Nat := 1 + entries.countP fun a => Ahead a e

def SameKey (a b : QueueEntry) : Prop := a.priority = b.priority ∧ a.requestedAt = b.requestedAt

theorem Ahead.trans {a b c : QueueEntry} (hab : Ahead a b) (hbc : Ahead b c) : Ahead a c := by
  simp only [Ahead] at hab hbc ⊢
  grind

theorem Ahead.irrefl (a : QueueEntry) : ¬ Ahead a a := by simp [Ahead]

theorem ahead_or_ahead {a b : QueueEntry} (h : ¬ SameKey a b) : Ahead a b ∨ Ahead b a := by
  simp only [SameKey] at h
  simp only [Ahead]
  grind

theorem not_ahead_of_precedes {a b : QueueEntry} (h : Precedes a b) : ¬ Ahead b a := by
  simp only [Precedes] at h
  simp only [Ahead]
  grind

theorem ahead_of_precedes {a b : QueueEntry} (h : Precedes a b) (hkey : ¬ SameKey a b) : Ahead a b :=
  (ahead_or_ahead hkey).resolve_right (not_ahead_of_precedes h)

instance : Std.Total Precedes where
  total a b := by
    simp only [Precedes]
    grind

instance : IsTrans QueueEntry Precedes where
  trans a b c hab hbc := by
    simp only [Precedes] at hab hbc ⊢
    grind

theorem rank_lt_of_ahead {entries : List QueueEntry} {a b : QueueEntry} (ha : a ∈ entries) (h : Ahead a b) :
    rank entries a < rank entries b := by
  have hstep : entries.countP (fun e => Ahead e a) < entries.countP fun e => Ahead e b := by
    induction entries with
    | nil => cases ha
    | cons e entries ih =>
        have hmono : entries.countP (fun e => Ahead e a) ≤ entries.countP fun e => Ahead e b :=
          List.countP_mono_left fun x _ hx => decide_eq_true (Ahead.trans (of_decide_eq_true hx) h)
        rcases List.mem_cons.mp ha with rfl | ha
        · rw [List.countP_cons_of_neg (by simp [Ahead.irrefl]), List.countP_cons_of_pos (by simp [h])]
          omega
        · by_cases he : Ahead e a
          · rw [List.countP_cons_of_pos (by simp [he]), List.countP_cons_of_pos (by simp [he.trans h])]
            exact Nat.succ_lt_succ (ih ha)
          · rw [List.countP_cons_of_neg (by simp [he]), List.countP_cons]
            exact (ih ha).trans_le (Nat.le_add_right _ _)
  exact Nat.add_lt_add_left hstep 1

theorem rank_ne_of_not_sameKey {entries : List QueueEntry} {a b : QueueEntry} (ha : a ∈ entries) (hb : b ∈ entries)
    (h : ¬ SameKey a b) : rank entries a ≠ rank entries b := by
  rcases ahead_or_ahead h with hab | hba
  · exact (rank_lt_of_ahead ha hab).ne
  · exact (rank_lt_of_ahead hb hba).ne'

theorem scan_of_sorted {entries : List QueueEntry} {e : QueueEntry} (hsorted : entries.Pairwise Precedes)
    (hkeys : ∀ a ∈ entries, uuidText a.id = uuidText e.id ∨ ¬ SameKey a e)
    (hhere : ∀ a ∈ entries, uuidText a.id = uuidText e.id → a = e) (he : e ∈ entries) (idx : Nat) :
    scan (uuidText e.id) entries idx = idx + rank entries e := by
  induction entries generalizing idx with
  | nil => cases he
  | cons a entries ih =>
      obtain ⟨hfirst, hrest⟩ := List.pairwise_cons.mp hsorted
      by_cases hid : uuidText a.id = uuidText e.id
      · have hae : a = e := hhere a List.mem_cons_self hid
        subst hae
        have hnone : entries.countP (fun b => Ahead b a) = 0 := by
          rw [List.countP_eq_zero]
          intro b hb
          simpa using not_ahead_of_precedes (hfirst b hb)
        rw [scan, if_pos rfl, rank, List.countP_cons_of_neg (by simp [Ahead.irrefl]), hnone]
      · have hmem : e ∈ entries := (List.mem_cons.mp he).resolve_left fun h => hid (h ▸ rfl)
        have hahead : Ahead a e := ahead_of_precedes (hfirst e hmem) ((hkeys a List.mem_cons_self).resolve_left hid)
        have hscan := ih hrest (fun b hb => hkeys b (List.mem_cons_of_mem a hb))
          (fun b hb => hhere b (List.mem_cons_of_mem a hb)) hmem (idx + 1)
        rw [scan, if_neg hid, hscan, rank, rank, List.countP_cons_of_pos (by simp [hahead])]
        omega

/-- In the worker's own list, with nothing left out, the scan finds the rank. -/
theorem scan_pending_eq_rank {w : World} {e : QueueEntry} (hkeys : ∀ a ∈ pending w, a ≠ e → ¬ SameKey a e)
    (hids : ∀ a ∈ pending w, uuidText a.id = uuidText e.id → a = e) (he : e ∈ pending w) :
    scan (uuidText e.id) ((pending w).insertionSort Precedes) 0 = rank (pending w) e := by
  have hmem : ∀ a, a ∈ (pending w).insertionSort Precedes ↔ a ∈ pending w := fun a => List.mem_insertionSort Precedes
  have hrank : rank ((pending w).insertionSort Precedes) e = rank (pending w) e := by
    rw [rank, rank, (List.perm_insertionSort Precedes _).countP_eq]
  have hsplit : ∀ a ∈ (pending w).insertionSort Precedes, uuidText a.id = uuidText e.id ∨ ¬ SameKey a e := by
    intro a ha
    by_cases hae : a = e
    · exact .inl (hae ▸ rfl)
    · exact .inr (hkeys a ((hmem a).mp ha) hae)
  rw [scan_of_sorted (List.pairwise_insertionSort Precedes _) hsplit (fun a ha => hids a ((hmem a).mp ha)) ((hmem e).mpr he),
    hrank, Nat.zero_add]

theorem scan_eq_zero {queueEntryId : String} {entries : List QueueEntry}
    (h : ∀ e ∈ entries, uuidText e.id ≠ queueEntryId) (idx : Nat) : scan queueEntryId entries idx = 0 := by
  induction entries generalizing idx with
  | nil => rfl
  | cons e entries ih =>
      rw [scan, if_neg (h e List.mem_cons_self)]
      exact ih (fun e' he' => h e' (List.mem_cons_of_mem e he')) (idx + 1)

theorem getQueuePosition_uuidText (w : World) {id : Uuid} (hid : id < uuidBound)
    (hids : ∀ e ∈ w.queue, e.id < uuidBound) : getQueuePosition w (uuidText id) = some 0 := by
  have hscan : ∀ e ∈ (w.queue.filter fun e => e.status = .pending ∧ e.id ≠ id).insertionSort Precedes,
      uuidText e.id ≠ uuidText id := by
    intro e he htext
    rw [List.mem_insertionSort, List.mem_filter, decide_eq_true_eq] at he
    have hchars : uuidChars e.id = uuidChars id := by rw [← uuidText_toList, htext, uuidText_toList]
    exact he.2.2 (uuidChars_injective (hids e he.1) hid hchars)
  rw [getQueuePosition, parseUuid_uuidText hid]
  exact congrArg some (scan_eq_zero hscan 0)

/-- No pending entry is told its place. -/
theorem position_ne_rank (w : World) (hids : ∀ e ∈ w.queue, e.id < uuidBound) (e : QueueEntry) (he : e ∈ pending w) :
    getQueuePosition w (uuidText e.id) ≠ some (rank (pending w) e) := by
  rw [getQueuePosition_uuidText w (hids e (List.mem_filter.mp he).1) hids, rank]
  intro h
  injection h with h
  omega

def onlyEntry : QueueEntry where
  id := 1
  userId := 0
  environmentId := 0
  planId := 0
  status := .pending
  priority := 0
  serverName := "srv1"
  requestedCpu := 1
  requestedMemory := 1024
  requestedDisk := 10240
  requestedAt := 0
  startedAt := none
  errorMessage := none
  retryCount := 0

def onlyQueued : World := { blankWorld with queue := [onlyEntry] }

/-- The entry that is served next is told to be at position 0. -/
theorem next_told_zero : onlyEntry ∈ pending onlyQueued ∧ rank (pending onlyQueued) onlyEntry = 1 ∧
    getQueuePosition onlyQueued (uuidText onlyEntry.id) = some 0 := by
  refine ⟨by simp [pending, onlyQueued, onlyEntry], by decide, ?_⟩
  exact getQueuePosition_uuidText onlyQueued (by decide) (by simp [onlyQueued, onlyEntry, uuidBound])

theorem position_ne_rank_onlyEntry : getQueuePosition onlyQueued (uuidText onlyEntry.id) ≠
    some (rank (pending onlyQueued) onlyEntry) :=
  position_ne_rank onlyQueued (by simp [onlyQueued, onlyEntry, uuidBound]) onlyEntry
    (by simp [pending, onlyQueued, onlyEntry])

end NukeLab.QueuePositions
