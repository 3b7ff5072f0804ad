import NukeLab.ToolchainVolume
import NukeLab.Records
import Mathlib.Data.List.Basic
import Mathlib.Logic.Function.Basic
import Mathlib.Tactic.Linarith

namespace NukeLab.ToolchainPopulation

open Tables ToolchainVolume
open Records (Uuid Instant minute)

def lockTimeout : Int := 15 * minute

/-- How a call ends: with the manifest, read when there was a stamp or was not,
or with an error. -/
inductive Result
  | manifest (stamped : Bool)
  | error

inductive Stage
  | checking
  | launching
  | waiting (helper : Uuid)
  | readingBack
  | releasing (result : Result)

inductive Phase
  | starting
  | acquiring (deadline : Instant)
  | conflicted (deadline : Instant)
  | inspecting (deadline : Instant)
  | removing (deadline : Instant) (stale : Uuid)
  | locked (lock : Uuid) (stage : Stage)
  | ended (result : Result)
  | crashed

/-- One call of `prepare_toolchain_volume`, in an API worker or a task. -/
structure Populator where
  call : Call
  phase : Phase

inductive HelperStatus
  | running
  | exited (ok : Bool)
  deriving DecidableEq

/-- A helper container: what its script has still to remove and to copy before
it writes the stamp, and the lock under which it was started. -/
structure Helper where
  lock : Uuid
  call : Call
  wipe : List Path
  todo : List File
  status : HelperStatus

structure Lock where
  id : Uuid
  created : Instant

/-- One toolchain volume, the lock container of its name, the helpers and the callers. -/
structure State where
  now : Instant
  nextId : Uuid
  volume : Volume
  lock : Option Lock
  helpers : Uuid → Option Helper
  populators : Uuid → Option Populator

def State.moves (s : State) (pid : Uuid) (p : Populator) : State :=
  { s with populators := Function.update s.populators pid (some p) }

def State.helps (s : State) (k : Uuid) (h : Helper) : State :=
  { s with helpers := Function.update s.helpers k (some h) }

/-- Deleting a container goes by its id, whatever bears its name by then. -/
def unlocked (id : Uuid) (lock : Option Lock) : Option Lock := lock.filter fun l => l.id ≠ id

inductive Outcome
  | done
  | failed
  | torn
  deriving DecidableEq

def copied (v : Volume) (file : File) : Outcome → Volume
  | .done => put v file
  | .failed => v
  | .torn => put v { file with content := .torn }

inductive Event
  | arrive (pid : Uuid) (call : Call)
  | advance (pid : Uuid)
  | abandon (pid helper : Uuid) (removed : Bool)
  | remove (helper : Uuid) (path : Path) (done : Bool)
  | copy (helper : Uuid) (file : File) (outcome : Outcome)
  | stamp (helper : Uuid) (outcome : Outcome)
  | die (helper : Uuid)
  | elapse (duration : Nat)

inductive Step (s : State) : Event → State → Prop
  | arrive {pid : Uuid} (call : Call) (hnew : s.populators pid = none) :
      Step s (.arrive pid call) (s.moves pid ⟨call, .starting⟩)
  | reuse {pid : Uuid} {call : Call} {id : Option ImageId} (hp : s.populators pid = some ⟨call, .starting⟩)
      (hread : readToolchainManifest s.volume = some id) (hmatch : imageIdsMatch id call.image.id = true) :
      Step s (.advance pid) (s.moves pid ⟨call, .ended (.manifest (stampPresent s.volume))⟩)
  -- a read that fails for another reason counts as nothing found
  | miss {pid : Uuid} {call : Call} (hp : s.populators pid = some ⟨call, .starting⟩) :
      Step s (.advance pid) (s.moves pid ⟨call, .acquiring (s.now + lockTimeout)⟩)
  | acquire {pid : Uuid} {call : Call} {deadline : Instant} (hp : s.populators pid = some ⟨call, .acquiring deadline⟩)
      (hfree : s.lock = none) :
      Step s (.advance pid)
        { s.moves pid ⟨call, .locked s.nextId .checking⟩ with
          lock := some ⟨s.nextId, s.now⟩
          nextId := s.nextId + 1 }
  | conflict {pid : Uuid} {call : Call} {deadline : Instant} {l : Lock}
      (hp : s.populators pid = some ⟨call, .acquiring deadline⟩) (htaken : s.lock = some l) :
      Step s (.advance pid) (s.moves pid ⟨call, .conflicted deadline⟩)
  | refused {pid : Uuid} {call : Call} {deadline : Instant} (hp : s.populators pid = some ⟨call, .acquiring deadline⟩) :
      Step s (.advance pid) (s.moves pid ⟨call, .ended .error⟩)
  | timeOut {pid : Uuid} {call : Call} {deadline : Instant}
      (hp : s.populators pid = some ⟨call, .conflicted deadline⟩) (hlate : deadline < s.now) :
      Step s (.advance pid) (s.moves pid ⟨call, .ended .error⟩)
  | inspect {pid : Uuid} {call : Call} {deadline : Instant}
      (hp : s.populators pid = some ⟨call, .conflicted deadline⟩) (hin : s.now ≤ deadline) :
      Step s (.advance pid) (s.moves pid ⟨call, .inspecting deadline⟩)
  | stale {pid : Uuid} {call : Call} {deadline : Instant} {l : Lock}
      (hp : s.populators pid = some ⟨call, .inspecting deadline⟩) (hlock : s.lock = some l)
      (hage : lockTimeout < s.now - l.created) :
      Step s (.advance pid) (s.moves pid ⟨call, .removing deadline l.id⟩)
  -- the lock is young, is gone, or cannot be inspected
  | retry {pid : Uuid} {call : Call} {deadline : Instant}
      (hp : s.populators pid = some ⟨call, .inspecting deadline⟩) :
      Step s (.advance pid) (s.moves pid ⟨call, .acquiring deadline⟩)
  | removeStale {pid : Uuid} {call : Call} {deadline : Instant} {id : Uuid} (deleted : Bool)
      (hp : s.populators pid = some ⟨call, .removing deadline id⟩) :
      Step s (.advance pid)
        { s.moves pid ⟨call, .acquiring deadline⟩ with lock := if deleted then unlocked id s.lock else s.lock }
  | recheck {pid lock : Uuid} {call : Call} {id : Option ImageId}
      (hp : s.populators pid = some ⟨call, .locked lock .checking⟩)
      (hread : readToolchainManifest s.volume = some id) (hmatch : imageIdsMatch id call.image.id = true) :
      Step s (.advance pid) (s.moves pid ⟨call, .locked lock (.releasing (.manifest (stampPresent s.volume)))⟩)
  | repopulate {pid lock : Uuid} {call : Call} (hp : s.populators pid = some ⟨call, .locked lock .checking⟩) :
      Step s (.advance pid) (s.moves pid ⟨call, .locked lock .launching⟩)
  | launch {pid lock : Uuid} {call : Call} (hp : s.populators pid = some ⟨call, .locked lock .launching⟩) :
      Step s (.advance pid)
        { (s.moves pid ⟨call, .locked lock (.waiting s.nextId)⟩).helps s.nextId
            ⟨lock, call, wiped s.volume, copies call, .running⟩ with
          nextId := s.nextId + 1 }
  | launchFailed {pid lock : Uuid} {call : Call} (hp : s.populators pid = some ⟨call, .locked lock .launching⟩) :
      Step s (.advance pid) (s.moves pid ⟨call, .locked lock (.releasing .error)⟩)
  | collect {pid lock k : Uuid} {call : Call} {h : Helper}
      (hp : s.populators pid = some ⟨call, .locked lock (.waiting k)⟩) (hh : s.helpers k = some h)
      (hexit : h.status = .exited true) : Step s (.advance pid) (s.moves pid ⟨call, .locked lock .readingBack⟩)
  | collectFailed {pid lock k : Uuid} {call : Call} {h : Helper}
      (hp : s.populators pid = some ⟨call, .locked lock (.waiting k)⟩) (hh : s.helpers k = some h)
      (hexit : h.status = .exited false) : Step s (.advance pid) (s.moves pid ⟨call, .locked lock (.releasing .error)⟩)
  -- waiting itself fails; the helper is removed by force, and where that fails nothing is said
  | abandon {pid lock k : Uuid} {call : Call} {h : Helper} (removed : Bool)
      (hp : s.populators pid = some ⟨call, .locked lock (.waiting k)⟩) (hh : s.helpers k = some h) :
      Step s (.abandon pid k removed)
        ((s.moves pid ⟨call, .locked lock (.releasing .error)⟩).helps k
          { h with status := if removed ∧ h.status = .running then .exited false else h.status })
  | readBack {pid lock : Uuid} {call : Call} {id : Option ImageId}
      (hp : s.populators pid = some ⟨call, .locked lock .readingBack⟩)
      (hread : readToolchainManifest s.volume = some id) :
      Step s (.advance pid) (s.moves pid ⟨call, .locked lock (.releasing (.manifest (stampPresent s.volume)))⟩)
  | readBackFailed {pid lock : Uuid} {call : Call} (hp : s.populators pid = some ⟨call, .locked lock .readingBack⟩) :
      Step s (.advance pid) (s.moves pid ⟨call, .locked lock (.releasing .error)⟩)
  | release {pid lock : Uuid} {call : Call} {result : Result} (deleted : Bool)
      (hp : s.populators pid = some ⟨call, .locked lock (.releasing result)⟩) :
      Step s (.advance pid)
        { s.moves pid ⟨call, .ended result⟩ with lock := if deleted then unlocked lock s.lock else s.lock }
  | crash {pid : Uuid} {call : Call} {phase : Phase} (hp : s.populators pid = some ⟨call, phase⟩)
      (hlive : ∀ result, phase ≠ .ended result) :
      Step s (.advance pid) (s.moves pid ⟨call, .crashed⟩)
  | remove {k : Uuid} {h : Helper} {path : Path} {wipe : List Path} (done : Bool) (hh : s.helpers k = some h)
      (hrunning : h.status = .running) (hwipe : h.wipe = path :: wipe) :
      Step s (.remove k path done)
        { s.helps k { h with wipe := wipe } with volume := if done then s.volume.erase path else s.volume }
  | copy {k : Uuid} {h : Helper} {file : File} {todo : List File} (outcome : Outcome) (hh : s.helpers k = some h)
      (hrunning : h.status = .running) (hwipe : h.wipe = []) (htodo : h.todo = file :: todo) :
      Step s (.copy k file outcome)
        { s.helps k { h with todo := todo } with volume := copied s.volume file outcome }
  -- the exit status of the script is that of this last command
  | stamp {k : Uuid} {h : Helper} (outcome : Outcome) (hh : s.helpers k = some h)
      (hrunning : h.status = .running) (hwipe : h.wipe = []) (htodo : h.todo = []) :
      Step s (.stamp k outcome)
        { s.helps k { h with status := .exited (outcome = .done) } with
          volume := copied s.volume ⟨stampPath, .stamp h.call.image.id⟩ outcome }
  | die {k : Uuid} {h : Helper} (hh : s.helpers k = some h) (hrunning : h.status = .running) :
      Step s (.die k) (s.helps k { h with status := .exited false })
  | elapse (duration : Nat) : Step s (.elapse duration) { s with now := s.now + duration }

inductive Reaches (guard : State → Event → Prop) (s : State) : State → Prop
  | refl : Reaches guard s s
  | step {t u : State} {e : Event} (h : Reaches guard s t) (hguard : guard t e) (hstep : Step t e u) :
      Reaches guard s u

/-- A volume with whatever is in it, before any call; an old lock may be left. -/
def State.begin (now : Instant) (volume : Volume) (leftover : Option Instant) : State where
  now := now
  nextId := 1
  volume := volume
  lock := leftover.map fun created => ⟨0, created⟩
  helpers := fun _ => none
  populators := fun _ => none

def Asked (s : State) (call : Call) : Prop := ∃ pid p, s.populators pid = some p ∧ p.call = call

def Writes (s : State) (k : Uuid) : Prop := ∃ h, s.helpers k = some h ∧ h.status = .running

def Phase.result : Phase → Option Result
  | .ended result | .locked _ (.releasing result) => some result
  | _ => none

/-- All or nothing: a stamp means that all was copied, one helper writes at a
time, and a call that does not end with an error has seen the stamp. -/
structure AllOrNothing (s : State) : Prop where
  complete : ∀ call, Asked s call → StampedFor s.volume call → Complete s.volume call
  exclusive : ∀ k k', Writes s k → Writes s k' → k = k'
  ended : ∀ pid p stamped, s.populators pid = some p → p.phase.result = some (.manifest stamped) → stamped = true

def Phase.lock : Phase → Option Uuid
  | .locked lock _ => some lock
  | _ => none

def HoldsLock (s : State) (pid id : Uuid) : Prop := ∃ p, s.populators pid = some p ∧ p.phase.lock = some id

def InUse (s : State) (id : Uuid) : Prop :=
  (∃ pid, HoldsLock s pid id) ∨ ∃ k h, s.helpers k = some h ∧ h.status = .running ∧ h.lock = id

def InTime (s : State) : Event → Prop
  | .elapse duration => ∀ l, s.lock = some l → InUse s l.id → s.now + duration - l.created ≤ lockTimeout
  | _ => True

/-- The image has what is listed of it, and brings no stamp of its own. -/
structure Proper (call : Call) : Prop where
  exist : ∀ path ∈ call.mountPaths, (call.image.tree path).isSome
  unstamped : ∀ file ∈ copies call, file.path ≠ stampPath

def Vouched (s : State) (path : Path) : Prop :=
  ∃ call, Asked s call ∧ StampedFor s.volume call ∧ (lastOf (copies call) path).isSome

/-- What it takes: calls that list the same of one image, which has it all; a
stamp found there only over what it stands for; no file lost in copying, nor
touched while a stamp vouches for it; no helper left running by its caller. -/
def Careful (s : State) : Event → Prop
  | .arrive _ call =>
    Proper call ∧ (StampedFor s.volume call → Complete s.volume call) ∧
      ∀ other, Asked s other →
        imageIdsMatch other.image.id call.image.id = true ∨ imageIdsMatch call.image.id other.image.id = true →
          copies other = copies call
  | .abandon _ k removed => removed = true ∨ ¬ Writes s k
  | .remove _ path _ => ¬ Vouched s path
  | .copy _ file outcome => outcome = .done ∧ ¬ Vouched s file.path
  | event => InTime s event

section Lookups

variable {s : State} {pid q k j : Uuid} {p p' : Populator} {h h' : Helper}

theorem find_moves (hq : (s.moves pid p').populators q = some p) :
    (q = pid ∧ p = p') ∨ (q ≠ pid ∧ s.populators q = some p) := by
  by_cases h : q = pid
  · subst h
    simp only [State.moves, Function.update_self] at hq
    exact .inl ⟨rfl, (Option.some.inj hq).symm⟩
  · simp only [State.moves, Function.update_of_ne h] at hq
    exact .inr ⟨h, hq⟩

theorem find_helps (hj : (s.helps k h').helpers j = some h) :
    (j = k ∧ h = h') ∨ (j ≠ k ∧ s.helpers j = some h) := by
  by_cases hjk : j = k
  · subst hjk
    simp only [State.helps, Function.update_self] at hj
    exact .inl ⟨rfl, (Option.some.inj hj).symm⟩
  · simp only [State.helps, Function.update_of_ne hjk] at hj
    exact .inr ⟨hjk, hj⟩

theorem find_unlocked {id : Uuid} {lock : Option Lock} {l : Lock} :
    unlocked id lock = some l ↔ lock = some l ∧ l.id ≠ id := by
  rw [unlocked, Option.filter_eq_some_iff, decide_eq_true_eq]

end Lookups

/-- The discipline of the lock: it is there and young while it is worked under,
by one caller and at most one helper, for which that caller waits. -/
structure Exclusive (s : State) : Prop where
  held : ∀ id, InUse s id → ∃ l, s.lock = some l ∧ l.id = id ∧ s.now - l.created ≤ lockTimeout
  owner : ∀ pid pid' id id', HoldsLock s pid id → HoldsLock s pid' id' → pid = pid'
  waits : ∀ pid p id k, s.populators pid = some p → p.phase.lock = some id → Writes s k →
    p.phase = .locked id (.waiting k)
  single : ∀ k k', Writes s k → Writes s k' → k = k'
  stale : ∀ pid p deadline id, s.populators pid = some p → p.phase = .removing deadline id →
    ¬ InUse s id ∧ id < s.nextId
  fresh : ∀ l, s.lock = some l → l.id < s.nextId

section Exclusion

variable {s : State} {pid k : Uuid} {p p' : Populator} {h' : Helper}

theorem Exclusive.idle (hs : Exclusive s) {id : Uuid} (hp : s.populators pid = some p) (hlock : p.phase.lock = some id)
    (hnot : ∀ k, p.phase = .locked id (.waiting k) → ¬ Writes s k) (k : Uuid) : ¬ Writes s k :=
  fun hw => hnot k (hs.waits pid p id k hp hlock hw) hw

theorem holdsLock_of_moves (hlock : ∀ id, p'.phase.lock = some id → HoldsLock s pid id) {q id : Uuid}
    (h : HoldsLock (s.moves pid p') q id) : HoldsLock s q id := by
  obtain ⟨p, hp, hid⟩ := h
  rcases find_moves hp with ⟨rfl, rfl⟩ | ⟨-, hp⟩
  · exact hlock id hid
  · exact ⟨p, hp, hid⟩

theorem inUse_of_moves (hlock : ∀ id, p'.phase.lock = some id → HoldsLock s pid id) {id : Uuid}
    (h : InUse (s.moves pid p') id) : InUse s id :=
  h.imp_left fun ⟨q, hq⟩ => ⟨q, holdsLock_of_moves hlock hq⟩

theorem Exclusive.moves (hs : Exclusive s)
    (hlock : ∀ id, p'.phase.lock = some id → HoldsLock s pid id ∧ ∀ k, ¬ Writes s k)
    (hstale : ∀ deadline id, p'.phase = .removing deadline id → ¬ InUse s id ∧ id < s.nextId) :
    Exclusive (s.moves pid p') := by
  have hholds (q id : Uuid) : HoldsLock (s.moves pid p') q id → HoldsLock s q id :=
    holdsLock_of_moves fun id hid => (hlock id hid).1
  have huse (id : Uuid) : InUse (s.moves pid p') id → InUse s id := inUse_of_moves fun id hid => (hlock id hid).1
  refine ⟨fun id h => hs.held id (huse id h), fun q q' id id' h h' => hs.owner q q' id id' (hholds _ _ h) (hholds _ _ h'),
    fun q p id k hq hid hw => ?_, hs.single, fun q p deadline id hq hphase => ?_, hs.fresh⟩
  · rcases find_moves hq with ⟨rfl, rfl⟩ | ⟨-, hq⟩
    · exact absurd hw ((hlock id hid).2 k)
    · exact hs.waits q p id k hq hid hw
  · rcases find_moves hq with ⟨rfl, rfl⟩ | ⟨-, hq⟩
    · exact ⟨fun h => (hstale deadline id hphase).1 (huse id h), (hstale deadline id hphase).2⟩
    · have h := hs.stale q p deadline id hq hphase
      exact ⟨fun hin => h.1 (huse id hin), h.2⟩

theorem Exclusive.leaves (hs : Exclusive s) (hlock : p'.phase.lock = none)
    (hstale : ∀ deadline id, p'.phase = .removing deadline id → ¬ InUse s id ∧ id < s.nextId) :
    Exclusive (s.moves pid p') :=
  hs.moves (fun _ hid => absurd (hlock.symm.trans hid) nofun) hstale

theorem Exclusive.helps (hs : Exclusive s)
    (hk : h'.status = .running → ∃ h, s.helpers k = some h ∧ h.status = .running ∧ h.lock = h'.lock) :
    Exclusive (s.helps k h') := by
  have hrunning (j : Uuid) (h : Helper) (hj : (s.helps k h').helpers j = some h) (hr : h.status = .running) :
      ∃ h₀, s.helpers j = some h₀ ∧ h₀.status = .running ∧ h₀.lock = h.lock := by
    rcases find_helps hj with ⟨rfl, rfl⟩ | ⟨-, hj⟩
    · exact hk hr
    · exact ⟨h, hj, hr, rfl⟩
  have hwrites (j : Uuid) (h : Writes (s.helps k h') j) : Writes s j := by
    obtain ⟨h, hj, hr⟩ := h
    obtain ⟨h₀, hj, hr, -⟩ := hrunning j h hj hr
    exact ⟨h₀, hj, hr⟩
  have huse (id : Uuid) (h : InUse (s.helps k h') id) : InUse s id := by
    rcases h with h | ⟨j, h, hj, hr, hid⟩
    · exact .inl h
    · obtain ⟨h₀, hj, hr, hlock⟩ := hrunning j h hj hr
      exact .inr ⟨j, h₀, hj, hr, hlock.trans hid⟩
  refine ⟨fun id h => hs.held id (huse id h), hs.owner, fun q p id j hq hid hw => hs.waits q p id j hq hid (hwrites j hw),
    fun j j' hj hj' => hs.single j j' (hwrites j hj) (hwrites j' hj'), fun q p deadline id hq hphase => ?_, hs.fresh⟩
  have h := hs.stale q p deadline id hq hphase
  exact ⟨fun hin => h.1 (huse id hin), h.2⟩

theorem Exclusive.unlocked (hs : Exclusive s) {id : Uuid} (hid : ¬ InUse s id) :
    Exclusive { s with lock := unlocked id s.lock } := by
  refine ⟨fun id' h => ?_, hs.owner, hs.waits, hs.single, hs.stale, fun l hl => hs.fresh l (find_unlocked.mp hl).1⟩
  obtain ⟨l, hl, rfl, hage⟩ := hs.held id' h
  exact ⟨l, find_unlocked.mpr ⟨hl, fun heq => hid (heq ▸ h)⟩, rfl, hage⟩

theorem Exclusive.volume (hs : Exclusive s) (v : Volume) : Exclusive { s with volume := v } :=
  ⟨hs.held, hs.owner, hs.waits, hs.single, hs.stale, hs.fresh⟩

theorem Exclusive.acquire (hs : Exclusive s) {call : Call} (hfree : s.lock = none) :
    Exclusive
      { s.moves pid ⟨call, .locked s.nextId .checking⟩ with
        lock := some ⟨s.nextId, s.now⟩
        nextId := s.nextId + 1 } := by
  have hunused (id : Uuid) : ¬ InUse s id := by
    intro h
    obtain ⟨l, hl, -⟩ := hs.held id h
    exact absurd (hfree.symm.trans hl) nofun
  have hholds (q id : Uuid) (h : HoldsLock (s.moves pid ⟨call, .locked s.nextId .checking⟩) q id) :
      q = pid ∧ id = s.nextId := by
    obtain ⟨p, hp, hid⟩ := h
    rcases find_moves hp with ⟨rfl, rfl⟩ | ⟨-, hp⟩
    · exact ⟨rfl, (Option.some.inj hid).symm⟩
    · exact absurd (.inl ⟨q, p, hp, hid⟩) (hunused id)
  have hidle (k : Uuid) : ¬ Writes s k := fun ⟨h, hk, hr⟩ => hunused h.lock (.inr ⟨k, h, hk, hr, rfl⟩)
  refine ⟨fun id h => ?_, fun q q' id id' h h' => (hholds q id h).1.trans (hholds q' id' h').1.symm,
    fun q p id k _ _ hw => absurd hw (hidle k), fun k _ hw => absurd hw (hidle k), fun q p deadline id hq hphase => ?_,
    fun l hl => ?_⟩
  · rcases h with ⟨q, h⟩ | ⟨k, h, hk, hr, -⟩
    · refine ⟨_, rfl, (hholds q id h).2.symm, ?_⟩
      show s.now - s.now ≤ lockTimeout
      rw [sub_self]
      exact Int.le_of_lt (by decide)
    · exact absurd ⟨h, hk, hr⟩ (hidle k)
  · rcases find_moves hq with ⟨rfl, rfl⟩ | ⟨-, hq⟩
    · exact absurd hphase nofun
    · have hold := hs.stale q p deadline id hq hphase
      refine ⟨fun h => ?_, Nat.lt_succ_of_lt hold.2⟩
      rcases h with ⟨q', h⟩ | ⟨k, h, hk, hr, -⟩
      · exact hold.2.ne (hholds q' id h).2
      · exact hidle k ⟨h, hk, hr⟩
  · obtain rfl := Option.some.inj hl
    exact Nat.lt_succ_self _

theorem Exclusive.launch (hs : Exclusive s) {lock : Uuid} {call : Call}
    (hp : s.populators pid = some ⟨call, .locked lock .launching⟩) (wipe : List Path) (todo : List File) :
    Exclusive
      { (s.moves pid ⟨call, .locked lock (.waiting s.nextId)⟩).helps s.nextId ⟨lock, call, wipe, todo, .running⟩ with
        nextId := s.nextId + 1 } := by
  have hidle := hs.idle hp rfl fun k h => absurd h nofun
  have hwrites (k : Uuid)
      (h : Writes ((s.moves pid ⟨call, .locked lock (.waiting s.nextId)⟩).helps s.nextId
        ⟨lock, call, wipe, todo, .running⟩) k) : k = s.nextId := by
    obtain ⟨h, hk, hr⟩ := h
    rcases find_helps hk with ⟨rfl, -⟩ | ⟨-, hk⟩
    · rfl
    · exact absurd ⟨h, hk, hr⟩ (hidle k)
  have hholds (q id : Uuid) : HoldsLock (s.moves pid ⟨call, .locked lock (.waiting s.nextId)⟩) q id → HoldsLock s q id :=
    holdsLock_of_moves fun id (hid : (Phase.locked lock (.waiting s.nextId)).lock = some id) => ⟨_, hp, hid⟩
  have huse (id : Uuid) (h : InUse ((s.moves pid ⟨call, .locked lock (.waiting s.nextId)⟩).helps s.nextId
      ⟨lock, call, wipe, todo, .running⟩) id) : InUse s id := by
    rcases h with ⟨q, h⟩ | ⟨k, h, hk, hr, hid⟩
    · exact .inl ⟨q, hholds q id h⟩
    · rcases find_helps hk with ⟨-, rfl⟩ | ⟨-, hk⟩
      · exact .inl ⟨pid, _, hp, congrArg some hid⟩
      · exact absurd ⟨h, hk, hr⟩ (hidle k)
  refine ⟨fun id h => hs.held id (huse id h), fun q q' id id' h h' => hs.owner q q' id id' (hholds q id h) (hholds q' id' h'),
    fun q p id k hq hid hw => ?_, fun k k' hk hk' => (hwrites k hk).trans (hwrites k' hk').symm,
    fun q p deadline id hq hphase => ?_, fun l hl => Nat.lt_succ_of_lt (hs.fresh l hl)⟩
  · rcases find_moves hq with ⟨rfl, rfl⟩ | ⟨hne, hq⟩
    · obtain rfl := Option.some.inj hid
      rw [hwrites k hw]
    · exact absurd (hs.owner q pid id lock ⟨p, hq, hid⟩ ⟨_, hp, rfl⟩) hne
  · rcases find_moves hq with ⟨rfl, rfl⟩ | ⟨-, hq⟩
    · exact absurd hphase nofun
    · have hold := hs.stale q p deadline id hq hphase
      exact ⟨fun h => hold.1 (huse id h), Nat.lt_succ_of_lt hold.2⟩

/-- By the step; where a caller moves on under the lock, it waits for no helper. -/
theorem exclusive_step {t : State} {event : Event} (hs : Exclusive s) (hguard : Careful s event)
    (hstep : Step s event t) : Exclusive t := by
  cases hstep with
  | arrive | reuse | miss | conflict | refused | timeOut | inspect | retry | crash =>
      exact hs.leaves rfl nofun
  | acquire hp hfree => exact hs.acquire hfree
  | stale hp hlock hage =>
      refine hs.leaves rfl fun deadline id hphase => ?_
      obtain ⟨-, rfl⟩ := Phase.removing.inj hphase
      refine ⟨fun huse => ?_, hs.fresh _ hlock⟩
      obtain ⟨l, hl, -, hyoung⟩ := hs.held _ huse
      obtain rfl := Option.some.inj (hl.symm.trans hlock)
      exact absurd hyoung (not_le.mpr hage)
  | @removeStale pid call deadline id deleted hp =>
      have hmoved : Exclusive (s.moves pid ⟨call, .acquiring deadline⟩) := hs.leaves rfl nofun
      cases deleted with
      | false => exact hmoved
      | true =>
          refine hmoved.unlocked fun huse => ?_
          have hnone (id : Uuid) (hid : (Phase.acquiring deadline).lock = some id) : HoldsLock s pid id :=
            absurd (show none = some id from hid) nofun
          exact (hs.stale _ _ _ _ hp rfl).1 (inUse_of_moves hnone huse)
  | recheck hp | repopulate hp | launchFailed hp | readBack hp | readBackFailed hp =>
      refine hs.moves (fun id hid => ⟨⟨_, hp, hid⟩, ?_⟩) fun deadline id h => absurd h nofun
      exact hs.idle hp rfl fun k h => absurd h nofun
  | collect hp hh hexit | collectFailed hp hh hexit =>
      refine hs.moves (fun id hid => ⟨⟨_, hp, hid⟩, ?_⟩) fun deadline id h => absurd h nofun
      refine hs.idle hp rfl fun k hphase hw => ?_
      obtain ⟨-, hk⟩ := Phase.locked.inj hphase
      obtain rfl := Stage.waiting.inj hk
      obtain ⟨h, hfound, hrunning⟩ := hw
      obtain rfl := Option.some.inj (hh.symm.trans hfound)
      exact absurd (hexit.symm.trans hrunning) nofun
  | launch hp => exact hs.launch hp _ _
  | @abandon pid lock k call h removed hp hh =>
      have hstopped : ¬ Writes (s.helps k
          { h with status := if removed ∧ h.status = .running then .exited false else h.status }) k := by
        rintro ⟨h', hk, hr⟩
        rcases find_helps hk with ⟨-, rfl⟩ | ⟨hne, -⟩
        · by_cases hrunning : h.status = .running
          · rcases hguard with rfl | hidle
            · simp [hrunning] at hr
            · exact hidle ⟨h, hh, hrunning⟩
          · simp [hrunning] at hr
        · exact hne rfl
      have hhelped : Exclusive (s.helps k
          { h with status := if removed ∧ h.status = .running then .exited false else h.status }) :=
        hs.helps fun hr => absurd ⟨_, Function.update_self .., hr⟩ hstopped
      refine hhelped.moves (fun id hid => ⟨⟨_, hp, hid⟩, ?_⟩) fun deadline id h => absurd h nofun
      refine hhelped.idle hp rfl fun k' hphase => ?_
      obtain ⟨-, hk⟩ := Phase.locked.inj hphase
      obtain rfl := Stage.waiting.inj hk
      exact hstopped
  | @release pid lock call result deleted hp =>
      have hmoved : Exclusive (s.moves pid ⟨call, .ended result⟩) := hs.leaves rfl nofun
      cases deleted with
      | false => exact hmoved
      | true =>
          refine hmoved.unlocked fun huse => ?_
          rcases huse with ⟨q, p, hq, hid⟩ | ⟨k, h, hk, hr, -⟩
          · rcases find_moves hq with ⟨rfl, rfl⟩ | ⟨hne, hq⟩
            · exact absurd hid nofun
            · exact hne (hs.owner q pid _ _ ⟨p, hq, hid⟩ ⟨_, hp, rfl⟩)
          · exact hs.idle hp rfl (fun k h => absurd h nofun) k ⟨h, hk, hr⟩
  | @remove k h path wipe done hh hrunning hwipe =>
      have hhelped : Exclusive (s.helps k { h with wipe := wipe }) := hs.helps fun _ => ⟨h, hh, hrunning, rfl⟩
      exact hhelped.volume _
  | @copy k h file todo outcome hh hrunning hwipe htodo =>
      have hhelped : Exclusive (s.helps k { h with todo := todo }) := hs.helps fun _ => ⟨h, hh, hrunning, rfl⟩
      exact hhelped.volume _
  | @stamp k h outcome hh hrunning hwipe htodo =>
      have hhelped : Exclusive (s.helps k { h with status := .exited (outcome = .done) }) :=
        hs.helps fun hr => absurd hr HelperStatus.noConfusion
      exact hhelped.volume _
  | die hh hrunning => exact hs.helps fun hr => absurd hr HelperStatus.noConfusion
  | elapse duration =>
      refine ⟨fun id h => ?_, hs.owner, hs.waits, hs.single, hs.stale, hs.fresh⟩
      obtain ⟨l, hl, rfl, -⟩ := hs.held id h
      exact ⟨l, hl, rfl, hguard l hl h⟩

end Exclusion

/-- What stamps rest on: the calls list what their image has and agree on it,
and a running helper has copied, whole and in order, what it has not to do yet. -/
structure Stamped (s : State) : Prop where
  complete : ∀ call, Asked s call → StampedFor s.volume call → Complete s.volume call
  proper : ∀ call, Asked s call → Proper call
  agree : ∀ a b, Asked s a → Asked s b → imageIdsMatch a.image.id b.image.id = true → copies a = copies b
  progress : ∀ k h, s.helpers k = some h → h.status = .running →
    Asked s h.call ∧ ∃ files, copies h.call = files ++ h.todo ∧ Holds s.volume files ∧ (h.wipe ≠ [] → files = [])

section Stamps

variable {s : State} {pid k : Uuid} {call : Call} {p p' : Populator} {h h' : Helper}

theorem asked_moves (hp : s.populators pid = some p) (hcall : p'.call = p.call) :
    Asked (s.moves pid p') call ↔ Asked s call := by
  constructor
  · rintro ⟨q, p₀, hq, rfl⟩
    rcases find_moves hq with ⟨rfl, rfl⟩ | ⟨-, hq⟩
    · exact ⟨q, p, hp, hcall.symm⟩
    · exact ⟨q, p₀, hq, rfl⟩
  · rintro ⟨q, p₀, hq, rfl⟩
    by_cases hpid : q = pid
    · subst hpid
      obtain rfl := Option.some.inj (hp.symm.trans hq)
      exact ⟨q, p', by simp only [State.moves, Function.update_self], hcall⟩
    · exact ⟨q, p₀, by simp only [State.moves, Function.update_of_ne hpid, hq], rfl⟩

theorem Stamped.moves (hs : Stamped s) (hp : s.populators pid = some p) (hcall : p'.call = p.call) :
    Stamped (s.moves pid p') where
  complete call hasked := hs.complete call ((asked_moves hp hcall).mp hasked)
  proper call hasked := hs.proper call ((asked_moves hp hcall).mp hasked)
  agree a b ha hb := hs.agree a b ((asked_moves hp hcall).mp ha) ((asked_moves hp hcall).mp hb)
  progress k h hk hr := (hs.progress k h hk hr).imp_left (asked_moves hp hcall).mpr

theorem Stamped.helps (hs : Stamped s)
    (hprogress : h'.status = .running → Asked s h'.call ∧
      ∃ files, copies h'.call = files ++ h'.todo ∧ Holds s.volume files ∧ (h'.wipe ≠ [] → files = [])) :
    Stamped (s.helps k h') := by
  refine ⟨hs.complete, hs.proper, hs.agree, fun j h hj hr => ?_⟩
  rcases find_helps hj with ⟨-, rfl⟩ | ⟨-, hj⟩
  · exact hprogress hr
  · exact hs.progress j h hj hr

theorem Stamped.writes (hs : Stamped s) (hexclusive : Exclusive s) (hk : Writes s k) {v : Volume}
    (hcomplete : ∀ call, Asked s call → StampedFor v call → Complete v call)
    (hprogress : h'.status = .running → Asked s h'.call ∧
      ∃ files, copies h'.call = files ++ h'.todo ∧ Holds v files ∧ (h'.wipe ≠ [] → files = [])) :
    Stamped { s.helps k h' with volume := v } := by
  refine ⟨hcomplete, hs.proper, hs.agree, fun j h hj hr => ?_⟩
  rcases find_helps hj with ⟨-, rfl⟩ | ⟨hne, hj⟩
  · exact hprogress hr
  · exact absurd (hexclusive.single j k ⟨h, hj, hr⟩ hk) hne

theorem Stamped.complete_of_unvouched (hs : Stamped s) {v : Volume}
    (hstamp : v.find stampPath = s.volume.find stampPath)
    (hfind : ∀ path, Vouched s path → v.find path = s.volume.find path) (call : Call) (hasked : Asked s call)
    (hstamped : StampedFor v call) : Complete v call := by
  have hold := hstamped.congr hstamp
  have hcomplete := hs.complete call hasked hold
  exact ⟨hcomplete.exist, hcomplete.copied.of_find fun path hpath => hfind path ⟨call, hasked, hold, hpath⟩⟩

theorem not_stampedFor_of_none {v : Volume} (h : v.find stampPath = none) (call : Call) : ¬ StampedFor v call := by
  rintro ⟨stamp, hstamp, -⟩
  rw [stampOf, h] at hstamp
  cases hstamp

theorem stamped_arrive (hs : Stamped s) (hnew : s.populators pid = none) (phase : Phase)
    (hguard : Careful s (.arrive pid call)) : Stamped (s.moves pid ⟨call, phase⟩) := by
  obtain ⟨hproper, hdeserved, hagree⟩ := hguard
  have hasked (c : Call) (h : Asked (s.moves pid ⟨call, phase⟩) c) : c = call ∨ Asked s c := by
    obtain ⟨q, p, hq, rfl⟩ := h
    rcases find_moves hq with ⟨-, rfl⟩ | ⟨-, hq⟩
    · exact .inl rfl
    · exact .inr ⟨q, p, hq, rfl⟩
  have hkept (c : Call) (h : Asked s c) : Asked (s.moves pid ⟨call, phase⟩) c := by
    obtain ⟨q, p, hq, rfl⟩ := h
    have hne : q ≠ pid := by
      rintro rfl
      exact absurd (hnew.symm.trans hq) nofun
    exact ⟨q, p, by simp only [State.moves, Function.update_of_ne hne, hq], rfl⟩
  refine ⟨fun c hc hstamped => ?_, fun c hc => ?_, fun a b ha hb hmatch => ?_, fun k h hk hr => ?_⟩
  · rcases hasked c hc with rfl | hc
    · exact hdeserved hstamped
    · exact hs.complete c hc hstamped
  · rcases hasked c hc with rfl | hc
    · exact hproper
    · exact hs.proper c hc
  · rcases hasked a ha with ha' | ha'
    · rcases hasked b hb with hb' | hb'
      · rw [ha', hb']
      · rw [ha'] at hmatch ⊢
        exact (hagree b hb' (.inr hmatch)).symm
    · rcases hasked b hb with hb' | hb'
      · rw [hb'] at hmatch ⊢
        exact hagree a ha' (.inl hmatch)
      · exact hs.agree a b ha' hb' hmatch
  · exact (hs.progress k h hk hr).imp_left (hkept _)

theorem stamped_remove (hs : Stamped s) (hexclusive : Exclusive s) {path : Path} {wipe : List Path} (done : Bool)
    (hh : s.helpers k = some h) (hrunning : h.status = .running) (hwipe : h.wipe = path :: wipe)
    (hguard : ¬ Vouched s path) :
    Stamped { s.helps k { h with wipe := wipe } with volume := if done then s.volume.erase path else s.volume } := by
  obtain ⟨hasked, files, hcopies, -, hnone⟩ := hs.progress k h hh hrunning
  have hfiles : files = [] := hnone (by rw [hwipe]; exact List.cons_ne_nil _ _)
  refine hs.writes hexclusive ⟨h, hh, hrunning⟩ ?_ fun _ => ⟨hasked, files, hcopies, ?_, fun _ => hfiles⟩
  · cases done with
    | false => exact hs.complete
    | true =>
        by_cases hpath : path = stampPath
        · intro call _ hstamped
          exact absurd hstamped (not_stampedFor_of_none (hpath ▸ Table.find_erase_self _ _) call)
        · refine hs.complete_of_unvouched (Table.find_erase_of_ne (Ne.symm hpath)) fun path' hvouched => ?_
          refine Table.find_erase_of_ne ?_
          rintro rfl
          exact hguard hvouched
  · rw [hfiles]
    exact .nil _

theorem stamped_copy (hs : Stamped s) (hexclusive : Exclusive s) {file : File} {todo : List File}
    (hh : s.helpers k = some h) (hrunning : h.status = .running) (hwipe : h.wipe = []) (htodo : h.todo = file :: todo)
    (hguard : ¬ Vouched s file.path) :
    Stamped { s.helps k { h with todo := todo } with volume := put s.volume file } := by
  obtain ⟨hasked, files, hcopies, hholds, -⟩ := hs.progress k h hh hrunning
  have hmem : file ∈ copies h.call := by
    rw [hcopies, htodo]
    exact List.mem_append_right _ List.mem_cons_self
  have hpath := (hs.proper h.call hasked).unstamped file hmem
  refine hs.writes hexclusive ⟨h, hh, hrunning⟩ ?_ fun _ => ⟨hasked, files ++ [file], ?_, hholds.put file, ?_⟩
  · refine hs.complete_of_unvouched (by rw [find_put, if_neg (Ne.symm hpath)]) fun path hvouched => ?_
    rw [find_put, if_neg]
    rintro rfl
    exact hguard hvouched
  · rw [hcopies, htodo, List.append_assoc, List.singleton_append]
  · exact fun hne => absurd hwipe hne

theorem stamped_stamp (hs : Stamped s) (hexclusive : Exclusive s) (outcome : Outcome)
    (hh : s.helpers k = some h) (hrunning : h.status = .running) (htodo : h.todo = []) :
    Stamped { s.helps k { h with status := .exited (outcome = .done) } with
      volume := copied s.volume ⟨stampPath, .stamp h.call.image.id⟩ outcome } := by
  obtain ⟨hasked, files, hcopies, hholds, -⟩ := hs.progress k h hh hrunning
  rw [htodo, List.append_nil] at hcopies
  refine hs.writes hexclusive ⟨h, hh, hrunning⟩ ?_ fun hr => absurd hr HelperStatus.noConfusion
  cases outcome with
  | failed => exact hs.complete
  | torn =>
      rintro call - ⟨stamp, hstamp, hmatch⟩
      rw [copied, stampOf, find_put, if_pos rfl] at hstamp
      obtain rfl := Option.some.inj hstamp
      exact absurd hmatch Bool.false_ne_true
  | done =>
      rintro call hcall ⟨stamp, hstamp, hmatch⟩
      rw [copied, stampOf, find_put, if_pos rfl] at hstamp
      obtain rfl := Option.some.inj hstamp
      have hproper := hs.proper call hcall
      refine ⟨hproper.exist, ?_⟩
      rw [← hs.agree h.call call hasked hcall hmatch, hcopies]
      refine hholds.of_find fun path hpath => ?_
      obtain ⟨file, hfile⟩ := Option.isSome_iff_exists.mp hpath
      obtain ⟨hmem, rfl⟩ := mem_of_lastOf hfile
      have hne := (hs.proper h.call hasked).unstamped file (hcopies ▸ hmem)
      rw [copied, find_put, if_neg hne]

theorem stamped_step {t : State} {event : Event} (hs : Stamped s) (hexclusive : Exclusive s)
    (hguard : Careful s event) (hstep : Step s event t) : Stamped t := by
  cases hstep with
  | arrive call hnew => exact stamped_arrive hs hnew .starting hguard
  | reuse hp | miss hp | conflict hp | refused hp | timeOut hp | inspect hp | stale hp | retry hp | recheck hp
  | repopulate hp | launchFailed hp | collect hp | collectFailed hp | readBack hp | readBackFailed hp | crash hp =>
      exact hs.moves hp rfl
  | @acquire pid call deadline hp =>
      have h : Stamped (s.moves pid ⟨call, .locked s.nextId .checking⟩) := hs.moves hp rfl
      exact ⟨h.complete, h.proper, h.agree, h.progress⟩
  | @removeStale pid call deadline id deleted hp =>
      have h : Stamped (s.moves pid ⟨call, .acquiring deadline⟩) := hs.moves hp rfl
      exact ⟨h.complete, h.proper, h.agree, h.progress⟩
  | @release pid lock call result deleted hp =>
      have h : Stamped (s.moves pid ⟨call, .ended result⟩) := hs.moves hp rfl
      exact ⟨h.complete, h.proper, h.agree, h.progress⟩
  | @launch pid lock call hp =>
      have hmoved : Stamped (s.moves pid ⟨call, .locked lock (.waiting s.nextId)⟩) := hs.moves hp rfl
      have hasked : Asked (s.moves pid ⟨call, .locked lock (.waiting s.nextId)⟩) call :=
        ⟨pid, _, Function.update_self .., rfl⟩
      have h : Stamped ((s.moves pid ⟨call, .locked lock (.waiting s.nextId)⟩).helps s.nextId
          ⟨lock, call, wiped s.volume, copies call, .running⟩) :=
        hmoved.helps fun _ => ⟨hasked, [], rfl, .nil _, fun _ => rfl⟩
      exact ⟨h.complete, h.proper, h.agree, h.progress⟩
  | @abandon pid lock k call h removed hp hh =>
      have hmoved : Stamped (s.moves pid ⟨call, .locked lock (.releasing .error)⟩) := hs.moves hp rfl
      refine hmoved.helps fun hr => hmoved.progress k h hh ?_
      by_contra hstopped
      simp [hstopped] at hr
  | remove done hh hrunning hwipe => exact stamped_remove hs hexclusive done hh hrunning hwipe hguard
  | copy outcome hh hrunning hwipe htodo =>
      obtain ⟨rfl, hguard⟩ := hguard
      exact stamped_copy hs hexclusive hh hrunning hwipe htodo hguard
  | stamp outcome hh hrunning hwipe htodo => exact stamped_stamp hs hexclusive outcome hh hrunning htodo
  | die hh hrunning => exact hs.helps fun hr => absurd hr HelperStatus.noConfusion
  | elapse duration => exact ⟨hs.complete, hs.proper, hs.agree, hs.progress⟩

def EndsStamped (s : State) : Prop :=
  ∀ pid p stamped, s.populators pid = some p → p.phase.result = some (.manifest stamped) → stamped = true

theorem EndsStamped.moves (hs : EndsStamped s)
    (hresult : ∀ stamped, p'.phase.result = some (.manifest stamped) → stamped = true) : EndsStamped (s.moves pid p') := by
  intro q p stamped hq hphase
  rcases find_moves hq with ⟨-, rfl⟩ | ⟨-, hq⟩
  · exact hresult stamped hphase
  · exact hs q p stamped hq hphase

theorem endsStamped_step {t : State} {event : Event} (hs : EndsStamped s) (hstep : Step s event t) : EndsStamped t := by
  cases hstep with
  | arrive | miss | acquire | conflict | refused | timeOut | inspect | stale | retry | removeStale | repopulate
  | launch | launchFailed | collect | collectFailed | abandon | readBackFailed | crash =>
      exact hs.moves nofun
  | reuse hp hread | recheck hp hread | readBack hp hread =>
      refine hs.moves fun stamped hresult => ?_
      rw [← Result.manifest.inj (Option.some.inj hresult)]
      exact stampPresent_of_read hread
  | release deleted hp => exact hs.moves fun stamped hresult => hs _ _ stamped hp hresult
  | remove | copy | stamp | die | elapse => exact hs

end Stamps

theorem exclusive_begin (now : Instant) (volume : Volume) (leftover : Option Instant) :
    Exclusive (.begin now volume leftover) := by
  have hunused (id : Uuid) : ¬ InUse (.begin now volume leftover) id := by
    rintro (⟨pid, p, hp, -⟩ | ⟨k, h, hk, -⟩)
    · exact absurd hp nofun
    · exact absurd hk nofun
  refine ⟨fun id h => absurd h (hunused id), fun pid _ _ _ ⟨_, hp, _⟩ _ => absurd hp nofun,
    fun pid p id k hp _ _ => absurd hp nofun, fun k _ ⟨_, hk, _⟩ _ => absurd hk nofun,
    fun pid p deadline id hp _ => absurd hp nofun, fun l hl => ?_⟩
  obtain ⟨created, -, rfl⟩ := Option.map_eq_some_iff.mp hl
  exact Nat.one_pos

theorem stamped_begin (now : Instant) (volume : Volume) (leftover : Option Instant) :
    Stamped (.begin now volume leftover) := by
  have hnone (call : Call) : ¬ Asked (.begin now volume leftover) call := fun ⟨_, _, hp, _⟩ => absurd hp nofun
  exact ⟨fun call h => absurd h (hnone call), fun call h => absurd h (hnone call), fun a _ h => absurd h (hnone a),
    fun k h hk => absurd hk nofun⟩

theorem laws_of_reaches {s t : State} (hs : Exclusive s ∧ Stamped s ∧ EndsStamped s) (h : Reaches Careful s t) :
    Exclusive t ∧ Stamped t ∧ EndsStamped t := by
  induction h with
  | refl => exact hs
  | step _ hguard hstep ih =>
      obtain ⟨hexclusive, hstamped, hends⟩ := ih
      exact ⟨exclusive_step hexclusive hguard hstep, stamped_step hstamped hexclusive hguard hstep,
        endsStamped_step hends hstep⟩

/-- From any volume, in every state that careful steps lead to, population is
all or nothing. -/
theorem population_all_or_nothing (now : Instant) (volume : Volume) (leftover : Option Instant) (s : State)
    (h : Reaches Careful (.begin now volume leftover) s) : AllOrNothing s := by
  obtain ⟨hexclusive, hstamped, hends⟩ := laws_of_reaches
    ⟨exclusive_begin now volume leftover, stamped_begin now volume leftover, fun _ _ _ hp => absurd hp nofun⟩ h
  exact ⟨hstamped.complete, hexclusive.single, hends⟩

def toolFile : File := ⟨⟨"bin", ["tool"]⟩, .text "tool"⟩

def manifestFile : File := ⟨manifestPath, .json "manifest"⟩

def sampleCall : Call where
  image := { id := some ⟨some "sha256", "ab12"⟩, tree := fun _ => some [toolFile, manifestFile] }
  mountPaths := ["/opt/nuke"]

theorem copying_reached (guard : State → Event → Prop)
    (harrive : guard (.begin 0 (Table.empty _) none) (.arrive 1 sampleCall))
    (hadvance : ∀ s, guard s (.advance 1)) :
    ∃ s, Reaches guard (.begin 0 (Table.empty _) none) s ∧ Asked s sampleCall ∧ s.volume = Table.empty _ ∧
      s.helpers 2 = some ⟨1, sampleCall, [], [toolFile, manifestFile], .running⟩ ∧ s.lock = some ⟨1, 0⟩ ∧
      ∀ pid, s.populators pid = if pid = 1 then some ⟨sampleCall, .locked 1 (.waiting 2)⟩ else none := by
  refine ⟨_, ((((Reaches.refl.step harrive (.arrive sampleCall rfl)).step (hadvance _) (.miss rfl)).step (hadvance _)
    (.acquire rfl rfl)).step (hadvance _) (.repopulate rfl)).step (hadvance _) (.launch rfl), ⟨1, _, rfl, rfl⟩, rfl, rfl,
    rfl, fun pid => ?_⟩
  by_cases hpid : pid = 1
  · subst hpid
    rfl
  · simp only [State.begin, State.moves, State.helps, Function.update_of_ne hpid, if_neg hpid]

/-- The tool is lost in copying, the script goes on, and the stamp is written. -/
theorem stamped_over_lost_file :
    ¬ ∀ now volume leftover s, Reaches InTime (.begin now volume leftover) s → AllOrNothing s := by
  intro hall
  obtain ⟨s, hreaches, hasked, hvolume, hhelper, -⟩ := copying_reached InTime trivial fun _ => trivial
  have hlost := hreaches.step (e := .copy 2 toolFile .failed) trivial (.copy .failed hhelper rfl rfl rfl)
  have hcopied := hlost.step (e := .copy 2 manifestFile .done) trivial
    (.copy (h := ⟨1, sampleCall, [], [manifestFile], .running⟩) .done rfl rfl rfl rfl)
  have hstamped := hcopied.step (e := .stamp 2 .done) trivial
    (.stamp (h := ⟨1, sampleCall, [], [], .running⟩) .done rfl rfl rfl rfl)
  have hcomplete := (hall _ _ _ _ hstamped).complete sampleCall hasked
    ⟨.stamp sampleCall.image.id, by simp only [hvolume, copied]; rfl, by decide⟩
  have htool := hcomplete.copied toolFile.path (by decide +kernel)
  simp only [hvolume, copied] at htool
  exact absurd htool (by decide +kernel)

/-- Where nothing is lost the same call ends with all of it under the stamp. A second one, which
comes while the copying goes on, finds the lock taken. -/
theorem population_all_or_nothing_sample :
    ∃ s, Reaches Careful (.begin 0 (Table.empty _) none) s ∧ stampPresent s.volume = true ∧
      (∃ deadline, s.populators 2 = some ⟨sampleCall, .conflicted deadline⟩) ∧ AllOrNothing s := by
  have hproper : Proper sampleCall := ⟨fun _ _ => rfl, by decide +kernel⟩
  obtain ⟨s, hreaches, -, hvolume, hhelper, hlock, hpopulators⟩ := copying_reached Careful
    ⟨hproper, fun h => absurd h (not_stampedFor_of_none rfl _), fun other ⟨_, _, h, _⟩ => absurd h nofun⟩ fun _ => trivial
  have hunvouched (t : State) (path : Path) (h : t.volume.find stampPath = none) : ¬ Vouched t path :=
    fun ⟨call, _, hstamped, _⟩ => not_stampedFor_of_none h call hstamped
  have hasked (other : Call) (h : Asked s other) : other = sampleCall := by
    obtain ⟨pid, p, hp, rfl⟩ := h
    rw [hpopulators] at hp
    split at hp
    · obtain rfl := Option.some.inj hp
      rfl
    · cases hp
  have harrived := hreaches.step (e := .arrive 2 sampleCall)
    ⟨hproper, fun h => absurd h (not_stampedFor_of_none (by rw [hvolume]; rfl) _), fun other h _ => by rw [hasked other h]⟩
    (.arrive sampleCall (hpopulators 2))
  have hmissed := harrived.step (e := .advance 2) trivial (.miss rfl)
  have hconflicted := hmissed.step (e := .advance 2) trivial (.conflict rfl hlock)
  have htool := hconflicted.step (e := .copy 2 toolFile .done)
    ⟨rfl, hunvouched _ _ (by simp only [State.moves, hvolume]; rfl)⟩ (.copy .done hhelper rfl rfl rfl)
  have hmanifest := htool.step (e := .copy 2 manifestFile .done)
    ⟨rfl, hunvouched _ _ (by simp only [State.moves, hvolume, copied]; decide +kernel)⟩
    (.copy (h := ⟨1, sampleCall, [], [manifestFile], .running⟩) .done rfl rfl rfl rfl)
  have hstamped := hmanifest.step (e := .stamp 2 .done) trivial
    (.stamp (h := ⟨1, sampleCall, [], [], .running⟩) .done rfl rfl rfl rfl)
  refine ⟨_, hstamped, ?_, ⟨_, rfl⟩, population_all_or_nothing 0 _ none _ hstamped⟩
  simp only [State.moves, hvolume, copied]
  decide +kernel

end NukeLab.ToolchainPopulation
