import NukeLab.HashSets
import NukeLab.Machine

namespace NukeLab.Broadcasts

open HashSets Machine

abbrev WebSocket := Nat

/-- The rooms and who is in them. A set that is made for a room gets a number of
its own, so that a room that was dropped and opened again is told apart. -/
structure Hub where
  connections : String → Option (Nat × HashSet WebSocket)
  fresh : Nat
  below : ∀ room n s, connections room = some (n, s) → n < fresh

namespace Hub

def Joined (hub : Hub) (room : String) (ws : WebSocket) : Prop := ∃ n s, hub.connections room = some (n, s) ∧ ws ∈ s

/-- The room is dropped with its last socket. -/
def remaining (ws : WebSocket) (entry : Nat × HashSet WebSocket) : Option (Nat × HashSet WebSocket) :=
  if (entry.2.discard ws).size = 0 then none else some (entry.1, entry.2.discard ws)

theorem remaining_eq_some {ws : WebSocket} {entry : Nat × HashSet WebSocket} {n : Nat} {s : HashSet WebSocket}
    (h : remaining ws entry = some (n, s)) : n = entry.1 ∧ s = entry.2.discard ws := by
  rw [remaining] at h
  split at h
  · exact nomatch h
  · cases h
    exact ⟨rfl, rfl⟩

def leaveWhere (hub : Hub) (rooms : String → Bool) (ws : WebSocket) : Hub where
  connections room := if rooms room then (hub.connections room).bind (remaining ws) else hub.connections room
  fresh := hub.fresh
  below room n s h := by
    split at h
    · obtain ⟨entry, hentry, hremaining⟩ := Option.bind_eq_some_iff.mp h
      rw [(remaining_eq_some hremaining).1]
      exact hub.below room _ _ hentry
    · exact hub.below room n s h

def leave (hub : Hub) (room : String) (ws : WebSocket) : Hub := hub.leaveWhere (· = room) ws

def leaveAll (hub : Hub) (ws : WebSocket) : Hub := hub.leaveWhere (fun _ => true) ws

def join (hub : Hub) (placing : Placing WebSocket) (room : String) (ws : WebSocket) : Hub where
  connections := Function.update hub.connections room
    (match hub.connections room with
      | some (n, s) => some (n, s.add placing ws)
      | none => some (hub.fresh, HashSet.empty.add placing ws))
  fresh := hub.fresh + 1
  below other n s h := by
    by_cases hroom : other = room
    · subst hroom
      rw [Function.update_self] at h
      split at h
      · rename_i hentry
        cases h
        exact Nat.lt_succ_of_lt (hub.below _ _ _ hentry)
      · cases h
        exact Nat.lt_succ_self _
    · rw [Function.update_of_ne hroom] at h
      exact Nat.lt_succ_of_lt (hub.below _ _ _ h)

end Hub

inductive Event
  | subscribe (room : String) (ws : WebSocket) (placing : Placing WebSocket)
  | unsubscribe (room : String) (ws : WebSocket)
  | disconnect (ws : WebSocket)

def Hub.apply (hub : Hub) : Event → Hub
  | .subscribe room ws placing => hub.join placing room ws
  | .unsubscribe room ws => hub.leave room ws
  | .disconnect ws => hub.leaveAll ws

inductive Broadcast
  | metric (serverId : Option String)
  | userEvent (userId : Option String)
  | globalEvent
  | systemMetric

/-- A name that is missing or empty names no room. -/
def named (kind : String) (id : Option String) : List String :=
  match id with
  | none => []
  | some id => if id = "" then [] else [kind ++ ":" ++ id]

def Broadcast.rooms : Broadcast → List String
  | .metric serverId => named "server" serverId ++ ["global"]
  | .userEvent userId => named "user" userId
  | .globalEvent | .systemMetric => ["global"]

/-- A walk of a set: how many it held at the start, and how far the walk has come. -/
structure Walk where
  room : String
  number : Nat
  size : Nat
  pos : Nat

/-- The set that is walked. One that was dropped is empty, and stays so. -/
def Hub.walked (hub : Hub) (walk : Walk) : HashSet WebSocket :=
  match hub.connections walk.room with
  | some (n, s) => if n = walk.number then s else .empty
  | none => .empty

inductive Phase
  | sending (walk : Walk) (ws : WebSocket) (todo : List String)
  | finished
  | raised

structure Send where
  room : String
  ws : WebSocket
  sent : Bool

structure State where
  hub : Hub
  log : List Send
  phase : Phase

def enter (hub : Hub) : List String → Phase
  | [] => .finished
  | room :: todo =>
    match hub.connections room with
    | none => enter hub todo
    | some (n, s) =>
      match s.next 0 with
      | none => enter hub todo
      | some (i, ws) => .sending ⟨room, n, s.size, i + 1⟩ ws todo

/-- To the next send: a walk raises when the set has changed its size. -/
def advance (hub : Hub) (walk : Walk) (todo : List String) : Phase :=
  let s := hub.walked walk
  if s.size ≠ walk.size then .raised
  else
    match s.next walk.pos with
    | none => enter hub todo
    | some (i, ws) => .sending { walk with pos := i + 1 } ws todo

def cleanupDisconnected (hub : Hub) (log : List Send) : Hub :=
  (log.filter fun send => ¬ send.sent).foldl (fun hub send => hub.leave send.room send.ws) hub

def start (b : Broadcast) (hub : Hub) : State := ⟨hub, [], enter hub b.rooms⟩

/-- One wait for a send: what happens meanwhile, and how it ends. -/
structure Await where
  events : List Event
  sent : Bool

/-- The broadcast goes on when a send has ended. What it raises skips the rooms that
are left and the removal of the sockets that failed. -/
def resume : Step State Await := fun s a =>
  match s.phase with
  | .sending walk ws todo =>
    let hub := a.events.foldl Hub.apply s.hub
    let log := s.log ++ [⟨walk.room, ws, a.sent⟩]
    match advance hub walk todo with
    | .finished => some ⟨cleanupDisconnected hub log, log, .finished⟩
    | phase => some ⟨hub, log, phase⟩
  | _ => none

theorem resume_cases {s t : State} {a : Await} (hr : resume s a = some t) :
    ∃ walk ws todo, s.phase = .sending walk ws todo ∧ t.log = s.log ++ [⟨walk.room, ws, a.sent⟩] ∧
      t.phase = advance (a.events.foldl Hub.apply s.hub) walk todo ∧
      (t.phase = .finished → t.hub = cleanupDisconnected (a.events.foldl Hub.apply s.hub) t.log) ∧
      (t.phase ≠ .finished → t.hub = a.events.foldl Hub.apply s.hub) := by
  cases hphase : s.phase with
  | sending walk ws todo =>
      refine ⟨walk, ws, todo, rfl, ?_⟩
      simp only [resume, hphase] at hr
      split at hr
      · rename_i hfinished
        cases hr
        exact ⟨rfl, hfinished.symm, fun _ => rfl, fun h => absurd rfl h⟩
      · rename_i hunfinished
        cases hr
        exact ⟨rfl, rfl, fun h => absurd h hunfinished, fun _ => rfl⟩
  | finished | raised =>
      rw [resume, hphase] at hr
      exact nomatch hr

/-- The members that remain in the walked set are where they were. -/
def KeepsSlots (walk : Walk) (hub hub' : Hub) : Prop :=
  ∀ (i : Nat) (ws : WebSocket), (hub.walked walk).slots[i]? = some (some ws) → ws ∈ hub'.walked walk →
    (hub'.walked walk).slots[i]? = some (some ws)

def Unmoved (walk : Walk) : Hub → List Event → Prop
  | _, [] => True
  | hub, e :: events => KeepsSlots walk hub (hub.apply e) ∧ Unmoved walk (hub.apply e) events

/-- The set that is walked has its size again when the send ends, and its members
have kept their places. -/
def Steady (s : State) (a : Await) : Prop :=
  ∀ walk ws todo, s.phase = .sending walk ws todo →
    Unmoved walk s.hub a.events ∧ ((a.events.foldl Hub.apply s.hub).walked walk).size = walk.size

def Event.Removes (room : String) (ws : WebSocket) : Event → Prop
  | .subscribe _ _ _ => False
  | .unsubscribe room' ws' => room' = room ∧ ws' = ws
  | .disconnect ws' => ws' = ws

def Stays (hub : Hub) (awaits : List Await) (room : String) (ws : WebSocket) : Prop :=
  hub.Joined room ws ∧ ∀ a ∈ awaits, ∀ e ∈ a.events, ¬ e.Removes room ws

def sendsTo (room : String) (ws : WebSocket) (log : List Send) : List Send :=
  log.filter fun send => send.room = room ∧ send.ws = ws

def State.Over (s : State) : Prop := s.phase = .finished ∨ s.phase = .raised

structure Delivers (b : Broadcast) (hub : Hub) (awaits : List Await) (t : State) : Prop where
  once : ∀ room ∈ b.rooms, ∀ ws, Stays hub awaits room ws → ∃ sent, sendsTo room ws t.log = [⟨room, ws, sent⟩]
  removed : ∀ send ∈ t.log, send.sent = false → ¬ t.hub.Joined send.room send.ws

theorem steady_of_phase {s : State} {a : Await} {walk : Walk} {ws : WebSocket} {todo : List String}
    (hphase : s.phase = .sending walk ws todo)
    (h : Unmoved walk s.hub a.events ∧ ((a.events.foldl Hub.apply s.hub).walked walk).size = walk.size) : Steady s a := by
  intro walk' ws' todo' hphase'
  cases hphase.symm.trans hphase'
  exact h

section Membership

variable {hub : Hub} {room : String} {ws : WebSocket} {walk : Walk}

theorem leaveWhere_keeps {rooms : String → Bool} {other : WebSocket} {n : Nat} {s : HashSet WebSocket}
    (h : hub.connections room = some (n, s)) (hmem : ws ∈ s) (hother : rooms room = true → other ≠ ws) :
    ∃ s', (hub.leaveWhere rooms other).connections room = some (n, s') ∧ ws ∈ s' := by
  cases hroom : rooms room with
  | false => exact ⟨s, by simp [Hub.leaveWhere, hroom, h], hmem⟩
  | true =>
      have hstays : ws ∈ s.discard other := HashSet.mem_discard.mpr ⟨hmem, (hother hroom).symm⟩
      refine ⟨s.discard other, ?_, hstays⟩
      simp [Hub.leaveWhere, hroom, h, Hub.remaining, HashSet.size_ne_zero hstays]

theorem apply_keeps {e : Event} {n : Nat} {s : HashSet WebSocket} (h : hub.connections room = some (n, s)) (hmem : ws ∈ s)
    (he : ¬ e.Removes room ws) : ∃ s', (hub.apply e).connections room = some (n, s') ∧ ws ∈ s' := by
  cases e with
  | subscribe room' ws' placing =>
      by_cases hroom : room = room'
      · subst hroom
        refine ⟨s.add placing ws', ?_, HashSet.mem_add.mpr (.inr hmem)⟩
        simp [Hub.apply, Hub.join, h]
      · exact ⟨s, by simp [Hub.apply, Hub.join, Function.update_of_ne hroom, h], hmem⟩
  | unsubscribe room' ws' =>
      refine leaveWhere_keeps h hmem fun hroom hws => he ⟨?_, hws⟩
      exact (of_decide_eq_true hroom).symm
  | disconnect ws' => exact leaveWhere_keeps h hmem fun _ hws => he hws

theorem connections_of_mem_walked (h : ws ∈ hub.walked walk) :
    hub.connections walk.room = some (walk.number, hub.walked walk) := by
  obtain ⟨i, hi⟩ := h
  rw [Hub.walked] at hi ⊢
  split at hi
  · rename_i n s hentry
    split at hi
    · rename_i hn
      rw [hentry]
      simp [hn]
    · simp [HashSet.empty] at hi
  · simp [HashSet.empty] at hi

theorem walked_of_connections {s : HashSet WebSocket} (h : hub.connections walk.room = some (walk.number, s)) :
    hub.walked walk = s := by
  simp [Hub.walked, h]

theorem apply_joined {e : Event} (h : hub.Joined room ws) (he : ¬ e.Removes room ws) : (hub.apply e).Joined room ws := by
  obtain ⟨n, s, hentry, hmem⟩ := h
  obtain ⟨s', hentry', hmem'⟩ := apply_keeps hentry hmem he
  exact ⟨n, s', hentry', hmem'⟩

theorem events_joined {events : List Event} (h : hub.Joined room ws) (he : ∀ e ∈ events, ¬ e.Removes room ws) :
    (events.foldl Hub.apply hub).Joined room ws := by
  induction events generalizing hub with
  | nil => exact h
  | cons e events ih =>
      exact ih (apply_joined h (he e List.mem_cons_self)) fun e' he' => he e' (List.mem_cons_of_mem _ he')

theorem events_slot {events : List Event} {i : Nat} (h : (hub.walked walk).slots[i]? = some (some ws))
    (hmoved : Unmoved walk hub events) (he : ∀ e ∈ events, ¬ e.Removes walk.room ws) :
    ((events.foldl Hub.apply hub).walked walk).slots[i]? = some (some ws) := by
  induction events generalizing hub with
  | nil => exact h
  | cons e events ih =>
      obtain ⟨hkeeps, hmoved⟩ := hmoved
      obtain ⟨s', hentry, hmem⟩ := apply_keeps (connections_of_mem_walked ⟨i, h⟩) ⟨i, h⟩ (he e List.mem_cons_self)
      refine ih (hkeeps i ws h ?_) hmoved fun e' he' => he e' (List.mem_cons_of_mem _ he')
      rwa [walked_of_connections hentry]

end Membership

/-- How far a walk has come with one socket of one room: how often it was sent
the message, and where it is while another is waited for. -/
inductive Place (room : String) (ws : WebSocket) (hub : Hub) (walk : Walk) (w : WebSocket) (todo : List String) : Nat → Prop
  | passed (i : Nat) (hroom : walk.room = room) (htodo : room ∉ todo) (hslot : (hub.walked walk).slots[i]? = some (some ws))
      (hi : i + 1 < walk.pos) (hw : w ≠ ws) : Place room ws hub walk w todo 1
  | current (i : Nat) (hroom : walk.room = room) (htodo : room ∉ todo) (hslot : (hub.walked walk).slots[i]? = some (some ws))
      (hi : i + 1 = walk.pos) (hw : w = ws) : Place room ws hub walk w todo 0
  | ahead (i : Nat) (hroom : walk.room = room) (htodo : room ∉ todo) (hslot : (hub.walked walk).slots[i]? = some (some ws))
      (hi : walk.pos ≤ i) (hw : w ≠ ws) : Place room ws hub walk w todo 0
  | waiting (hroom : walk.room ≠ room) (htodo : room ∈ todo) : Place room ws hub walk w todo 0
  | done (hroom : walk.room ≠ room) (htodo : room ∉ todo) : Place room ws hub walk w todo 1

inductive Progress (room : String) (ws : WebSocket) (hub : Hub) : Nat → Phase → Prop
  | sending {walk : Walk} {w : WebSocket} {todo : List String} {count : Nat} (hnodup : todo.Nodup)
      (hplace : Place room ws hub walk w todo count) : Progress room ws hub count (.sending walk w todo)
  | finished : Progress room ws hub 1 .finished

section Walks

variable {hub : Hub} {room : String} {ws : WebSocket}

theorem sending_of_progress {walk : Walk} {w : WebSocket} {todo : List String} {count : Nat}
    (h : Progress room ws hub count (.sending walk w todo)) : todo.Nodup ∧ Place room ws hub walk w todo count := by
  cases h with
  | sending hnodup hplace => exact ⟨hnodup, hplace⟩

theorem count_of_finished {count : Nat} (h : Progress room ws hub count .finished) : count = 1 := by
  cases h
  rfl

theorem place_next {walk : Walk} {s : HashSet WebSocket} {i j : Nat} {w : WebSocket} {todo : List String}
    (hwalked : hub.walked walk = s) (hroom : walk.room = room) (htodo : room ∉ todo) (hslot : s.slots[i]? = some (some ws))
    (hi : walk.pos ≤ i) (hnext : s.next walk.pos = some (j, w)) :
    Place room ws hub { walk with pos := j + 1 } w todo 0 := by
  obtain ⟨-, hj, hfirst⟩ := HashSet.next_eq_some hnext
  have hslot' : (hub.walked { walk with pos := j + 1 }).slots[i]? = some (some ws) := by
    rw [← hwalked] at hslot
    exact hslot
  by_cases hij : i = j
  · subst hij
    exact .current i hroom htodo hslot' rfl (by simpa using hj.symm.trans hslot)
  · have hlt : j < i := Nat.lt_of_le_of_ne (hfirst i ws hi hslot) (Ne.symm hij)
    exact .ahead i hroom htodo hslot' hlt fun hw => hij (s.once i j ws hslot (hw ▸ hj))

theorem enter_progress (hjoined : hub.Joined room ws) {todo : List String} (hnodup : todo.Nodup) :
    Progress room ws hub (if room ∈ todo then 0 else 1) (enter hub todo) := by
  induction todo with
  | nil => exact .finished
  | cons other todo ih =>
      obtain ⟨hother, htail⟩ := List.nodup_cons.mp hnodup
      rw [enter]
      by_cases hroom : room = other
      · subst hroom
        obtain ⟨n, s, hentry, i, hi⟩ := hjoined
        rw [if_pos List.mem_cons_self, hentry]
        cases hnext : s.next 0 with
        | none => exact absurd hi (HashSet.next_eq_none hnext (Nat.zero_le i))
        | some found =>
            simp only [hnext]
            refine .sending htail ?_
            have hwalked : hub.walked ⟨room, n, s.size, 0⟩ = s := walked_of_connections hentry
            exact place_next hwalked rfl hother hi (Nat.zero_le i) hnext
      · have hmem : room ∈ other :: todo ↔ room ∈ todo := by simp [hroom]
        simp only [hmem]
        cases hub.connections other with
        | none => exact ih htail
        | some entry =>
            cases hnext : entry.2.next 0 with
            | none => simpa only [hnext] using ih htail
            | some found =>
                simp only [hnext]
                refine .sending htail ?_
                by_cases htodo : room ∈ todo
                · rw [if_pos htodo]
                  exact .waiting (Ne.symm hroom) htodo
                · rw [if_neg htodo]
                  exact .done (Ne.symm hroom) htodo

theorem advance_progress {walk : Walk} {w : WebSocket} {todo : List String} {count : Nat} (hjoined : hub.Joined room ws)
    (hnodup : todo.Nodup) (hplace : Place room ws hub walk w todo count) (hsize : (hub.walked walk).size = walk.size) :
    Progress room ws hub (if walk.room = room ∧ w = ws then count + 1 else count) (advance hub walk todo) := by
  have henter := enter_progress hjoined hnodup
  rw [advance, if_neg (not_not.mpr hsize)]
  cases hnext : (hub.walked walk).next walk.pos with
  | none =>
      dsimp only
      cases hplace with
      | passed i hroom htodo hslot hi hw => simpa [htodo, hroom, hw] using henter
      | current i hroom htodo hslot hi hw => simpa [htodo, hroom, hw] using henter
      | ahead i hroom htodo hslot hi hw => exact absurd hslot (HashSet.next_eq_none hnext hi)
      | waiting hroom htodo => simpa [htodo, hroom] using henter
      | done hroom htodo => simpa [htodo, hroom] using henter
  | some found =>
      obtain ⟨j, w'⟩ := found
      obtain ⟨hj, hfound, -⟩ := HashSet.next_eq_some hnext
      -- what lies behind the walk is not met again
      have hother {i : Nat} (hslot : (hub.walked walk).slots[i]? = some (some ws)) (hi : i < j) : w' ≠ ws := fun hw =>
        absurd ((hub.walked walk).once i j ws hslot (hw ▸ hfound)) (Nat.ne_of_lt hi)
      refine .sending hnodup ?_
      cases hplace with
      | passed i hroom htodo hslot hi hw =>
          rw [if_neg fun h => hw h.2]
          exact .passed i hroom htodo hslot (by dsimp only; omega) (hother hslot (by omega))
      | current i hroom htodo hslot hi hw =>
          rw [if_pos ⟨hroom, hw⟩]
          exact .passed i hroom htodo hslot (by dsimp only; omega) (hother hslot (by omega))
      | ahead i hroom htodo hslot hi hw =>
          rw [if_neg fun h => hw h.2]
          exact place_next rfl hroom htodo hslot hi hnext
      | waiting hroom htodo =>
          rw [if_neg fun h => hroom h.1]
          exact .waiting hroom htodo
      | done hroom htodo =>
          rw [if_neg fun h => hroom h.1]
          exact .done hroom htodo

theorem events_place {events : List Event} {walk : Walk} {w : WebSocket} {todo : List String} {count : Nat}
    (hplace : Place room ws hub walk w todo count) (hmoved : Unmoved walk hub events)
    (he : ∀ e ∈ events, ¬ e.Removes room ws) : Place room ws (events.foldl Hub.apply hub) walk w todo count := by
  cases hplace with
  | passed i hroom htodo hslot hi hw => exact .passed i hroom htodo (events_slot hslot hmoved (hroom ▸ he)) hi hw
  | current i hroom htodo hslot hi hw => exact .current i hroom htodo (events_slot hslot hmoved (hroom ▸ he)) hi hw
  | ahead i hroom htodo hslot hi hw => exact .ahead i hroom htodo (events_slot hslot hmoved (hroom ▸ he)) hi hw
  | waiting hroom htodo => exact .waiting hroom htodo
  | done hroom htodo => exact .done hroom htodo

theorem length_sendsTo_append (log : List Send) (send : Send) :
    (sendsTo room ws (log ++ [send])).length =
      if send.room = room ∧ send.ws = ws then (sendsTo room ws log).length + 1 else (sendsTo room ws log).length := by
  rw [sendsTo, List.filter_append, List.length_append, sendsTo]
  by_cases h : send.room = room ∧ send.ws = ws
  · simp [h]
  · simp only [if_neg h, List.filter_cons, decide_eq_false h, Bool.false_eq_true, if_false, List.filter_nil, List.length_nil,
      Nat.add_zero]

/-- What a run knows of a socket that stays: its place, and that it is there while sends go on. -/
structure Reached (room : String) (ws : WebSocket) (s : State) : Prop where
  progress : Progress room ws s.hub (sendsTo room ws s.log).length s.phase
  joined : s.phase ≠ .finished → s.hub.Joined room ws

theorem resume_reached {s t : State} {a : Await} (h : Reached room ws s) (hsteady : Steady s a)
    (he : ∀ e ∈ a.events, ¬ e.Removes room ws) (hr : resume s a = some t) : Reached room ws t := by
  obtain ⟨walk, w, todo, hphase, hlog, hnext, -, hhub⟩ := resume_cases hr
  obtain ⟨hprogress, hjoined⟩ := h
  rw [hphase] at hprogress
  obtain ⟨hmoved, hsize⟩ := hsteady walk w todo hphase
  obtain ⟨hnodup, hplace⟩ := sending_of_progress hprogress
  have hjoined' := events_joined (hjoined (by simp [hphase])) he
  have hprogress' := advance_progress hjoined' hnodup (events_place hplace hmoved he) hsize
  rw [← hnext, ← length_sendsTo_append s.log ⟨walk.room, w, a.sent⟩, ← hlog] at hprogress'
  by_cases hfinished : t.phase = .finished
  · rw [hfinished] at hprogress'
    refine ⟨?_, fun h => absurd hfinished h⟩
    rw [hfinished, count_of_finished hprogress']
    exact .finished
  · rw [← hhub hfinished] at hprogress' hjoined'
    exact ⟨hprogress', fun _ => hjoined'⟩

theorem run_reached {s t : State} {awaits : List Await} (h : Reached room ws s) (hsteady : AllSteps resume Steady s awaits)
    (he : ∀ a ∈ awaits, ∀ e ∈ a.events, ¬ e.Removes room ws) (hr : run resume s awaits = some t) : Reached room ws t := by
  induction awaits generalizing s with
  | nil =>
      cases hr
      exact h
  | cons a awaits ih =>
      obtain ⟨u, hu, hrest⟩ := Option.bind_eq_some_iff.mp hr
      obtain ⟨hstep, hsteady⟩ := hsteady u hu
      have hreached := resume_reached h hstep (he a List.mem_cons_self) hu
      exact ih hreached hsteady (fun a' ha' => he a' (List.mem_cons_of_mem _ ha')) hrest

end Walks

section Removal

theorem leave_joined {hub : Hub} {room room' : String} {ws ws' : WebSocket} (h : (hub.leave room ws).Joined room' ws') :
    hub.Joined room' ws' ∧ ¬ (room' = room ∧ ws' = ws) := by
  obtain ⟨n, s, hentry, hmem⟩ := h
  by_cases hroom : room' = room
  · simp only [Hub.leave, Hub.leaveWhere, hroom, decide_true, if_true] at hentry
    obtain ⟨entry, hentry, hremaining⟩ := Option.bind_eq_some_iff.mp hentry
    obtain ⟨-, rfl⟩ := Hub.remaining_eq_some hremaining
    obtain ⟨hmem, hne⟩ := HashSet.mem_discard.mp hmem
    exact ⟨⟨entry.1, entry.2, hroom ▸ ‹hub.connections room = some entry›, hmem⟩, fun h => hne h.2⟩
  · simp only [Hub.leave, Hub.leaveWhere, hroom, decide_false, Bool.false_eq_true, if_false] at hentry
    exact ⟨⟨n, s, hentry, hmem⟩, fun h => hroom h.1⟩

theorem cleanup_removes {hub : Hub} {log : List Send} {send : Send} (hmem : send ∈ log) (hfailed : send.sent = false) :
    ¬ (cleanupDisconnected hub log).Joined send.room send.ws := by
  have hleave (failed : List Send) (hub : Hub) :
      (failed.foldl (fun hub send => hub.leave send.room send.ws) hub).Joined send.room send.ws →
        hub.Joined send.room send.ws ∧ send ∉ failed := by
    induction failed generalizing hub with
    | nil => exact fun h => ⟨h, List.not_mem_nil⟩
    | cons first failed ih =>
        intro h
        obtain ⟨hjoined, hrest⟩ := ih _ h
        obtain ⟨hjoined, hne⟩ := leave_joined hjoined
        refine ⟨hjoined, fun hin => ?_⟩
        rcases List.mem_cons.mp hin with rfl | hin
        · exact hne ⟨rfl, rfl⟩
        · exact hrest hin
  exact fun h => (hleave _ _ h).2 (List.mem_filter.mpr ⟨hmem, by simp [hfailed]⟩)

def Cleaned (s : State) : Prop :=
  s.phase = .finished → ∀ send ∈ s.log, send.sent = false → ¬ s.hub.Joined send.room send.ws

theorem enter_not_raised (hub : Hub) (todo : List String) : enter hub todo ≠ .raised := by
  induction todo with
  | nil => exact nofun
  | cons room todo ih =>
      rw [enter]
      split
      · exact ih
      · split
        · exact ih
        · exact nofun

theorem resume_cleaned {s t : State} {a : Await} (hr : resume s a = some t) : Cleaned t := by
  obtain ⟨walk, ws, todo, -, -, -, hhub, -⟩ := resume_cases hr
  intro hfinished send hmem hfailed
  rw [hhub hfinished]
  exact cleanup_removes hmem hfailed

theorem resume_not_raised {s t : State} {a : Await} (hsteady : Steady s a) (hr : resume s a = some t) :
    t.phase ≠ .raised := by
  obtain ⟨walk, ws, todo, hphase, -, hnext, -, -⟩ := resume_cases hr
  rw [hnext, advance, if_neg (not_not.mpr (hsteady walk ws todo hphase).2)]
  split
  · exact enter_not_raised _ _
  · exact nofun

theorem run_cleaned {s t : State} {awaits : List Await} (hs : Cleaned s) (hraised : s.phase ≠ .raised)
    (hsteady : AllSteps resume Steady s awaits) (hr : run resume s awaits = some t) : Cleaned t ∧ t.phase ≠ .raised := by
  induction awaits generalizing s with
  | nil =>
      cases hr
      exact ⟨hs, hraised⟩
  | cons a awaits ih =>
      obtain ⟨u, hu, hrest⟩ := Option.bind_eq_some_iff.mp hr
      obtain ⟨hstep, hsteady⟩ := hsteady u hu
      exact ih (resume_cleaned hu) (resume_not_raised hstep hu) hsteady hrest

end Removal

/-- A set that has another size when a send ends breaks the broadcast off: no further
socket or room is served, and no socket that failed is taken out. -/
theorem resized_raises {s : State} {a : Await} {walk : Walk} {ws : WebSocket} {todo : List String}
    (hphase : s.phase = .sending walk ws todo)
    (hsize : ((a.events.foldl Hub.apply s.hub).walked walk).size ≠ walk.size) :
    resume s a = some ⟨a.events.foldl Hub.apply s.hub, s.log ++ [⟨walk.room, ws, a.sent⟩], .raised⟩ := by
  simp only [resume, hphase, advance, if_pos hsize]

theorem rooms_nodup (b : Broadcast) : b.rooms.Nodup := by
  have hserver (id : String) : "server:" ++ id ≠ "global" := by
    intro h
    simpa using congrArg String.toList h
  cases b with
  | metric serverId =>
      cases serverId with
      | none => simp [Broadcast.rooms, named]
      | some id => by_cases hid : id = "" <;> simp [Broadcast.rooms, named, hid, hserver]
  | userEvent userId =>
      cases userId with
      | none => simp [Broadcast.rooms, named]
      | some id => by_cases hid : id = "" <;> simp [Broadcast.rooms, named, hid]
  | globalEvent => simp [Broadcast.rooms]
  | systemMetric => simp [Broadcast.rooms]

/-- A broadcast under which no walked set changes its size, or has its table built
anew, delivers: each socket that stays is tried once, each that failed is taken out. -/
theorem broadcast_delivers (b : Broadcast) (hub : Hub) (awaits : List Await) (t : State)
    (hsteady : AllSteps resume Steady (start b hub) awaits) (hr : run resume (start b hub) awaits = some t) (hover : t.Over) :
    Delivers b hub awaits t := by
  obtain ⟨hcleaned, hraised⟩ := run_cleaned (s := start b hub) (fun _ _ h => absurd h List.not_mem_nil)
    (enter_not_raised hub b.rooms) hsteady hr
  have hfinished : t.phase = .finished := hover.resolve_right hraised
  refine ⟨fun room hroom ws hstays => ?_, hcleaned hfinished⟩
  have hstart := enter_progress hstays.1 (rooms_nodup b)
  rw [if_pos hroom] at hstart
  have hreached : Reached room ws t := run_reached ⟨hstart, fun _ => hstays.1⟩ hsteady hstays.2 hr
  have hprogress := hreached.progress
  rw [hfinished] at hprogress
  obtain ⟨send, hsend⟩ := List.length_eq_one_iff.mp (count_of_finished hprogress)
  have hmem : send ∈ sendsTo room ws t.log := hsend ▸ List.mem_singleton_self send
  have hto : send.room = room ∧ send.ws = ws := by simpa using (List.mem_filter.mp hmem).2
  obtain ⟨rfl, rfl⟩ := hto
  exact ⟨send.sent, hsend⟩

section TwoAdmins

def twoAdmins : Hub where
  connections room := if room = "global" then some (0, (HashSet.empty.append 1).append 2) else none
  fresh := 1
  below room n s h := by
    split at h
    · cases h
      exact Nat.one_pos
    · exact nomatch h

theorem twoAdmins_joined : twoAdmins.Joined "global" 1 ∧ twoAdmins.Joined "global" 2 :=
  ⟨⟨0, _, rfl, by decide⟩, ⟨0, _, rfl, by decide⟩⟩

/-- Sockets come to another room and leave it meanwhile, and the second one fails. -/
def elsewhere : List Await :=
  [⟨[.subscribe "server:7" 3 .last, .subscribe "server:7" 4 .last], true⟩,
    ⟨[.unsubscribe "server:7" 3, .disconnect 4], false⟩]

theorem broadcast_delivers_twoAdmins :
    ∃ t, run resume (start .globalEvent twoAdmins) elsewhere = some t ∧ Delivers .globalEvent twoAdmins elsewhere t := by
  refine ⟨_, rfl, broadcast_delivers .globalEvent twoAdmins _ _ ?_ rfl (.inl rfl)⟩
  refine .cons rfl (steady_of_phase rfl ⟨⟨?_, ?_, trivial⟩, rfl⟩) (.cons rfl (steady_of_phase rfl ⟨⟨?_, ?_, trivial⟩, rfl⟩) trivial) <;>
    exact fun _ _ hslot _ => hslot

/-- A third socket joins while the first is sent the message. -/
theorem join_stops_delivery :
    ¬ ∀ b hub awaits t, run resume (start b hub) awaits = some t → t.Over → Delivers b hub awaits t := by
  intro h
  obtain ⟨honce, -⟩ := h .globalEvent twoAdmins [⟨[.subscribe "global" 3 .last], true⟩] _ rfl (.inr rfl)
  obtain ⟨sent, hsent⟩ := honce "global" (by decide) 2 ⟨twoAdmins_joined.2, by simp [Event.Removes]⟩
  exact absurd (congrArg List.length hsent) Nat.zero_ne_one

end TwoAdmins

end NukeLab.Broadcasts
