import Mathlib.Algebra.Order.Ring.Nat
import Mathlib.Data.List.Basic
import Mathlib.Data.List.Induction
import Mathlib.Logic.Function.Basic

namespace NukeLab.FileSystems

abbrev Name := List Char

abbrev Path := List Name

inductive Entry (α : Type) where
  | dir
  | file (content : α)
  | link (target : List Char)
  deriving DecidableEq

/-- A name that stands for an entry, not for the directory itself or the one above. -/
def Proper (n : Name) : Prop := ¬ (n = [] ∨ n = ['.']) ∧ n ≠ ['.', '.']
  deriving Decidable

/-- What is found under a path; only directories have anything below them. -/
structure FileSystem (α : Type) where
  rows : List (Path × Entry α)
  root : rows.lookup [] = some .dir
  under : ∀ p n, rows.lookup (p ++ [n]) ≠ none → Proper n ∧ rows.lookup p = some .dir

variable {α : Type}

def FileSystem.entry (fs : FileSystem α) (p : Path) : Option (Entry α) := fs.rows.lookup p

def parts (text : List Char) : List Name := text.splitOn '/'

def start (path : Path) (target : List Char) : Path := if target.head? = some '/' then [] else path

def FileSystem.isDir (fs : FileSystem α) (p : Path) : Bool :=
  match fs.entry p with
  | some .dir => true
  | _ => false

/-- The system's own path resolution, by which at most so many links are followed. -/
def walk (fs : FileSystem α) (links : Nat) (path : Path) : List Name → Option Path
  | [] => some path
  | n :: rest =>
    if fs.isDir path = false then none
    else if n = [] ∨ n = ['.'] then walk fs links path rest
    else if n = ['.', '.'] then walk fs links path.dropLast rest
    else
      match fs.entry (path ++ [n]) with
      | none => none
      | some (.link target) =>
        match links with
        | 0 => none
        | links + 1 => walk fs links (start path target) (parts target ++ rest)
      | some _ => walk fs links (path ++ [n]) rest
termination_by names => (links, names.length)

def maxLinks : Nat := 40

def stat (fs : FileSystem α) (p : Path) : Option Path := walk fs maxLinks [] p

def lstat (fs : FileSystem α) (path : Path) (n : Name) : Option (Entry α) :=
  (stat fs path).bind fun q => fs.entry (q ++ [n])

/-- What is left to resolve: names, and where a link's target ends. -/
inductive Part where
  | name (n : Name)
  | resolved (link : Path)

structure Walker where
  path : Path
  rest : List Part
  seen : Path → Option (Option Path)

/-- One turn of `realpath`: what it cannot look up it takes as it is. -/
def step (fs : FileSystem α) (w : Walker) : Walker :=
  match w.rest with
  | [] => w
  | .resolved link :: rest => { w with rest := rest, seen := Function.update w.seen link (some (some w.path)) }
  | .name n :: rest =>
    if n = [] ∨ n = ['.'] then { w with rest := rest }
    else if n = ['.', '.'] then { w with path := w.path.dropLast, rest := rest }
    else
      match lstat fs w.path n with
      | some (.link target) =>
        match w.seen (w.path ++ [n]) with
        | some (some path) => { w with path := path, rest := rest }
        | some none => { w with path := w.path ++ [n], rest := rest }
        | none => {
            path := start w.path target
            rest := (parts target).map .name ++ .resolved (w.path ++ [n]) :: rest
            seen := Function.update w.seen (w.path ++ [n]) (some none) }
      | _ => { w with path := w.path ++ [n], rest := rest }

def run (fs : FileSystem α) : Nat → Walker → Walker
  | 0, w => w
  | turns + 1, w => run fs turns (step fs w)

/-- A link that has not been seen may still put its target before the rest. -/
def weight (seen : Path → Option (Option Path)) (row : Path × Entry α) : Nat :=
  match row.2 with
  | .link target => if (seen row.1).isNone then (parts target).length + 1 else 0
  | _ => 0

def capacity (fs : FileSystem α) (w : Walker) : Nat := w.rest.length + (fs.rows.map (weight w.seen)).sum

def begun (names : List Name) : Walker := ⟨[], names.map .name, fun _ => none⟩

def resolve (fs : FileSystem α) (names : List Name) : Walker := run fs (capacity fs (begun names)) (begun names)

def realpath (fs : FileSystem α) (names : List Name) : Path := (resolve fs names).path

section

variable {fs : FileSystem α} {k : Nat} {p q r : Path} {n : Name} {names more : List Name} {t : List Char}

@[simp] theorem walk_nil : walk fs k p [] = some p := by rw [walk]

theorem isDir_iff : fs.isDir p = true ↔ fs.entry p = some .dir := by
  rw [FileSystem.isDir]
  split
  · next h => exact iff_of_true rfl h
  · next h => exact iff_of_false Bool.false_ne_true h

theorem isDir_of_walk (h : walk fs k p (n :: names) = some q) : fs.isDir p = true := by
  rw [walk] at h
  split at h
  · cases h
  · next hdir => exact (Bool.not_eq_false _).mp hdir

theorem walk_self (hdir : fs.isDir p = true) (hn : n = [] ∨ n = ['.']) : walk fs k p (n :: names) = walk fs k p names := by
  rw [walk, if_neg (by simp [hdir]), if_pos hn]

theorem walk_up (hdir : fs.isDir p = true) : walk fs k p (['.', '.'] :: names) = walk fs k p.dropLast names := by
  rw [walk, if_neg (by simp [hdir]), if_neg (by simp), if_pos rfl]

theorem FileSystem.entry_above {e : Entry α} (h : fs.entry (p ++ [n]) = some e) : Proper n ∧ fs.isDir p = true := by
  have habove := fs.under p n (Option.ne_none_iff_exists'.mpr ⟨e, h⟩)
  exact ⟨habove.1, isDir_iff.mpr habove.2⟩

theorem walk_entry (hentry : fs.entry (p ++ [n]) ≠ none) (hlink : ∀ t, fs.entry (p ++ [n]) ≠ some (.link t)) :
    walk fs k p (n :: names) = walk fs k (p ++ [n]) names := by
  obtain ⟨e, he⟩ := Option.ne_none_iff_exists'.mp hentry
  obtain ⟨hn, hdir⟩ := fs.entry_above he
  rw [walk, if_neg (by simp [hdir]), if_neg hn.1, if_neg hn.2]
  split
  · next h => exact absurd h hentry
  · next t h => exact absurd h (hlink t)
  · rfl

theorem walk_link (h : fs.entry (p ++ [n]) = some (.link t)) :
    walk fs (k + 1) p (n :: names) = walk fs k (start p t) (parts t ++ names) := by
  obtain ⟨hn, hdir⟩ := fs.entry_above h
  rw [walk, if_neg (by simp [hdir]), if_neg hn.1, if_neg hn.2, h]

theorem walk_cons (h : walk fs k p (n :: names) = some q) :
    fs.isDir p = true ∧
      ((n = [] ∨ n = ['.']) ∧ walk fs k p names = some q ∨
        n = ['.', '.'] ∧ walk fs k p.dropLast names = some q ∨
        (∃ t j, fs.entry (p ++ [n]) = some (.link t) ∧ k = j + 1 ∧ walk fs j (start p t) (parts t ++ names) = some q) ∨
        fs.entry (p ++ [n]) ≠ none ∧ (∀ t, fs.entry (p ++ [n]) ≠ some (.link t)) ∧ walk fs k (p ++ [n]) names = some q) := by
  have hdir := isDir_of_walk h
  refine ⟨hdir, ?_⟩
  rw [walk, if_neg (by simp [hdir])] at h
  by_cases hself : n = [] ∨ n = ['.']
  · rw [if_pos hself] at h
    exact .inl ⟨hself, h⟩
  · rw [if_neg hself] at h
    by_cases hup : n = ['.', '.']
    · rw [if_pos hup] at h
      exact .inr (.inl ⟨hup, h⟩)
    · rw [if_neg hup] at h
      split at h
      · cases h
      · next t hentry =>
          cases k with
          | zero => cases h
          | succ j => exact .inr (.inr (.inl ⟨t, j, hentry, rfl, h⟩))
      · next e hlink hentry =>
          refine .inr (.inr (.inr ⟨by rw [hentry]; exact Option.some_ne_none _, fun t ht => ?_, h⟩))
          exact hlink t (Option.some.inj (hentry.symm.trans ht))

theorem walk_append (h : walk fs k p (names ++ more) = some q) :
    ∃ r, walk fs k p names = some r ∧ ∃ j ≤ k, walk fs j r more = some q := by
  induction k using Nat.strongRecOn generalizing p names with
  | ind k ihk =>
      induction names generalizing p with
      | nil => exact ⟨p, walk_nil, k, Nat.le_refl k, h⟩
      | cons n names ih =>
          rw [List.cons_append] at h
          obtain ⟨hdir, ⟨hself, hrest⟩ | ⟨rfl, hrest⟩ | ⟨t, j, hlink, rfl, hrest⟩ | ⟨hentry, hlink, hrest⟩⟩ := walk_cons h
          · rw [walk_self hdir hself]
            exact ih hrest
          · rw [walk_up hdir]
            exact ih hrest
          · rw [walk_link hlink]
            rw [← List.append_assoc] at hrest
            obtain ⟨r, hr, i, hi, hmore⟩ := ihk j (Nat.lt_succ_self j) hrest
            exact ⟨r, hr, i, Nat.le_succ_of_le hi, hmore⟩
          · rw [walk_entry hentry hlink]
            exact ih hrest

theorem walk_through (hdir : fs.isDir p = true) : walk fs k [] (p ++ names) = walk fs k p names := by
  induction p using List.reverseRecOn generalizing names with
  | nil => rfl
  | append_singleton p n ih =>
      have hentry := isDir_iff.mp hdir
      rw [List.append_assoc, ih (fs.entry_above hentry).2]
      exact walk_entry (by rw [hentry]; exact Option.some_ne_none _) fun t ht => by rw [hentry] at ht; cases ht

theorem stat_entry (hentry : fs.entry p ≠ none) (hlink : ∀ t, fs.entry p ≠ some (.link t)) : stat fs p = some p := by
  rw [stat]
  induction p using List.reverseRecOn with
  | nil => exact walk_nil
  | append_singleton p n ih =>
      obtain ⟨e, he⟩ := Option.ne_none_iff_exists'.mp hentry
      rw [walk_through (fs.entry_above he).2, walk_entry hentry hlink, walk_nil]

structure Good (fs : FileSystem α) (p : Path) : Prop where
  proper : ∀ n ∈ p, Proper n
  dead : ∀ link t, link <+: p → fs.entry link = some (.link t) → ∀ k q, walk fs k [] link ≠ some q

theorem Good.nil : Good fs [] := by
  refine ⟨fun n hn => (nomatch hn), fun link t hlink ht => ?_⟩
  rw [List.prefix_nil.mp hlink, FileSystem.entry, fs.root] at ht
  cases ht

theorem Good.of_prefix (h : Good fs p) (hq : q <+: p) : Good fs q :=
  ⟨fun n hn => h.proper n (hq.subset hn), fun link t hlink => h.dead link t (hlink.trans hq)⟩

theorem Good.snoc (h : Good fs p) (hn : Proper n)
    (hdead : ∀ t, fs.entry (p ++ [n]) = some (.link t) → ∀ k q, walk fs k [] (p ++ [n]) ≠ some q) : Good fs (p ++ [n]) := by
  refine ⟨?_, fun link t hlink ht => ?_⟩
  · rw [List.forall_mem_append, List.forall_mem_singleton]
    exact ⟨h.proper, hn⟩
  · rcases List.prefix_concat_iff.mp hlink with rfl | hlink
    · exact hdead t ht
    · exact h.dead link t hlink ht

/-- Where such a path leads anywhere, it leads to itself. -/
theorem Good.walk_eq (h : Good fs p) (hwalk : walk fs k [] p = some q) : q = p := by
  induction p using List.reverseRecOn generalizing q with
  | nil =>
      rw [walk_nil] at hwalk
      exact (Option.some.inj hwalk).symm
  | append_singleton p n ih =>
      obtain ⟨r, hr, j, -, hstep⟩ := walk_append hwalk
      obtain rfl := ih (h.of_prefix (List.prefix_append p [n])) hr
      obtain ⟨-, ⟨hself, -⟩ | ⟨hup, -⟩ | ⟨t, -, hlink, -, -⟩ | ⟨-, -, hstep⟩⟩ := walk_cons hstep
      · exact absurd hself (h.proper n (by simp)).1
      · exact absurd hup (h.proper n (by simp)).2
      · exact absurd hwalk (h.dead _ t (List.prefix_refl _) hlink k q)
      · rw [walk_nil] at hstep
        exact (Option.some.inj hstep).symm

theorem Good.lstat_eq (h : Good fs p) (n : Name) : lstat fs p n = fs.entry (p ++ [n]) := by
  rw [lstat]
  by_cases hdir : fs.isDir p = true
  · have hentry := isDir_iff.mp hdir
    have hstat : stat fs p = some p :=
      stat_entry (by rw [hentry]; exact Option.some_ne_none _) fun t ht => by rw [hentry] at ht; cases ht
    rw [hstat, Option.bind_some]
  · have hnone : fs.entry (p ++ [n]) = none := by
      by_contra hentry
      obtain ⟨e, he⟩ := Option.ne_none_iff_exists'.mp hentry
      exact hdir (fs.entry_above he).2
    cases hstat : stat fs p with
    | none => exact hnone.symm
    | some q => rw [Option.bind_some, h.walk_eq hstat]

def Part.name? : Part → Option Name
  | .name n => some n
  | .resolved _ => none

def namesOf (rest : List Part) : List Name := rest.filterMap Part.name?

@[simp] theorem namesOf_map_name (names : List Name) : namesOf (names.map .name) = names := by
  rw [namesOf, List.filterMap_map]
  exact List.filterMap_some

/-- Whatever the system finds by `names` from `p` it finds by `names'` from `p'`, by `used` links fewer. -/
def Follows (fs : FileSystem α) (used : Nat) (p : Path) (names : List Name) (p' : Path) (names' : List Name) : Prop :=
  ∀ k q more, walk fs k p (names ++ more) = some q → ∃ j, j + used ≤ k ∧ walk fs j p' (names' ++ more) = some q

theorem Follows.trans {a b : Nat} {p₁ p₂ p₃ : Path} {n₁ n₂ n₃ : List Name} (h : Follows fs a p₁ n₁ p₂ n₂)
    (h' : Follows fs b p₂ n₂ p₃ n₃) : Follows fs (b + a) p₁ n₁ p₃ n₃ := by
  intro k q more hwalk
  obtain ⟨j, hj, hwalk⟩ := h k q more hwalk
  obtain ⟨i, hi, hwalk⟩ := h' j q more hwalk
  exact ⟨i, by omega, hwalk⟩

theorem Follows.of_le {a b : Nat} {p' : Path} {names' : List Name} (h : Follows fs a p names p' names') (hab : b ≤ a) :
    Follows fs b p names p' names' := by
  intro k q more hwalk
  obtain ⟨j, hj, hwalk⟩ := h k q more hwalk
  exact ⟨j, by omega, hwalk⟩

theorem Follows.append {a : Nat} {p' : Path} {names' : List Name} (h : Follows fs a p names p' names') (more : List Name) :
    Follows fs a p (names ++ more) p' (names' ++ more) := by
  intro k q rest hwalk
  rw [List.append_assoc] at hwalk ⊢
  exact h k q (more ++ rest) hwalk

theorem Follows.refl : Follows fs 0 p names p names := fun k _ _ hwalk => ⟨k, Nat.le_refl k, hwalk⟩

theorem follows_entry (hentry : fs.entry (p ++ [n]) ≠ none) (hlink : ∀ t, fs.entry (p ++ [n]) ≠ some (.link t)) :
    Follows fs 0 p [n] (p ++ [n]) [] := by
  intro k q more hwalk
  rw [List.singleton_append, walk_entry hentry hlink] at hwalk
  exact ⟨k, Nat.le_refl k, hwalk⟩

theorem follows_link (hlink : fs.entry (p ++ [n]) = some (.link t)) : Follows fs 1 p [n] (start p t) (parts t) := by
  intro k q more hwalk
  obtain ⟨-, ⟨hself, -⟩ | ⟨hup, -⟩ | ⟨u, j, hu, rfl, hwalk⟩ | ⟨-, hnone, -⟩⟩ := walk_cons hwalk
  · exact absurd hself (fs.entry_above hlink).1.1
  · exact absurd hup (fs.entry_above hlink).1.2
  · cases hlink.symm.trans hu
    exact ⟨j, Nat.le_refl _, hwalk⟩
  · exact absurd hlink (hnone t)

theorem follows_through (hdir : fs.isDir p = true) (names : List Name) : Follows fs 0 [] (p ++ names) p names := by
  intro k q more hwalk
  rw [List.append_assoc, walk_through hdir] at hwalk
  exact ⟨k, Nat.le_refl k, hwalk⟩

theorem dead_of_follows (hdir : fs.isDir p = true) (h : Follows fs 1 [] (p ++ [n]) p (n :: names)) :
    ∀ k q, walk fs k [] (p ++ [n]) ≠ some q := by
  intro k
  induction k using Nat.strongRecOn with
  | ind k ih =>
      intro q hwalk
      obtain ⟨j, hj, hagain⟩ := h k q [] (by rwa [List.append_nil])
      rw [List.append_nil] at hagain
      have hsplit : walk fs j p ([n] ++ names) = some q := hagain
      obtain ⟨r, hr, -⟩ := walk_append hsplit
      rw [← walk_through hdir] at hr
      exact ih j (by omega) r hr

/-- What holds between the turns of `realpath`: links already resolved lead where they were found to lead, and a link
still open leads where what is left of its target does. -/
structure Sound (fs : FileSystem α) (names : List Name) (w : Walker) : Prop where
  good : Good fs w.path
  cached : ∀ link p, w.seen link = some (some p) → Good fs p ∧ Follows fs 0 [] link p []
  opened : ∀ above link below, w.rest = above ++ .resolved link :: below → Follows fs 1 [] link w.path (namesOf above)
  marked : ∀ link, w.seen link = some none → .resolved link ∈ w.rest
  whole : Follows fs 0 [] names w.path (namesOf w.rest)

variable {w : Walker} {rest : List Part}

theorem Sound.begun (fs : FileSystem α) (names : List Name) : Sound fs names (begun names) where
  good := Good.nil
  cached _ _ h := by cases h
  opened above link below h := by
    have hmem : Part.resolved link ∈ (FileSystems.begun names).rest := by
      rw [h]
      exact List.mem_append_right _ List.mem_cons_self
    obtain ⟨n, -, hn⟩ := List.mem_map.mp hmem
    cases hn
  marked _ h := by cases h
  whole := by
    rw [FileSystems.begun, namesOf_map_name]
    exact Follows.refl

theorem Sound.moved (h : Sound fs names w) (hrest : w.rest = .name n :: rest) (hgood : Good fs p)
    (hfollows : Follows fs 0 w.path [n] p []) : Sound fs names { w with path := p, rest := rest } where
  good := hgood
  cached := h.cached
  opened above link below hsplit := by
    have hopened := h.opened (.name n :: above) link below (hrest.trans (congrArg _ hsplit))
    exact hopened.trans (hfollows.append (namesOf above))
  marked link hlink := by
    have hmem := h.marked link hlink
    rw [hrest] at hmem
    exact (List.mem_cons.mp hmem).resolve_left fun h => nomatch h
  whole := by
    have hwhole := h.whole
    rw [hrest] at hwhole
    exact hwhole.trans (hfollows.append (namesOf rest))

theorem start_good (h : Good fs p) (t : List Char) : Good fs (start p t) := by
  rw [start]
  split
  · exact Good.nil
  · exact h

theorem split_names {names : List Name} {link link' : Path} {above below : List Part}
    (h : names.map .name ++ .resolved link :: rest = above ++ .resolved link' :: below) :
    above = names.map .name ∧ link = link' ∧ rest = below ∨
      ∃ above', above = names.map .name ++ .resolved link :: above' ∧ rest = above' ++ .resolved link' :: below := by
  induction names generalizing above with
  | nil =>
      cases above with
      | nil =>
          cases h
          exact .inl ⟨rfl, rfl, rfl⟩
      | cons part above =>
          cases h
          exact .inr ⟨above, rfl, rfl⟩
  | cons n names ih =>
      cases above with
      | nil => cases h
      | cons part above =>
          obtain ⟨rfl, htail⟩ := List.cons.inj h
          rcases ih htail with ⟨rfl, hlink, hrest⟩ | ⟨above', rfl, hrest⟩
          · exact .inl ⟨rfl, hlink, hrest⟩
          · exact .inr ⟨above', rfl, hrest⟩

theorem namesOf_append (a b : List Part) : namesOf (a ++ b) = namesOf a ++ namesOf b := List.filterMap_append

@[simp] theorem namesOf_resolved (link : Path) (rest : List Part) : namesOf (.resolved link :: rest) = namesOf rest := rfl

theorem Sound.entered (h : Sound fs names w) (hrest : w.rest = .name n :: rest) (hlink : fs.entry (w.path ++ [n]) = some (.link t)) :
    Sound fs names {
      path := start w.path t
      rest := (parts t).map .name ++ .resolved (w.path ++ [n]) :: rest
      seen := Function.update w.seen (w.path ++ [n]) (some none) } where
  good := start_good h.good t
  cached link p hcached := by
    dsimp only at hcached
    by_cases hnew : link = w.path ++ [n]
    · subst hnew
      rw [Function.update_self] at hcached
      cases hcached
    · rw [Function.update_of_ne hnew] at hcached
      exact h.cached link p hcached
  opened above link below hsplit := by
    rcases split_names hsplit with ⟨rfl, rfl, -⟩ | ⟨above', rfl, hbelow⟩
    · rw [namesOf_map_name]
      exact (follows_through (fs.entry_above hlink).2 [n]).trans (follows_link hlink)
    · have hopened := h.opened (.name n :: above') link below (hrest.trans (congrArg _ hbelow))
      rw [namesOf_append, namesOf_map_name, namesOf_resolved]
      exact (hopened.trans ((follows_link hlink).append (namesOf above'))).of_le (by omega)
  marked link hmarked := by
    dsimp only at hmarked
    by_cases hnew : link = w.path ++ [n]
    · subst hnew
      exact List.mem_append_right _ List.mem_cons_self
    · rw [Function.update_of_ne hnew] at hmarked
      have hmem := h.marked link hmarked
      rw [hrest] at hmem
      exact List.mem_append_right _ (List.mem_cons_of_mem _ ((List.mem_cons.mp hmem).resolve_left fun h => nomatch h))
  whole := by
    have hwhole := h.whole
    rw [hrest] at hwhole
    rw [namesOf_append, namesOf_map_name, namesOf_resolved]
    exact (hwhole.trans ((follows_link hlink).append (namesOf rest))).of_le (by omega)

theorem Sound.closed {link : Path} (h : Sound fs names w) (hrest : w.rest = .resolved link :: rest) :
    Sound fs names { w with rest := rest, seen := Function.update w.seen link (some (some w.path)) } where
  good := h.good
  cached link' p hcached := by
    dsimp only at hcached
    by_cases hnew : link' = link
    · subst hnew
      rw [Function.update_self] at hcached
      cases hcached
      exact ⟨h.good, (h.opened [] link' rest hrest).of_le (Nat.zero_le 1)⟩
    · rw [Function.update_of_ne hnew] at hcached
      exact h.cached link' p hcached
  opened above link' below hsplit := h.opened (.resolved link :: above) link' below (hrest.trans (congrArg _ hsplit))
  marked link' hmarked := by
    dsimp only at hmarked
    by_cases hnew : link' = link
    · subst hnew
      rw [Function.update_self] at hmarked
      cases hmarked
    · rw [Function.update_of_ne hnew] at hmarked
      have hmem := h.marked link' hmarked
      rw [hrest] at hmem
      exact (List.mem_cons.mp hmem).resolve_left fun h => hnew (Part.resolved.inj h)
  whole := by
    have hwhole := h.whole
    rwa [hrest] at hwhole

theorem follows_dead (hdir : fs.isDir p = true) (hdead : ∀ k q, walk fs k [] (p ++ [n]) ≠ some q) (p' : Path) :
    Follows fs 0 p [n] p' [] := by
  intro k q more hwalk
  obtain ⟨r, hr, -⟩ := walk_append hwalk
  rw [← walk_through hdir] at hr
  exact absurd hr (hdead k r)

theorem Sound.dead (h : Sound fs names w) (hrest : w.rest = .name n :: rest) (hdir : fs.isDir w.path = true)
    (hseen : w.seen (w.path ++ [n]) = some none) : ∀ k q, walk fs k [] (w.path ++ [n]) ≠ some q := by
  have hmem := h.marked _ hseen
  rw [hrest] at hmem
  obtain ⟨above, below, hsplit⟩ := List.append_of_mem ((List.mem_cons.mp hmem).resolve_left fun h => nomatch h)
  exact dead_of_follows hdir (h.opened (.name n :: above) _ below (hrest.trans (congrArg _ hsplit)))

theorem Sound.step (h : Sound fs names w) : Sound fs names (step fs w) := by
  rw [FileSystems.step]
  split
  · exact h
  · next link rest hrest => exact h.closed hrest
  · next n rest hrest =>
      split
      · next hself =>
          refine h.moved hrest h.good fun k q more hwalk => ⟨k, Nat.le_refl k, ?_⟩
          rwa [List.singleton_append, walk_self (isDir_of_walk hwalk) hself] at hwalk
      · next hself =>
          split
          · next hup =>
              subst hup
              refine h.moved hrest (h.good.of_prefix (List.dropLast_prefix _)) fun k q more hwalk => ⟨k, Nat.le_refl k, ?_⟩
              rwa [List.singleton_append, walk_up (isDir_of_walk hwalk)] at hwalk
          · next hup =>
              have hn : Proper n := ⟨hself, hup⟩
              rw [h.good.lstat_eq]
              split
              · next t hlink =>
                  have hdir := (fs.entry_above hlink).2
                  split
                  · next p hseen =>
                      obtain ⟨hp, hfollows⟩ := h.cached _ _ hseen
                      refine h.moved hrest hp fun k q more hwalk => ?_
                      rw [← walk_through hdir, ← List.append_assoc] at hwalk
                      exact hfollows k q more hwalk
                  · next hseen =>
                      have hdead := h.dead hrest hdir hseen
                      exact h.moved hrest (h.good.snoc hn fun _ _ => hdead) (follows_dead hdir hdead _)
                  · exact h.entered hrest hlink
              · next hlink =>
                  refine h.moved hrest (h.good.snoc hn fun t ht => absurd ht (hlink t)) ?_
                  by_cases hentry : fs.entry (w.path ++ [n]) = none
                  · intro k q more hwalk
                    obtain ⟨-, ⟨h', -⟩ | ⟨h', -⟩ | ⟨t, -, h', -, -⟩ | ⟨h', -, -⟩⟩ := walk_cons hwalk
                    · exact absurd h' hself
                    · exact absurd h' hup
                    · exact absurd h' (hlink t)
                    · exact absurd hentry h'
                  · exact follows_entry hentry hlink

theorem mem_of_lookup {rows : List (Path × Entry α)} {e : Entry α} (h : rows.lookup p = some e) : (p, e) ∈ rows := by
  rw [List.lookup_eq_some_iff] at h
  obtain ⟨l₁, l₂, hrows, -⟩ := h
  rw [hrows]
  simp

theorem under_of_rows {rows : List (Path × Entry α)}
    (h : ∀ row ∈ rows, ∀ n ∈ row.1.getLast?, Proper n ∧ rows.lookup row.1.dropLast = some .dir) (p : Path) (n : Name)
    (hp : rows.lookup (p ++ [n]) ≠ none) : Proper n ∧ rows.lookup p = some .dir := by
  obtain ⟨e, he⟩ := Option.ne_none_iff_exists'.mp hp
  have habove := h _ (mem_of_lookup he) n List.getLast?_concat
  rwa [List.dropLast_concat] at habove

theorem weight_update_le (seen : Path → Option (Option Path)) (link : Path) (v : Option Path) (row : Path × Entry α) :
    weight (Function.update seen link (some v)) row ≤ weight seen row := by
  rw [weight, weight]
  split
  · next t =>
      by_cases hrow : row.1 = link
      · subst hrow
        rw [Function.update_self]
        exact Nat.zero_le _
      · exact Nat.le_of_eq (by rw [Function.update_of_ne hrow])
  · exact Nat.le_refl 0

theorem sum_weight_update_le (seen : Path → Option (Option Path)) (link : Path) (v : Option Path) (rows : List (Path × Entry α)) :
    (rows.map (weight (Function.update seen link (some v)))).sum ≤ (rows.map (weight seen)).sum := by
  induction rows with
  | nil => exact Nat.le_refl 0
  | cons row rows ih => exact Nat.add_le_add (weight_update_le seen link v row) ih

theorem sum_weight_update {seen : Path → Option (Option Path)} {link : Path} {rows : List (Path × Entry α)}
    (hmem : (link, .link t) ∈ rows) (hfresh : seen link = none) (v : Option Path) :
    (rows.map (weight (Function.update seen link (some v)))).sum + ((parts t).length + 1) ≤ (rows.map (weight seen)).sum := by
  induction rows with
  | nil => cases hmem
  | cons row rows ih =>
      rw [List.map_cons, List.map_cons, List.sum_cons, List.sum_cons]
      rcases List.mem_cons.mp hmem with rfl | hmem
      · have hbefore : weight seen (link, Entry.link (α := α) t) = (parts t).length + 1 := by simp [weight, hfresh]
        have hafter : weight (Function.update seen link (some v)) (link, Entry.link (α := α) t) = 0 := by simp [weight]
        have hrows := sum_weight_update_le seen link v rows
        omega
      · have hrow := weight_update_le seen link v row
        have hrows := ih hmem
        omega

theorem Sound.capacity_step (h : Sound fs names w) (hrest : w.rest ≠ []) : capacity fs (FileSystems.step fs w) < capacity fs w := by
  obtain ⟨part, rest, hcons⟩ := List.exists_cons_of_ne_nil hrest
  rw [capacity, capacity, hcons, List.length_cons]
  cases part with
  | resolved link =>
      have hsum := sum_weight_update_le w.seen link (some w.path) fs.rows
      simp only [FileSystems.step, hcons]
      omega
  | name n =>
      have hpop : rest.length + (fs.rows.map (weight w.seen)).sum < rest.length + 1 + (fs.rows.map (weight w.seen)).sum := by omega
      simp only [FileSystems.step, hcons]
      split
      · exact hpop
      · split
        · exact hpop
        · rw [h.good.lstat_eq]
          split
          · next t hlink =>
              split
              · exact hpop
              · exact hpop
              · next hfresh =>
                  have hsum := sum_weight_update (mem_of_lookup hlink) hfresh none
                  simp only [List.length_append, List.length_map, List.length_cons]
                  omega
          · exact hpop

theorem run_nil {turns : Nat} (hrest : w.rest = []) : run fs turns w = w := by
  induction turns with
  | zero => rfl
  | succ turns ih =>
      have hstep : FileSystems.step fs w = w := by simp only [FileSystems.step, hrest]
      rw [run, hstep, ih]

theorem Sound.run {turns : Nat} (h : Sound fs names w) (hturns : capacity fs w ≤ turns) :
    Sound fs names (run fs turns w) ∧ (FileSystems.run fs turns w).rest = [] := by
  induction turns generalizing w with
  | zero =>
      refine ⟨h, ?_⟩
      by_contra hrest
      have hcapacity := h.capacity_step hrest
      omega
  | succ turns ih =>
      by_cases hrest : w.rest = []
      · rw [run_nil hrest]
        exact ⟨h, hrest⟩
      · have hcapacity := h.capacity_step hrest
        exact ih h.step (by omega)

/-- `realpath` comes to an end, on a path whose links lead nowhere, and finds what the system finds. -/
theorem realpath_spec (fs : FileSystem α) (names : List Name) :
    (resolve fs names).rest = [] ∧ Good fs (realpath fs names) ∧ ∀ k q, walk fs k [] names = some q → realpath fs names = q := by
  obtain ⟨hsound, hrest⟩ := (Sound.begun fs names).run (Nat.le_refl (capacity fs (begun names)))
  refine ⟨hrest, hsound.good, fun k q hwalk => ?_⟩
  obtain ⟨j, -, hj⟩ := hsound.whole k q [] (by rwa [List.append_nil])
  rw [hrest, List.append_nil] at hj
  exact (Option.some.inj (walk_nil.symm.trans hj))

theorem lookup_filter {β γ : Type} [BEq β] [LawfulBEq β] (keep : β → Bool) (rows : List (β × γ)) (x : β) :
    (rows.filter fun row => keep row.1).lookup x = if keep x then rows.lookup x else none := by
  induction rows with
  | nil => exact (ite_self none).symm
  | cons row rows ih =>
      rw [List.filter_cons]
      by_cases hx : x = row.1
      · subst hx
        by_cases hkeep : keep row.1 = true
        · rw [if_pos hkeep, if_pos hkeep, List.lookup_cons, List.lookup_cons, BEq.rfl]
        · rw [if_neg hkeep, ih, if_neg hkeep, if_neg hkeep]
      · have hlookup (rest : List (β × γ)) : (row :: rest).lookup x = rest.lookup x := by
          rw [List.lookup_cons, beq_false_of_ne hx]
        by_cases hkeep : keep row.1 = true
        · rw [if_pos hkeep, hlookup, hlookup, ih]
        · rw [if_neg hkeep, hlookup, ih]

end

def keeps (target p : Path) : Bool := p = [] || ¬ target <+: p

def FileSystem.remove (fs : FileSystem α) (target : Path) : FileSystem α where
  rows := fs.rows.filter fun row => keeps target row.1
  root := by
    rw [lookup_filter, if_pos (by rfl)]
    exact fs.root
  under p n h := by
    rw [lookup_filter] at h
    split at h
    · next hkeeps =>
        have hp : keeps target p = true := by
          simp only [keeps, Bool.or_eq_true, decide_eq_true_eq] at hkeeps ⊢
          refine .inr fun hstart => ?_
          exact (hkeeps.resolve_left (by simp)) (hstart.trans (List.prefix_append p [n]))
        rw [lookup_filter, if_pos hp]
        exact fs.under p n h
    · exact absurd rfl h

theorem FileSystem.remove_entry (fs : FileSystem α) (target p : Path) :
    (fs.remove target).entry p = if keeps target p then fs.entry p else none := lookup_filter (keeps target) fs.rows p

theorem FileSystem.foldl_remove_entry (fs : FileSystem α) {targets : List Path} {p : Path} (h : ∀ t ∈ targets, keeps t p = true) :
    (targets.foldl FileSystem.remove fs).entry p = fs.entry p := by
  induction targets generalizing fs with
  | nil => rfl
  | cons t targets ih =>
      rw [List.forall_mem_cons] at h
      rw [List.foldl_cons, ih _ h.2, FileSystem.remove_entry, if_pos h.1]

end NukeLab.FileSystems
