import Mathlib.Data.List.DropRight
import NukeLab.Spawner

namespace NukeLab.ContainerNames

open Program Records State DockerNames Spawner

def uuidBound : Nat := 16 ^ 32

def nibble (n i : Nat) : Char := Nat.digitChar (n / 16 ^ i % 16)

theorem digitChar_lower : ∀ d < 16, lower (Nat.digitChar d) = [Nat.digitChar d] := by decide

theorem digitChar_isNameChar : ∀ d < 16, isNameChar (Nat.digitChar d) = true := by decide

theorem digitChar_not_isSeparator : ∀ d < 16, isSeparator (Nat.digitChar d) = false := by decide

theorem digitChar_injective : ∀ d < 16, ∀ e < 16, Nat.digitChar d = Nat.digitChar e → d = e := by decide

theorem nibble_lt (n i : Nat) : n / 16 ^ i % 16 < 16 := Nat.mod_lt _ (by decide)

theorem mod_eq_of_nibbles {n m : Nat} (k : Nat) (h : ∀ i < k, nibble n i = nibble m i) : n % 16 ^ k = m % 16 ^ k := by
  induction k with
  | zero => rw [pow_zero, Nat.mod_one, Nat.mod_one]
  | succ k ih =>
      have hlast : n / 16 ^ k % 16 = m / 16 ^ k % 16 :=
        digitChar_injective _ (nibble_lt n k) _ (nibble_lt m k) (h k (Nat.lt_succ_self k))
      rw [Nat.mod_pow_succ, Nat.mod_pow_succ, ih fun i hi => h i (Nat.lt_succ_of_lt hi), hlast]

/-- The places of a uuid's text: a digit, or a hyphen between two groups. -/
def places : List (Option Nat) :=
  some 31 ::
    [some 30, some 29, some 28, some 27, some 26, some 25, some 24, none, some 23, some 22, some 21, some 20, none,
      some 19, some 18, some 17, some 16, none, some 15, some 14, some 13, some 12, none, some 11, some 10, some 9,
      some 8, some 7, some 6, some 5, some 4, some 3, some 2, some 1] ++ [some 0]

def placeChar (u : Uuid) : Option Nat → Char
  | some i => nibble u i
  | none => '-'

def uuidChars (u : Uuid) : List Char := places.map (placeChar u)

theorem hexDigits_toList (width n : Nat) : (hexDigits width n).toList = (List.range width).reverse.map (nibble n) := by
  rw [hexDigits, String.toList_ofList]
  rfl

theorem nibble_div (u k i : Nat) : nibble (u / 16 ^ k) i = nibble u (k + i) := by
  rw [nibble, nibble, Nat.div_div_eq_div_mul, ← pow_add]

theorem uuidText_toList (u : Uuid) : (uuidText u).toList = uuidChars u := by
  have hfour : (List.range 4).reverse = [3, 2, 1, 0] := rfl
  have height : (List.range 8).reverse = [7, 6, 5, 4, 3, 2, 1, 0] := rfl
  have htwelve : (List.range 12).reverse = [11, 10, 9, 8, 7, 6, 5, 4, 3, 2, 1, 0] := rfl
  have hhyphen : "-".toList = ['-'] := rfl
  simp only [uuidText, String.toList_append, hexDigits_toList, hfour, height, htwelve, hhyphen, List.map_cons,
    List.map_nil, nibble_div, List.cons_append, List.nil_append, Nat.reduceAdd, uuidChars, places, placeChar]

theorem uuidChars_injective {u v : Uuid} (hu : u < uuidBound) (hv : v < uuidBound) (h : uuidChars u = uuidChars v) :
    u = v := by
  have hplaces : ∀ i < 32, some i ∈ places := by decide
  have hnibbles : ∀ i < 32, nibble u i = nibble v i := fun i hi => List.map_inj_left.mp h (some i) (hplaces i hi)
  have hmod := mod_eq_of_nibbles 32 hnibbles
  rw [uuidBound] at hu hv
  rwa [Nat.mod_eq_of_lt hu, Nat.mod_eq_of_lt hv] at hmod

theorem replaceRuns_eq_self {cs : List Char} (h : ∀ c ∈ cs, isNameChar c = true) : replaceRuns false cs = cs := by
  induction cs with
  | nil => rfl
  | cons c cs ih =>
      rw [replaceRuns, if_pos (h c List.mem_cons_self), ih fun c' hc' => h c' (List.mem_cons_of_mem c hc')]

theorem stripSeparators_eq_self {first last : Char} {cs : List Char} (hfirst : isSeparator first = false)
    (hlast : isSeparator last = false) : stripSeparators (first :: cs ++ [last]) = first :: cs ++ [last] := by
  rw [stripSeparators, List.cons_append, List.dropWhile_cons_of_neg (by simp [hfirst]), ← List.cons_append,
    List.reverse_append, List.reverse_singleton, List.singleton_append, List.dropWhile_cons_of_neg (by simp [hlast]),
    ← List.singleton_append, List.reverse_append, List.reverse_reverse, List.reverse_singleton]

theorem sanitizeComponent_uuidText (u : Uuid) : sanitizeComponent (uuidText u).toList = uuidChars u := by
  have hmem : ∀ c ∈ uuidChars u, c = '-' ∨ ∃ i, c = nibble u i := by
    intro c hc
    obtain ⟨place, -, rfl⟩ := List.mem_map.mp hc
    cases place with
    | none => exact .inl rfl
    | some i => exact .inr ⟨i, rfl⟩
  have hlower : (uuidChars u).flatMap lower = uuidChars u := by
    have hsingle : ∀ c ∈ uuidChars u, lower c = [c] := by
      intro c hc
      rcases hmem c hc with rfl | ⟨i, rfl⟩
      · rfl
      · exact digitChar_lower _ (nibble_lt u i)
    rw [List.flatMap_congr hsingle]
    exact List.flatMap_singleton' _
  have hname : ∀ c ∈ uuidChars u, isNameChar c = true := by
    intro c hc
    rcases hmem c hc with rfl | ⟨i, rfl⟩
    · rfl
    · exact digitChar_isNameChar _ (nibble_lt u i)
  rw [sanitizeComponent, uuidText_toList, hlower, replaceRuns_eq_self hname, uuidChars, places, List.map_append,
    List.map_cons]
  exact stripSeparators_eq_self (digitChar_not_isSeparator _ (nibble_lt u 31)) (digitChar_not_isSeparator _ (nibble_lt u 0))

def slug (serverName : String) : List Char := (orDefault (sanitizeComponent serverName.toList) "server").take 188

theorem length_uuidChars (u : Uuid) : (uuidChars u).length = 36 := by
  rw [uuidChars, List.length_map]
  rfl

theorem containerName_eq (userId : Uuid) (serverName : String) :
    containerName userId serverName =
      String.ofList ("nukelab-server".toList ++ '-' :: uuidChars userId ++ '-' :: slug serverName) := by
  have hprefix : orDefault (sanitizeComponent "nukelab-server".toList) "nukelab" = "nukelab-server".toList := by decide
  have huser : orDefault (sanitizeComponent (uuidText userId).toList) "user" = uuidChars userId := by
    rw [sanitizeComponent_uuidText]
    rfl
  have hreserved : (joinName "nukelab-server".toList (uuidChars userId) [] none).length = 52 := by
    simp only [joinName, List.length_append, List.length_cons, length_uuidChars, List.length_nil]
    rfl
  rw [containerName, makeDockerResourceName, hprefix, huser]
  simp only [Option.bind_none, hreserved, slug]
  generalize orDefault (sanitizeComponent serverName.toList) "server" = component
  have hlength : (joinName "nukelab-server".toList (uuidChars userId) component none).length = 52 + component.length := by
    rw [← hreserved]
    simp only [joinName, List.length_append, List.length_cons, List.length_nil]
    omega
  rw [hlength]
  split
  next => rfl
  next hshort => rw [List.take_of_length_le (by omega : component.length ≤ 188), joinName]

/-- Two names are the same exactly when their owners are and their server names keep the same part. -/
theorem containerName_eq_iff {u v : Uuid} (hu : u < uuidBound) (hv : v < uuidBound) (a b : String) :
    containerName u a = containerName v b ↔ u = v ∧ slug a = slug b := by
  rw [containerName_eq, containerName_eq, String.ofList_inj, List.append_assoc, List.append_assoc,
    List.append_cancel_left_eq, List.cons_append, List.cons_append, List.cons.injEq, and_iff_right rfl]
  constructor
  · intro h
    obtain ⟨huser, hname⟩ := List.append_inj h ((length_uuidChars u).trans (length_uuidChars v).symm)
    exact ⟨uuidChars_injective hu hv huser, (List.cons.inj hname).2⟩
  · rintro ⟨rfl, hslug⟩
    rw [hslug]

def KeepsOthers (name : String) (w w' : World) : Prop := ∀ c ∈ w.containers, c.name ≠ name → c ∈ w'.containers

instance (name : String) : IsPreorder World (KeepsOthers name) where
  refl _ _ hc _ := hc
  trans _ _ _ h h' c hc hname := h' c (h c hc hname) hname

theorem removeNamed_keepsOthers (name : String) : Moves (KeepsOthers name) (removeNamed name) :=
  .modify fun _ _ hc hname => List.mem_filter.mpr ⟨hc, by simpa using hname⟩

theorem ensureVolumes_keepsOthers (name : String) (volumes : List String) :
    Moves (KeepsOthers name) (ensureVolumes volumes) := .modify fun _ _ hc _ => hc

theorem newUuid_keepsOthers (name : String) : Moves (KeepsOthers name) newUuid := fun _ _ hc _ => hc

theorem spawn_keepsOthers (runtime : Runtime) (request : SpawnRequest) :
    Moves (KeepsOthers (containerName request.userId request.serverName)) (spawn runtime request) := by
  unfold spawn
  generalize containerName request.userId request.serverName = name
  refine .bind .get fun w => .ite (.throw_bind _ _) (.ite (.throw_bind _ _) ?_)
  refine .bind (removeNamed_keepsOthers name) fun _ => ?_
  dsimp only
  split
  · exact .bind (ensureVolumes_keepsOthers name _) fun _ => .throw _
  · exact .bind (ensureVolumes_keepsOthers name _) fun _ => .bind (removeNamed_keepsOthers name) fun _ => .throw _
  · refine .bind (ensureVolumes_keepsOthers name _) fun _ => .bind (newUuid_keepsOthers name) fun _ => ?_
    exact .bind (.modify fun _ _ hc _ => List.mem_append_left _ hc) fun _ => .pure _

/-- The two servers' containers never have the same name, and spawning the first
leaves the second's alone. -/
def Apart (a b : Server) : Prop :=
  containerName a.userId a.name ≠ containerName b.userId b.name ∧
    ∀ runtime (request : SpawnRequest) w, request.userId = a.userId → request.serverName = a.name →
      ∀ c ∈ w.containers, c.name = containerName b.userId b.name → c ∈ (final (spawn runtime request) w).containers

/-- Two servers are kept apart exactly when their owners differ, or their names
in what container names keep of them. -/
theorem apart_iff {a b : Server} (ha : a.userId < uuidBound) (hb : b.userId < uuidBound) :
    Apart a b ↔ a.userId ≠ b.userId ∨ slug a.name ≠ slug b.name := by
  have hnames := containerName_eq_iff ha hb a.name b.name
  constructor
  · intro h
    by_contra hsame
    rw [not_or, not_not, not_not] at hsame
    exact h.1 (hnames.mpr hsame)
  · intro h
    have hne : containerName a.userId a.name ≠ containerName b.userId b.name := by
      intro heq
      have hsame := hnames.mp heq
      exact h.elim (fun hu => hu hsame.1) fun hs => hs hsame.2
    refine ⟨hne, fun runtime request w huser hname c hc hcname => ?_⟩
    refine spawn_keepsOthers runtime request w c hc ?_
    rw [huser, hname, hcname]
    exact hne.symm

def accepted (serverName : String) : Bool :=
  decide (serverName.length ≤ 64) &&
    match serverName.toList with
    | [] => false
    | c :: cs => c.isAlphanum && cs.all fun c => c.isAlphanum || c == '_' || c == '-'

theorem ascii_toLower : ∀ n < 128, (Char.ofNat n).isAlphanum = true →
    lower (Char.ofNat n) = [(Char.ofNat n).toLower] ∧ isNameChar (Char.ofNat n).toLower = true ∧
      isSeparator (Char.ofNat n).toLower = false := by decide

theorem toNat_of_isAlphanum {c : Char} (h : c.isAlphanum = true) : c.toNat < 128 := by
  have hranges : (decide (c.val ≥ 'A'.val ∧ c.val ≤ 'Z'.val) || (c.val ≥ 'a'.val && c.val ≤ 'z'.val) ||
      (c.val ≥ '0'.val && c.val ≤ '9'.val)) = true := h
  simp only [Bool.or_eq_true, Bool.and_eq_true, decide_eq_true_eq, ge_iff_le, UInt32.le_iff_toNat_le] at hranges
  have hval : c.toNat = c.val.toNat := rfl
  have hbounds : 'Z'.val.toNat = 90 ∧ 'z'.val.toNat = 122 ∧ '9'.val.toNat = 57 := ⟨rfl, rfl, rfl⟩
  omega

theorem alphanum_toLower {c : Char} (h : c.isAlphanum = true) :
    lower c = [c.toLower] ∧ isNameChar c.toLower = true ∧ isSeparator c.toLower = false := by
  have hascii := ascii_toLower c.toNat (toNat_of_isAlphanum h)
  rw [Char.ofNat_toNat] at hascii
  exact hascii h

theorem accepted_toLower {c : Char} (h : (c.isAlphanum || c == '_' || c == '-') = true) :
    lower c = [c.toLower] ∧ isNameChar c.toLower = true := by
  rw [Bool.or_eq_true, Bool.or_eq_true, beq_iff_eq, beq_iff_eq] at h
  rcases h with (h | rfl) | rfl
  · exact ⟨(alphanum_toLower h).1, (alphanum_toLower h).2.1⟩
  · decide
  · decide

/-- Of a name given to a new server only the letter case and the hyphens and
underscores at its end are lost. -/
theorem slug_of_accepted {serverName : String} (h : accepted serverName = true) :
    slug serverName = (serverName.toList.map Char.toLower).rdropWhile isSeparator := by
  rw [accepted, Bool.and_eq_true, decide_eq_true_iff] at h
  obtain ⟨hlength, hchars⟩ := h
  rw [← String.length_toList] at hlength
  rw [slug]
  generalize serverName.toList = cs at hlength hchars ⊢
  cases cs with
  | nil => exact nomatch hchars
  | cons c cs =>
      rw [Bool.and_eq_true, List.all_eq_true] at hchars
      obtain ⟨hc, hcs⟩ := hchars
      have hall : ∀ d ∈ c :: cs, lower d = [d.toLower] ∧ isNameChar d.toLower = true := by
        intro d hd
        rcases List.mem_cons.mp hd with rfl | hd
        · exact ⟨(alphanum_toLower hc).1, (alphanum_toLower hc).2.1⟩
        · exact accepted_toLower (hcs d hd)
      have hlower : (c :: cs).flatMap lower = (c :: cs).map Char.toLower := by
        rw [List.flatMap_congr fun d hd => (hall d hd).1, List.map_eq_flatMap]
      have hruns : replaceRuns false ((c :: cs).map Char.toLower) = (c :: cs).map Char.toLower := by
        refine replaceRuns_eq_self fun d hd => ?_
        obtain ⟨e, he, rfl⟩ := List.mem_map.mp hd
        exact (hall e he).2
      have hfirst := (alphanum_toLower hc).2.2
      have hsanitized : sanitizeComponent (c :: cs) = ((c :: cs).map Char.toLower).rdropWhile isSeparator := by
        rw [sanitizeComponent, hlower, hruns, stripSeparators, List.map_cons,
          List.dropWhile_cons_of_neg (by simp [hfirst])]
        rfl
      have hnonempty : ((c :: cs).map Char.toLower).rdropWhile isSeparator ≠ [] := by
        rw [Ne, List.rdropWhile_eq_nil_iff]
        intro hseparators
        have hsep := hseparators c.toLower (List.mem_map_of_mem List.mem_cons_self)
        exact absurd (hfirst.symm.trans hsep) Bool.false_ne_true
      have hshort : (((c :: cs).map Char.toLower).rdropWhile isSeparator).length ≤ 64 := by
        have hprefix := (List.rdropWhile_prefix isSeparator ((c :: cs).map Char.toLower)).length_le
        rw [List.length_map] at hprefix
        exact hprefix.trans hlength
      rw [hsanitized, orDefault, if_neg hnonempty, List.take_of_length_le (hshort.trans (by decide))]

def lab : Server := newServer 8 7 3 50 "lab" 0

def upperLab : Server := newServer 9 7 3 51 "Lab" 0

theorem apart_iff_labs : Apart lab upperLab ↔ lab.userId ≠ upperLab.userId ∨ slug lab.name ≠ slug upperLab.name :=
  apart_iff (by decide) (by decide)

theorem labs_not_apart : accepted lab.name = true ∧ accepted upperLab.name = true ∧ ¬ Apart lab upperLab := by
  refine ⟨by decide, by decide, fun h => h.1 ?_⟩
  decide

end NukeLab.ContainerNames
