import NukeLab.ContainerNames
import NukeLab.Texts

namespace NukeLab.UuidTexts

open Records State ContainerNames IntTexts

/-- A sign is a plus, since the hyphens are gone. -/
def dropSign (cs : List Char) : List Char := if cs.head? = some '+' then cs.tail else cs

def dropBase (cs : List Char) : List Char :=
  if cs.head? = some '0' ∧ (cs[1]? = some 'x' ∨ cs[1]? = some 'X') then
    if cs[2]? = some '_' then cs.drop 3 else cs.drop 2
  else cs

/-- `int` in base 16. -/
def int16 (cs : List Char) : Option Nat := digits 16 0 false (dropBase (dropSign (trimmed cs)))

/-- Removes the occurrences of a pattern, left to right; the number is how many
characters of one are still to go. -/
def remove (pattern : List Char) : Nat → List Char → List Char
  | _, [] => []
  | skip + 1, _ :: cs => remove pattern skip cs
  | 0, c :: cs =>
    if pattern.isPrefixOf (c :: cs) then remove pattern (pattern.length - 1) cs else c :: remove pattern 0 cs

def isBrace (c : Char) : Bool := c = '\x7b' || c = '\x7d'

def hexOf (text : String) : List Char :=
  (stripBy isBrace (remove "uuid:".toList 0 (remove "urn:".toList 0 text.toList))).filter fun c => c ≠ '-'

def parseUuid (text : String) : Option Uuid :=
  let hex := hexOf text
  if hex.length = 32 then (int16 hex).filter fun value => value < uuidBound else none

theorem remove_eq_self {c : Char} {pattern cs : List Char} (h : c ∉ cs) : remove (c :: pattern) 0 cs = cs := by
  induction cs with
  | nil => rfl
  | cons d cs ih =>
      have hd : c ≠ d := fun hcd => h (hcd ▸ List.mem_cons_self)
      have hstart : (c :: pattern).isPrefixOf (d :: cs) = false := by simp [List.isPrefixOf, hd]
      rw [remove, hstart, if_neg Bool.false_ne_true, ih fun hc => h (List.mem_cons_of_mem d hc)]

theorem digitChar_plain : ∀ d < 16, isBrace (Nat.digitChar d) = false ∧ Nat.digitChar d ∉ ['+', '-', 'u', 'x', 'X'] := by
  decide

def nibbles (n k : Nat) : List Char := (List.range k).reverse.map (nibble n)

theorem nibbles_succ (n k : Nat) : nibbles n (k + 1) = nibble n k :: nibbles n k := by
  rw [nibbles, List.range_succ, List.reverse_append, List.reverse_singleton, List.singleton_append, List.map_cons,
    nibbles]

theorem mem_nibbles {n k : Nat} {c : Char} (h : c ∈ nibbles n k) : ∃ d < 16, c = Nat.digitChar d := by
  obtain ⟨i, -, rfl⟩ := List.mem_map.mp h
  exact ⟨_, nibble_lt n i, rfl⟩

theorem digits_nibbles (n k value : Nat) (afterDigit : Bool) :
    digits 16 value afterDigit (nibbles n (k + 1)) = some (16 ^ (k + 1) * value + n % 16 ^ (k + 1)) := by
  induction k generalizing value afterDigit with
  | zero =>
      rw [nibbles_succ, nibble, digits_cons (le_refl 16) (nibble_lt n 0)]
      simp [nibbles, digits]
  | succ k ih =>
      have hmod : n % 16 ^ (k + 1 + 1) = n % 16 ^ (k + 1) + 16 ^ (k + 1) * (n / 16 ^ (k + 1) % 16) := Nat.mod_pow_succ
      rw [nibbles_succ, nibble, digits_cons (le_refl 16) (nibble_lt n (k + 1)), ih, hmod, pow_succ 16 (k + 1),
        Nat.mul_add, Nat.add_assoc, Nat.mul_assoc]
      simp only [Nat.add_comm]

theorem int16_nibbles (n k : Nat) : int16 (nibbles n (k + 1)) = some (n % 16 ^ (k + 1)) := by
  have hplain : ∀ c ∈ nibbles n (k + 1), c ∉ ['+', '-', 'u', 'x', 'X'] := by
    intro c hc
    obtain ⟨d, hd, rfl⟩ := mem_nibbles hc
    exact (digitChar_plain d hd).2
  have hsign : dropSign (nibbles n (k + 1)) = nibbles n (k + 1) := by
    refine if_neg fun h => ?_
    exact hplain _ (List.mem_of_mem_head? h) (by simp)
  have hbase : dropBase (nibbles n (k + 1)) = nibbles n (k + 1) := by
    refine if_neg fun h => ?_
    rcases h.2 with hx | hx
    · exact hplain _ (List.mem_of_getElem? hx) (by simp)
    · exact hplain _ (List.mem_of_getElem? hx) (by simp)
  rw [int16, trimmed_eq_self fun c hc => mem_nibbles hc, hsign, hbase, digits_nibbles, Nat.mul_zero, Nat.zero_add]

theorem mem_uuidChars {u : Uuid} {c : Char} (h : c ∈ uuidChars u) : c = '-' ∨ ∃ d < 16, c = Nat.digitChar d := by
  obtain ⟨place, -, rfl⟩ := List.mem_map.mp h
  cases place with
  | none => exact .inl rfl
  | some i => exact .inr ⟨_, nibble_lt u i, rfl⟩

theorem filter_uuidChars (u : Uuid) : ((uuidChars u).filter fun c => c ≠ '-') = nibbles u 32 := by
  have hdigit : ∀ i, nibble u i ≠ '-' := by
    intro i h
    obtain ⟨-, hother⟩ := digitChar_plain _ (nibble_lt u i)
    exact hother (by rw [nibble] at h; simp [h])
  have hplaces : (places.filterMap id).map (nibble u) = nibbles u 32 := rfl
  rw [← hplaces, uuidChars]
  generalize places = ps
  induction ps with
  | nil => rfl
  | cons place ps ih =>
      cases place with
      | none => simpa [placeChar] using ih
      | some i => simpa [placeChar, hdigit i] using ih

theorem hexOf_uuidText (u : Uuid) : hexOf (uuidText u) = nibbles u 32 := by
  have hu : 'u' ∉ uuidChars u := by
    intro h
    rcases mem_uuidChars h with h | ⟨d, hd, h⟩
    · exact absurd h (by decide)
    · exact (digitChar_plain d hd).2 (by simp [← h])
  have hbrace : ∀ c ∈ uuidChars u, isBrace c = false := by
    intro c hc
    rcases mem_uuidChars hc with rfl | ⟨d, hd, rfl⟩
    · rfl
    · exact (digitChar_plain d hd).1
  have hurn : "urn:".toList = 'u' :: ['r', 'n', ':'] := rfl
  have huuid : "uuid:".toList = 'u' :: ['u', 'i', 'd', ':'] := rfl
  rw [hexOf, uuidText_toList, hurn, huuid, remove_eq_self hu, remove_eq_self hu, stripBy_eq_self hbrace,
    filter_uuidChars]

theorem parseUuid_uuidText {u : Uuid} (hu : u < uuidBound) : parseUuid (uuidText u) = some u := by
  have hlength : (nibbles u 32).length = 32 := by rw [nibbles, List.length_map, List.length_reverse, List.length_range]
  have hmod : u % 16 ^ 32 = u := Nat.mod_eq_of_lt hu
  rw [parseUuid, hexOf_uuidText, if_pos hlength, int16_nibbles, hmod, Option.filter_some, decide_eq_true hu, if_pos rfl]

end NukeLab.UuidTexts
