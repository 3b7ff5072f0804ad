import Mathlib.Algebra.Group.Nat.Defs
import Mathlib.Data.List.Infix
import NukeLab.Texts

namespace NukeLab.CgroupTexts

/-- What a read of a file fills a buffer with, the end mark left room for; none where there is
no file or nothing in it. -/
def readSmallFile (file : Option (List Char)) (cap : Nat) : Option (List Char) :=
  (file.map fun text => text.take (cap - 1)).filter (· ≠ [])

def digitsValue (cs : List Char) : Nat := Nat.ofDigitChars 10 (cs.takeWhile Char.isDigit) 0

/-- The number after blanks and a sign, in 64 bits. -/
def strtoull (cs : List Char) : Nat :=
  match cs.dropWhile IntTexts.isBlank with
  | '-' :: cs => if digitsValue cs < 2 ^ 64 then (2 ^ 64 - digitsValue cs) % 2 ^ 64 else 2 ^ 64 - 1
  | '+' :: cs => min (digitsValue cs) (2 ^ 64 - 1)
  | cs => min (digitsValue cs) (2 ^ 64 - 1)

/-- The first place from `p` on where the key stands. -/
def strstr (buf key : List Char) (p : Nat) : Option Nat :=
  (List.range' p (buf.length + 1 - p)).find? fun q => key.isPrefixOf (buf.drop q)

/-- The loop from `p` on; none where it has not come to an end after so many rounds. -/
def parseKeyFrom (buf key : List Char) : Nat → Nat → Option Nat
  | 0, _ => none
  | rounds + 1, p =>
    match strstr buf key p with
    | none => some 0
    | some q =>
      if (q = 0 ∨ buf[q - 1]? = some '\n') ∧ buf[q + key.length]? = some ' ' then
        some (strtoull (buf.drop (q + key.length + 1)))
      else parseKeyFrom buf key rounds (q + key.length)

def parseKey (buf key : List Char) : Option Nat := parseKeyFrom buf key (buf.length + 1) 0

/-- The first line that starts with the key and a space: what follows there, and the later lines. -/
def firstLine (key : List Char) : List (List Char) → Option (List Char × List (List Char))
  | [] => none
  | line :: later =>
    if (key ++ [' ']).isPrefixOf line then some (line.drop (key.length + 1), later) else firstLine key later

/-- The number that follows the key and the space there, and nought where there is no such line. -/
def numberAt (key text : List Char) : Nat :=
  match firstLine key (text.splitOn '\n') with
  | none => 0
  | some (rest, later) => strtoull (['\n'].intercalate (rest :: later))

variable {buf key line text : List Char} {p q : Nat}

section Search

theorem of_strstr (h : strstr buf key p = some q) : p ≤ q ∧ q ≤ buf.length ∧ key <+: buf.drop q ∧
    ∀ r, p ≤ r → r < q → ¬ key <+: buf.drop r := by
  obtain ⟨hfound, hmem, hfirst⟩ := List.find?_range'_eq_some.mp h
  rw [List.mem_range'_1] at hmem
  refine ⟨hmem.1, by omega, List.isPrefixOf_iff_prefix.mp hfound, fun r hp hr hstart => ?_⟩
  have hnone := hfirst r hp hr
  rw [List.isPrefixOf_iff_prefix.mpr hstart] at hnone
  cases hnone

theorem of_strstr_none (h : strstr buf key p = none) (hp : p ≤ q) (hq : q ≤ buf.length) : ¬ key <+: buf.drop q := by
  intro hstart
  have hnone := List.find?_range'_eq_none.mp h q hp (by omega)
  rw [List.isPrefixOf_iff_prefix.mpr hstart] at hnone
  cases hnone

structure IsField (key buf : List Char) (q : Nat) : Prop where
  start : q = 0 ∨ buf[q - 1]? = some '\n'
  field : key ++ [' '] <+: buf.drop q

theorem prefix_field_iff : key ++ [' '] <+: buf.drop q ↔ key <+: buf.drop q ∧ buf[q + key.length]? = some ' ' := by
  constructor
  · rintro ⟨rest, hrest⟩
    refine ⟨⟨' ' :: rest, by rw [← hrest, List.append_assoc]; rfl⟩, ?_⟩
    rw [← List.getElem?_drop, ← hrest, List.append_assoc, List.getElem?_append_right (Nat.le_refl _), Nat.sub_self]
    rfl
  · rintro ⟨⟨rest, hrest⟩, hspace⟩
    rw [← List.getElem?_drop, ← hrest, List.getElem?_append_right (Nat.le_refl _), Nat.sub_self] at hspace
    rw [← hrest, List.prefix_append_right_inj]
    obtain ⟨tail, rfl⟩ := List.head?_eq_some_iff.mp (List.head?_eq_getElem? ▸ hspace)
    exact ⟨tail, rfl⟩

theorem IsField.le_length (h : IsField key buf q) : q ≤ buf.length := by
  have hlength := h.field.length_le
  rw [List.length_append, List.length_singleton, List.length_drop] at hlength
  omega

theorem not_isField_within (hkey : '\n' ∉ key) (h : key <+: buf.drop p) (hp : p < q) (hq : q < p + key.length + 1) :
    ¬ IsField key buf q := by
  intro hfield
  obtain hzero | hbreak := hfield.start
  · omega
  · obtain ⟨rest, hrest⟩ := h
    have hindex : q - 1 = p + (q - 1 - p) := by omega
    rw [hindex, ← List.getElem?_drop, ← hrest, List.getElem?_append_left (by omega)] at hbreak
    exact hkey (List.mem_of_getElem? hbreak)

/-- By induction on the rounds: no field has been passed over, and each round goes on
by the length of the key at least. -/
theorem parseKeyFrom_spec (hne : key ≠ []) (hkey : '\n' ∉ key) {rounds : Nat} (hrounds : buf.length < rounds + p)
    (hpassed : ∀ r < p, ¬ IsField key buf r) (hp : p ≤ buf.length) :
    (parseKeyFrom buf key rounds p = some 0 ∧ ∀ q, ¬ IsField key buf q) ∨
      ∃ q, IsField key buf q ∧ (∀ r < q, ¬ IsField key buf r) ∧
        parseKeyFrom buf key rounds p = some (strtoull (buf.drop (q + key.length + 1))) := by
  have hlength : 0 < key.length := List.length_pos_of_ne_nil hne
  induction rounds generalizing p with
  | zero => omega
  | succ rounds ih =>
      rw [parseKeyFrom]
      cases hfound : strstr buf key p with
      | none =>
          refine .inl ⟨rfl, fun q hq => ?_⟩
          by_cases hlt : q < p
          · exact hpassed q hlt hq
          · exact of_strstr_none hfound (by omega) hq.le_length (prefix_field_iff.mp hq.field).1
      | some q =>
          obtain ⟨hpq, hq, hstarts, hfirst⟩ := of_strstr hfound
          have hbefore : ∀ r < q, ¬ IsField key buf r := by
            intro r hr hfield
            by_cases hlt : r < p
            · exact hpassed r hlt hfield
            · exact hfirst r (by omega) hr (prefix_field_iff.mp hfield.field).1
          dsimp only
          by_cases hmatch : (q = 0 ∨ buf[q - 1]? = some '\n') ∧ buf[q + key.length]? = some ' '
          · rw [if_pos hmatch]
            exact .inr ⟨q, ⟨hmatch.1, prefix_field_iff.mpr ⟨hstarts, hmatch.2⟩⟩, hbefore, rfl⟩
          · rw [if_neg hmatch]
            have hend : q + key.length ≤ buf.length := by
              have hle := hstarts.length_le
              rw [List.length_drop] at hle
              omega
            apply ih (by omega) _ hend
            intro r hr hfield
            obtain hlt | rfl | hgt := Nat.lt_trichotomy r q
            · exact hbefore r hlt hfield
            · exact hmatch ⟨hfield.start, (prefix_field_iff.mp hfield.field).2⟩
            · exact not_isField_within hkey hstarts hgt (by omega) hfield

end Search

section Lines

variable {later : List (List Char)}

theorem lines_splitOn (text : List Char) : ∀ line ∈ text.splitOn '\n', '\n' ∉ line := by
  induction text with
  | nil =>
      intro line hline
      obtain rfl := List.mem_singleton.mp hline
      exact List.not_mem_nil
  | cons c text ih =>
      obtain ⟨first, later, hsplit⟩ := List.exists_cons_of_ne_nil (List.splitOn_ne_nil '\n' text)
      rw [hsplit] at ih
      intro line hline
      rw [List.splitOn_cons_eq_if_modifyHead, hsplit] at hline
      split at hline
      · obtain rfl | hline := List.mem_cons.mp hline
        · exact List.not_mem_nil
        · exact ih line hline
      next hc =>
        obtain rfl | hline := List.mem_cons.mp hline
        · have hfirst := ih first List.mem_cons_self
          simp only [List.mem_cons, not_or]
          exact ⟨fun h => hc (beq_iff_eq.mpr h.symm), hfirst⟩
        · exact ih line (List.mem_cons_of_mem _ hline)

def tail : List (List Char) → List Char
  | [] => []
  | next :: later => '\n' :: ['\n'].intercalate (next :: later)

theorem intercalate_cons (line : List Char) (later : List (List Char)) :
    ['\n'].intercalate (line :: later) = line ++ tail later := by
  cases later with
  | nil => rw [List.intercalate_singleton, tail, List.append_nil]
  | cons next later =>
      rw [List.intercalate_cons_cons, tail, List.append_assoc]
      rfl

theorem tail_cases (later : List (List Char)) : tail later = [] ∨ ∃ rest, tail later = '\n' :: rest := by
  cases later with
  | nil => exact .inl rfl
  | cons next later => exact .inr ⟨_, rfl⟩

theorem prefix_line_iff (hkey : '\n' ∉ key) : key <+: line ++ tail later ↔ key <+: line := by
  refine ⟨fun h => ?_, fun h => h.trans (List.prefix_append line _)⟩
  obtain hshort | hlong := List.prefix_or_prefix_of_prefix h (List.prefix_append line (tail later))
  · exact hshort
  · obtain ⟨rest, rfl⟩ := hlong
    have hrest := (List.prefix_append_right_inj line).mp h
    cases rest with
    | nil => exact ⟨[], by simp⟩
    | cons c rest =>
        obtain hnil | ⟨text, hbreak⟩ := tail_cases later
        · rw [hnil] at hrest
          exact absurd (List.prefix_nil.mp hrest) (List.cons_ne_nil c rest)
        · rw [hbreak] at hrest
          obtain ⟨rfl, -⟩ := List.cons_prefix_cons.mp hrest
          exact absurd (List.mem_append_right line List.mem_cons_self) hkey

theorem isField_zero_iff (hkey : '\n' ∉ key) : IsField key (line ++ tail later) 0 ↔ key ++ [' '] <+: line := by
  have hfield : '\n' ∉ key ++ [' '] := by simpa using hkey
  exact ⟨fun h => (prefix_line_iff hfield).mp h.field, fun h => ⟨.inl rfl, (prefix_line_iff hfield).mpr h⟩⟩

theorem not_isField_line (hline : '\n' ∉ line) (hpos : 0 < q) (hq : q ≤ line.length) :
    ¬ IsField key (line ++ tail later) q := by
  intro h
  obtain hzero | hbreak := h.start
  · omega
  · rw [List.getElem?_append_left (by omega)] at hbreak
    exact hline (List.mem_of_getElem? hbreak)

theorem isField_add_iff (line text : List Char) :
    IsField key (line ++ '\n' :: text) (line.length + 1 + q) ↔ IsField key text q := by
  have hdrop : (line ++ '\n' :: text).drop (line.length + 1 + q) = text.drop q := by
    rw [Nat.add_assoc, ← List.drop_drop, List.drop_left, Nat.add_comm, List.drop_succ_cons]
  have hstart : (line ++ '\n' :: text)[line.length + 1 + q - 1]? = ('\n' :: text)[q]? := by
    rw [List.getElem?_append_right (by omega)]
    congr 1
    omega
  constructor
  · intro h
    refine ⟨?_, hdrop ▸ h.field⟩
    cases q with
    | zero => exact .inl rfl
    | succ q =>
        refine .inr ?_
        have hbreak := h.start.resolve_left (by omega)
        rwa [hstart, List.getElem?_cons_succ] at hbreak
  · intro h
    refine ⟨.inr ?_, hdrop.symm ▸ h.field⟩
    rw [hstart]
    cases q with
    | zero => rfl
    | succ q =>
        rw [List.getElem?_cons_succ]
        exact h.start.resolve_left (Nat.succ_ne_zero q)

/-- The first line that starts with the key and a space is the one at the first such place. -/
theorem firstLine_spec (hkey : '\n' ∉ key) {lines : List (List Char)} (hlines : ∀ line ∈ lines, '\n' ∉ line)
    (hne : lines ≠ []) :
    (firstLine key lines = none ∧ ∀ q, ¬ IsField key (['\n'].intercalate lines) q) ∨
      ∃ q rest later, firstLine key lines = some (rest, later) ∧ IsField key (['\n'].intercalate lines) q ∧
        (∀ r < q, ¬ IsField key (['\n'].intercalate lines) r) ∧
        (['\n'].intercalate lines).drop (q + key.length + 1) = ['\n'].intercalate (rest :: later) := by
  induction lines with
  | nil => exact absurd rfl hne
  | cons line later ih =>
      rw [intercalate_cons, firstLine]
      have hline := hlines line List.mem_cons_self
      by_cases hstart : key ++ [' '] <+: line
      · rw [if_pos (List.isPrefixOf_iff_prefix.mpr hstart)]
        refine .inr ⟨0, _, _, rfl, (isField_zero_iff hkey).mpr hstart, by omega, ?_⟩
        have hlength := hstart.length_le
        rw [List.length_append, List.length_singleton] at hlength
        rw [intercalate_cons, Nat.zero_add, List.drop_append_of_le_length hlength]
      · rw [if_neg (fun h => hstart (List.isPrefixOf_iff_prefix.mp h))]
        have hfirst : ∀ q ≤ line.length, ¬ IsField key (line ++ tail later) q := by
          intro q hq hfield
          obtain rfl | hpos := Nat.eq_zero_or_pos q
          · exact hstart ((isField_zero_iff hkey).mp hfield)
          · exact not_isField_line hline hpos hq hfield
        cases later with
        | nil =>
            refine .inl ⟨rfl, fun q hfield => hfirst q ?_ hfield⟩
            have hle := hfield.le_length
            rwa [tail, List.append_nil] at hle
        | cons next later =>
            have hafter : ∀ q, IsField key (line ++ tail (next :: later)) q → ∃ r, q = line.length + 1 + r := by
              intro q hfield
              have hlt : ¬ q ≤ line.length := fun hq => hfirst q hq hfield
              exact ⟨q - (line.length + 1), by omega⟩
            have hlater : ∀ line ∈ next :: later, '\n' ∉ line := fun l hl => hlines l (List.mem_cons_of_mem _ hl)
            obtain ⟨hnone, hno⟩ | ⟨q, rest, found, hsome, hfield, hbefore, hdrop⟩ := ih hlater (List.cons_ne_nil _ _)
            · refine .inl ⟨hnone, fun q hfield => ?_⟩
              obtain ⟨r, rfl⟩ := hafter q hfield
              exact hno r ((isField_add_iff line _).mp hfield)
            · refine .inr ⟨line.length + 1 + q, rest, found, hsome, (isField_add_iff line _).mpr hfield, ?_, ?_⟩
              · intro r hr hfield'
                obtain ⟨r, rfl⟩ := hafter r hfield'
                exact hbefore r (by omega) ((isField_add_iff line _).mp hfield')
              · rw [← hdrop, tail]
                have hindex : line.length + 1 + q + key.length + 1 = line.length + (1 + (q + key.length + 1)) := by omega
                rw [hindex, ← List.drop_drop, List.drop_left, Nat.add_comm 1, List.drop_succ_cons]

end Lines

section Numbers

theorem strtoull_number {n : Nat} (hn : n < 2 ^ 64) {rest : List Char} (hrest : ∀ c ∈ rest.head?, c.isDigit = false) :
    strtoull (Nat.toDigits 10 n ++ rest) = n := by
  have hdigits : ∀ c ∈ Nat.toDigits 10 n, c.isDigit = true := fun c hc => Texts.isDigit_toDigits hc
  have htake := IntTexts.takeWhile_isDigit hdigits hrest
  have hvalue : Nat.ofDigitChars 10 (Nat.toDigits 10 n) 0 = n := Nat.ofDigitChars_ten_toDigits
  obtain ⟨c, cs, hcs⟩ := List.exists_cons_of_ne_nil (Nat.toDigits_ne_nil (n := n) (b := 10))
  have hc : c.isDigit = true := hdigits c (hcs ▸ List.mem_cons_self)
  have hblank : (c :: (cs ++ rest)).dropWhile IntTexts.isBlank = c :: (cs ++ rest) :=
    List.dropWhile_cons_of_neg (by simp [IntTexts.isBlank_of_isDigit hc])
  rw [hcs, List.cons_append] at htake
  rw [hcs] at hvalue
  rw [hcs, List.cons_append, strtoull, hblank]
  split
  · rename_i heq
    obtain ⟨rfl, -⟩ := List.cons.inj heq
    cases hc
  · rename_i heq
    obtain ⟨rfl, -⟩ := List.cons.inj heq
    cases hc
  · rw [digitsValue, htake, hvalue]
    omega

theorem numberAt_number {n : Nat} (hn : n < 2 ^ 64) {rest : List Char} (hrest : ∀ c ∈ rest.head?, c.isDigit = false)
    {later : List (List Char)} (h : firstLine key (text.splitOn '\n') = some (Nat.toDigits 10 n ++ rest, later)) :
    numberAt key text = n := by
  rw [numberAt, h]
  dsimp only
  rw [intercalate_cons, List.append_assoc]
  apply strtoull_number hn
  cases rest with
  | cons c rest => exact hrest
  | nil =>
      obtain hnil | ⟨text, hbreak⟩ := tail_cases later
      · rw [hnil]
        exact hrest
      · rw [hbreak]
        rintro c ⟨⟩
        rfl

end Numbers

/-- The loop comes to an end, with the number at the first line that starts with the key
and a space, and with nought where no line does. -/
theorem parseKey_spec (hne : key ≠ []) (hkey : '\n' ∉ key) (text : List Char) :
    (∀ rounds > text.length, parseKeyFrom text key rounds 0 = some (numberAt key text)) ∧
      ∀ n rest later, n < 2 ^ 64 → (∀ c ∈ rest.head?, c.isDigit = false) →
        firstLine key (text.splitOn '\n') = some (Nat.toDigits 10 n ++ rest, later) → numberAt key text = n := by
  refine ⟨fun rounds hrounds => ?_, fun n rest later hn hrest h => numberAt_number hn hrest h⟩
  have hnothing : ∀ r < 0, ¬ IsField key text r := fun r hr => absurd hr (Nat.not_lt_zero r)
  have hloop := parseKeyFrom_spec hne hkey hrounds hnothing (Nat.zero_le text.length)
  have hlines := firstLine_spec hkey (lines_splitOn text) (List.splitOn_ne_nil '\n' text)
  rw [List.intercalate_splitOn] at hlines
  obtain ⟨hnone, hno⟩ | ⟨q, rest, later, hsome, hfield, hbefore, hdrop⟩ := hlines
  · obtain ⟨hzero, -⟩ | ⟨q, hfield, -⟩ := hloop
    · rw [hzero, numberAt, hnone]
    · exact absurd hfield (hno q)
  · obtain ⟨-, hno⟩ | ⟨p, hfield', hbefore', hvalue⟩ := hloop
    · exact absurd hfield (hno q)
    · obtain rfl : p = q := by
        obtain hlt | heq | hlt := Nat.lt_trichotomy p q
        · exact absurd hfield' (hbefore p hlt)
        · exact heq
        · exact absurd hfield (hbefore' q hlt)
      rw [hvalue, numberAt, hsome, hdrop]

/-- The key stands at the end of another one's line first, and overlaps itself. -/
theorem parseKey_overlapping :
    (∀ rounds > "nr_bursts 3\nss 4\nssss 5\n".toList.length,
      parseKeyFrom "nr_bursts 3\nss 4\nssss 5\n".toList "ss".toList rounds 0 =
        some (numberAt "ss".toList "nr_bursts 3\nss 4\nssss 5\n".toList)) ∧
      ∀ n rest later, n < 2 ^ 64 → (∀ c ∈ rest.head?, c.isDigit = false) →
        firstLine "ss".toList ("nr_bursts 3\nss 4\nssss 5\n".toList.splitOn '\n') = some (Nat.toDigits 10 n ++ rest, later) →
          numberAt "ss".toList "nr_bursts 3\nss 4\nssss 5\n".toList = n :=
  parseKey_spec (by decide) (by decide) _

end NukeLab.CgroupTexts
