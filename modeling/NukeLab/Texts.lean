namespace NukeLab.Texts

/-- The characters a text is stripped of at both ends. -/
def isSpace (c : Char) : Bool :=
  let n := c.toNat
  9 ≤ n && n ≤ 13 || 28 ≤ n && n ≤ 32 || n == 0x85 || n == 0xa0 || n == 0x1680 || 0x2000 ≤ n && n ≤ 0x200a ||
    n == 0x2028 || n == 0x2029 || n == 0x202f || n == 0x205f || n == 0x3000

def strip (cs : List Char) : List Char := ((cs.dropWhile isSpace).reverse.dropWhile isSpace).reverse

def isBlank (text : String) : Bool := text.toList.all isSpace

theorem isDigit_toDigits {n : Nat} {c : Char} (h : c ∈ Nat.toDigits 10 n) : c.isDigit = true :=
  Nat.isDigit_of_mem_toDigits (by decide) (by decide) h

theorem notMem_toDigits {c : Char} (h : c.isDigit = false) (n : Nat) : c ∉ Nat.toDigits 10 n := by
  intro hc
  rw [isDigit_toDigits hc] at h
  cases h

end NukeLab.Texts

namespace NukeLab.IntTexts

/-- The zeros of the scripts that have decimal digits; the other nine follow each. -/
def decimalZeros : List Nat :=
  [0x30, 0x660, 0x6f0, 0x7c0, 0x966, 0x9e6, 0xa66, 0xae6, 0xb66, 0xbe6, 0xc66, 0xce6, 0xd66, 0xde6, 0xe50, 0xed0,
    0xf20, 0x1040, 0x1090, 0x17e0, 0x1810, 0x1946, 0x19d0, 0x1a80, 0x1a90, 0x1b50, 0x1bb0, 0x1c40, 0x1c50, 0xa620,
    0xa8d0, 0xa900, 0xa9d0, 0xa9f0, 0xaa50, 0xabf0, 0xff10, 0x104a0, 0x10d30, 0x11066, 0x110f0, 0x11136, 0x111d0,
    0x112f0, 0x11450, 0x114d0, 0x11650, 0x116c0, 0x11730, 0x118e0, 0x11950, 0x11c50, 0x11d50, 0x11da0, 0x11f50,
    0x16a60, 0x16ac0, 0x16b50, 0x1d7ce, 0x1d7d8, 0x1d7e2, 0x1d7ec, 0x1d7f6, 0x1e140, 0x1e2f0, 0x1e4f0, 0x1e950,
    0x1fbf0]

/-- What `int` reads a character as. -/
def toAscii (c : Char) : Char :=
  if c.toNat < 127 then c
  else if Texts.isSpace c then ' '
  else
    match decimalZeros.find? fun first => first ≤ c.toNat ∧ c.toNat ≤ first + 9 with
    | some first => Nat.digitChar (c.toNat - first)
    | none => c

def isBlank (c : Char) : Bool := 9 ≤ c.toNat && c.toNat ≤ 13 || c = ' '

def digitValue (c : Char) : Option Nat :=
  if '0' ≤ c ∧ c ≤ '9' then some (c.toNat - '0'.toNat)
  else if 'a' ≤ c ∧ c ≤ 'f' then some (c.toNat - 'a'.toNat + 10)
  else if 'A' ≤ c ∧ c ≤ 'F' then some (c.toNat - 'A'.toNat + 10)
  else none

def digits (base : Nat) : Nat → Bool → List Char → Option Nat
  | value, afterDigit, [] => if afterDigit then some value else none
  | value, afterDigit, c :: cs =>
    if c = '_' then if afterDigit then digits base value false cs else none
    else
      match digitValue c with
      | some d => if d < base then digits base (base * value + d) true cs else none
      | none => none

def stripBy (p : Char → Bool) (cs : List Char) : List Char := ((cs.dropWhile p).reverse.dropWhile p).reverse

/-- The characters that `int` goes by. -/
def trimmed (cs : List Char) : List Char := stripBy isBlank (cs.map toAscii)

/-- In base 10 more digits than this are refused. -/
def maxStrDigits : Nat := 4300

def decimal (cs : List Char) : Option Nat :=
  if (cs.filter fun c => c ≠ '_').length ≤ maxStrDigits then digits 10 0 false cs else none

/-- `int` of a text. -/
def int10 (text : String) : Option Int :=
  match trimmed text.toList with
  | '-' :: cs => (decimal cs).map fun n => -(n : Int)
  | '+' :: cs => (decimal cs).map Int.ofNat
  | cs => (decimal cs).map Int.ofNat

theorem isBlank_of_isDigit {c : Char} (h : c.isDigit = true) : isBlank c = false := by
  simp only [Char.isDigit, Bool.and_eq_true, decide_eq_true_iff] at h
  have hle : 48 ≤ c.toNat := h.1
  have hspace : c ≠ ' ' := by
    rintro rfl
    exact absurd hle (by decide)
  rw [isBlank, Bool.or_eq_false_iff, Bool.and_eq_false_iff, decide_eq_false_iff_not, decide_eq_false_iff_not,
    decide_eq_false_iff_not]
  exact ⟨Or.inr (by omega), hspace⟩

theorem takeWhile_isDigit {ds rest : List Char} (hds : ∀ c ∈ ds, c.isDigit = true)
    (hrest : ∀ c ∈ rest.head?, c.isDigit = false) : (ds ++ rest).takeWhile Char.isDigit = ds := by
  rw [List.takeWhile_append_of_pos hds]
  cases rest with
  | nil => exact List.append_nil _
  | cons c rest => rw [List.takeWhile_cons_of_neg (by simp [hrest c rfl]), List.append_nil]

theorem stripBy_eq_self {p : Char → Bool} {cs : List Char} (h : ∀ c ∈ cs, p c = false) : stripBy p cs = cs := by
  have hdrop : ∀ ds : List Char, (∀ c ∈ ds, p c = false) → ds.dropWhile p = ds := by
    intro ds hds
    cases ds with
    | nil => rfl
    | cons d ds => exact List.dropWhile_cons_of_neg (by simp [hds d List.mem_cons_self])
  rw [stripBy, hdrop cs h, hdrop cs.reverse fun c hc => h c (List.mem_reverse.mp hc), List.reverse_reverse]

theorem trimmed_eq_self {cs : List Char} (h : ∀ c ∈ cs, ∃ d < 16, c = Nat.digitChar d) : trimmed cs = cs := by
  have hplain : ∀ d < 16, toAscii (Nat.digitChar d) = Nat.digitChar d ∧ isBlank (Nat.digitChar d) = false := by decide
  have hascii : cs.map toAscii = cs := by
    have hid : ∀ c ∈ cs, toAscii c = c := by
      intro c hc
      obtain ⟨d, hd, rfl⟩ := h c hc
      exact (hplain d hd).1
    rw [List.map_congr_left hid, List.map_id']
  rw [trimmed, hascii]
  refine stripBy_eq_self fun c hc => ?_
  obtain ⟨d, hd, rfl⟩ := h c hc
  exact (hplain d hd).2

theorem digitValue_digitChar : ∀ d < 16, digitValue (Nat.digitChar d) = some d := by decide

theorem digitChar_ne_underscore : ∀ d < 16, Nat.digitChar d ≠ '_' := by decide

theorem digits_cons {base d : Nat} (hbase : base ≤ 16) (hd : d < base) (value : Nat) (afterDigit : Bool) (cs : List Char) :
    digits base value afterDigit (Nat.digitChar d :: cs) = digits base (base * value + d) true cs := by
  have hd' : d < 16 := Nat.lt_of_lt_of_le hd hbase
  rw [digits, if_neg (digitChar_ne_underscore d hd'), digitValue_digitChar d hd']
  exact if_pos hd

theorem digits_append_digit {base d : Nat} (hbase : base ≤ 16) (hd : d < base) {cs : List Char} :
    ∀ {value n : Nat} {afterDigit : Bool}, digits base value afterDigit cs = some n →
      digits base value afterDigit (cs ++ [Nat.digitChar d]) = some (base * n + d) := by
  induction cs with
  | nil =>
      intro value n afterDigit h
      cases afterDigit with
      | false => cases h
      | true =>
          cases h
          exact digits_cons hbase hd _ true []
  | cons c cs ih =>
      intro value n afterDigit h
      rw [List.cons_append, digits]
      rw [digits] at h
      split
      · rename_i hc
        rw [if_pos hc] at h
        split
        · rename_i hafter
          rw [if_pos hafter] at h
          exact ih h
        · rename_i hafter
          rw [if_neg hafter] at h
          cases h
      · rename_i hc
        rw [if_neg hc] at h
        split
        · rename_i v hv
          rw [hv] at h
          dsimp only at h
          split
          · rename_i hlt
            rw [if_pos hlt] at h
            exact ih h
          · rename_i hlt
            rw [if_neg hlt] at h
            cases h
        · rename_i hv
          rw [hv] at h
          cases h

theorem digits_toDigits (n : Nat) : digits 10 0 false (Nat.toDigits 10 n) = some n := by
  induction n using Nat.strongRecOn with
  | ind n ih =>
      by_cases hn : n < 10
      · rw [Nat.toDigits_of_lt_base hn, digits_cons (by decide) hn]
        simp [digits]
      · have hlt : n / 10 < n := Nat.div_lt_self (by omega) (by decide)
        have hsplit : Nat.toDigits 10 n = Nat.toDigits 10 (n / 10) ++ [Nat.digitChar (n % 10)] :=
          Nat.toDigits_of_base_le (by decide) (Nat.le_of_not_lt hn)
        rw [hsplit, digits_append_digit (by decide) (Nat.mod_lt n (by decide)) (ih (n / 10) hlt), Nat.div_add_mod]

theorem mem_toDigits {n : Nat} {c : Char} (h : c ∈ Nat.toDigits 10 n) : ∃ d < 10, c = Nat.digitChar d := by
  induction n using Nat.strongRecOn with
  | ind n ih =>
      by_cases hn : n < 10
      · rw [Nat.toDigits_of_lt_base hn, List.mem_singleton] at h
        exact ⟨n, hn, h⟩
      · rw [Nat.toDigits_of_base_le (by decide) (Nat.le_of_not_lt hn), List.mem_append, List.mem_singleton] at h
        rcases h with h | h
        · exact ih (n / 10) (Nat.div_lt_self (by omega) (by decide)) h
        · exact ⟨n % 10, Nat.mod_lt n (by decide), h⟩

theorem int10_toString {n : Nat} (h : n < 10000) : int10 (toString n) = some (n : Int) := by
  have htext : (toString n).toList = Nat.toDigits 10 n := by simp
  have hplain : ∀ d < 10, Nat.digitChar d ≠ '-' ∧ Nat.digitChar d ≠ '+' := by decide
  have htrimmed : trimmed (Nat.toDigits 10 n) = Nat.toDigits 10 n := by
    refine trimmed_eq_self fun c hc => ?_
    obtain ⟨d, hd, rfl⟩ := mem_toDigits hc
    exact ⟨d, Nat.lt_of_lt_of_le hd (by decide), rfl⟩
  have hlength : ((Nat.toDigits 10 n).filter fun c => c ≠ '_').length ≤ maxStrDigits :=
    calc ((Nat.toDigits 10 n).filter fun c => c ≠ '_').length ≤ (Nat.toDigits 10 n).length := List.length_filter_le _ _
      _ ≤ 4 := (Nat.length_toDigits_le_iff (b := 10) (n := n) (k := 4) (by decide) (by decide)).mpr h
      _ ≤ maxStrDigits := by decide
  have hdecimal : decimal (Nat.toDigits 10 n) = some n := by rw [decimal, if_pos hlength, digits_toDigits]
  rw [int10, htext, htrimmed]
  split
  · rename_i cs hcs
    obtain ⟨d, hd, hminus⟩ := mem_toDigits (n := n) (hcs ▸ List.mem_cons_self)
    exact absurd hminus.symm (hplain d hd).1
  · rename_i cs hcs
    obtain ⟨d, hd, hplus⟩ := mem_toDigits (n := n) (hcs ▸ List.mem_cons_self)
    exact absurd hplus.symm (hplain d hd).2
  · rw [hdecimal]
    rfl

end NukeLab.IntTexts
