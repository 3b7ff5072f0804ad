import NukeLab.Binary64
import NukeLab.Texts

namespace NukeLab.NumberTexts

open Binary64 Binary64.Value IntTexts

def natOf (cs : List Char) : Nat := cs.foldl (fun n c => 10 * n + (c.toNat - '0'.toNat)) 0

def signed : List Char → Bool × List Char
  | '-' :: cs => (true, cs)
  | '+' :: cs => (false, cs)
  | cs => (false, cs)

/-- An exponent without digits is no part of the number. -/
def scanExponent : List Char → ℤ × List Char
  | [] => (0, [])
  | c :: cs =>
    let (negative, rest) := signed cs
    let digits := rest.takeWhile Char.isDigit
    if (c = 'e' ∨ c = 'E') ∧ digits ≠ [] then
      (if negative then -(natOf digits : ℤ) else natOf digits, rest.dropWhile Char.isDigit)
    else (0, c :: cs)

def scanFraction : List Char → List Char × List Char
  | '.' :: cs => (cs.takeWhile Char.isDigit, cs.dropWhile Char.isDigit)
  | cs => ([], cs)

/-- The decimal number that the text begins with, and what follows it. -/
def scanDecimal (cs : List Char) : Option (ℚ × List Char) :=
  let whole := cs.takeWhile Char.isDigit
  let (fraction, rest) := scanFraction (cs.dropWhile Char.isDigit)
  if whole = [] ∧ fraction = [] then none
  else
    let (exponent, rest) := scanExponent rest
    some (natOf (whole ++ fraction) * 10 ^ (exponent - fraction.length), rest)

def withoutUnderscores : Bool → List Char → Option (List Char)
  | _, [] => some []
  | afterDigit, c :: cs =>
    if c = '_' then
      if afterDigit ∧ cs.head?.any Char.isDigit then withoutUnderscores false cs else none
    else (withoutUnderscores c.isDigit cs).map (c :: ·)

/-- `float` of a text in Python. -/
def float (cs : List Char) : Option Value := do
  let (negative, cs) := signed (← withoutUnderscores false (trimmed cs))
  let name := cs.map Char.toLower
  if name = "inf".toList ∨ name = "infinity".toList then return .infinite negative
  if name = "nan".toList then return .nan
  match scanDecimal cs with
  | some (q, []) => return ofRat (if negative then -q else q)
  | _ => none

def isJsSpace (c : Char) : Bool :=
  let n := c.toNat
  9 ≤ n && n ≤ 13 || n == 0x20 || n == 0xa0 || n == 0x1680 || 0x2000 ≤ n && n ≤ 0x200a || n == 0x2028 || n == 0x2029 ||
    n == 0x202f || n == 0x205f || n == 0x3000 || n == 0xfeff

/-- What follows the number in the text is left aside. -/
def parseFloat (cs : List Char) : Value :=
  let (negative, cs) := signed (cs.dropWhile isJsSpace)
  if "Infinity".toList.isPrefixOf cs then .infinite negative
  else
    match scanDecimal cs with
    | some (q, _) => ofRat (if negative then -q else q)
    | none => .nan

/-- In base 10. -/
def parseInt (cs : List Char) : Value :=
  let (negative, cs) := signed (cs.dropWhile isJsSpace)
  let digits := cs.takeWhile Char.isDigit
  if digits = [] then .nan else ofRat (if negative then -(natOf digits : ℚ) else natOf digits)

/-- A non-negative decimal number as it is written: digits, and perhaps a point with digits. -/
structure Numeral where
  whole : List (Fin 10)
  fraction : Option (List (Fin 10))
  digit : whole ≠ [] ∨ ∃ ds ∈ fraction, ds ≠ []

def digitChars (ds : List (Fin 10)) : List Char := ds.map fun (d : Fin 10) => Nat.digitChar d

namespace Numeral

def chars (n : Numeral) : List Char :=
  digitChars n.whole ++
    match n.fraction with
    | none => []
    | some ds => '.' :: digitChars ds

def decimals (n : Numeral) : List (Fin 10) := n.fraction.getD []

def value (n : Numeral) : ℚ := natOf (digitChars (n.whole ++ n.decimals)) / 10 ^ n.decimals.length

end Numeral

def Ends (rest : List Char) : Prop := ∀ c ∈ rest.head?, c.isDigit = false ∧ c ≠ '.' ∧ c ≠ 'e' ∧ c ≠ 'E'

variable {rest : List Char} {ds : List (Fin 10)}

theorem isDigit_digitChar : ∀ d : Fin 10, (Nat.digitChar d).isDigit = true := by decide

theorem takeWhile_digits (h : ∀ c ∈ rest.head?, c.isDigit = false) :
    (digitChars ds ++ rest).takeWhile Char.isDigit = digitChars ds := by
  induction ds with
  | nil =>
      cases rest with
      | nil => rfl
      | cons c cs => exact List.takeWhile_cons_of_neg (by simp [h c rfl])
  | cons d ds ih =>
      rw [digitChars, List.map_cons, List.cons_append, List.takeWhile_cons_of_pos (isDigit_digitChar d), ← digitChars, ih]

theorem dropWhile_digits (h : ∀ c ∈ rest.head?, c.isDigit = false) :
    (digitChars ds ++ rest).dropWhile Char.isDigit = rest := by
  induction ds with
  | nil =>
      cases rest with
      | nil => rfl
      | cons c cs => exact List.dropWhile_cons_of_neg (by simp [h c rfl])
  | cons d ds ih =>
      rw [digitChars, List.map_cons, List.cons_append, List.dropWhile_cons_of_pos (isDigit_digitChar d), ← digitChars, ih]

theorem scanExponent_ends (h : Ends rest) : scanExponent rest = (0, rest) := by
  cases rest with
  | nil => rfl
  | cons c cs =>
      obtain ⟨-, -, he, he'⟩ := h c rfl
      rw [scanExponent]
      exact if_neg fun hc => hc.1.elim he he'

theorem scanDecimal_numeral (n : Numeral) (h : Ends rest) : scanDecimal (n.chars ++ rest) = some (n.value, rest) := by
  have hrest : ∀ c ∈ rest.head?, c.isDigit = false := fun c hc => (h c hc).1
  rcases n with ⟨whole, _ | fraction, hdigit⟩
  · have hpoint : scanFraction rest = ([], rest) := by
      rcases rest with _ | ⟨c, cs⟩
      · rfl
      · have hc := (h c rfl).2.1
        rw [scanFraction]
        rintro cs' ⟨⟩
        exact hc rfl
    have hwhole : digitChars whole ≠ [] := by
      rcases hdigit with hne | ⟨ds, hds, -⟩
      · exact fun hnil => hne (List.map_eq_nil_iff.mp hnil)
      · cases hds
    simp only [scanDecimal, Numeral.chars, List.append_nil, takeWhile_digits hrest, dropWhile_digits hrest, hpoint,
      and_true, if_neg hwhole, scanExponent_ends h, Numeral.value, Numeral.decimals, Option.getD_none, List.length_nil,
      Nat.cast_zero, sub_zero, zpow_zero, mul_one, pow_zero, div_one]
  · have hdot : ∀ c ∈ ('.' :: (digitChars fraction ++ rest)).head?, c.isDigit = false := by
      rintro c ⟨⟩
      rfl
    have hsome : ¬ (digitChars whole = [] ∧ digitChars fraction = []) := by
      rintro ⟨hnone, hnone'⟩
      rcases hdigit with hne | ⟨ds, hds, hne⟩
      · exact hne (List.map_eq_nil_iff.mp hnone)
      · cases hds
        exact hne (List.map_eq_nil_iff.mp hnone')
    have hsplit : digitChars (whole ++ fraction) = digitChars whole ++ digitChars fraction := List.map_append
    have hlength : (digitChars fraction).length = fraction.length := List.length_map _
    simp only [scanDecimal, Numeral.chars, List.append_assoc, List.cons_append, takeWhile_digits hdot,
      dropWhile_digits hdot, scanFraction, takeWhile_digits hrest, dropWhile_digits hrest, if_neg hsome,
      scanExponent_ends h, Numeral.value, Numeral.decimals, Option.getD_some, hsplit, hlength, zero_sub, zpow_neg,
      zpow_natCast, div_eq_mul_inv]

/-- What is neither blank nor a sign, an underscore or a letter of a named value. -/
def Plain (c : Char) : Prop :=
  toAscii c = c ∧ isBlank c = false ∧ Texts.isSpace c = false ∧ isJsSpace c = false ∧
    c ∉ ['_', '+', '-', 'i', 'n', 'I', 'N'] ∧ c.toLower ∉ ['i', 'n']

instance (c : Char) : Decidable (Plain c) := inferInstanceAs (Decidable (_ ∧ _))

theorem plain_digitChar : ∀ d : Fin 10, Plain (Nat.digitChar d) := by decide

theorem plain_point : Plain '.' := by decide

theorem plain_digitChars {c : Char} (h : c ∈ digitChars ds) : Plain c := by
  obtain ⟨d, -, rfl⟩ := List.mem_map.mp h
  exact plain_digitChar d

theorem plain_chars (n : Numeral) : ∀ c ∈ n.chars, Plain c := by
  intro c hc
  rw [Numeral.chars] at hc
  rcases List.mem_append.mp hc with hc | hc
  · exact plain_digitChars hc
  · split at hc
    · cases hc
    · rcases List.mem_cons.mp hc with rfl | hc
      · exact plain_point
      · exact plain_digitChars hc

section Plain

variable {cs : List Char}

theorem trimmed_plain (h : ∀ c ∈ cs, Plain c) : trimmed cs = cs := by
  have hascii : cs.map toAscii = cs := by
    rw [List.map_congr_left fun c hc => (h c hc).1, List.map_id']
  rw [trimmed, hascii]
  exact stripBy_eq_self fun c hc => (h c hc).2.1

theorem strip_plain (h : ∀ c ∈ cs, Plain c) : Texts.strip cs = cs :=
  stripBy_eq_self (p := Texts.isSpace) fun c hc => (h c hc).2.2.1

theorem withoutUnderscores_plain (h : ∀ c ∈ cs, Plain c) (afterDigit : Bool) :
    withoutUnderscores afterDigit cs = some cs := by
  induction cs generalizing afterDigit with
  | nil => rfl
  | cons c cs ih =>
      have hc : c ≠ '_' := by
        rintro rfl
        exact absurd (h '_' List.mem_cons_self) (by decide)
      rw [withoutUnderscores, if_neg hc, ih fun d hd => h d (List.mem_cons_of_mem c hd)]
      rfl

theorem signed_plain (h : ∀ c ∈ cs, Plain c) : signed cs = (false, cs) := by
  rcases cs with _ | ⟨c, cs⟩
  · rfl
  · have hc := h c List.mem_cons_self
    rw [signed]
    · rintro cs' ⟨⟩
      exact absurd hc (by decide)
    · rintro cs' ⟨⟩
      exact absurd hc (by decide)

theorem dropWhile_jsSpace_plain (h : ∀ c ∈ cs, Plain c) : cs.dropWhile isJsSpace = cs := by
  rcases cs with _ | ⟨c, cs⟩
  · rfl
  · exact List.dropWhile_cons_of_neg (by simp [(h c List.mem_cons_self).2.2.2.1])

theorem name_plain (h : ∀ c ∈ cs, Plain c) {name : List Char} (hname : 'i' ∈ name ∨ 'n' ∈ name) :
    cs.map Char.toLower ≠ name := by
  rintro rfl
  rcases hname with hi | hn
  · obtain ⟨c, hc, hlower⟩ := List.mem_map.mp hi
    exact (h c hc).2.2.2.2.2 (hlower ▸ List.mem_cons_self)
  · obtain ⟨c, hc, hlower⟩ := List.mem_map.mp hn
    exact (h c hc).2.2.2.2.2 (hlower ▸ List.mem_cons_of_mem _ List.mem_cons_self)

theorem float_plain (h : ∀ c ∈ cs, Plain c) :
    float cs = match scanDecimal cs with
      | some (q, []) => some (ofRat q)
      | _ => none := by
  have hinf : ¬ (cs.map Char.toLower = "inf".toList ∨ cs.map Char.toLower = "infinity".toList) :=
    not_or.mpr ⟨name_plain h (Or.inl (by decide)), name_plain h (Or.inl (by decide))⟩
  have hnan : cs.map Char.toLower ≠ "nan".toList := name_plain h (Or.inr (by decide))
  simp only [float, trimmed_plain h, withoutUnderscores_plain h, signed_plain h, if_neg hinf, if_neg hnan, Bool.false_eq_true,
    if_false, Option.bind_eq_bind, Option.bind_some]
  rfl

end Plain

section Numerals

variable (n : Numeral)

theorem float_numeral (hplain : ∀ c ∈ rest, Plain c) (h : Ends rest) :
    float (n.chars ++ rest) = if rest = [] then some (ofRat n.value) else none := by
  rw [float_plain (List.forall_mem_append.mpr ⟨plain_chars n, hplain⟩), scanDecimal_numeral n h]
  cases rest <;> rfl

theorem parseFloat_numeral (hplain : ∀ c ∈ rest, Plain c) (h : Ends rest) :
    parseFloat (n.chars ++ rest) = ofRat n.value := by
  have hall : ∀ c ∈ n.chars ++ rest, Plain c := List.forall_mem_append.mpr ⟨plain_chars n, hplain⟩
  have hname : "Infinity".toList.isPrefixOf (n.chars ++ rest) = false := by
    rcases hcs : n.chars ++ rest with _ | ⟨c, cs⟩
    · rfl
    · rw [hcs] at hall
      have hc : 'I' ≠ c := by
        rintro rfl
        exact absurd (hall 'I' List.mem_cons_self) (by decide)
      simp [List.isPrefixOf, hc]
  simp only [parseFloat, dropWhile_jsSpace_plain hall, signed_plain hall, hname, scanDecimal_numeral n h, Bool.false_eq_true,
    if_false]

end Numerals

theorem digits_digitChars {afterDigit : Bool} (h : afterDigit = true ∨ ds ≠ []) (value : Nat) :
    IntTexts.digits 10 value afterDigit (digitChars ds) =
      some ((digitChars ds).foldl (fun n c => 10 * n + (c.toNat - '0'.toNat)) value) := by
  induction ds generalizing value afterDigit with
  | nil =>
      obtain rfl := h.resolve_right (not_not.mpr rfl)
      rfl
  | cons d ds ih =>
      have hvalue : ∀ d : Fin 10, (Nat.digitChar d).toNat - '0'.toNat = d := by decide
      rw [digitChars, List.map_cons, digits_cons (by decide) d.isLt, List.foldl_cons, hvalue]
      exact ih (Or.inl rfl) _

theorem ten_le_digitValue {c : Char} {d : Nat} (hc : c.isDigit = false) (h : digitValue c = some d) : 10 ≤ d := by
  have hdigit : ¬ ('0' ≤ c ∧ c ≤ '9') := by
    rintro ⟨hlow, hhigh⟩
    have htrue : c.isDigit = true := by
      rw [Char.isDigit, Bool.and_eq_true, decide_eq_true_iff, decide_eq_true_iff]
      exact ⟨hlow, hhigh⟩
    rw [hc] at htrue
    cases htrue
  rw [digitValue, if_neg hdigit] at h
  split at h
  · cases h
    exact Nat.le_add_left 10 _
  split at h
  · cases h
    exact Nat.le_add_left 10 _
  · cases h

theorem digits_other {cs : List Char} (h : ∃ c ∈ cs, c ≠ '_' ∧ c.isDigit = false) (value : Nat) (afterDigit : Bool) :
    IntTexts.digits 10 value afterDigit cs = none := by
  induction cs generalizing value afterDigit with
  | nil =>
      obtain ⟨c, hc, -⟩ := h
      cases hc
  | cons c cs ih =>
      rw [IntTexts.digits]
      obtain ⟨c', hc', hother, hdigit⟩ := h
      rcases List.mem_cons.mp hc' with rfl | hc'
      · rw [if_neg hother]
        cases hvalue : digitValue c' with
        | none => rfl
        | some d => exact if_neg (not_lt.mpr (ten_le_digitValue hdigit hvalue))
      · have hrest := ih ⟨c', hc', hother, hdigit⟩
        split_ifs
        · exact hrest value false
        · rfl
        · cases digitValue c with
          | none => rfl
          | some d =>
              dsimp only
              split_ifs
              · exact hrest _ true
              · rfl

theorem int10_plain {cs : List Char} (h : ∀ c ∈ cs, Plain c) :
    int10 (String.ofList cs) = (decimal cs).map Int.ofNat := by
  rw [int10, String.toList_ofList, trimmed_plain h]
  rcases cs with _ | ⟨c, cs⟩
  · rfl
  · have hc := h c List.mem_cons_self
    split
    · next heq =>
        cases heq
        exact absurd hc (by decide)
    · next heq =>
        cases heq
        exact absurd hc (by decide)
    · rfl

theorem int10_other {cs : List Char} (h : ∀ c ∈ cs, Plain c) (hother : ∃ c ∈ cs, c.isDigit = false) :
    int10 (String.ofList cs) = none := by
  obtain ⟨c, hc, hdigit⟩ := hother
  have hplain : c ≠ '_' := by
    rintro rfl
    exact absurd (h '_' hc) (by decide)
  rw [int10_plain h, decimal, digits_other ⟨c, hc, hplain, hdigit⟩]
  simp

theorem int10_digitChars (h : ds ≠ []) :
    int10 (String.ofList (digitChars ds)) = if ds.length ≤ maxStrDigits then some (natOf (digitChars ds) : ℤ) else none := by
  have hall : ∀ c ∈ digitChars ds, Plain c := fun c hc => plain_digitChars hc
  have hfilter : (digitChars ds).filter (fun c => c ≠ '_') = digitChars ds := by
    apply List.filter_eq_self.mpr
    intro c hc
    apply decide_eq_true
    rintro rfl
    exact absurd (hall '_' hc) (by decide)
  have hlength : (digitChars ds).length = ds.length := List.length_map _
  rw [int10_plain hall, decimal, hfilter, hlength]
  split
  · rw [digits_digitChars (Or.inr h)]
    rfl
  · rfl

theorem parseInt_digitChars (h : ds ≠ []) : parseInt (digitChars ds) = ofRat (natOf (digitChars ds)) := by
  have hall : ∀ c ∈ digitChars ds, Plain c := fun c hc => plain_digitChars hc
  have hdigits : (digitChars ds).takeWhile Char.isDigit = digitChars ds := by
    have htake := @takeWhile_digits [] ds fun c hc => by cases hc
    rwa [List.append_nil] at htake
  have hne : digitChars ds ≠ [] := fun hnil => h (List.map_eq_nil_iff.mp hnil)
  simp only [parseInt, dropWhile_jsSpace_plain hall, signed_plain hall, hdigits, if_neg hne, Bool.false_eq_true, if_false]

theorem natOf_eq_zero_iff : natOf (digitChars ds) = 0 ↔ ∀ d ∈ ds, d = 0 := by
  have hvalue : ∀ d : Fin 10, (Nat.digitChar d).toNat - '0'.toNat = d := by decide
  have hfold : ∀ start, (digitChars ds).foldl (fun n c => 10 * n + (c.toNat - '0'.toNat)) start = 0 ↔
      start = 0 ∧ ∀ d ∈ ds, d = 0 := by
    induction ds with
    | nil => simp [digitChars]
    | cons d ds ih =>
        intro start
        rw [digitChars, List.map_cons, List.foldl_cons, ← digitChars, ih, hvalue, List.forall_mem_cons, ← and_assoc]
        apply and_congr_left'
        rw [Fin.ext_iff]
        omega
  rw [natOf, hfold, and_iff_right rfl]

end NukeLab.NumberTexts
