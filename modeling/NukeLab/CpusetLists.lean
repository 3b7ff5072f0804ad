import Mathlib.Order.Interval.Finset.Nat
import NukeLab.CgroupTexts
import NukeLab.CpuViews

namespace NukeLab.CpusetLists

open CgroupTexts CpuViews

section Library

/-- An int, to which a long is cut down that stops at its ends. -/
def atoi (cs : List Char) : Int := (max (-2 ^ 63) (min (atol cs) (2 ^ 63 - 1))).bmod (2 ^ 32)

def countToken (token : List Char) : Int :=
  if '-' ∈ token then
    let start := atoi token
    let last := atoi ((token.dropWhile (· ≠ '-')).drop 1)
    if last ≥ start then (last - start + 1).bmod (2 ^ 32) else 0
  else 1

def countTokens : List (List Char) → Int
  | [] => 0
  | token :: rest => countToken token + countTokens rest

def strtok (buf : List Char) : List (List Char) := (buf.splitOn ',').filter fun token => token ≠ []

def countCpusetCpus (buf : List Char) : Int :=
  let count := countTokens (strtok buf)
  if count > 0 then count else 0

def stripNewline (buf : List Char) : List Char := if buf.getLast? = some '\n' then buf.dropLast else buf

def readCpusetCpus (effective cpus : Option (List Char)) : Int :=
  match (readSmallFile effective 256).or (readSmallFile cpus 256) with
  | none => 0
  | some buf => countCpusetCpus (stripNewline buf)

end Library

inductive Token
  | one (n : Nat)
  | range (first last : Nat)

namespace Token

def first : Token → Nat
  | one n => n
  | range first _ => first

def last : Token → Nat
  | one n => n
  | range _ last => last

def Proper : Token → Prop
  | one _ => True
  | range first last => first < last

def text : Token → List Char
  | one n => Nat.toDigits 10 n
  | range first last => Nat.toDigits 10 first ++ '-' :: Nat.toDigits 10 last

def cpus (t : Token) : Finset Nat := Finset.Icc t.first t.last

def size (t : Token) : Nat := t.last + 1 - t.first

/-- How much of the text has to be read for its CPUs to be counted: all of a range, and
the first digit of a number. -/
def needed : Token → Nat
  | one _ => 1
  | range first last => (range first last).text.length

end Token

/-- What the kernel writes for a set of CPUs, whose numbers are ints. -/
structure CpuList where
  tokens : List Token
  proper : ∀ t ∈ tokens, t.Proper
  ascending : tokens.Pairwise fun s t => s.last < t.first
  fits : ∀ t ∈ tokens, t.last < 2 ^ 31

def body (tokens : List Token) : List Char := [','].intercalate (tokens.map Token.text)

def CpuList.text (l : CpuList) : List Char := body l.tokens ++ ['\n']

def cpusOf (tokens : List Token) : Finset Nat := tokens.foldr (fun t cpus => t.cpus ∪ cpus) ∅

def CpuList.cpus (l : CpuList) : Finset Nat := cpusOf l.tokens

/-- How much has to be read: all, but of a number at the end the first digit will do. -/
def needed : List Token → Nat
  | [] => 0
  | [t] => t.needed
  | t :: next :: rest => t.text.length + 1 + needed (next :: rest)

def sizes : List Token → Nat
  | [] => 0
  | t :: rest => t.size + sizes rest

section Digits

theorem take_toDigits_ne_nil (n : Nat) {k : Nat} (hk : 0 < k) : (Nat.toDigits 10 n).take k ≠ [] := by
  rw [ne_eq, List.take_eq_nil_iff]
  exact fun h => h.elim hk.ne' Nat.toDigits_ne_nil

theorem le_ofDigitChars (cs : List Char) (n : Nat) : 10 ^ cs.length * n ≤ Nat.ofDigitChars 10 cs n := by
  induction cs generalizing n with
  | nil => simp
  | cons c cs ih =>
      have hrest := ih (10 * n + (c.toNat - '0'.toNat))
      rw [Nat.ofDigitChars_cons, List.length_cons, Nat.pow_succ, Nat.mul_assoc]
      exact le_trans (Nat.mul_le_mul_left _ (Nat.le_add_right _ _)) hrest

theorem value_take_lt {n k : Nat} (hn : 0 < n) (hk : k < (Nat.toDigits 10 n).length) :
    Nat.ofDigitChars 10 ((Nat.toDigits 10 n).take k) 0 < n := by
  have hwhole : Nat.ofDigitChars 10 (Nat.toDigits 10 n) 0 = n := Nat.ofDigitChars_ten_toDigits
  rw [← List.take_append_drop k (Nat.toDigits 10 n), Nat.ofDigitChars_append] at hwhole
  have hle := le_ofDigitChars ((Nat.toDigits 10 n).drop k) (Nat.ofDigitChars 10 ((Nat.toDigits 10 n).take k) 0)
  have hten : 10 ≤ 10 ^ ((Nat.toDigits 10 n).drop k).length := by
    apply Nat.le_self_pow
    rw [List.length_drop]
    omega
  have hmul := Nat.mul_le_mul_right (Nat.ofDigitChars 10 ((Nat.toDigits 10 n).take k) 0) hten
  omega

end Digits

section Tokens

theorem atoi_eq {cs : List Char} {n : Nat} (h : atol cs = n) (hn : n < 2 ^ 31) : atoi cs = n := by
  have hlong : max (-2 ^ 63) (min (n : Int) (2 ^ 63 - 1)) = n := by omega
  rw [atoi, h, hlong]
  exact Int.bmod_eq_of_le (by omega) (by omega)

theorem countToken_one {ds : List Char} (hds : ∀ c ∈ ds, c.isDigit = true) : countToken ds = 1 := by
  rw [countToken, if_neg]
  intro hdash
  cases hds '-' hdash

theorem countToken_range {a v : Nat} {ds : List Char} (hds : ∀ c ∈ ds, c.isDigit = true)
    (hv : Nat.ofDigitChars 10 ds 0 = v) (ha : a < 2 ^ 31) (hlt : v < 2 ^ 31) :
    countToken (Nat.toDigits 10 a ++ '-' :: ds) = if v ≥ a then ((v : Int) - a + 1).bmod (2 ^ 32) else 0 := by
  have hstart : atoi (Nat.toDigits 10 a ++ '-' :: ds) = a := by
    apply atoi_eq _ ha
    rw [atol_digits Nat.toDigits_ne_nil (fun c hc => Texts.isDigit_toDigits hc), Nat.ofDigitChars_ten_toDigits]
    rintro c ⟨⟩
    rfl
  have hafter : ((Nat.toDigits 10 a ++ '-' :: ds).dropWhile (· ≠ '-')).drop 1 = ds := by
    have hdigits : ∀ c ∈ Nat.toDigits 10 a, decide (c ≠ '-') = true := by
      intro c hc
      apply decide_eq_true
      rintro rfl
      cases Texts.isDigit_toDigits hc
    rw [List.dropWhile_append_of_pos hdigits]
    rfl
  have hlast : atoi ds = v := by
    apply atoi_eq _ hlt
    cases ds with
    | nil => exact congrArg Nat.cast hv
    | cons c cs =>
        have hatol : atol ((c :: cs) ++ []) = Nat.ofDigitChars 10 (c :: cs) 0 :=
          atol_digits (List.cons_ne_nil c cs) hds (fun c hc => by cases hc)
        rw [← List.append_nil (c :: cs), hatol, hv]
  have hdash : '-' ∈ Nat.toDigits 10 a ++ '-' :: ds := List.mem_append_right _ List.mem_cons_self
  rw [countToken, if_pos hdash, hstart, hafter, hlast]
  simp only [ge_iff_le, Nat.cast_le]

/-- What is counted for a range is no more than there is, and all of it unless it is
more than an int. -/
theorem countToken_le {a v : Nat} {ds : List Char} (hds : ∀ c ∈ ds, c.isDigit = true)
    (hv : Nat.ofDigitChars 10 ds 0 = v) (ha : a < 2 ^ 31) (hlt : v < 2 ^ 31) :
    countToken (Nat.toDigits 10 a ++ '-' :: ds) ≤ ((v + 1 - a : Nat) : Int) ∧
      (countToken (Nat.toDigits 10 a ++ '-' :: ds) = ((v + 1 - a : Nat) : Int) ↔ v + 1 - a < 2 ^ 31) := by
  rw [countToken_range hds hv ha hlt]
  by_cases hle : v ≥ a
  · rw [if_pos hle]
    by_cases hint : v + 1 - a < 2 ^ 31
    · rw [Int.bmod_eq_of_le (by omega) (by omega)]
      omega
    · have hover : (v : Int) - a + 1 = 2 ^ 31 := by omega
      have hwrap : ((2 : Int) ^ 31).bmod (2 ^ 32) = -2 ^ 31 := by decide
      rw [hover, hwrap]
      omega
  · rw [if_neg hle]
    omega

def countPiece (piece : List Char) : Int := countTokens ([piece].filter fun token => token ≠ [])

theorem countPiece_nil : countPiece [] = 0 := rfl

theorem countPiece_of_ne_nil {piece : List Char} (h : piece ≠ []) : countPiece piece = countToken piece := by
  rw [countPiece, List.filter_cons_of_pos (by simpa using h)]
  exact add_zero _

theorem countPiece_take {t : Token} (hproper : t.Proper) (hfits : t.last < 2 ^ 31) (k : Nat) :
    countPiece (t.text.take k) ≤ t.size ∧ (countPiece (t.text.take k) = t.size ↔ t.needed ≤ k ∧ t.size < 2 ^ 31) := by
  obtain rfl | hk := Nat.eq_zero_or_pos k
  · rw [List.take_zero, countPiece_nil]
    cases t with
    | one n => simp [Token.size, Token.needed, Token.first, Token.last]
    | range a b =>
        have hproper : a < b := hproper
        have hsize : (Token.range a b).size = b + 1 - a := rfl
        have hneeded : (Token.range a b).needed = (Token.range a b).text.length := rfl
        have htext : 0 < (Token.range a b).text.length := by simp [Token.text]
        omega
  · cases t with
    | one n =>
        have hsize : (Token.one n).size = 1 := Nat.add_sub_cancel_left n 1
        have hne := take_toDigits_ne_nil n hk
        have hcount : countToken ((Nat.toDigits 10 n).take k) = 1 :=
          countToken_one fun c hc => Texts.isDigit_toDigits (List.mem_of_mem_take hc)
        rw [Token.text, countPiece_of_ne_nil hne, hcount, hsize, Token.needed]
        omega
    | range a b =>
        have hproper : a < b := hproper
        have hfits : b < 2 ^ 31 := hfits
        have hsize : (Token.range a b).size = b + 1 - a := rfl
        have hneeded : (Token.range a b).needed = (Nat.toDigits 10 a).length + (Nat.toDigits 10 b).length + 1 := by
          rw [Token.needed, Token.text, List.length_append, List.length_cons, Nat.add_assoc]
        rw [hsize, hneeded, Token.text]
        by_cases hdash : k ≤ (Nat.toDigits 10 a).length
        · have hne := take_toDigits_ne_nil a hk
          have hcount : countToken ((Nat.toDigits 10 a).take k) = 1 :=
            countToken_one fun c hc => Texts.isDigit_toDigits (List.mem_of_mem_take hc)
          rw [List.take_append_of_le_length hdash, countPiece_of_ne_nil hne, hcount]
          omega
        · obtain ⟨j, rfl⟩ : ∃ j, k = (Nat.toDigits 10 a).length + (j + 1) :=
            ⟨k - (Nat.toDigits 10 a).length - 1, by omega⟩
          have hds : ∀ c ∈ (Nat.toDigits 10 b).take j, c.isDigit = true := fun c hc =>
            Texts.isDigit_toDigits (List.mem_of_mem_take hc)
          rw [List.take_length_add_append, List.take_succ_cons, countPiece_of_ne_nil (by simp)]
          by_cases hwhole : (Nat.toDigits 10 b).length ≤ j
          · have hvalue : Nat.ofDigitChars 10 ((Nat.toDigits 10 b).take j) 0 = b := by
              rw [List.take_of_length_le hwhole, Nat.ofDigitChars_ten_toDigits]
            have hcount := countToken_le hds hvalue (by omega : a < 2 ^ 31) hfits
            omega
          · have hlt := value_take_lt (by omega : 0 < b) (Nat.lt_of_not_ge hwhole)
            have hcount := countToken_le hds rfl (by omega : a < 2 ^ 31) (by omega)
            omega

end Tokens

section Lists

variable {tokens : List Token} {k : Nat}

theorem countTokens_append {piece : List Char} (h : ',' ∉ piece) (rest : List Char) :
    countTokens (strtok (piece ++ ',' :: rest)) = countPiece piece + countTokens (strtok rest) := by
  rw [strtok, List.splitOn_append_cons_self_of_not_mem h, countPiece]
  by_cases hne : piece = []
  · subst hne
    exact (zero_add _).symm
  · rw [List.filter_cons_of_pos (by simpa using hne), List.filter_cons_of_pos (by simpa using hne)]
    exact congrArg (· + _) (add_zero _).symm

theorem countTokens_piece {piece : List Char} (h : ',' ∉ piece) : countTokens (strtok piece) = countPiece piece := by
  rw [strtok, List.splitOn_eq_singleton h]
  rfl

theorem notMem_text {c : Char} (hc : c.isDigit = false) (hdash : c ≠ '-') (t : Token) : c ∉ t.text := by
  cases t with
  | one n => exact Texts.notMem_toDigits hc n
  | range first last =>
      rw [Token.text, List.mem_append, List.mem_cons]
      rintro (hfirst | rfl | hlast)
      · exact Texts.notMem_toDigits hc first hfirst
      · exact hdash rfl
      · exact Texts.notMem_toDigits hc last hlast

theorem body_cons (t next : Token) (rest : List Token) : body (t :: next :: rest) = t.text ++ ',' :: body (next :: rest) := by
  rw [body, List.map_cons, List.map_cons, List.intercalate_cons_cons, List.append_assoc]
  rfl

theorem notMem_body (tokens : List Token) : '\n' ∉ body tokens := by
  induction tokens with
  | nil => exact List.not_mem_nil
  | cons t rest ih =>
      have ht : '\n' ∉ t.text := notMem_text rfl (by decide) t
      cases rest with
      | nil => rwa [body, List.map_singleton, List.intercalate_singleton]
      | cons next rest =>
          rw [body_cons, List.mem_append, List.mem_cons]
          rintro (hmem | hcomma | hmem)
          · exact ht hmem
          · cases hcomma
          · exact ih hmem

theorem size_pos {t : Token} (h : t.Proper) : 0 < t.size := by
  cases t with
  | one n => exact Nat.sub_pos_of_lt (Nat.lt_succ_self n)
  | range first last => exact Nat.sub_pos_of_lt (Nat.lt_succ_of_lt h)

theorem needed_pos {t : Token} (rest : List Token) : 0 < needed (t :: rest) := by
  cases rest with
  | nil =>
      cases t with
      | one n => exact Nat.one_pos
      | range first last => simp [needed, Token.needed, Token.text]
  | cons next rest =>
      rw [needed]
      omega

theorem needed_le_length (t : Token) : t.needed ≤ t.text.length := by
  cases t with
  | one n => exact List.length_pos_of_ne_nil Nat.toDigits_ne_nil
  | range first last => exact Nat.le_refl _

theorem nil_of_sizes (hproper : ∀ t ∈ tokens, t.Proper) (h : sizes tokens = 0) : tokens = [] := by
  cases tokens with
  | nil => rfl
  | cons t rest =>
      have hpos := size_pos (hproper t List.mem_cons_self)
      rw [sizes] at h
      omega

/-- By induction on the tokens, for every place where the text may be cut off: no more is
counted than there is, and all of it only where enough has been read. -/
theorem count_take_body (hproper : ∀ t ∈ tokens, t.Proper) (hfits : ∀ t ∈ tokens, t.last < 2 ^ 31) (k : Nat) :
    countTokens (strtok ((body tokens).take k)) ≤ sizes tokens ∧
      (countTokens (strtok ((body tokens).take k)) = sizes tokens ↔ needed tokens ≤ k ∧ ∀ t ∈ tokens, t.size < 2 ^ 31) := by
  induction tokens generalizing k with
  | nil =>
      have hnil : (body []).take k = [] := List.take_nil
      rw [hnil]
      exact ⟨le_refl _, iff_of_true rfl ⟨Nat.zero_le k, fun t ht => by cases ht⟩⟩
  | cons t rest ih =>
      have hpiece := countPiece_take (hproper t List.mem_cons_self) (hfits t List.mem_cons_self)
      have hcomma : ',' ∉ t.text := notMem_text rfl (by decide) t
      cases rest with
      | nil =>
          have hbody : body [t] = t.text := List.intercalate_singleton
          rw [hbody, countTokens_piece (fun h => hcomma (List.mem_of_mem_take h)), sizes, sizes, Nat.add_zero, needed]
          simpa using hpiece k
      | cons next rest =>
          have hrest := ih (fun t ht => hproper t (List.mem_cons_of_mem _ ht)) (fun t ht => hfits t (List.mem_cons_of_mem _ ht))
          rw [body_cons, sizes, needed, List.forall_mem_cons]
          by_cases hcut : k ≤ t.text.length
          · rw [List.take_append_of_le_length hcut, countTokens_piece (fun h => hcomma (List.mem_of_mem_take h))]
            have hsizes : 0 < sizes (next :: rest) :=
              Nat.add_pos_left (size_pos (hproper next (List.mem_cons_of_mem _ List.mem_cons_self))) _
            have hle := (hpiece k).1
            have hmore := needed_pos (t := next) rest
            push_cast
            omega
          · obtain ⟨j, rfl⟩ : ∃ j, k = t.text.length + (j + 1) := ⟨k - t.text.length - 1, by omega⟩
            obtain ⟨hle, hiff⟩ := hrest j
            obtain ⟨hle', hiff'⟩ := hpiece t.text.length
            rw [List.take_length] at hle' hiff'
            have hwhole := hiff'.trans (and_iff_right (needed_le_length t))
            rw [List.take_length_add_append, List.take_succ_cons, countTokens_append hcomma]
            push_cast
            refine ⟨add_le_add hle' hle, ?_⟩
            constructor
            · intro heq
              obtain ⟨hneeded, hall⟩ := hiff.mp (by omega)
              exact ⟨by omega, hwhole.mp (by omega), hall⟩
            · rintro ⟨hneeded, hsize, hall⟩
              rw [hwhole.mpr hsize, hiff.mpr ⟨by omega, hall⟩]

theorem stripNewline_take {cs : List Char} (h : '\n' ∉ cs) (k : Nat) :
    stripNewline ((cs ++ ['\n']).take k) = cs.take k := by
  by_cases hk : cs.length < k
  · rw [List.take_of_length_le (by rwa [List.length_append]), List.take_of_length_le (Nat.le_of_lt hk), stripNewline,
      List.getLast?_concat, if_pos rfl, List.dropLast_concat]
  · rw [List.take_append_of_le_length (Nat.le_of_not_lt hk), stripNewline, if_neg]
    intro hlast
    exact h (List.mem_of_mem_take (List.mem_of_getLast? hlast))

theorem mem_cpusOf {n : Nat} : n ∈ cpusOf tokens ↔ ∃ t ∈ tokens, n ∈ t.cpus := by
  induction tokens with
  | nil => simp [cpusOf]
  | cons t rest ih =>
      have hcons : cpusOf (t :: rest) = t.cpus ∪ cpusOf rest := rfl
      rw [hcons, Finset.mem_union, ih, List.exists_mem_cons_iff]

theorem card_cpusOf (h : tokens.Pairwise fun s t => s.last < t.first) : (cpusOf tokens).card = sizes tokens := by
  induction tokens with
  | nil => rfl
  | cons t rest ih =>
      obtain ⟨hfirst, hrest⟩ := List.pairwise_cons.mp h
      have hcons : cpusOf (t :: rest) = t.cpus ∪ cpusOf rest := rfl
      have hdisjoint : Disjoint t.cpus (cpusOf rest) := by
        rw [Finset.disjoint_left]
        intro n hn hn'
        obtain ⟨s, hs, hns⟩ := mem_cpusOf.mp hn'
        have hlast := (Finset.mem_Icc.mp hn).2
        have hstart := (Finset.mem_Icc.mp hns).1
        have hlt := hfirst s hs
        omega
      rw [hcons, Finset.card_union_of_disjoint hdisjoint, ih hrest, Token.cpus, Nat.card_Icc, sizes, Token.size]

theorem readSmallFile_text (l : CpuList) : readSmallFile (some l.text) 256 = some (l.text.take 255) := by
  rw [readSmallFile, Option.map_some, Option.filter_some, if_pos]
  simp [CpuList.text]

end Lists

/-- The CPUs are counted exactly where the buffer takes the text up to the end of its last
range or the first digit of its last number, and no range has more than an int. -/
theorem readCpusetCpus_iff (l : CpuList) :
    (∀ cpus, readCpusetCpus (some l.text) cpus = l.cpus.card ↔ needed l.tokens ≤ 255 ∧ ∀ t ∈ l.tokens, t.size < 2 ^ 31) ∧
      (readCpusetCpus none (some l.text) = l.cpus.card ↔ needed l.tokens ≤ 255 ∧ ∀ t ∈ l.tokens, t.size < 2 ^ 31) := by
  have hcount := count_take_body l.proper l.fits 255
  have hbuf : countCpusetCpus (stripNewline (l.text.take 255)) = l.cpus.card ↔
      needed l.tokens ≤ 255 ∧ ∀ t ∈ l.tokens, t.size < 2 ^ 31 := by
    rw [CpuList.text, stripNewline_take (notMem_body l.tokens), CpuList.cpus, card_cpusOf l.ascending, ← hcount.2,
      countCpusetCpus]
    split
    · exact Iff.rfl
    · constructor
      · intro hzero
        rw [nil_of_sizes l.proper (by omega)]
        rfl
      · intro hall
        omega
  constructor
  · intro cpus
    rw [readCpusetCpus, readSmallFile_text]
    exact hbuf
  · rw [readCpusetCpus, readSmallFile_text]
    exact hbuf

section Everyother

/-- The first of the two threads of each of a hundred cores. -/
def everyOther : CpuList where
  tokens := (List.range 100).map fun i => .one (2 * i)
  proper t ht := by
    obtain ⟨i, -, rfl⟩ := List.mem_map.mp ht
    trivial
  ascending := by
    rw [List.pairwise_map]
    refine List.pairwise_lt_range.imp fun {i j} h => ?_
    exact Nat.mul_lt_mul_of_pos_left h Nat.two_pos
  fits t ht := by
    obtain ⟨i, hi, rfl⟩ := List.mem_map.mp ht
    have hlt := List.mem_range.mp hi
    exact lt_trans (Nat.mul_lt_mul_of_pos_left hlt Nat.two_pos) (by decide)

/-- The text does not fit in the buffer, and what is behind it is not counted. -/
theorem everyOther_cut : ¬ ∀ (l : CpuList) (cpus : Option (List Char)), readCpusetCpus (some l.text) cpus = l.cpus.card := by
  intro h
  have hcount := h everyOther none
  rw [CpuList.cpus, card_cpusOf everyOther.ascending] at hcount
  revert hcount
  decide +kernel

end Everyother

end NukeLab.CpusetLists
