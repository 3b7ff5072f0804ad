import NukeLab.DockerNames
import NukeLab.NumberTexts

namespace NukeLab.SizeParsers

open Binary64 NumberTexts

def lowered (cs : List Char) : List Char := cs.flatMap DockerNames.lower

def endsWith (cs : List Char) (suffix : String) : Bool := suffix.toList.isSuffixOf cs

/-- The text without its last `n` characters. -/
def dropEnd (n : Nat) (cs : List Char) : List Char := cs.take (cs.length - n)

def rstrip (chars : String) (cs : List Char) : List Char := (cs.reverse.dropWhile fun c => c ∈ chars.toList).reverse

/-- `int` of a float that is multiplied by each factor in turn; `none` is a raise. -/
def scaledInt (v : Option Value) (factors : List Nat) : Option Int := v.bind fun v => (factors.foldl Value.scale v).toInt

namespace QuotaService

def parseMemory (memStr : String) : Option Int :=
  if memStr = "" then some 0
  else
    let memStr := Texts.strip (lowered memStr.toList)
    if endsWith memStr "g" then scaledInt (float (dropEnd 1 memStr)) [1024]
    else if endsWith memStr "gb" then scaledInt (float (dropEnd 2 memStr)) [1024]
    else if endsWith memStr "m" then scaledInt (float (dropEnd 1 memStr)) []
    else if endsWith memStr "mb" then scaledInt (float (dropEnd 2 memStr)) []
    else if endsWith memStr "t" then scaledInt (float (dropEnd 1 memStr)) [1024, 1024]
    else if endsWith memStr "tb" then scaledInt (float (dropEnd 2 memStr)) [1024, 1024]
    else scaledInt (float memStr) []

end QuotaService

namespace ResourcePoolService

def parseMemory (memStr : String) : Option Int :=
  if memStr = "" then some 0
  else
    let memStr := Texts.strip (lowered memStr.toList)
    if endsWith memStr "g" ∨ endsWith memStr "gb" then scaledInt (float (rstrip "g" (rstrip "gb" memStr))) [1024]
    else if endsWith memStr "m" ∨ endsWith memStr "mb" then scaledInt (float (rstrip "m" (rstrip "mb" memStr))) []
    else if endsWith memStr "t" ∨ endsWith memStr "tb" then
      scaledInt (float (rstrip "t" (rstrip "tb" memStr))) [1024, 1024]
    else scaledInt (float memStr) []

end ResourcePoolService

/-- The first of the suffixes in the order of the table decides. -/
def parseBytes (multipliers : List (String × Nat)) (memoryStr : String) : Option Int :=
  let memoryStr := lowered memoryStr.toList
  match multipliers.find? fun m => endsWith memoryStr m.1 with
  | some (_, multiplier) => scaledInt (float (dropEnd 1 memoryStr)) [multiplier]
  | none => IntTexts.int10 (String.ofList memoryStr)

namespace DockerDriver

def multipliers : List (String × Nat) := [("b", 1), ("k", 1024), ("m", 1024 ^ 2), ("g", 1024 ^ 3)]

def parseMemory (memoryStr : String) : Option Int := parseBytes multipliers memoryStr

end DockerDriver

namespace VolumeService

def multipliers : List (String × Nat) := DockerDriver.multipliers ++ [("t", 1024 ^ 4)]

def parseMemory (memoryStr : String) : Option Int := parseBytes multipliers memoryStr

end VolumeService

def jsTrim (cs : List Char) : List Char := ((cs.dropWhile isJsSpace).reverse.dropWhile isJsSpace).reverse

/-- What is no number counts as nothing in `parseInt(str, 10) || 0`. -/
def orZero : Value → Value
  | .nan => .finite 0
  | v => v

/-- The parser of the frontend. -/
def parseMemoryString (memoryStr : String) : Value :=
  if memoryStr = "" then .finite 0
  else
    let str := jsTrim (lowered memoryStr.toList)
    match VolumeService.multipliers.find? fun m => endsWith str m.1 with
    | some (_, multiplier) => ((parseFloat (dropEnd 1 str)).scale multiplier).floor
    | none => orZero (parseInt str)

def units : List String := ["", "b", "k", "kb", "m", "mb", "g", "gb", "t", "tb"]

structure SizeText where
  number : Numeral
  unit : List Char
  known : String.ofList (unit.map Char.toLower) ∈ units

namespace SizeText

def text (x : SizeText) : String := String.ofList (x.number.chars ++ x.unit)

def lowerUnit (x : SizeText) : String := String.ofList (x.unit.map Char.toLower)

end SizeText

/-- All of them give a value: the two in MiB the same, the three in bytes the same,
and the first is the second rounded down. -/
def Agree (text : String) : Prop :=
  ∃ mib bytes : Int, QuotaService.parseMemory text = some mib ∧ ResourcePoolService.parseMemory text = some mib ∧
    DockerDriver.parseMemory text = some bytes ∧ VolumeService.parseMemory text = some bytes ∧
    parseMemoryString text = .finite bytes ∧ mib = bytes / 1024 ^ 2

def letters : List Char := ['b', 'k', 'm', 'g', 't']

def OfLetters (cs : List Char) : Prop := ∀ c ∈ cs, c ∈ letters

instance (cs : List Char) : Decidable (OfLetters cs) := decidable_of_iff (cs.all (· ∈ letters) = true) (by simp [OfLetters])

theorem letter_plain : ∀ c ∈ letters, Plain c ∧ c.isDigit = false ∧ c ≠ '.' ∧ c ≠ 'e' ∧ c ≠ 'E' := by
  intro c hc
  simp only [letters, List.mem_cons, List.not_mem_nil, or_false] at hc
  rcases hc with rfl | rfl | rfl | rfl | rfl <;> decide

theorem letter_of_unit : ∀ unit ∈ units, OfLetters unit.toList := by decide

theorem digit_lower : ∀ d : Fin 10, DockerNames.lower (Nat.digitChar d) = [Nat.digitChar d] ∧ Nat.digitChar d ∉ letters := by
  decide

theorem mem_chars {n : Numeral} {c : Char} (h : c ∈ n.chars) : c = '.' ∨ ∃ d : Fin 10, c = Nat.digitChar d := by
  have hdigit : ∀ {ds : List (Fin 10)}, c ∈ digitChars ds → ∃ d : Fin 10, c = Nat.digitChar d := by
    intro ds hc
    obtain ⟨d, -, rfl⟩ := List.mem_map.mp hc
    exact ⟨d, rfl⟩
  rw [Numeral.chars] at h
  rcases List.mem_append.mp h with hc | hc
  · exact Or.inr (hdigit hc)
  · split at hc
    · cases hc
    · rcases List.mem_cons.mp hc with rfl | hc
      · exact Or.inl rfl
      · exact Or.inr (hdigit hc)

theorem not_letter_of_mem_chars {n : Numeral} {c : Char} (h : c ∈ n.chars) : c ∉ letters := by
  rcases mem_chars h with rfl | ⟨d, rfl⟩
  · decide
  · exact (digit_lower d).2

theorem lowered_chars (n : Numeral) : lowered n.chars = n.chars := by
  have hid : ∀ c ∈ n.chars, DockerNames.lower c = [c] := by
    intro c hc
    rcases mem_chars hc with rfl | ⟨d, rfl⟩
    · decide
    · exact (digit_lower d).1
  rw [lowered, List.flatMap_congr hid, List.flatMap_singleton']

theorem lowered_unit {unit : List Char} (h : ∀ c ∈ unit, c.toLower ∈ letters) : lowered unit = unit.map Char.toLower := by
  have hlower : ∀ c ∈ unit, DockerNames.lower c = [c.toLower] := by
    intro c hc
    have hkelvin : c ≠ '\u212a' := by
      rintro rfl
      exact absurd (h _ hc) (by decide)
    have hdotted : c ≠ '\u0130' := by
      rintro rfl
      exact absurd (h _ hc) (by decide)
    rw [DockerNames.lower, if_neg hkelvin, if_neg hdotted]
  rw [lowered, List.flatMap_congr hlower, ← List.map_eq_flatMap]

namespace SizeText

variable (x : SizeText)

theorem letter_of_lowerUnit {c : Char} (h : c ∈ x.lowerUnit.toList) : c ∈ letters := letter_of_unit _ x.known c h

theorem lowered_text : lowered x.text.toList = x.number.chars ++ x.lowerUnit.toList := by
  have hunit : ∀ c ∈ x.unit, c.toLower ∈ letters := by
    intro c hc
    apply x.letter_of_lowerUnit
    rw [lowerUnit, String.toList_ofList]
    exact List.mem_map_of_mem hc
  rw [text, String.toList_ofList, lowered, List.flatMap_append, ← lowered, ← lowered, lowered_chars, lowered_unit hunit,
    lowerUnit, String.toList_ofList]

theorem text_ne_empty : x.text ≠ "" := by
  intro h
  have hnil : x.number.chars ++ x.unit = [] := by
    have htext := congrArg String.toList h
    rwa [text, String.toList_ofList] at htext
  have hchars := (List.append_eq_nil_iff.mp hnil).1
  rw [Numeral.chars] at hchars
  obtain ⟨hwhole, hfraction⟩ := List.append_eq_nil_iff.mp hchars
  rcases x.number.digit with hne | ⟨ds, hds, -⟩
  · exact hne (List.map_eq_nil_iff.mp hwhole)
  · rw [Option.mem_def.mp hds] at hfraction
    cases hfraction

theorem plain_lowerUnit : ∀ c ∈ x.lowerUnit.toList, Plain c := fun c hc => (letter_plain c (x.letter_of_lowerUnit hc)).1

theorem strip_text : Texts.strip (x.number.chars ++ x.lowerUnit.toList) = x.number.chars ++ x.lowerUnit.toList :=
  strip_plain (List.forall_mem_append.mpr ⟨plain_chars x.number, x.plain_lowerUnit⟩)

theorem jsTrim_text : jsTrim (x.number.chars ++ x.lowerUnit.toList) = x.number.chars ++ x.lowerUnit.toList :=
  IntTexts.stripBy_eq_self (p := isJsSpace)
    fun c hc => (List.forall_mem_append.mpr ⟨plain_chars x.number, x.plain_lowerUnit⟩ c hc).2.2.2.1

end SizeText

theorem endsWith_numeral {n : Numeral} {unit : List Char} {suffix : String} (h : OfLetters suffix.toList) :
    endsWith (n.chars ++ unit) suffix = suffix.toList.isSuffixOf unit := by
  rw [endsWith, Bool.eq_iff_iff, List.isSuffixOf_iff_suffix, List.isSuffixOf_iff_suffix]
  constructor
  · rintro ⟨t, ht⟩
    rcases List.append_eq_append_iff.mp ht with ⟨extra, hchars, hsuffix⟩ | ⟨extra, -, hunit⟩
    · have hnil : extra = [] := by
        apply List.eq_nil_iff_forall_not_mem.mpr
        intro c hc
        have hmem : c ∈ n.chars := hchars ▸ List.mem_append_right t hc
        exact not_letter_of_mem_chars hmem (h c (hsuffix ▸ List.mem_append_left unit hc))
      rw [hsuffix, hnil]
      exact List.suffix_refl unit
    · exact ⟨extra, hunit.symm⟩
  · exact fun hunit => hunit.trans (List.suffix_append n.chars unit)

theorem dropEnd_append {a unit : List Char} {n : Nat} (h : n ≤ unit.length) :
    dropEnd n (a ++ unit) = a ++ dropEnd n unit := by
  have hlength : (a ++ unit).length - n = a.length + (unit.length - n) := by
    rw [List.length_append]
    omega
  rw [dropEnd, hlength, List.take_length_add_append, ← dropEnd]

theorem rstrip_numeral {n : Numeral} {chars : String} (h : OfLetters chars.toList) :
    rstrip chars n.chars = n.chars := by
  have hhead : n.chars.reverse.dropWhile (fun c => c ∈ chars.toList) = n.chars.reverse := by
    cases hcs : n.chars.reverse with
    | nil => rfl
    | cons c cs =>
        have hmem : c ∈ n.chars := List.mem_reverse.mp (hcs ▸ List.mem_cons_self)
        exact List.dropWhile_cons_of_neg (by simpa using fun hc => not_letter_of_mem_chars hmem (h c hc))
  rw [rstrip, hhead, List.reverse_reverse]

theorem rstrip_concat {a : List Char} {c : Char} {chars : String} (h : c ∈ chars.toList) :
    rstrip chars (a ++ [c]) = rstrip chars a := by
  simp only [rstrip, List.reverse_append, List.reverse_singleton, List.singleton_append, List.dropWhile_cons, h, decide_true,
    if_true]

section Parsers

variable (x : SizeText)

theorem quota_text : QuotaService.parseMemory x.text =
    let memStr := x.number.chars ++ x.lowerUnit.toList
    if "g".toList.isSuffixOf x.lowerUnit.toList then scaledInt (float (dropEnd 1 memStr)) [1024]
    else if "gb".toList.isSuffixOf x.lowerUnit.toList then scaledInt (float (dropEnd 2 memStr)) [1024]
    else if "m".toList.isSuffixOf x.lowerUnit.toList then scaledInt (float (dropEnd 1 memStr)) []
    else if "mb".toList.isSuffixOf x.lowerUnit.toList then scaledInt (float (dropEnd 2 memStr)) []
    else if "t".toList.isSuffixOf x.lowerUnit.toList then scaledInt (float (dropEnd 1 memStr)) [1024, 1024]
    else if "tb".toList.isSuffixOf x.lowerUnit.toList then scaledInt (float (dropEnd 2 memStr)) [1024, 1024]
    else scaledInt (float memStr) [] := by
  simp only [QuotaService.parseMemory, if_neg x.text_ne_empty, x.lowered_text, x.strip_text]
  rw [endsWith_numeral (by decide), endsWith_numeral (by decide), endsWith_numeral (by decide),
    endsWith_numeral (by decide), endsWith_numeral (by decide), endsWith_numeral (by decide)]

theorem pool_text : ResourcePoolService.parseMemory x.text =
    let memStr := x.number.chars ++ x.lowerUnit.toList
    if "g".toList.isSuffixOf x.lowerUnit.toList ∨ "gb".toList.isSuffixOf x.lowerUnit.toList then
      scaledInt (float (rstrip "g" (rstrip "gb" memStr))) [1024]
    else if "m".toList.isSuffixOf x.lowerUnit.toList ∨ "mb".toList.isSuffixOf x.lowerUnit.toList then
      scaledInt (float (rstrip "m" (rstrip "mb" memStr))) []
    else if "t".toList.isSuffixOf x.lowerUnit.toList ∨ "tb".toList.isSuffixOf x.lowerUnit.toList then
      scaledInt (float (rstrip "t" (rstrip "tb" memStr))) [1024, 1024]
    else scaledInt (float memStr) [] := by
  simp only [ResourcePoolService.parseMemory, if_neg x.text_ne_empty, x.lowered_text, x.strip_text]
  rw [endsWith_numeral (by decide), endsWith_numeral (by decide), endsWith_numeral (by decide),
    endsWith_numeral (by decide), endsWith_numeral (by decide), endsWith_numeral (by decide)]

theorem find_numeral {multipliers : List (String × Nat)} (h : ∀ m ∈ multipliers, OfLetters m.1.toList) :
    (multipliers.find? fun m => endsWith (x.number.chars ++ x.lowerUnit.toList) m.1) =
      multipliers.find? fun m => m.1.toList.isSuffixOf x.lowerUnit.toList := by
  induction multipliers with
  | nil => rfl
  | cons m multipliers ih =>
      rw [List.forall_mem_cons] at h
      rw [List.find?_cons, List.find?_cons, endsWith_numeral h.1, ih h.2]

theorem bytes_text {multipliers : List (String × Nat)} (h : ∀ m ∈ multipliers, OfLetters m.1.toList) :
    parseBytes multipliers x.text =
      match multipliers.find? fun m => m.1.toList.isSuffixOf x.lowerUnit.toList with
      | some (_, multiplier) => scaledInt (float (dropEnd 1 (x.number.chars ++ x.lowerUnit.toList))) [multiplier]
      | none => IntTexts.int10 (String.ofList (x.number.chars ++ x.lowerUnit.toList)) := by
  rw [parseBytes, x.lowered_text]
  simp only [find_numeral x h]

theorem front_text : parseMemoryString x.text =
    match VolumeService.multipliers.find? fun m => m.1.toList.isSuffixOf x.lowerUnit.toList with
    | some (_, multiplier) =>
      ((parseFloat (dropEnd 1 (x.number.chars ++ x.lowerUnit.toList))).scale multiplier).floor
    | none => orZero (parseInt (x.number.chars ++ x.lowerUnit.toList)) := by
  rw [parseMemoryString, if_neg x.text_ne_empty, x.lowered_text]
  simp only [x.jsTrim_text, find_numeral x (by decide : ∀ m ∈ VolumeService.multipliers, OfLetters m.1.toList)]

variable {x} {u : List Char}

theorem float_chars (n : Numeral) : float n.chars = some (.ofRat n.value) := by
  have h := @float_numeral [] n (List.forall_mem_nil _) (fun c hc => by cases hc)
  rwa [List.append_nil, if_pos rfl] at h

theorem parseFloat_chars (n : Numeral) : parseFloat n.chars = .ofRat n.value := by
  have h := @parseFloat_numeral [] n (List.forall_mem_nil _) (fun c hc => by cases hc)
  rwa [List.append_nil] at h

theorem float_letter {n : Numeral} (hletters : OfLetters u) (hne : u ≠ []) : float (n.chars ++ u) = none := by
  rw [float_numeral n (fun c hc => (letter_plain c (hletters c hc)).1)
    (fun c hc => (letter_plain c (hletters c (List.mem_of_mem_head? hc))).2), if_neg hne]

theorem int10_letter {n : Numeral} (hletters : OfLetters u) (hne : u ≠ []) :
    IntTexts.int10 (String.ofList (n.chars ++ u)) = none := by
  obtain ⟨c, hc⟩ := List.exists_mem_of_ne_nil u hne
  apply int10_other
  · exact List.forall_mem_append.mpr ⟨plain_chars n, fun c hc => (letter_plain c (hletters c hc)).1⟩
  · exact ⟨c, List.mem_append_right _ hc, (letter_plain c (hletters c hc)).2.1⟩

theorem value_nonneg (n : Numeral) : 0 ≤ n.value := by
  rw [Numeral.value]
  positivity

section Scaled

variable {q : ℚ} {j : Nat}

theorem scaledInt_scaled (hq : 0 ≤ q) (h : rounded q * 2 ^ j < 2 ^ 1024) :
    scaledInt (some (.ofRat q)) [2 ^ j] = some ⌊rounded q * 2 ^ j⌋ := by
  have hround := rounded_nonneg hq
  change ((Value.ofRat q).scale (2 ^ j)).toInt = some ⌊rounded q * 2 ^ j⌋
  rw [scale_ofRat_of_lt hq h, toInt_finite (by positivity)]

theorem scaledInt_unscaled (hq : 0 ≤ q) (h : rounded q < 2 ^ 1024) : scaledInt (some (.ofRat q)) [] = some ⌊rounded q⌋ := by
  change (Value.ofRat q).toInt = some ⌊rounded q⌋
  rw [ofRat_of_lt hq h, toInt_finite (rounded_nonneg hq)]

theorem scaledInt_infinite (hq : 0 ≤ q) (h : 2 ^ 1024 ≤ rounded q * 2 ^ j) : scaledInt (some (.ofRat q)) [2 ^ j] = none := by
  change ((Value.ofRat q).scale (2 ^ j)).toInt = none
  rw [scale_ofRat_of_le hq h]
  rfl

theorem floor_scaled (hq : 0 ≤ q) (h : rounded q * 2 ^ j < 2 ^ 1024) :
    ((Value.ofRat q).scale (2 ^ j)).floor = .finite ⌊rounded q * 2 ^ j⌋ := by
  rw [scale_ofRat_of_lt hq h]
  rfl

theorem lt_of_scaled {i : Nat} (hq : 0 ≤ q) (hij : i ≤ j) (h : rounded q * 2 ^ j < 2 ^ 1024) :
    rounded q * 2 ^ i < 2 ^ 1024 :=
  lt_of_le_of_lt (mul_le_mul_of_nonneg_left (pow_le_pow_right₀ one_le_two hij) (rounded_nonneg hq)) h

theorem floor_coarser (r : ℚ) (i : Nat) : ⌊r * 2 ^ i⌋ = ⌊r * 2 ^ (i + 20)⌋ / 1024 ^ 2 := by
  have hsame : r * 2 ^ i = r * 2 ^ (i + 20) / ((1024 ^ 2 : Nat) : ℚ) := by
    rw [pow_add]
    norm_num
    ring
  rw [hsame, Int.floor_div_natCast]
  norm_num

end Scaled

theorem dropEnd_unit (n : Numeral) (u : List Char) : dropEnd u.length (n.chars ++ u) = n.chars := by
  rw [dropEnd_append le_rfl, dropEnd, Nat.sub_self, List.take_zero, List.append_nil]

theorem two_pow_units : (1024 : Nat) = 2 ^ 10 ∧ (1024 : Nat) ^ 2 = 2 ^ 20 ∧ (1024 : Nat) ^ 3 = 2 ^ 30 := by decide

theorem driver_letters : ∀ m ∈ DockerDriver.multipliers, OfLetters m.1.toList := by decide

theorem volume_letters : ∀ m ∈ VolumeService.multipliers, OfLetters m.1.toList := by decide

theorem bytes_unit {multipliers : List (String × Nat)} {unit : String} {multiplier : Nat} (hu : x.lowerUnit = unit)
    (hlength : unit.toList.length = 1) (hletters : ∀ m ∈ multipliers, OfLetters m.1.toList)
    (hfind : (multipliers.find? fun m => m.1.toList.isSuffixOf unit.toList) = some (unit, multiplier)) :
    parseBytes multipliers x.text = scaledInt (some (.ofRat x.number.value)) [multiplier] := by
  rw [bytes_text x hletters, hu, hfind]
  simp only [hlength ▸ dropEnd_unit x.number unit.toList, float_chars]

theorem front_unit {unit : String} {multiplier : Nat} (hu : x.lowerUnit = unit) (hlength : unit.toList.length = 1)
    (hfind : (VolumeService.multipliers.find? fun m => m.1.toList.isSuffixOf unit.toList) = some (unit, multiplier)) :
    parseMemoryString x.text = ((Value.ofRat x.number.value).scale multiplier).floor := by
  rw [front_text, hu, hfind]
  simp only [hlength ▸ dropEnd_unit x.number unit.toList, parseFloat_chars]

/-- Where the five read the same number, they agree as long as nothing overflows. -/
theorem agree_of_parsers {text : String} {q : ℚ} (hq : 0 ≤ q) {i j : Nat} (hij : i + 20 = j)
    (hmib : rounded q * 2 ^ i < 2 ^ 1024 → QuotaService.parseMemory text = some ⌊rounded q * 2 ^ i⌋ ∧
      ResourcePoolService.parseMemory text = some ⌊rounded q * 2 ^ i⌋)
    (hdriver : DockerDriver.parseMemory text = scaledInt (some (.ofRat q)) [2 ^ j])
    (hvolume : VolumeService.parseMemory text = scaledInt (some (.ofRat q)) [2 ^ j])
    (hfront : parseMemoryString text = ((Value.ofRat q).scale (2 ^ j)).floor) :
    Agree text ↔ rounded q * 2 ^ j < 2 ^ 1024 := by
  subst hij
  constructor
  · rintro ⟨mib, bytes, -, -, hdocker, -⟩
    by_contra hlarge
    rw [hdriver, scaledInt_infinite hq (not_lt.mp hlarge)] at hdocker
    cases hdocker
  · intro h
    obtain ⟨hquota, hpool⟩ := hmib (lt_of_scaled hq (Nat.le_add_right i 20) h)
    exact ⟨_, _, hquota, hpool, hdriver.trans (scaledInt_scaled hq h), hvolume.trans (scaledInt_scaled hq h),
      hfront.trans (floor_scaled hq h), floor_coarser _ i⟩

theorem agree_gibibytes (hu : x.lowerUnit = "g") : Agree x.text ↔ rounded x.number.value * 2 ^ 30 < 2 ^ 1024 := by
  have hq := value_nonneg x.number
  have hunit : DockerDriver.multipliers.find? (fun m => m.1.toList.isSuffixOf "g".toList) = some ("g", 2 ^ 30) ∧
      VolumeService.multipliers.find? (fun m => m.1.toList.isSuffixOf "g".toList) = some ("g", 2 ^ 30) := by decide
  have hdriver : DockerDriver.parseMemory x.text = scaledInt (some (.ofRat x.number.value)) [2 ^ 30] :=
    bytes_unit hu rfl driver_letters hunit.1
  have hvolume : VolumeService.parseMemory x.text = scaledInt (some (.ofRat x.number.value)) [2 ^ 30] :=
    bytes_unit hu rfl volume_letters hunit.2
  have hfront : parseMemoryString x.text = ((Value.ofRat x.number.value).scale (2 ^ 30)).floor :=
    front_unit hu rfl hunit.2
  have hdrop : dropEnd 1 (x.number.chars ++ "g".toList) = x.number.chars := dropEnd_unit x.number "g".toList
  have hstrip : rstrip "g" (rstrip "gb" (x.number.chars ++ "g".toList)) = x.number.chars := by
    rw [(by decide : "g".toList = ['g']), rstrip_concat (by decide), rstrip_numeral (by decide),
      rstrip_numeral (by decide)]
  have hmib : rounded x.number.value * 2 ^ 10 < 2 ^ 1024 →
      QuotaService.parseMemory x.text = some ⌊rounded x.number.value * 2 ^ 10⌋ ∧
        ResourcePoolService.parseMemory x.text = some ⌊rounded x.number.value * 2 ^ 10⌋ := by
    intro h
    rw [quota_text, pool_text, hu, if_pos (by decide), if_pos (by decide), hdrop, hstrip, float_chars, two_pow_units.1]
    exact ⟨scaledInt_scaled hq h, scaledInt_scaled hq h⟩
  exact @agree_of_parsers x.text x.number.value hq 10 30 rfl hmib hdriver hvolume hfront

theorem agree_mebibytes (hu : x.lowerUnit = "m") : Agree x.text ↔ rounded x.number.value * 2 ^ 20 < 2 ^ 1024 := by
  have hq := value_nonneg x.number
  have hunit : DockerDriver.multipliers.find? (fun m => m.1.toList.isSuffixOf "m".toList) = some ("m", 2 ^ 20) ∧
      VolumeService.multipliers.find? (fun m => m.1.toList.isSuffixOf "m".toList) = some ("m", 2 ^ 20) := by decide
  have hdriver : DockerDriver.parseMemory x.text = scaledInt (some (.ofRat x.number.value)) [2 ^ 20] :=
    bytes_unit hu rfl driver_letters hunit.1
  have hvolume : VolumeService.parseMemory x.text = scaledInt (some (.ofRat x.number.value)) [2 ^ 20] :=
    bytes_unit hu rfl volume_letters hunit.2
  have hfront : parseMemoryString x.text = ((Value.ofRat x.number.value).scale (2 ^ 20)).floor :=
    front_unit hu rfl hunit.2
  have hdrop : dropEnd 1 (x.number.chars ++ "m".toList) = x.number.chars := dropEnd_unit x.number "m".toList
  have hstrip : rstrip "m" (rstrip "mb" (x.number.chars ++ "m".toList)) = x.number.chars := by
    rw [(by decide : "m".toList = ['m']), rstrip_concat (by decide), rstrip_numeral (by decide),
      rstrip_numeral (by decide)]
  have hmib : rounded x.number.value * 2 ^ 0 < 2 ^ 1024 →
      QuotaService.parseMemory x.text = some ⌊rounded x.number.value * 2 ^ 0⌋ ∧
        ResourcePoolService.parseMemory x.text = some ⌊rounded x.number.value * 2 ^ 0⌋ := by
    intro h
    rw [pow_zero, mul_one] at h ⊢
    rw [quota_text, pool_text, hu, if_neg (by decide), if_neg (by decide), if_pos (by decide), if_neg (by decide),
      if_pos (by decide), hdrop, hstrip, float_chars]
    exact ⟨scaledInt_unscaled hq h, scaledInt_unscaled hq h⟩
  exact @agree_of_parsers x.text x.number.value hq 0 20 rfl hmib hdriver hvolume hfront

theorem quota_unknown (hu : x.lowerUnit ∈ ["b", "k", "kb"]) : QuotaService.parseMemory x.text = none := by
  have hsuffix : ∀ unit ∈ ["b", "k", "kb"], unit.toList ≠ [] ∧
      ∀ suffix ∈ ["g", "gb", "m", "mb", "t", "tb"], suffix.toList.isSuffixOf unit.toList = false := by decide
  obtain ⟨hne, hnone⟩ := hsuffix _ hu
  simp only [List.forall_mem_cons] at hnone
  obtain ⟨hg, hgb, hm, hmb, ht, htb, -⟩ := hnone
  rw [quota_text]
  simp only [hg, hgb, hm, hmb, ht, htb, Bool.false_eq_true, if_false]
  rw [float_letter (fun c hc => x.letter_of_lowerUnit hc) hne]
  rfl

theorem driver_unknown (hu : x.lowerUnit ∈ ["mb", "gb", "t", "tb"]) : DockerDriver.parseMemory x.text = none := by
  have hbytes : ∀ unit ∈ ["mb", "gb", "tb"],
      (DockerDriver.multipliers.find? fun m => m.1.toList.isSuffixOf unit.toList) = some ("b", 1) ∧
        1 ≤ unit.toList.length ∧ dropEnd 1 unit.toList ≠ [] ∧ OfLetters (dropEnd 1 unit.toList) := by decide
  have htebi : (DockerDriver.multipliers.find? fun m => m.1.toList.isSuffixOf "t".toList) = none := by decide
  rw [DockerDriver.parseMemory, bytes_text x driver_letters]
  by_cases ht : x.lowerUnit = "t"
  · rw [ht, htebi]
    exact int10_letter (by decide) (by decide)
  · have htwo : x.lowerUnit ∈ ["mb", "gb", "tb"] := by
      simp only [List.mem_cons, List.not_mem_nil, or_false] at hu ⊢
      tauto
    obtain ⟨hfind, hlength, hne, hletters⟩ := hbytes _ htwo
    rw [hfind]
    simp only [dropEnd_append hlength, float_letter hletters hne]
    rfl

section Unitless

variable (hu : x.lowerUnit = "")
include hu

theorem mib_unitless : QuotaService.parseMemory x.text = scaledInt (some (.ofRat x.number.value)) [] ∧
    ResourcePoolService.parseMemory x.text = scaledInt (some (.ofRat x.number.value)) [] := by
  rw [quota_text, pool_text, hu]
  simp only [String.toList_empty, List.append_nil, float_chars]
  exact ⟨rfl, rfl⟩

theorem bytes_unitless : DockerDriver.parseMemory x.text = IntTexts.int10 (String.ofList x.number.chars) ∧
    VolumeService.parseMemory x.text = IntTexts.int10 (String.ofList x.number.chars) := by
  have hnone : (VolumeService.multipliers.find? fun m => m.1.toList.isSuffixOf "".toList) = none ∧
      (DockerDriver.multipliers.find? fun m => m.1.toList.isSuffixOf "".toList) = none := by decide
  rw [DockerDriver.parseMemory, VolumeService.parseMemory, bytes_text x driver_letters, bytes_text x volume_letters, hu,
    hnone.1, hnone.2]
  constructor <;> simp only [String.toList_empty, List.append_nil]

theorem front_unitless : parseMemoryString x.text = orZero (parseInt x.number.chars) := by
  have hnone : (VolumeService.multipliers.find? fun m => m.1.toList.isSuffixOf "".toList) = none := by decide
  rw [front_text, hu, hnone]
  simp only [String.toList_empty, List.append_nil]

end Unitless

/-- Of a positive whole number of bytes the rounding keeps more than a half, so it is no number of MiB. -/
theorem floor_rounded_ne {n : Nat} (hn : 0 < n) : ⌊rounded (n : ℚ)⌋ ≠ (n : Int) / 1024 ^ 2 := by
  have hlow : 2 ^ Nat.log 2 n ≤ n := Nat.pow_log_le_self 2 hn.ne'
  have hhigh : n < 2 ^ (Nat.log 2 n + 1) := Nat.lt_pow_succ_log_self one_lt_two n
  have hplace : lastPlace (n : ℚ) ≤ Nat.log 2 n := by
    rw [lastPlace, Int.log_natCast]
    omega
  have hround : ((2 ^ Nat.log 2 n : Nat) : Int) ≤ ⌊rounded (n : ℚ)⌋ := by
    rw [Int.le_floor]
    have hle : (2 : ℚ) ^ (Nat.log 2 n : Int) ≤ rounded (n : ℚ) := le_round (by rw [zpow_natCast]; exact_mod_cast hlow) hplace
    rw [zpow_natCast] at hle
    exact_mod_cast hle
  rw [pow_succ] at hhigh
  intro h
  omega

theorem agree_unitless (hu : x.lowerUnit = "") : Agree x.text ↔
    x.number.fraction = none ∧ x.number.whole.length ≤ IntTexts.maxStrDigits ∧ ∀ d ∈ x.number.whole, d = 0 := by
  have hq := value_nonneg x.number
  obtain ⟨hquota, hpool⟩ := mib_unitless hu
  obtain ⟨hdriver, hvolume⟩ := bytes_unitless hu
  have hfront := front_unitless hu
  cases hfraction : x.number.fraction with
  | some ds =>
      have hother : IntTexts.int10 (String.ofList x.number.chars) = none := by
        apply int10_other (plain_chars x.number)
        refine ⟨'.', ?_, by decide⟩
        rw [Numeral.chars, hfraction]
        exact List.mem_append_right _ List.mem_cons_self
      apply iff_of_false
      · rintro ⟨mib, bytes, -, -, hbytes, -⟩
        rw [hdriver, hother] at hbytes
        cases hbytes
      · rintro ⟨h, -⟩
        cases h
  | none =>
      have hchars : x.number.chars = digitChars x.number.whole := by
        rw [Numeral.chars, hfraction, List.append_nil]
      have hvalue : x.number.value = (natOf (digitChars x.number.whole) : Nat) := by
        rw [Numeral.value, Numeral.decimals, hfraction, Option.getD_none, List.append_nil, List.length_nil, pow_zero, div_one]
      have hne : x.number.whole ≠ [] := by
        rcases x.number.digit with hne | ⟨ds, hds, -⟩
        · exact hne
        · rw [hfraction] at hds
          cases hds
      rw [hchars, int10_digitChars hne] at hdriver hvolume
      rw [hchars, parseInt_digitChars hne] at hfront
      rw [← natOf_eq_zero_iff, eq_self_iff_true, true_and]
      constructor
      · rintro ⟨mib, bytes, hmib, -, hbytes, -, -, hsame⟩
        rw [hdriver] at hbytes
        split at hbytes
        · rename_i hlength
          refine ⟨hlength, ?_⟩
          by_contra hpos
          apply floor_rounded_ne (Nat.pos_of_ne_zero hpos)
          cases hbytes
          rw [hquota, hvalue] at hmib
          have hfinite : rounded ((natOf (digitChars x.number.whole) : Nat) : ℚ) < 2 ^ 1024 := by
            by_contra hlarge
            rw [ofRat_of_le (Nat.cast_nonneg _) (not_lt.mp hlarge)] at hmib
            cases hmib
          rw [scaledInt_unscaled (Nat.cast_nonneg _) hfinite] at hmib
          rw [Option.some.inj hmib, hsame]
        · cases hbytes
      · rintro ⟨hlength, hzero⟩
        rw [hzero, Nat.cast_zero] at hvalue hfront
        rw [if_pos hlength, hzero] at hdriver hvolume
        have hnothing : Value.ofRat 0 = .finite 0 := by
          rw [ofRat_of_lt le_rfl (by rw [rounded_zero]; positivity), rounded_zero]
        rw [hvalue, hnothing] at hquota hpool
        rw [hnothing] at hfront
        exact ⟨0, 0, hquota, hpool, hdriver, hvolume, hfront, rfl⟩

end Parsers

theorem unread_unit : ∀ unit ∈ units, unit ≠ "m" → unit ≠ "g" → unit ≠ "" →
    unit ∈ ["b", "k", "kb"] ∨ unit ∈ ["mb", "gb", "t", "tb"] := by decide

theorem scaled_lt {q : ℚ} (hq : 0 ≤ q) {j : Nat} (hj : j ≤ 970) :
    rounded q * 2 ^ j < 2 ^ 1024 ↔ q < 2 ^ (1024 - j) - 2 ^ (970 - j) := by
  have hcast : (970 : Int) - j = ((970 - j : Nat) : Int) := by omega
  rw [scaled_lt_iff hq (hj.trans (by decide)), hcast, zpow_natCast]

/-- Mebibytes and gibibytes that no float overflows on, and zero, are all that the five agree on. -/
theorem agree_iff (x : SizeText) : Agree x.text ↔
    x.lowerUnit = "m" ∧ x.number.value < 2 ^ 1004 - 2 ^ 950 ∨ x.lowerUnit = "g" ∧ x.number.value < 2 ^ 994 - 2 ^ 940 ∨
      x.lowerUnit = "" ∧ x.number.fraction = none ∧ x.number.whole.length ≤ IntTexts.maxStrDigits ∧
        ∀ d ∈ x.number.whole, d = 0 := by
  have hq := value_nonneg x.number
  by_cases hm : x.lowerUnit = "m"
  · have hmebi := scaled_lt hq (by decide : 20 ≤ 970)
    simp [agree_mebibytes hm, hmebi, hm]
  by_cases hg : x.lowerUnit = "g"
  · have hgibi := scaled_lt hq (by decide : 30 ≤ 970)
    simp [agree_gibibytes hg, hgibi, hg]
  by_cases hnone : x.lowerUnit = ""
  · simp [agree_unitless hnone, hnone]
  apply iff_of_false
  · rintro ⟨mib, bytes, hquota, -, hdriver, -⟩
    have hknown : x.lowerUnit ∈ units := x.known
    rcases unread_unit _ hknown hm hg hnone with hsmall | hother
    · rw [quota_unknown hsmall] at hquota
      cases hquota
    · rw [driver_unknown hother] at hdriver
      cases hdriver
  · simp [hm, hg, hnone]

example : QuotaService.parseMemory "1.5G" = some 1536 ∧ DockerDriver.parseMemory "1.5G" = some 1610612736 ∧
    parseMemoryString "1.5G" = .finite 1610612736 := by decide +kernel

/-- Ten gibibytes that two services count and the driver does not read. -/
theorem gigabytes_unread : QuotaService.parseMemory "10gb" = some 10240 ∧ DockerDriver.parseMemory "10gb" = none ∧
    ¬ ∀ x : SizeText, Agree x.text := by
  have hdriver : DockerDriver.parseMemory "10gb" = none := by decide +kernel
  refine ⟨by decide +kernel, hdriver, ?_⟩
  intro h
  obtain ⟨mib, bytes, -, -, hbytes, -⟩ := h ⟨⟨[1, 0], none, Or.inl (by decide +kernel)⟩, ['g', 'b'], by decide⟩
  have htext : String.ofList (Numeral.chars ⟨[1, 0], none, Or.inl (by decide +kernel)⟩ ++ ['g', 'b']) = "10gb" := by decide +kernel
  rw [SizeText.text, htext, hdriver] at hbytes
  cases hbytes

end NukeLab.SizeParsers
