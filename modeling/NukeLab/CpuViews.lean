import Mathlib.Data.List.TakeWhile
import NukeLab.Binary64
import NukeLab.Texts

namespace NukeLab.CpuViews

open Binary64 Value

section Driver

variable (cpuLimit : ℚ) (cores : Nat)

/-- The variables by which libraries and the preload library know how many cores to use. -/
def getCpuEnv : List (String × String) :=
  let cpuLimit : ℚ := if cpuLimit < 1 then cores else cpuLimit
  let n := toString ⌊cpuLimit⌋₊
  [("OMP_NUM_THREADS", n), ("MKL_NUM_THREADS", n), ("OPENBLAS_NUM_THREADS", n), ("VECLIB_MAXIMUM_THREADS", n),
    ("NUMEXPR_NUM_THREADS", n), ("NUKELAB_CPU_COUNT", n), ("LD_PRELOAD", "/usr/local/lib/nukelab/libnukelab_cpu.so")]

structure HostConfig where
  nanoCpus : Option Int
  cpusetCpus : Option String

def affinity : String :=
  String.ofList ([','].intercalate ((List.range (min ⌊cpuLimit⌋₊ cores)).map fun i => (toString i).toList))

/-- A product that is infinite is no whole number, and an error. -/
def createContainer (controllers : List String) : Option HostConfig :=
  let cpusetCpus := if "cpuset" ∈ controllers then some (affinity cpuLimit cores) else none
  if "cpu" ∈ controllers then
    (ofRat (cpuLimit * 1000000000)).toInt.map fun nanoCpus => ⟨some nanoCpus, cpusetCpus⟩
  else some ⟨none, cpusetCpus⟩

end Driver

section Library

/-- The digits as far as they go, after blanks and a sign. -/
def atol (cs : List Char) : Int :=
  match cs.dropWhile IntTexts.isBlank with
  | '-' :: cs => -(Nat.ofDigitChars 10 (cs.takeWhile Char.isDigit) 0 : Int)
  | '+' :: cs => Nat.ofDigitChars 10 (cs.takeWhile Char.isDigit) 0
  | cs => Nat.ofDigitChars 10 (cs.takeWhile Char.isDigit) 0

def countToken (token : List Char) : Int :=
  if '-' ∈ token then
    let first := atol token
    let last := atol ((token.dropWhile (· ≠ '-')).drop 1)
    if last ≥ first then last - first + 1 else 0
  else 1

/-- How many cores there are in a text such as `0-3,5`. -/
def countCpusetCpus (buf : List Char) : Int :=
  (((buf.splitOn ',').filter fun token => token ≠ []).map countToken).foldr (· + ·) 0

def readCpuMax (cpuMax : Option (Int × Int)) : Int :=
  match cpuMax with
  | some (quota, period) => if period > 0 ∧ quota > 0 then (quota + period - 1) / period else 0
  | none => 0

def readCfsQuotaV1 (cfsQuota cfsPeriod : Option Int) : Int :=
  match cfsQuota, cfsPeriod with
  | some quota, some period => if quota ≤ 0 ∨ period ≤ 0 then 0 else (quota + period - 1) / period
  | _, _ => 0

structure Container where
  cpuCount : Option String
  cpuMax : Option (Int × Int)
  cfsQuota : Option Int
  cfsPeriod : Option Int
  cpuset : Option String
  host : Int

/-- The first of its sources that tells a number. -/
def resolveCpuCount (c : Container) : Int :=
  let env := (c.cpuCount.map fun text => atol text.toList).getD 0
  let cpuset := (c.cpuset.map fun text => countCpusetCpus text.toList).getD 0
  if env > 0 then env
  else if readCpuMax c.cpuMax > 0 then readCpuMax c.cpuMax
  else if readCfsQuotaV1 c.cfsQuota c.cfsPeriod > 0 then readCfsQuotaV1 c.cfsQuota c.cfsPeriod
  else if cpuset > 0 then cpuset
  else c.host

end Library

/-- What runtimes document of `NanoCpus`: billionths of a period of 100 milliseconds,
in 64 bits, of which there are at least ten million. -/
structure Documented (cpuMax : Int → Option (Int × Int)) : Prop where
  quota : ∀ nano, 10000000 ≤ nano → nano < 2 ^ 63 → cpuMax nano = some (nano * 100000 / 1000000000, 100000)
  refused : ∀ nano, 2 ^ 63 ≤ nano → cpuMax nano = none

variable (cpuMax : Int → Option (Int × Int)) (cpuLimit : ℚ) (cores : Nat) (controllers : List String)

/-- What a container begins with whose runtime has put the quota in place. -/
def started (quota : Int × Int) (cpus : String) : Container where
  cpuCount := (getCpuEnv cpuLimit cores).lookup "NUKELAB_CPU_COUNT"
  cpuMax := some quota
  cfsQuota := none
  cfsPeriod := none
  cpuset := some cpus
  host := cores

/-- The container is created, and the library sees as many cores as the quota gives and
as it is pinned to, up to those that the host has; below one core it sees no more
than one, and is pinned. -/
def Agree : Prop :=
  ∃ config nano quota cpus, createContainer cpuLimit cores controllers = some config ∧
    config.nanoCpus = some nano ∧ cpuMax nano = some quota ∧ config.cpusetCpus = some cpus ∧
    min (resolveCpuCount (started cpuLimit cores quota cpus)) cores = countCpusetCpus cpus.toList ∧
    min (readCpuMax (some quota)) cores = countCpusetCpus cpus.toList ∧
    (cpuLimit < 1 → resolveCpuCount (started cpuLimit cores quota cpus) ≤ 1 ∧ cpus ≠ "")

section Texts

theorem isDigit_toString {n : Nat} {c : Char} (h : c ∈ (toString n).toList) : c.isDigit = true :=
  Texts.isDigit_toDigits (Nat.toList_repr ▸ h)

theorem atol_digits {ds rest : List Char} (hne : ds ≠ []) (hds : ∀ c ∈ ds, c.isDigit = true)
    (hrest : ∀ c ∈ rest.head?, c.isDigit = false) : atol (ds ++ rest) = Nat.ofDigitChars 10 ds 0 := by
  have htake := IntTexts.takeWhile_isDigit hds hrest
  obtain ⟨c, cs, rfl⟩ := List.exists_cons_of_ne_nil hne
  have hc := hds c List.mem_cons_self
  rw [List.cons_append] at htake ⊢
  rw [atol, List.dropWhile_cons_of_neg (by simp [IntTexts.isBlank_of_isDigit hc])]
  split
  · rename_i heq
    obtain ⟨rfl, -⟩ := List.cons.inj heq
    cases hc
  · rename_i heq
    obtain ⟨rfl, -⟩ := List.cons.inj heq
    cases hc
  · rw [htake]

theorem atol_toString (n : Nat) : atol (toString n).toList = n := by
  have htext : (toString n).toList = Nat.toDigits 10 n := Nat.toList_repr
  have hatol : atol (Nat.toDigits 10 n ++ []) = Nat.ofDigitChars 10 (Nat.toDigits 10 n) 0 :=
    atol_digits Nat.toDigits_ne_nil (fun c hc => Texts.isDigit_toDigits hc)
      (fun c hc => by cases hc)
  rw [htext, ← List.append_nil (Nat.toDigits 10 n), hatol, Nat.ofDigitChars_ten_toDigits]

theorem notMem_toString {c : Char} (h : c.isDigit = false) (i : Nat) : c ∉ (toString i).toList := by
  intro hc
  rw [isDigit_toString hc] at h
  cases h

theorem count_tokens (is : List Nat) :
    (((is.map fun i => (toString i).toList).filter fun token => token ≠ []).map countToken).foldr (· + ·) 0 =
      (is.length : Int) := by
  induction is with
  | nil => rfl
  | cons i is ih =>
      rw [List.map_cons, List.filter_cons_of_pos (by simp), List.map_cons, List.foldr_cons, ih, countToken,
        if_neg (notMem_toString rfl i), List.length_cons]
      push_cast
      ring

theorem count_affinity : countCpusetCpus (affinity cpuLimit cores).toList = min ⌊cpuLimit⌋₊ cores := by
  rw [affinity, String.toList_ofList]
  generalize min ⌊cpuLimit⌋₊ cores = pinned
  rcases Nat.eq_zero_or_pos pinned with rfl | hpos
  · rfl
  · have htokens : ([','].intercalate ((List.range pinned).map fun i => (toString i).toList)).splitOn ',' =
        (List.range pinned).map fun i => (toString i).toList := by
      apply List.splitOn_intercalate
      · intro token htoken
        obtain ⟨i, -, rfl⟩ := List.mem_map.mp htoken
        exact notMem_toString rfl i
      · simp [hpos.ne']
    rw [countCpusetCpus, htokens, count_tokens, List.length_range]

end Texts

section Rounding

theorem sub_lt_rounded {q : ℚ} (hpos : 0 < q) (h : q < 2 ^ 63) : q - 1024 < rounded q := by
  have hlog : Int.log 2 q < 63 := (Int.lt_zpow_iff_log_lt (by norm_num) hpos).mp (by exact_mod_cast h)
  have hplace : lastPlace q ≤ 10 := by
    rw [lastPlace]
    omega
  have hunit : (2 : ℚ) ^ lastPlace q ≤ 2 ^ (10 : ℤ) := zpow_le_zpow_right₀ one_le_two hplace
  have hlt := sub_unit_lt_rounded q
  norm_num at hunit
  linarith

end Rounding

section Agreement

variable {cpuLimit cores controllers} {cpuMax : Int → Option (Int × Int)} {quota : Int × Int} {cpus : String}

theorem resolve_started (h : 0 < ⌊if cpuLimit < 1 then (cores : ℚ) else cpuLimit⌋₊) :
    resolveCpuCount (started cpuLimit cores quota cpus) = ⌊if cpuLimit < 1 then (cores : ℚ) else cpuLimit⌋₊ := by
  have hlookup : (getCpuEnv cpuLimit cores).lookup "NUKELAB_CPU_COUNT" =
      some (toString ⌊if cpuLimit < 1 then (cores : ℚ) else cpuLimit⌋₊) := by
    rfl
  simp only [resolveCpuCount, started, hlookup, Option.map_some, Option.getD_some, atol_toString]
  rw [if_pos (by omega)]

theorem readCpuMax_quota {k nano cores : Int} (hk : 1 ≤ k) (hnano : k * 1000000000 - 1025 < nano) :
    min (readCpuMax (some (nano * 100000 / 1000000000, 100000))) cores = min k cores ↔
      cores ≤ k ∨ nano < k * 1000000000 + 10000 := by
  rw [readCpuMax, if_pos (by omega)]
  omega

theorem createContainer_eq (hcpu : "cpu" ∈ controllers) (hcpuset : "cpuset" ∈ controllers) (hL : 0 < cpuLimit)
    (h : rounded (cpuLimit * 1000000000) < 2 ^ 1024) : createContainer cpuLimit cores controllers =
      some ⟨some ⌊rounded (cpuLimit * 1000000000)⌋, some (affinity cpuLimit cores)⟩ := by
  have hq : 0 ≤ cpuLimit * 1000000000 := by positivity
  rw [createContainer, if_pos hcpu, if_pos hcpuset, ofRat_of_lt hq h, toInt_finite (rounded_nonneg hq), Option.map_some]

theorem createContainer_infinite (hcpu : "cpu" ∈ controllers) (hL : 0 < cpuLimit)
    (h : 2 ^ 1024 ≤ rounded (cpuLimit * 1000000000)) : createContainer cpuLimit cores controllers = none := by
  rw [createContainer, if_pos hcpu, ofRat_of_le (by positivity) h]
  rfl

theorem nano_bound (hL : 1 ≤ cpuLimit) (h : rounded (cpuLimit * 1000000000) < 2 ^ 63) :
    (⌊cpuLimit⌋₊ : Int) * 1000000000 - 1025 < ⌊rounded (cpuLimit * 1000000000)⌋ := by
  have hq : 0 ≤ cpuLimit * 1000000000 := by positivity
  have hlt : cpuLimit * 1000000000 < 2 ^ 63 := by
    have hbelow := (rounded_lt_iff (k := 63) hq (by norm_num)).mp (by exact_mod_cast h)
    norm_num at hbelow ⊢
    linarith
  have hrounded := sub_lt_rounded (by positivity) hlt
  have hfloor := Nat.floor_le (zero_le_one.trans hL)
  have hdown := Int.sub_one_lt_floor (rounded (cpuLimit * 1000000000))
  have hcast : (((⌊cpuLimit⌋₊ : Int) * 1000000000 - 1025 : Int) : ℚ) < ⌊rounded (cpuLimit * 1000000000)⌋ := by
    push_cast
    linarith
  exact_mod_cast hcast

theorem agree_of_created (hL : 1 ≤ cpuLimit) (hcpu : "cpu" ∈ controllers)
    (hcpuset : "cpuset" ∈ controllers) (hruntime : Documented cpuMax) (h : rounded (cpuLimit * 1000000000) < 2 ^ 63) :
    Agree cpuMax cpuLimit cores controllers ↔
      cores ≤ ⌊cpuLimit⌋₊ ∨ rounded (cpuLimit * 1000000000) < ⌊cpuLimit⌋₊ * 1000000000 + 10000 := by
  have hk : 1 ≤ ⌊cpuLimit⌋₊ := Nat.floor_pos.mpr hL
  have hnano := nano_bound hL h
  have hpos : 0 < cpuLimit := zero_lt_one.trans_le hL
  have hcreated : createContainer cpuLimit cores controllers = _ :=
    createContainer_eq hcpu hcpuset hpos (h.trans (pow_lt_pow_right₀ one_lt_two (by norm_num)))
  have hquota := hruntime.quota ⌊rounded (cpuLimit * 1000000000)⌋ (by omega) (Int.floor_lt.mpr (by exact_mod_cast h))
  have hseen : ∀ quota cpus, resolveCpuCount (started cpuLimit cores quota cpus) = ⌊cpuLimit⌋₊ := by
    intro quota cpus
    rw [resolve_started (by rw [if_neg (not_lt.mpr hL)]; exact hk), if_neg (not_lt.mpr hL)]
  have hcount : min (readCpuMax (some (⌊rounded (cpuLimit * 1000000000)⌋ * 100000 / 1000000000, 100000))) (cores : Int) =
      min (⌊cpuLimit⌋₊ : Int) cores ↔ _ := readCpuMax_quota (by omega) hnano
  have hfloor : ⌊rounded (cpuLimit * 1000000000)⌋ < (⌊cpuLimit⌋₊ : Int) * 1000000000 + 10000 ↔
      rounded (cpuLimit * 1000000000) < ⌊cpuLimit⌋₊ * 1000000000 + 10000 := by
    rw [Int.floor_lt]
    push_cast
    rfl
  rw [hfloor, Nat.cast_le] at hcount
  rw [← hcount]
  constructor
  · rintro ⟨config, nano, quota, cpus, hconfig, hn, hq, hc, -, hagree, -⟩
    obtain rfl := Option.some.inj (hcreated.symm.trans hconfig)
    obtain rfl := Option.some.inj hn
    obtain rfl := Option.some.inj hc
    obtain rfl := Option.some.inj (hquota.symm.trans hq)
    rwa [count_affinity, Nat.cast_min] at hagree
  · intro hagree
    refine ⟨_, _, _, _, hcreated, rfl, hquota, rfl, ?_, ?_, fun hlt => absurd hlt (not_lt.mpr hL)⟩
    · rw [hseen, count_affinity, Nat.cast_min]
    · rwa [count_affinity, Nat.cast_min]

/-- The views agree from one core on, where the quota can be told to the runtime and
either all cores of the host are asked for or less than a hundred thousandth of a core
besides whole ones. -/
theorem views_agree_iff (hL : 0 < cpuLimit) (hcpu : "cpu" ∈ controllers) (hcpuset : "cpuset" ∈ controllers)
    (hruntime : Documented cpuMax) :
    Agree cpuMax cpuLimit cores controllers ↔ 1 ≤ cpuLimit ∧ rounded (cpuLimit * 1000000000) < 2 ^ 63 ∧
      (cores ≤ ⌊cpuLimit⌋₊ ∨ rounded (cpuLimit * 1000000000) < ⌊cpuLimit⌋₊ * 1000000000 + 10000) := by
  constructor
  · intro h
    have hone : 1 ≤ cpuLimit := by
      by_contra hlt
      obtain ⟨config, nano, quota, cpus, hconfig, -, -, hc, -, -, hsmall⟩ := h
      have hempty : affinity cpuLimit cores = "" := by
        rw [affinity, Nat.floor_eq_zero.mpr (not_le.mp hlt), Nat.zero_min]
        rfl
      rw [createContainer, if_pos hcpu, if_pos hcpuset] at hconfig
      obtain ⟨nano', -, rfl⟩ := Option.map_eq_some_iff.mp hconfig
      obtain rfl := Option.some.inj hc
      exact (hsmall (not_le.mp hlt)).2 hempty
    have hfits : rounded (cpuLimit * 1000000000) < 2 ^ 63 := by
      by_contra hlarge
      obtain ⟨config, nano, quota, cpus, hconfig, hn, hq, -⟩ := h
      by_cases hfinite : rounded (cpuLimit * 1000000000) < 2 ^ 1024
      · obtain rfl := Option.some.inj ((createContainer_eq hcpu hcpuset hL hfinite).symm.trans hconfig)
        obtain rfl := Option.some.inj hn
        have hnone := hruntime.refused ⌊rounded (cpuLimit * 1000000000)⌋ (Int.le_floor.mpr (by exact_mod_cast not_lt.mp hlarge))
        cases hnone.symm.trans hq
      · cases (createContainer_infinite hcpu hL (not_lt.mp hfinite)).symm.trans hconfig
    exact ⟨hone, hfits, (agree_of_created hone hcpu hcpuset hruntime hfits).mp h⟩
  · rintro ⟨hone, hfits, h⟩
    exact (agree_of_created hone hcpu hcpuset hruntime hfits).mpr h

end Agreement

def runtime (nano : Int) : Option (Int × Int) :=
  if nano < 2 ^ 63 then some (nano * 100000 / 1000000000, 100000) else none

theorem runtime_documented : Documented runtime where
  quota _ _ h := if_pos h
  refused _ h := if_neg (not_lt.mpr h)

/-- Two whole cores of four. -/
theorem two_cores : Agree runtime 2 4 ["cpu", "cpuset"] ↔ 1 ≤ (2 : ℚ) ∧ rounded (2 * 1000000000) < 2 ^ 63 ∧
    (4 ≤ ⌊(2 : ℚ)⌋₊ ∨ rounded (2 * 1000000000) < ⌊(2 : ℚ)⌋₊ * 1000000000 + 10000) :=
  views_agree_iff (by norm_num) (by simp) (by simp) runtime_documented

/-- Half a core of four: the container sees all of them, and is not pinned. -/
theorem half_core : ¬ ∀ cpuMax cpuLimit cores controllers, 0 < cpuLimit → 0 < cores → "cpu" ∈ controllers →
    "cpuset" ∈ controllers → Documented cpuMax → Agree cpuMax cpuLimit cores controllers := by
  intro h
  obtain ⟨config, nano, quota, cpus, -, -, -, -, -, -, hsmall⟩ :=
    h runtime (1 / 2) 4 ["cpu", "cpuset"] (by norm_num) (by norm_num) (by simp) (by simp) runtime_documented
  have hfloor : ⌊if (1 / 2 : ℚ) < 1 then ((4 : Nat) : ℚ) else 1 / 2⌋₊ = 4 := by
    rw [if_pos (by norm_num), Nat.floor_natCast]
  have hseen := (hsmall (by norm_num)).1
  rw [resolve_started (by rw [hfloor]; norm_num), hfloor] at hseen
  exact absurd hseen (by norm_num)

end NukeLab.CpuViews
