import Mathlib.Algebra.BigOperators.Group.Finset.Basic
import Mathlib.Algebra.BigOperators.Intervals
import NukeLab.CgroupTexts
import NukeLab.CpuViews

namespace NukeLab.ProcStat

open CgroupTexts CpuViews

abbrev Word := BitVec 64

section Usage

structure CgroupCpuUsage where
  usageUs : Word
  userUs : Word
  systemUs : Word

structure CgroupFiles where
  cpuStat : Option (List Char)
  cpuacctUsage : Option (List Char)
  cpuacctStat : Option (List Char)

def clockTicks (hz : Int) : Word := BitVec.ofInt 64 (if hz ≤ 0 then 100 else hz)

def keyValue (buf : List Char) (key : String) : Word := BitVec.ofNat 64 ((parseKey buf key.toList).getD 0)

def readCgroupCpuUsage (files : CgroupFiles) (hz : Int) : Option CgroupCpuUsage :=
  match readSmallFile files.cpuStat 1024 with
  | some buf => some ⟨keyValue buf "usage_usec", keyValue buf "user_usec", keyValue buf "system_usec"⟩
  | none =>
    match readSmallFile files.cpuacctUsage 1024 with
    | none => none
    | some buf =>
      let usageUs := BitVec.ofNat 64 (strtoull buf) / 1000
      match readSmallFile files.cpuacctStat 1024 with
      | some buf =>
        some ⟨usageUs, keyValue buf "user" * 1000000 / clockTicks hz, keyValue buf "system" * 1000000 / clockTicks hz⟩
      | none => some ⟨usageUs, 0, 0⟩

end Usage

section Text

structure Row where
  user : Word
  system : Word
  idle : Word

def totals (ncpus : Word) (u : CgroupCpuUsage) (hz elapsedUs : Word) : Row :=
  let userUs := if u.userUs + u.systemUs = 0 then u.usageUs else u.userUs
  let capacityUs := elapsedUs * ncpus
  let idleUs := if capacityUs > u.usageUs then capacityUs - u.usageUs else 0
  ⟨userUs * hz / 1000000, u.systemUs * hz / 1000000, idleUs * hz / 1000000⟩

def share (ncpus total : Word) (i : Nat) : Word := total / ncpus + if (i : Int) < (total % ncpus).toInt then 1 else 0

def Row.share (total : Row) (ncpus : Word) (i : Nat) : Row where
  user := ProcStat.share ncpus total.user i
  system := ProcStat.share ncpus total.system i
  idle := ProcStat.share ncpus total.idle i

def decimal (x : Word) : List Char := Nat.toDigits 10 x.toNat

def counters (r : Row) : List Char :=
  decimal r.user ++ " 0 ".toList ++ decimal r.system ++ " ".toList ++ decimal r.idle ++ " 0 0 0 0 0 0\n".toList

def aggregateLine (r : Row) : List Char := "cpu  ".toList ++ counters r

def cpuLine (i : Nat) (r : Row) : List Char := "cpu".toList ++ Nat.toDigits 10 i ++ " ".toList ++ counters r

def bufSize : Nat := 65536

structure Buffer where
  text : List Char
  off : Nat

/-- A print that does not fit is cut off, and told at its full length. -/
def Buffer.print (b : Buffer) (line : List Char) : Buffer :=
  ⟨b.text ++ line.take (bufSize - b.off - 1), b.off + line.length⟩

/-- The lines that are left from one on, until the buffer is nearly full. -/
def printCpus (line : Nat → List Char) : Nat → Nat → Buffer → Buffer
  | 0, _, b => b
  | left + 1, i, b => if b.off < bufSize - 128 then printCpus line left (i + 1) (b.print (line i)) else b

structure Count where
  value : Nat
  pos : 0 < value
  lt : value < 2 ^ 63

def Count.word (n : Count) : Word := BitVec.ofNat 64 n.value

def totalsOf (n : Count) (u : CgroupCpuUsage) (hz : Int) (elapsedUs : Word) : Row :=
  totals n.word u (clockTicks hz) elapsedUs

def lineOf (n : Count) (u : CgroupCpuUsage) (hz : Int) (elapsedUs : Word) (i : Nat) : List Char :=
  cpuLine i ((totalsOf n u hz elapsedUs).share n.word i)

def statText (n : Count) (u : CgroupCpuUsage) (hz : Int) (elapsedUs : Word) : List Char :=
  let b := (Buffer.mk [] 0).print (aggregateLine (totalsOf n u hz elapsedUs))
  (printCpus (lineOf n u hz elapsedUs) n.value 0 b).text

end Text

section Synthesis

def limited (c : Container) : Bool :=
  let env := (c.cpuCount.map fun text => atol text.toList).getD 0
  let cpuset := (c.cpuset.map fun text => countCpusetCpus text.toList).getD 0
  if env > 0 ∨ readCpuMax c.cpuMax > 0 ∨ readCfsQuotaV1 c.cfsQuota c.cfsPeriod > 0 then true
  else decide (cpuset > 0 ∧ c.host > 0 ∧ cpuset < c.host)

/-- The count that the library goes by, where there is a restriction; a long stops at its end. -/
def countOf (c : Container) : Option Count :=
  let n := min (resolveCpuCount c) (2 ^ 63 - 1)
  if h : limited c ∧ 0 < n then some ⟨n.toNat, by omega, by omega⟩ else none

def elapsedOf (clock : Option (Int × Int)) : Word :=
  match clock with
  | some (sec, nsec) => BitVec.ofInt 64 sec * 1000000 + BitVec.ofInt 64 nsec / 1000
  | none => 0

def synthProcStat (c : Container) (files : CgroupFiles) (hz : Int) (clock : Option (Int × Int)) : Option (List Char) :=
  (countOf c).bind fun n => (readCgroupCpuUsage files hz).map fun u => statText n u hz (elapsedOf clock)

end Synthesis

/-- One aggregate line, a line for each CPU in their order, and in each column the sum of
these is the aggregate, in 64 bits. -/
def Consistent (n : Nat) (text : List Char) : Prop :=
  ∃ (total : Row) (rows : Nat → Row),
    text = aggregateLine total ++ (List.range n).flatMap (fun i => cpuLine i (rows i)) ∧
      (∑ i ∈ Finset.range n, (rows i).user.toNat) % 2 ^ 64 = total.user.toNat ∧
      (∑ i ∈ Finset.range n, (rows i).system.toNat) % 2 ^ 64 = total.system.toNat ∧
      (∑ i ∈ Finset.range n, (rows i).idle.toNat) % 2 ^ 64 = total.idle.toNat

def Row.width (r : Row) : Nat := (decimal r.user).length + (decimal r.system).length + (decimal r.idle).length

/-- The aggregate line and those before the last CPU's stay out of the last 128 places. -/
def Fits (n : Count) (u : CgroupCpuUsage) (hz : Int) (elapsedUs : Word) : Prop :=
  let total := totalsOf n u hz elapsedUs
  total.width + 22 + ∑ i ∈ Finset.range (n.value - 1), ((Nat.toDigits 10 i).length + (total.share n.word i).width + 21) <
    65536 - 128

section Sums

theorem sum_ite_lt (n r : Nat) : ∑ i ∈ Finset.range n, (if i < r then 1 else 0) = min n r := by
  induction n with
  | zero => exact (Nat.zero_min r).symm
  | succ n ih =>
      rw [Finset.sum_range_succ, ih]
      split <;> omega

theorem sum_shares {n : Nat} (hn : 0 < n) (total : Nat) :
    ∑ i ∈ Finset.range n, (total / n + if i < total % n then 1 else 0) = total := by
  have hrest := Nat.mod_lt total hn
  rw [Finset.sum_add_distrib, Finset.sum_const, Finset.card_range, sum_ite_lt, Nat.nsmul_eq_mul, Nat.min_eq_right hrest.le]
  exact Nat.div_add_mod total n

theorem toNat_share (n : Count) (total : Word) (i : Nat) :
    (share n.word total i).toNat = total.toNat / n.value + if i < total.toNat % n.value then 1 else 0 := by
  have hword : n.word.toNat = n.value := by
    have hlt := n.lt
    rw [Count.word, BitVec.toNat_ofNat]
    omega
  have hrest := Nat.mod_lt total.toNat n.pos
  have hmod : (total % n.word).toNat = total.toNat % n.value := by rw [BitVec.toNat_umod, hword]
  have hlong : (total % n.word).toInt = (total.toNat % n.value : Nat) := by
    have hlt := n.lt
    rw [BitVec.toInt_eq_toNat_of_lt (by omega), hmod]
  have hdiv : (total / n.word).toNat = total.toNat / n.value := by rw [BitVec.toNat_udiv, hword]
  have htotal := total.isLt
  rw [share, hlong]
  by_cases hi : i < total.toNat % n.value
  · have hle : total.toNat / n.value ≤ n.value * (total.toNat / n.value) := Nat.le_mul_of_pos_left _ n.pos
    have hsplit := Nat.div_add_mod total.toNat n.value
    rw [if_pos (by exact_mod_cast hi), if_pos hi, BitVec.toNat_add, hdiv]
    exact Nat.mod_eq_of_lt (by simp; omega)
  · rw [if_neg (by exact_mod_cast hi), if_neg hi, Nat.add_zero, ← hdiv]
    exact congrArg BitVec.toNat (BitVec.add_zero _)

theorem sum_share (n : Count) (total : Word) :
    (∑ i ∈ Finset.range n.value, (share n.word total i).toNat) % 2 ^ 64 = total.toNat := by
  rw [Finset.sum_congr rfl fun i _ => toNat_share n total i, sum_shares n.pos]
  exact Nat.mod_eq_of_lt total.isLt

end Sums

section Printing

variable {line : Nat → List Char}

theorem print_of_lt {b : Buffer} {cs : List Char} (hoff : b.off < bufSize - 128) (hcs : cs.length < 128) :
    b.print cs = ⟨b.text ++ cs, b.off + cs.length⟩ := by
  have hroom : cs.length ≤ bufSize - b.off - 1 := by
    rw [bufSize] at hoff ⊢
    omega
  rw [Buffer.print, List.take_of_length_le hroom]

/-- By induction on the lines that are left: the lines are printed whole and in order,
each at a place with room, and all of them unless there is room for no more. -/
theorem printCpus_spec (hline : ∀ i < bufSize, 0 < (line i).length ∧ (line i).length < 128) (left i : Nat) (b : Buffer)
    (hoff : b.off = b.text.length) (hi : i ≤ b.off) :
    ∃ m ≤ left, (printCpus line left i b).text = b.text ++ (List.range' i m).flatMap line ∧
      (∀ j < m, (b.text ++ (List.range' i j).flatMap line).length < bufSize - 128) ∧
      (m = left ∨ bufSize - 128 ≤ (b.text ++ (List.range' i m).flatMap line).length) := by
  induction left generalizing i b with
  | zero => exact ⟨0, Nat.le_refl 0, (List.append_nil _).symm, fun j hj => absurd hj (Nat.not_lt_zero j), .inl rfl⟩
  | succ left ih =>
      rw [printCpus]
      by_cases hroom : b.off < bufSize - 128
      · have hbuf : i < bufSize := by
          rw [bufSize] at hroom ⊢
          omega
        obtain ⟨hpos, hlength⟩ := hline i hbuf
        have hoff' : b.off + (line i).length = (b.text ++ line i).length := by rw [List.length_append, hoff]
        rw [if_pos hroom, print_of_lt hroom hlength]
        obtain ⟨m, hm, htext, hbefore, hlast⟩ := ih (i + 1) ⟨b.text ++ line i, b.off + (line i).length⟩ hoff'
          (Nat.add_le_add hi hpos)
        have hrange : ∀ j, b.text ++ (List.range' i (j + 1)).flatMap line =
            b.text ++ line i ++ (List.range' (i + 1) j).flatMap line := by
          intro j
          rw [List.range'_succ, List.flatMap_cons, List.append_assoc]
        refine ⟨m + 1, Nat.succ_le_succ hm, by rw [htext, hrange], fun j hj => ?_, ?_⟩
        · cases j with
          | zero =>
              rw [List.range'_zero, List.flatMap_nil, List.append_nil, ← hoff]
              exact hroom
          | succ j =>
              rw [hrange]
              exact hbefore j (Nat.lt_of_succ_lt_succ hj)
        · rw [hrange]
          exact hlast.imp_left (congrArg Nat.succ)
      · rw [if_neg hroom]
        refine ⟨0, Nat.zero_le _, (List.append_nil _).symm, fun j hj => absurd hj (Nat.not_lt_zero j), .inr ?_⟩
        rw [List.range'_zero, List.flatMap_nil, List.append_nil, ← hoff]
        exact Nat.le_of_not_lt hroom

end Printing

section Lines

theorem count_counters (r : Row) : (counters r).count '\n' = 1 := by
  have hdecimal : ∀ x : Word, (decimal x).count '\n' = 0 := fun x => List.count_eq_zero.mpr (Texts.notMem_toDigits rfl x.toNat)
  simp only [counters, List.count_append, hdecimal]
  decide

theorem count_aggregateLine (r : Row) : (aggregateLine r).count '\n' = 1 := by
  rw [aggregateLine, List.count_append, count_counters]
  decide

theorem count_cpuLine (i : Nat) (r : Row) : (cpuLine i r).count '\n' = 1 := by
  rw [cpuLine, List.count_append, List.count_append, List.count_append, count_counters,
    List.count_eq_zero.mpr (Texts.notMem_toDigits rfl i)]
  decide

theorem count_lines (rows : Nat → Row) (total : Row) (n : Nat) :
    (aggregateLine total ++ (List.range n).flatMap fun i => cpuLine i (rows i)).count '\n' = n + 1 := by
  induction n with
  | zero =>
      rw [List.range_zero, List.flatMap_nil, List.append_nil, count_aggregateLine]
  | succ n ih =>
      rw [List.range_succ, List.flatMap_append, ← List.append_assoc, List.count_append, ih, List.flatMap_singleton,
        count_cpuLine]

theorem length_counters (r : Row) : (counters r).length = r.width + 17 := by
  simp only [counters, List.length_append, Row.width]
  have hzero : " 0 ".toList.length = 3 := rfl
  have hspace : " ".toList.length = 1 := rfl
  have hend : " 0 0 0 0 0 0\n".toList.length = 13 := rfl
  omega

theorem length_aggregateLine (r : Row) : (aggregateLine r).length = r.width + 22 := by
  rw [aggregateLine, List.length_append, length_counters, Nat.add_comm]
  rfl

theorem length_cpuLine (i : Nat) (r : Row) : (cpuLine i r).length = (Nat.toDigits 10 i).length + r.width + 21 := by
  rw [cpuLine, List.length_append, List.length_append, List.length_append, length_counters]
  have hcpu : "cpu".toList.length = 3 := rfl
  have hspace : " ".toList.length = 1 := rfl
  omega

theorem length_lines (rows : Nat → Row) (n : Nat) : ((List.range n).flatMap fun i => cpuLine i (rows i)).length =
    ∑ i ∈ Finset.range n, ((Nat.toDigits 10 i).length + (rows i).width + 21) := by
  induction n with
  | zero => rfl
  | succ n ih =>
      rw [List.range_succ, List.flatMap_append, List.length_append, ih, Finset.sum_range_succ, List.flatMap_singleton,
        length_cpuLine]

theorem width_le (r : Row) : r.width ≤ 60 := by
  have hdecimal : ∀ x : Word, (decimal x).length ≤ 20 := by
    intro x
    apply (Nat.length_toDigits_le_iff (by decide) (by decide)).mpr
    exact lt_trans x.isLt (by norm_num)
  have huser := hdecimal r.user
  have hsystem := hdecimal r.system
  have hidle := hdecimal r.idle
  rw [Row.width]
  omega

theorem length_digits_le {i : Nat} (hi : i < bufSize) : (Nat.toDigits 10 i).length ≤ 5 := by
  apply (Nat.length_toDigits_le_iff (by decide) (by decide)).mpr
  exact lt_trans hi (by decide)

theorem lineOf_length (n : Count) (u : CgroupCpuUsage) (hz : Int) (elapsedUs : Word) :
    ∀ i < bufSize, 0 < (lineOf n u hz elapsedUs i).length ∧ (lineOf n u hz elapsedUs i).length < 128 := by
  intro i hi
  have hdigits := length_digits_le hi
  have hwidth := width_le ((totalsOf n u hz elapsedUs).share n.word i)
  rw [lineOf, length_cpuLine]
  omega

end Lines

section Whole

variable (n : Count) (u : CgroupCpuUsage) (hz : Int) (elapsedUs : Word)

def textUpTo (m : Nat) : List Char :=
  aggregateLine (totalsOf n u hz elapsedUs) ++ (List.range m).flatMap (lineOf n u hz elapsedUs)

theorem length_textUpTo (m : Nat) : (textUpTo n u hz elapsedUs m).length = (totalsOf n u hz elapsedUs).width + 22 +
    ∑ i ∈ Finset.range m, ((Nat.toDigits 10 i).length + ((totalsOf n u hz elapsedUs).share n.word i).width + 21) := by
  rw [textUpTo, List.length_append, length_aggregateLine]
  exact congrArg _ (length_lines _ m)

theorem length_textUpTo_mono {m m' : Nat} (h : m ≤ m') :
    (textUpTo n u hz elapsedUs m).length ≤ (textUpTo n u hz elapsedUs m').length := by
  rw [length_textUpTo, length_textUpTo]
  exact Nat.add_le_add_left (Finset.sum_le_sum_of_subset (Finset.range_mono h)) _

/-- The text has the lines up to some CPU, and there are more only where it is nearly full there. -/
theorem statText_spec : ∃ m ≤ n.value, statText n u hz elapsedUs = textUpTo n u hz elapsedUs m ∧
    (∀ j < m, (textUpTo n u hz elapsedUs j).length < bufSize - 128) ∧
    (m = n.value ∨ bufSize - 128 ≤ (textUpTo n u hz elapsedUs m).length) := by
  have hfirst : (aggregateLine (totalsOf n u hz elapsedUs)).length < 128 := by
    have hwidth := width_le (totalsOf n u hz elapsedUs)
    rw [length_aggregateLine]
    omega
  have hprint := print_of_lt (b := ⟨[], 0⟩) (by decide) hfirst
  rw [statText, hprint]
  have hspec := printCpus_spec (lineOf_length n u hz elapsedUs) n.value 0
    ⟨aggregateLine (totalsOf n u hz elapsedUs), (aggregateLine (totalsOf n u hz elapsedUs)).length⟩ rfl (Nat.zero_le _)
  simp only [← List.range_eq_range'] at hspec
  simpa [textUpTo] using hspec

theorem all_of_consistent {n m : Nat} (total : Row) (rows : Nat → Row)
    (h : Consistent n (aggregateLine total ++ (List.range m).flatMap fun i => cpuLine i (rows i))) : m = n := by
  obtain ⟨total', rows', htext, -⟩ := h
  have hcount : m + 1 = n + 1 := by rw [← count_lines rows total m, htext, count_lines]
  exact Nat.succ.inj hcount

theorem fits_iff : Fits n u hz elapsedUs ↔ (textUpTo n u hz elapsedUs (n.value - 1)).length < bufSize - 128 := by
  rw [length_textUpTo]
  exact Iff.rfl

variable {n u hz elapsedUs} in
theorem consistent_of_fits (h : Fits n u hz elapsedUs) : Consistent n.value (statText n u hz elapsedUs) := by
  obtain ⟨m, hm, htext, -, hlast⟩ := statText_spec n u hz elapsedUs
  have hlt := (fits_iff n u hz elapsedUs).mp h
  obtain rfl : m = n.value := by
    by_contra hne
    have hfull := hlast.resolve_left hne
    have hmono := length_textUpTo_mono n u hz elapsedUs (by omega : m ≤ n.value - 1)
    omega
  rw [htext]
  exact ⟨totalsOf n u hz elapsedUs, fun i => (totalsOf n u hz elapsedUs).share n.word i, rfl,
    sum_share n _, sum_share n _, sum_share n _⟩

/-- The lines are all there, and add up, exactly where those before the last one leave
room for it. -/
theorem consistent_iff : Consistent n.value (statText n u hz elapsedUs) ↔ Fits n u hz elapsedUs := by
  refine ⟨fun h => ?_, consistent_of_fits⟩
  obtain ⟨m, -, htext, hbefore, -⟩ := statText_spec n u hz elapsedUs
  have hpos := n.pos
  rw [htext] at h
  obtain rfl : m = n.value := all_of_consistent _ _ h
  exact (fits_iff n u hz elapsedUs).mpr (hbefore (n.value - 1) (by omega))

variable {n u hz elapsedUs}

theorem fits_of_le (h : n.value ≤ 760) : Fits n u hz elapsedUs := by
  have hline : ∀ i ∈ Finset.range (n.value - 1),
      (Nat.toDigits 10 i).length + ((totalsOf n u hz elapsedUs).share n.word i).width + 21 ≤ 86 := by
    intro i hi
    have hlt := Finset.mem_range.mp hi
    have hdigits := length_digits_le (by rw [bufSize]; omega : i < bufSize)
    have hwidth := width_le ((totalsOf n u hz elapsedUs).share n.word i)
    omega
  have hsum := Finset.sum_le_card_nsmul _ _ 86 hline
  rw [Finset.card_range, Nat.nsmul_eq_mul] at hsum
  have hwidth := width_le (totalsOf n u hz elapsedUs)
  rw [Fits]
  omega

/-- With up to 760 CPUs what is made in place of the real text is consistent, whatever
the counters are. -/
theorem synthProcStat_consistent {c : Container} {files : CgroupFiles} {clock : Option (Int × Int)} {text : List Char}
    (h : synthProcStat c files hz clock = some text) (hcount : resolveCpuCount c ≤ 760) :
    Consistent (resolveCpuCount c).toNat text := by
  obtain ⟨n, hn, htext⟩ := Option.bind_eq_some_iff.mp h
  obtain ⟨u, -, rfl⟩ := Option.map_eq_some_iff.mp htext
  have hvalue : n.value = (resolveCpuCount c).toNat := by
    rw [countOf] at hn
    split at hn
    next hpos =>
      obtain rfl := Option.some.inj hn
      exact congrArg Int.toNat (min_eq_left (by omega))
    · cases hn
  rw [← hvalue]
  exact consistent_of_fits (fits_of_le (by omega))

theorem lt_of_consistent (h : Consistent n.value (statText n u hz elapsedUs)) : n.value < 65536 - 127 := by
  obtain ⟨m, -, htext, hbefore, -⟩ := statText_spec n u hz elapsedUs
  rw [htext] at h
  obtain rfl : m = n.value := all_of_consistent _ _ h
  have hlt := hbefore (n.value - 1) (Nat.sub_lt n.pos Nat.one_pos)
  have hcount := count_lines (fun i => (totalsOf n u hz elapsedUs).share n.word i) (totalsOf n u hz elapsedUs) (n.value - 1)
  have hle := List.count_le_length (a := '\n') (l := textUpTo n u hz elapsedUs (n.value - 1))
  have hle' : n.value - 1 + 1 ≤ (textUpTo n u hz elapsedUs (n.value - 1)).length := hcount ▸ hle
  rw [bufSize] at hlt
  omega

def unused : CgroupCpuUsage := ⟨0, 0, 0⟩

def hundredThousand : Count := ⟨100000, by decide, by decide⟩

/-- More CPUs than the buffer has places. -/
theorem buffer_full : ¬ ∀ (n : Count) (u : CgroupCpuUsage) (hz : Int) (elapsedUs : Word),
    Consistent n.value (statText n u hz elapsedUs) := by
  intro h
  have hlt := lt_of_consistent (h hundredThousand unused 100 0)
  revert hlt
  decide

end Whole

end NukeLab.ProcStat
