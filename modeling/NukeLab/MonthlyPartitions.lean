import NukeLab.LedgerRetention

namespace NukeLab.MonthlyPartitions

open Calendar LedgerRetention

/-- `PARTITION_CONFIG`: the tables and the columns they are partitioned by. -/
def partitionConfig : List (String × String) :=
  [("activity_logs", "created_at"), ("server_metrics", "collected_at"), ("request_metrics", "created_at"),
    ("credit_transactions", "created_at")]

def Managed (table : String) : Prop := table ∈ partitionConfig.map Prod.fst

instance (table : String) : Decidable (Managed table) := inferInstanceAs (Decidable (table ∈ partitionConfig.map Prod.fst))

/-- `dt + relativedelta(months=months)`, of which only the year and the month are read. -/
def addMonths (year month months : Int) : Except String (Int × Int) :=
  let years := year + months.tdiv 12
  let rest := month + months.tmod 12
  let date := if rest > 12 then (years + 1, rest - 12) else if rest < 1 then (years - 1, rest + 12) else (years, rest)
  if date.1 < 1 ∨ 9999 < date.1 then .error ("year " ++ toString date.1 ++ " is out of range") else .ok date

structure Partition where
  table : String
  name : List Char
  start : Int
  stop : Int

structure Row where
  table : String
  time : Int

/-- The partitions of all tables, the tables that have a default one, and what is
in these. -/
structure Catalog where
  defaults : List String
  partitions : List Partition
  rows : List Row

def Partition.covers (p : Partition) (row : Row) : Prop := p.table = row.table ∧ p.start ≤ row.time ∧ row.time < p.stop

instance (p : Partition) (row : Row) : Decidable (p.covers row) := inferInstanceAs (Decidable (_ ∧ _))

def monthBounds (year month : Int) : Except String (Int × Int) := do
  let next ← addMonths year month 1
  return (monthStart (monthNumber year month), monthStart (monthNumber next.1 next.2))

def Catalog.exists (c : Catalog) (name : List Char) : Bool := c.partitions.any fun p => p.name = name

def ensureDefaultPartition (c : Catalog) (table : String) : Catalog :=
  if table ∈ c.defaults then c else { c with defaults := c.defaults ++ [table] }

/-- The database refuses a partition for rows that the default one holds. -/
def attach (c : Catalog) (p : Partition) : Except String Catalog :=
  if ∃ row ∈ c.rows, p.covers row then
    .error ("updated partition constraint for default partition \"" ++ p.table ++ "_default\" would be violated by some row")
  else .ok { c with partitions := c.partitions ++ [p] }

def createPartition (c : Catalog) (table : String) (year month : Int) : Except String (Catalog × List Char) :=
  let name := partitionName table year.toNat month.toNat
  if c.exists name then .ok (c, name)
  else do
    let (start, stop) ← monthBounds year month
    let c ← attach c ⟨table, name, start, stop⟩
    return (c, name)

def createEach (table : String) (year month : Int) : List Nat → Catalog → Except String (Catalog × List (List Char))
  | [], c => .ok (c, [])
  | offset :: offsets, c => do
    let target ← addMonths year month offset
    let (c, name) ← createPartition c table target.1 target.2
    let (c, created) ← createEach table year month offsets c
    return (c, name :: created)

def ensurePartitions (c : Catalog) (table : String) (now : DateTime) (monthsAhead : Int) :
    Except String (Catalog × List (List Char)) :=
  if ¬ Managed table then .error ("Unknown partitioned table: " ++ table)
  else createEach table now.year now.month (List.range (monthsAhead + 1).toNat) (ensureDefaultPartition c table)

/-- Whether a partition's name tells a month before the cutoff's. -/
def tooOld (cutoffYm : Int) (p : Partition) : Bool :=
  match nameYm p.name with
  | some partYm => partYm < cutoffYm
  | none => false

def dropOldPartitions (c : Catalog) (table : String) (now : DateTime) (monthsToKeep : Int) : Except String Catalog := do
  let cutoff ← addMonths now.year now.month (-monthsToKeep)
  let cutoffYm := cutoff.1 * 12 + cutoff.2
  return { c with partitions := c.partitions.filter fun p => ¬ (p.table = table ∧ tooOld cutoffYm p) }

inductive Event
  | ensure (table : String) (now : DateTime) (monthsAhead : Int)
  | drop (table : String) (now : DateTime) (monthsToKeep : Int)
  | insert (row : Row)
  | delete (gone : Row → Bool)

/-- A row goes to the partition of its month, or else to the default one. -/
def insertRow (c : Catalog) (row : Row) : Catalog :=
  if (∃ p ∈ c.partitions, p.covers row) ∨ row.table ∉ c.defaults then c else { c with rows := c.rows ++ [row] }

/-- A run that fails leaves the catalog as it was. -/
def step (c : Catalog) : Event → Catalog
  | .ensure table now monthsAhead =>
    match ensurePartitions c table now monthsAhead with
    | .ok (c', _) => c'
    | .error _ => c
  | .drop table now monthsToKeep =>
    match dropOldPartitions c table now monthsToKeep with
    | .ok c' => c'
    | .error _ => c
  | .insert row => insertRow c row
  | .delete gone => { c with rows := c.rows.filter fun row => !gone row }

def after (events : List Event) : Catalog := events.foldl step ⟨[], [], []⟩

def Clear (c : Catalog) (table : String) (first last : Int) : Prop :=
  ∀ row ∈ c.rows, row.table = table → ¬ (monthStart first ≤ row.time ∧ row.time < monthStart (last + 1))

def nameOf (table : String) (ym : Int) : List Char := partitionName table (yearOf ym).toNat (monthOf ym).toNat

structure Partition.Of (p : Partition) (ym : Int) : Prop where
  managed : Managed p.table
  low : monthNumber 1 1 ≤ ym
  high : ym ≤ monthNumber 9999 12
  name : p.name = nameOf p.table ym
  start : p.start = monthStart ym
  stop : p.stop = monthStart (ym + 1)

structure WellKept (c : Catalog) : Prop where
  monthly : ∀ p ∈ c.partitions, ∃ ym, p.Of ym
  distinct : (c.partitions.map Partition.name).Nodup

section Months

variable {year month months : Int}

theorem addMonths_eq (hmonth : 1 ≤ month ∧ month ≤ 12) (hlow : monthNumber 1 1 ≤ monthNumber year month + months)
    (hhigh : monthNumber year month + months ≤ monthNumber 9999 12) : ∃ date : Int × Int, addMonths year month months = .ok date ∧
      (1 ≤ date.1 ∧ date.1 ≤ 9999) ∧ (1 ≤ date.2 ∧ date.2 ≤ 12) ∧ monthNumber date.1 date.2 = monthNumber year month + months := by
  have hdiv := Int.mul_tdiv_add_tmod months 12
  have hlt := Int.tmod_lt_of_pos months (b := 12) (by decide)
  have hgt := Int.lt_tmod_of_pos months (b := 12) (by decide)
  simp only [monthNumber] at *
  rw [addMonths]
  split
  · refine ⟨_, if_neg ?_, ?_⟩ <;> dsimp only <;> omega
  · split
    · refine ⟨_, if_neg ?_, ?_⟩ <;> dsimp only <;> omega
    · refine ⟨_, if_neg ?_, ?_⟩ <;> dsimp only <;> omega

theorem addMonths_ok {date : Int × Int} (hmonth : 1 ≤ month ∧ month ≤ 12) (h : addMonths year month months = .ok date) :
    (1 ≤ date.1 ∧ date.1 ≤ 9999) ∧ (1 ≤ date.2 ∧ date.2 ≤ 12) ∧ monthNumber date.1 date.2 = monthNumber year month + months := by
  have hdiv := Int.mul_tdiv_add_tmod months 12
  have hlt := Int.tmod_lt_of_pos months (b := 12) (by decide)
  have hgt := Int.lt_tmod_of_pos months (b := 12) (by decide)
  simp only [monthNumber]
  rw [addMonths] at h
  split at h
  · split at h
    · cases h
    · obtain rfl := Except.ok.inj h
      dsimp only at *
      omega
  · split at h
    · split at h
      · cases h
      · obtain rfl := Except.ok.inj h
        dsimp only at *
        omega
    · split at h
      · cases h
      · obtain rfl := Except.ok.inj h
        dsimp only at *
        omega

theorem monthStart_strictMono : StrictMono monthStart := by
  intro a b h
  exact Int.mul_lt_mul_of_pos_right (firstDay_strictMono h) (by decide)

theorem exists_month {ym t : Int} (n : Nat) (hlow : monthStart ym ≤ t) (hhigh : t < monthStart (ym + n)) :
    ∃ i : Nat, i < n ∧ monthStart (ym + i) ≤ t ∧ t < monthStart (ym + i + 1) := by
  induction n with
  | zero =>
      rw [Int.natCast_zero, Int.add_zero] at hhigh
      exact absurd hhigh (not_lt.mpr hlow)
  | succ n ih =>
      rcases lt_or_ge t (monthStart (ym + n)) with hlt | hge
      · obtain ⟨i, hi, hmonth⟩ := ih hlt
        exact ⟨i, Nat.lt_succ_of_lt hi, hmonth⟩
      · refine ⟨n, Nat.lt_succ_self n, hge, ?_⟩
        rwa [Int.natCast_succ, ← Int.add_assoc] at hhigh

theorem month_unique {a b t : Int} (ha : monthStart a ≤ t ∧ t < monthStart (a + 1))
    (hb : monthStart b ≤ t ∧ t < monthStart (b + 1)) : a = b := by
  have hab : a < b + 1 := monthStart_strictMono.lt_iff_lt.mp (ha.1.trans_lt hb.2)
  have hba : b < a + 1 := monthStart_strictMono.lt_iff_lt.mp (hb.1.trans_lt ha.2)
  omega

end Months

section Names

theorem managed_cases {table : String} (h : Managed table) : table = "activity_logs" ∨ table = "server_metrics" ∨
    table = "request_metrics" ∨ table = "credit_transactions" := by
  simpa [Managed, partitionConfig] using h

theorem afterMark_partitionName {table : String} (h : Managed table) (year month : Nat) :
    afterMark (partitionName table year month) = some (Nat.toDigits 10 year ++ 'm' :: twoDigits month) := by
  rcases managed_cases h with rfl | rfl | rfl | rfl <;> rfl

theorem head_partitionName {table : String} (h : Managed table) (year month : Nat) :
    (partitionName table year month).head? = table.toList.head? := by
  rcases managed_cases h with rfl | rfl | rfl | rfl <;> rfl

theorem table_of_name {table other : String} (h : Managed table) (hother : Managed other) {year month year' month' : Nat}
    (hname : partitionName table year month = partitionName other year' month') : table = other := by
  have hletters : ∀ t ∈ partitionConfig.map Prod.fst, ∀ u ∈ partitionConfig.map Prod.fst,
      t.toList.head? = u.toList.head? → t = u := by decide
  apply hletters table h other hother
  rw [← head_partitionName h year month, hname, head_partitionName hother]

theorem date_of_name {table : String} (h : Managed table) {year month year' month' : Nat} (hmonth : month ≤ 12)
    (hmonth' : month' ≤ 12) (hname : partitionName table year month = partitionName table year' month') :
    year = year' ∧ month = month' := by
  have hmarks := congrArg afterMark hname
  rw [afterMark_partitionName h, afterMark_partitionName h, Option.some.injEq] at hmarks
  have hlength : ('m' :: twoDigits month).length = ('m' :: twoDigits month').length := by
    rw [List.length_cons, List.length_cons, length_twoDigits hmonth, length_twoDigits hmonth']
  obtain ⟨hyears, hmonths⟩ := List.append_inj' hmarks hlength
  constructor
  · have hsame := congrArg parseNat hyears
    rwa [parseNat_toDigits, parseNat_toDigits, Option.some.injEq] at hsame
  · have hsame := congrArg parseNat (List.cons.inj hmonths).2
    rwa [parseNat_twoDigits, parseNat_twoDigits, Option.some.injEq] at hsame

theorem monthOf_bounds (ym : Int) : 1 ≤ monthOf ym ∧ monthOf ym ≤ 12 := by
  rw [monthOf]
  omega

theorem nameOf_injective {table other : String} {a b : Int} (h : Managed table) (hother : Managed other)
    (hb : monthNumber 1 1 ≤ b) (hname : nameOf table a = nameOf other b) :
    table = other ∧ a = b := by
  obtain rfl := table_of_name h hother hname
  have hma := monthOf_bounds a
  have hmb := monthOf_bounds b
  obtain ⟨hyear, hmonth⟩ := date_of_name h (by omega) (by omega) hname
  refine ⟨rfl, ?_⟩
  rw [monthNumber] at hb
  have hya : yearOf a = yearOf b := by
    simp only [yearOf] at *
    omega
  rw [← monthNumber_yearOf a, ← monthNumber_yearOf b, hya]
  have hmonths : monthOf a = monthOf b := by omega
  rw [hmonths]

end Names

section Creating

variable {c c' : Catalog} {table : String} {year month : Int} {name : List Char}

theorem nameOf_monthNumber (hmonth : 1 ≤ month ∧ month ≤ 12) :
    nameOf table (monthNumber year month) = partitionName table year.toNat month.toNat := by
  rw [nameOf, yearOf_monthNumber hmonth.1 hmonth.2, monthOf_monthNumber hmonth.1 hmonth.2]

theorem attach_ok {p : Partition} (h : attach c p = .ok c') :
    (¬ ∃ row ∈ c.rows, p.covers row) ∧ c' = { c with partitions := c.partitions ++ [p] } := by
  rw [attach] at h
  split at h
  · cases h
  next hnone =>
    cases h
    exact ⟨hnone, rfl⟩

/-- The partition of the month is there, whether it was created or found. -/
theorem createPartition_ok (hc : WellKept c) (htable : Managed table) (hyear : 1 ≤ year ∧ year ≤ 9999)
    (hmonth : 1 ≤ month ∧ month ≤ 12) (h : createPartition c table year month = .ok (c', name)) :
    WellKept c' ∧ c.partitions ⊆ c'.partitions ∧ name = nameOf table (monthNumber year month) ∧
      ∃ p ∈ c'.partitions, p.table = table ∧ p.Of (monthNumber year month) := by
  have hlow : monthNumber 1 1 ≤ monthNumber year month := by
    simp only [monthNumber]
    omega
  have hhigh : monthNumber year month ≤ monthNumber 9999 12 := by
    simp only [monthNumber]
    omega
  rw [createPartition, ← nameOf_monthNumber hmonth] at h
  dsimp only at h
  split at h
  · rename_i hexists
    obtain ⟨rfl, rfl⟩ := Prod.mk.inj (Except.ok.inj h)
    obtain ⟨p, hp, hname⟩ := List.any_eq_true.mp hexists
    obtain ⟨ym, hof⟩ := hc.monthly p hp
    have hsame := nameOf_injective hof.managed htable hlow (hof.name.symm.trans (of_decide_eq_true hname))
    exact ⟨hc, List.Subset.refl _, rfl, p, hp, hsame.1, hsame.2 ▸ hof⟩
  · rename_i hnew
    obtain ⟨bounds, hbounds, hcreate⟩ := Program.ok_of_bind h
    obtain ⟨next, hnext, hpair⟩ := Program.ok_of_bind hbounds
    obtain rfl := Except.ok.inj hpair
    obtain ⟨attached, hattach, hcreate⟩ := Program.ok_of_bind hcreate
    obtain ⟨rfl, rfl⟩ := Prod.mk.inj (Except.ok.inj hcreate)
    obtain ⟨-, rfl⟩ := attach_ok hattach
    obtain ⟨-, -, hmonthNumber⟩ := addMonths_ok hmonth hnext
    have hof : Partition.Of ⟨table, nameOf table (monthNumber year month), monthStart (monthNumber year month),
        monthStart (monthNumber next.1 next.2)⟩ (monthNumber year month) :=
      ⟨htable, hlow, hhigh, rfl, rfl, by rw [hmonthNumber]⟩
    have hfresh : nameOf table (monthNumber year month) ∉ c.partitions.map Partition.name := by
      intro hmem
      obtain ⟨p, hp, hname⟩ := List.mem_map.mp hmem
      exact hnew (List.any_eq_true.mpr ⟨p, hp, decide_eq_true hname⟩)
    refine ⟨⟨?_, ?_⟩, List.subset_append_left _ _, rfl, _, List.mem_append_right _ List.mem_cons_self, rfl, hof⟩
    · intro p hp
      rcases List.mem_append.mp hp with hp | hp
      · exact hc.monthly p hp
      · obtain rfl := List.mem_singleton.mp hp
        exact ⟨_, hof⟩
    · rw [List.map_append, List.map_singleton]
      exact List.nodup_append.mpr ⟨hc.distinct, List.nodup_singleton _, by
        intro a ha b hb hab
        obtain rfl := List.mem_singleton.mp hb
        rw [hab] at ha
        exact hfresh ha⟩

theorem createPartition_rows (h : createPartition c table year month = .ok (c', name)) : c'.rows = c.rows := by
  rw [createPartition] at h
  dsimp only at h
  split at h
  · cases h
    rfl
  · obtain ⟨bounds, -, h⟩ := Program.ok_of_bind h
    obtain ⟨attached, hattach, h⟩ := Program.ok_of_bind h
    cases h
    rw [(attach_ok hattach).2]

theorem createPartition_runs (hmonth : 1 ≤ month ∧ month ≤ 12) (hlow : 1 ≤ year)
    (hhigh : monthNumber year month < monthNumber 9999 12)
    (hclear : Clear c table (monthNumber year month) (monthNumber year month)) :
    ∃ c' name, createPartition c table year month = .ok (c', name) := by
  have hafter : monthNumber 1 1 ≤ monthNumber year month + 1 := by
    simp only [monthNumber]
    omega
  obtain ⟨next, hnext, -, -, hym⟩ := addMonths_eq hmonth hafter hhigh
  rw [createPartition]
  dsimp only
  split
  · exact ⟨_, _, rfl⟩
  · have hnone : ¬ ∃ row ∈ c.rows, Partition.covers ⟨table, partitionName table year.toNat month.toNat,
        monthStart (monthNumber year month), monthStart (monthNumber next.1 next.2)⟩ row := by
      rintro ⟨row, hrow, htable, hstart, hstop⟩
      exact hclear row hrow htable.symm ⟨hstart, hym ▸ hstop⟩
    simp only [monthBounds, hnext, attach, bind, Except.bind, pure, Except.pure, if_neg hnone]
    exact ⟨_, _, rfl⟩

structure Created (table : String) (ym : Int) (offsets : List Nat) (c c' : Catalog) (created : List (List Char)) : Prop where
  kept : WellKept c'
  extends_ : c.partitions ⊆ c'.partitions
  names : created = offsets.map fun offset : Nat => nameOf table (ym + offset)
  there : ∀ offset ∈ offsets, ∃ p ∈ c'.partitions, p.table = table ∧ p.Of (ym + (offset : Nat))

theorem createEach_ok {offsets : List Nat} {created : List (List Char)} (hc : WellKept c) (htable : Managed table)
    (hmonth : 1 ≤ month ∧ month ≤ 12) (h : createEach table year month offsets c = .ok (c', created)) :
    Created table (monthNumber year month) offsets c c' created := by
  induction offsets generalizing c created with
  | nil =>
      obtain ⟨rfl, rfl⟩ := Prod.mk.inj (Except.ok.inj h)
      exact ⟨hc, List.Subset.refl _, rfl, fun _ ho => absurd ho List.not_mem_nil⟩
  | cons offset offsets ih =>
      obtain ⟨target, htarget, h⟩ := Program.ok_of_bind h
      obtain ⟨⟨c₁, name⟩, hone, h⟩ := Program.ok_of_bind h
      obtain ⟨⟨c₂, rest⟩, heach, h⟩ := Program.ok_of_bind h
      obtain ⟨rfl, rfl⟩ := Prod.mk.inj (Except.ok.inj h)
      obtain ⟨hyear, htargetMonth, hym⟩ := addMonths_ok hmonth htarget
      obtain ⟨hkept, hsub, hname, p, hp, hof⟩ := createPartition_ok hc htable hyear htargetMonth hone
      have hrest := ih hkept heach
      rw [hym] at hname hof
      refine ⟨hrest.kept, List.Subset.trans hsub hrest.extends_, ?_, ?_⟩
      · rw [List.map_cons, ← hrest.names, ← hname]
      · intro o ho
        rcases List.mem_cons.mp ho with rfl | ho
        · exact ⟨p, hrest.extends_ hp, hof⟩
        · exact hrest.there o ho

theorem createEach_runs {offsets : List Nat} (hmonth : 1 ≤ month ∧ month ≤ 12) (hlow : 1 ≤ year)
    (h : ∀ offset ∈ offsets, monthNumber year month + (offset : Nat) < monthNumber 9999 12)
    (hclear : ∀ offset ∈ offsets, Clear c table (monthNumber year month + (offset : Nat)) (monthNumber year month + (offset : Nat))) :
    ∃ c' created, createEach table year month offsets c = .ok (c', created) := by
  induction offsets generalizing c with
  | nil => exact ⟨_, _, rfl⟩
  | cons offset offsets ih =>
      obtain ⟨hfirst, hrest⟩ := List.forall_mem_cons.mp h
      obtain ⟨hnow, hlaterClear⟩ := List.forall_mem_cons.mp hclear
      have hlater : monthNumber 1 1 ≤ monthNumber year month + (offset : Nat) := by
        simp only [monthNumber]
        omega
      obtain ⟨target, htarget, hyear, htargetMonth, hym⟩ := addMonths_eq hmonth hlater hfirst.le
      obtain ⟨c₁, name, hone⟩ : ∃ c' name, createPartition c table target.1 target.2 = .ok (c', name) :=
        createPartition_runs htargetMonth hyear.1 (hym ▸ hfirst) (hym ▸ hnow)
      have hrows := createPartition_rows hone
      obtain ⟨c₂, created, heach⟩ := ih (c := c₁) hrest fun o ho row hrow => hlaterClear o ho row (hrows ▸ hrow)
      refine ⟨c₂, name :: created, ?_⟩
      rw [createEach, htarget]
      simp only [bind, Except.bind, hone, heach]
      rfl

end Creating

section Runs

variable {c c' : Catalog} {table : String} {now : DateTime} {n : Int} {created : List (List Char)}

theorem wellKept_default (hc : WellKept c) : WellKept (ensureDefaultPartition c table) := by
  rw [ensureDefaultPartition]
  split
  · exact hc
  · exact ⟨hc.monthly, hc.distinct⟩

theorem ensurePartitions_ok (hc : WellKept c) (h : ensurePartitions c table now n = .ok (c', created)) :
    Managed table ∧ Created table now.ym (List.range (n + 1).toNat) (ensureDefaultPartition c table) c' created := by
  rw [ensurePartitions] at h
  split at h
  · cases h
  · rename_i htable
    have hmanaged : Managed table := not_not.mp htable
    exact ⟨hmanaged, createEach_ok (wellKept_default hc) hmanaged now.hmonth h⟩

theorem rows_default : (ensureDefaultPartition c table).rows = c.rows := by
  rw [ensureDefaultPartition]
  split <;> rfl

theorem ensurePartitions_runs (htable : Managed table) (h : now.ym + n < monthNumber 9999 12)
    (hclear : Clear c table now.ym (now.ym + n)) : ∃ c' created, ensurePartitions c table now n = .ok (c', created) := by
  rw [ensurePartitions, if_neg (not_not.mpr htable)]
  have hym : now.ym = monthNumber now.year now.month := rfl
  refine createEach_runs now.hmonth now.hyear.1 (fun offset hoffset => ?_) fun offset hoffset row hrow htable' hmonth => ?_
  · have hlt := List.mem_range.mp hoffset
    omega
  · have hlt := List.mem_range.mp hoffset
    rw [rows_default] at hrow
    refine hclear row hrow htable' ⟨?_, ?_⟩
    · exact (monthStart_strictMono.monotone (by omega)).trans hmonth.1
    · exact hmonth.2.trans_le (monthStart_strictMono.monotone (by omega))

theorem wellKept_drop {months : Int} (hc : WellKept c) (h : dropOldPartitions c table now months = .ok c') : WellKept c' := by
  obtain ⟨cutoff, -, h⟩ := Program.ok_of_bind h
  obtain rfl := Except.ok.inj h
  exact ⟨fun p hp => hc.monthly p (List.mem_of_mem_filter hp), hc.distinct.sublist (List.filter_sublist.map _)⟩

theorem wellKept_step (e : Event) (hc : WellKept c) : WellKept (step c e) := by
  cases e with
  | ensure table now n =>
      rw [step]
      split
      · exact (ensurePartitions_ok hc ‹_›).2.kept
      · exact hc
  | drop table now months =>
      rw [step]
      split
      · exact wellKept_drop hc ‹_›
      · exact hc
  | insert row =>
      rw [step, insertRow]
      split
      · exact hc
      · exact ⟨hc.monthly, hc.distinct⟩
  | delete gone => exact ⟨hc.monthly, hc.distinct⟩

theorem wellKept_after (events : List Event) : WellKept (after events) := by
  have hfold : ∀ c, WellKept c → WellKept (events.foldl step c) := by
    induction events with
    | nil => exact fun _ hc => hc
    | cons e events ih => exact fun c hc => ih (step c e) (wellKept_step e hc)
  exact hfold ⟨[], [], []⟩ ⟨fun _ hp => absurd hp List.not_mem_nil, List.nodup_nil⟩

/-- An instant of the months asked for is in just one of their partitions. -/
theorem exists_unique_partition (hcreated : Created table now.ym (List.range (n + 1).toNat) c c' created)
    {t : Int} (hlow : monthStart now.ym ≤ t) (hhigh : t < monthStart (now.ym + n + 1)) :
    ∃! p, p ∈ c'.partitions ∧ p.table = table ∧ p.name ∈ created ∧ p.start ≤ t ∧ t < p.stop := by
  have hn : now.ym < now.ym + n + 1 := monthStart_strictMono.lt_iff_lt.mp (hlow.trans_lt hhigh)
  obtain ⟨i, hi, hstart, hstop⟩ := exists_month (n + 1).toNat hlow (by
    rwa [Int.toNat_of_nonneg (by omega), ← Int.add_assoc])
  obtain ⟨p, hp, hptable, hof⟩ := hcreated.there i (List.mem_range.mpr hi)
  have hname : ∀ q : Partition, q.name ∈ created → q.table = table → ∀ ym, q.Of ym → q.start ≤ t → t < q.stop →
      q.name = nameOf table (now.ym + i) := by
    intro q hq hqtable ym hqof hqstart hqstop
    rw [hqof.start] at hqstart
    rw [hqof.stop] at hqstop
    have hsame : ym = now.ym + i := month_unique ⟨hqstart, hqstop⟩ ⟨hstart, hstop⟩
    rw [hqof.name, hqtable, hsame]
  refine ⟨p, ⟨hp, hptable, ?_, hof.start ▸ hstart, hof.stop ▸ hstop⟩, ?_⟩
  · rw [hcreated.names, hof.name, hptable]
    exact List.mem_map_of_mem (List.mem_range.mpr hi)
  · rintro q ⟨hq, hqtable, hqname, hqstart, hqstop⟩
    obtain ⟨ym, hqof⟩ := hcreated.kept.monthly q hq
    have hnames : q.name = p.name := by
      rw [hname q hqname hqtable ym hqof hqstart hqstop, hof.name, hptable]
    exact List.inj_on_of_nodup_map hcreated.kept.distinct hq hp hnames

theorem nameYm_partitionName {table : String} (htable : Managed table) {year month : Nat} (hlow : 1000 ≤ year)
    (hhigh : year ≤ 9999) (hmonth : month ≤ 12) : nameYm (partitionName table year month) = some (monthNumber year month) :=
  nameYm_of_afterMark (afterMark_partitionName htable year month) hlow hhigh hmonth

theorem nameYm_of {p : Partition} {ym : Int} (hof : p.Of ym) (hyear : monthNumber 1000 1 ≤ ym) : nameYm p.name = some ym := by
  have hlow := hof.low
  have hhigh := hof.high
  have hmonth := monthOf_bounds ym
  have hyears : 1000 ≤ yearOf ym ∧ yearOf ym ≤ 9999 := by
    simp only [monthNumber, yearOf] at *
    omega
  rw [hof.name, nameOf, nameYm_partitionName hof.managed (by omega) (by omega) (by omega), Int.toNat_of_nonneg (by omega),
    Int.toNat_of_nonneg (by omega), monthNumber_yearOf]

theorem dropped_iff {months : Int} (hc : WellKept c) (h : dropOldPartitions c table now months = .ok c')
    {p : Partition} (hp : p ∈ c.partitions) (hyear : monthStart (monthNumber 1000 1) ≤ p.start) :
    p ∉ c'.partitions ↔ p.table = table ∧ p.stop ≤ monthStart (now.ym - months) := by
  obtain ⟨cutoff, hcutoff, h⟩ := Program.ok_of_bind h
  obtain rfl := Except.ok.inj h
  obtain ⟨ym, hof⟩ := hc.monthly p hp
  rw [hof.start, monthStart_strictMono.le_iff_le] at hyear
  have hcutoffYm : cutoff.1 * 12 + cutoff.2 = now.ym - months := (addMonths_ok now.hmonth hcutoff).2.2
  have hname := nameYm_of hof hyear
  rw [List.mem_filter, hof.stop, monthStart_strictMono.le_iff_le]
  simp only [hp, tooOld, hname, hcutoffYm, true_and, decide_eq_true_iff, not_not]
  rw [Int.add_one_le_iff]

theorem same_or_apart {p q : Partition} {a b : Int} (hp : p.Of a) (hq : q.Of b) :
    p.start = q.start ∧ p.stop = q.stop ∨ p.stop ≤ q.start ∨ q.stop ≤ p.start := by
  rw [hp.start, hp.stop, hq.start, hq.stop, monthStart_strictMono.le_iff_le, monthStart_strictMono.le_iff_le]
  rcases lt_trichotomy a b with hlt | rfl | hgt
  · exact Or.inr (Or.inl hlt)
  · exact Or.inl ⟨rfl, rfl⟩
  · exact Or.inr (Or.inr hgt)

end Runs

/-- After any runs: up to the last month there is, and where the default partition is clear of
the months asked for, each instant of these is in one partition; partitions of whatever runs are the same or apart; names are read back; and
the partitions dropped are those whose month lies before the cutoff's. -/
theorem partitions_tile :
    (∀ events table (now : DateTime) n, Managed table → now.ym + n < monthNumber 9999 12 →
      Clear (after events) table now.ym (now.ym + n) → ∃ c' created, ensurePartitions (after events) table now n = .ok (c', created) ∧
        ∀ t, monthStart now.ym ≤ t → t < monthStart (now.ym + n + 1) →
          ∃! p, p ∈ c'.partitions ∧ p.table = table ∧ p.name ∈ created ∧ p.start ≤ t ∧ t < p.stop) ∧
    (∀ events others, ∀ p ∈ (after events).partitions, ∀ q ∈ (after others).partitions,
      p.start = q.start ∧ p.stop = q.stop ∨ p.stop ≤ q.start ∨ q.stop ≤ p.start) ∧
    (∀ table (year month : Nat), Managed table → 1000 ≤ year → year ≤ 9999 → 1 ≤ month → month ≤ 12 →
      ∃ ym, nameYm (partitionName table year month) = some ym ∧ yearOf ym = year ∧ monthOf ym = month) ∧
    (∀ events table (now : DateTime) months c', dropOldPartitions (after events) table now months = .ok c' →
      ∀ p ∈ (after events).partitions, monthStart (monthNumber 1000 1) ≤ p.start →
        (p ∉ c'.partitions ↔ p.table = table ∧ p.stop ≤ monthStart (now.ym - months))) := by
  refine ⟨?_, ?_, ?_, ?_⟩
  · intro events table now n htable hlast hclear
    obtain ⟨c', created, hrun⟩ := ensurePartitions_runs htable hlast hclear
    have hcreated := (ensurePartitions_ok (wellKept_after events) hrun).2
    exact ⟨c', created, hrun, fun t hlow hhigh => exists_unique_partition hcreated hlow hhigh⟩
  · intro events others p hp q hq
    obtain ⟨a, ha⟩ := (wellKept_after events).monthly p hp
    obtain ⟨b, hb⟩ := (wellKept_after others).monthly q hq
    exact same_or_apart ha hb
  · intro table year month htable hlow hhigh hfirst hmonth
    refine ⟨_, nameYm_partitionName htable hlow hhigh hmonth, ?_, ?_⟩
    · exact yearOf_monthNumber (by omega) (by omega)
    · exact monthOf_monthNumber (by omega) (by omega)
  · intro events table now months c' hdrop p hp hyear
    exact dropped_iff (wellKept_after events) hdrop hp hyear

def december : DateTime :=
  { march with
    year := 9999
    month := 12
    hyear := by decide
    hmonth := by decide
    hday := by decide }

def early : List Event := [.ensure "activity_logs" march 0, .insert ⟨"activity_logs", monthStart (march.ym + 1)⟩]

/-- The last month has no first day of a next one, so that not even it is created;
and no partition is made for a row that the default one holds. -/
theorem months_missing :
    (¬ ∀ events table (now : DateTime) n, Managed table → ∃ c' created,
      ensurePartitions (after events) table now n = .ok (c', created) ∧
        ∀ t, monthStart now.ym ≤ t → t < monthStart (now.ym + n + 1) →
          ∃! p, p ∈ c'.partitions ∧ p.table = table ∧ p.name ∈ created ∧ p.start ≤ t ∧ t < p.stop) ∧
    ¬ ∀ events table (now : DateTime) n, Managed table → now.ym + n < monthNumber 9999 12 → ∃ c' created,
      ensurePartitions (after events) table now n = .ok (c', created) ∧
        ∀ t, monthStart now.ym ≤ t → t < monthStart (now.ym + n + 1) →
          ∃! p, p ∈ c'.partitions ∧ p.table = table ∧ p.name ∈ created ∧ p.start ≤ t ∧ t < p.stop := by
  constructor
  · intro h
    obtain ⟨c', created, hrun, -⟩ := h [] "activity_logs" december 0 (by decide)
    cases hrun
  · intro h
    obtain ⟨c', created, hrun, -⟩ := h early "activity_logs" march 1 (by decide) (by decide)
    cases hrun

end NukeLab.MonthlyPartitions
