import NukeLab.Double
import NukeLab.Records

namespace NukeLab.CostTrends

open Records
open Double (halfEven)

/-- The last days up to now, or the dates from and to. Times are microseconds. -/
inductive DateRange
  | days (days : Int)
  | dates (fromDate toDate : Int)

def endOfDay (t : Int) : Int := t / day * day + day - 1

def parseDateRange (range : DateRange) (now : Int) : Int × Int :=
  match range with
  | .dates fromDate toDate => (fromDate, endOfDay toDate)
  | .days days =>
    let effectiveDays := if days = 0 then 30 else days
    (now - effectiveDays * day, now)

def closed (since until_ t : Int) : Bool := since ≤ t && t ≤ until_

def halfOpen (since until_ t : Int) : Bool := since ≤ t && t < until_

def serverUsage (rows : List CreditTransaction) (userId : Uuid) (window : Int → Bool) : Int :=
  ((rows.filter fun t => t.userId = userId ∧ t.type = .serverUsage ∧ window t.createdAt).map CreditTransaction.amount).sum

structure Costs where
  periodDays : Int
  totalCost : Nat
  prevCost : Nat
  costTrend : ℚ

def costTrend (totalCost prevCost : Nat) : ℚ :=
  let trend : ℚ :=
    if prevCost > 0 then ((totalCost : ℚ) - prevCost) / prevCost * 100 else if totalCost > 0 then 100 else 0
  halfEven (trend * 10) / 10

def periodDays (since until_ : Int) : Int :=
  let wholeDays := (until_ - since) / day
  if wholeDays = 0 then 1 else wholeDays

def usageCosts (rows : List CreditTransaction) (userId : Uuid) (since until_ : Int) : Costs :=
  let totalCost := (serverUsage rows userId (closed since until_)).natAbs
  let prevCost := (serverUsage rows userId (halfOpen (since - periodDays since until_ * day) since)).natAbs
  ⟨periodDays since until_, totalCost, prevCost, costTrend totalCost prevCost⟩

def getUserUsageFromRaw := usageCosts

def getUserUsageFromRollups := usageCosts

def shouldUseRollups (since until_ : Int) : Bool := (until_ - since) / day > 7

def getUserUsage (rows : List CreditTransaction) (userId : Uuid) (range : DateRange) (now : Int) : Costs :=
  let (since, until_) := parseDateRange range now
  if shouldUseRollups since until_ then getUserUsageFromRollups rows userId since until_
  else getUserUsageFromRaw rows userId since until_

variable (rows : List CreditTransaction) (userId : Uuid) (range : DateRange) (now : Int)

def since : Int := (parseDateRange range now).1

/-- How long the reported window is. One by dates goes on to the end of its last day. -/
def reportedLength : Int :=
  match range with
  | .dates _ _ => (parseDateRange range now).2 + 1 - since range now
  | .days _ => (parseDateRange range now).2 - since range now

def dayOf (since until_ : Int) (n i : Nat) : Int → Bool :=
  if i + 1 < n then halfOpen (since + i * day) (since + (i + 1) * day) else closed (since + i * day) until_

/-- The same is spent on each of the days of the reported window, and of those before it. -/
def SameEveryDay (n : Nat) (cost : Int) : Prop :=
  ∀ i < n, serverUsage rows userId (dayOf (since range now) (parseDateRange range now).2 n i) = cost ∧
    serverUsage rows userId (halfOpen (since range now - n * day + i * day) (since range now - n * day + (i + 1) * day)) = cost

/-- The costs before are those of the window as long as the reported one that ends where
it begins, and there is no trend where every day is the same. -/
structure Compares : Prop where
  previous : (getUserUsage rows userId range now).prevCost =
    (serverUsage rows userId (halfOpen (since range now - reportedLength range now) (since range now))).natAbs
  steady : ∀ (n : Nat) cost, reportedLength range now = n * day → SameEveryDay rows userId range now n cost →
    (getUserUsage rows userId range now).costTrend = 0

section Windows

variable {rows userId} {u v w : Int → Bool} {a b cost : Int}

theorem serverUsage_cons (row : CreditTransaction) (w : Int → Bool) :
    serverUsage (row :: rows) userId w =
      (if row.userId = userId ∧ row.type = .serverUsage ∧ w row.createdAt then row.amount else 0) +
        serverUsage rows userId w := by
  by_cases hrow : row.userId = userId ∧ row.type = .serverUsage ∧ w row.createdAt
  · rw [if_pos hrow, serverUsage, List.filter_cons_of_pos (by simpa using hrow), List.map_cons, List.sum_cons, serverUsage]
  · rw [if_neg hrow, serverUsage, List.filter_cons_of_neg (by simpa using hrow), Int.zero_add, serverUsage]

theorem serverUsage_empty (h : ∀ t, w t = false) : serverUsage rows userId w = 0 := by
  simp [serverUsage, h]

theorem serverUsage_add (h : ∀ t, w t = (u t || v t)) (hdisjoint : ∀ t, (u t && v t) = false) :
    serverUsage rows userId w = serverUsage rows userId u + serverUsage rows userId v := by
  induction rows with
  | nil => rfl
  | cons row rows ih =>
      have hrow := hdisjoint row.createdAt
      rw [serverUsage_cons, serverUsage_cons, serverUsage_cons, ih, h]
      cases hu : u row.createdAt <;> cases hv : v row.createdAt
      · simp
      · simp
        omega
      · simp
        omega
      · rw [hu, hv] at hrow
        cases hrow

theorem usage_halfOpen (hab : a ≤ b) (hbc : b ≤ c) : serverUsage rows userId (halfOpen a c) =
    serverUsage rows userId (halfOpen a b) + serverUsage rows userId (halfOpen b c) := by
  apply serverUsage_add
  · intro t
    rw [Bool.eq_iff_iff]
    simp only [halfOpen, Bool.and_eq_true, Bool.or_eq_true, decide_eq_true_iff]
    omega
  · intro t
    simp only [halfOpen, Bool.and_eq_false_iff, decide_eq_false_iff_not]
    omega

theorem usage_closed (hab : a ≤ b) (hbc : b ≤ c + 1) : serverUsage rows userId (closed a c) =
    serverUsage rows userId (halfOpen a b) + serverUsage rows userId (closed b c) := by
  apply serverUsage_add
  · intro t
    rw [Bool.eq_iff_iff]
    simp only [halfOpen, closed, Bool.and_eq_true, Bool.or_eq_true, decide_eq_true_iff]
    omega
  · intro t
    simp only [halfOpen, closed, Bool.and_eq_false_iff, decide_eq_false_iff_not]
    omega

theorem usage_empty (h : b ≤ a) : serverUsage rows userId (halfOpen a b) = 0 := by
  apply serverUsage_empty
  intro t
  simp only [halfOpen, Bool.and_eq_false_iff, decide_eq_false_iff_not]
  omega

theorem usage_days (n : Nat) (h : ∀ i < n, serverUsage rows userId (halfOpen (a + i * day) (a + (i + 1) * day)) = cost) :
    serverUsage rows userId (halfOpen a (a + n * day)) = n * cost := by
  induction n with
  | zero =>
      rw [Int.natCast_zero, Int.zero_mul, Int.zero_mul, Int.add_zero]
      exact usage_empty (Int.le_refl a)
  | succ n ih =>
      have hpos : 0 ≤ (n : Int) * day := Int.mul_nonneg (Int.natCast_nonneg n) day_pos.le
      have hsucc : ((n + 1 : Nat) : Int) * day = n * day + day := by push_cast; ring
      have hday := day_pos
      have hsplit : serverUsage rows userId (halfOpen a (a + (n + 1 : Nat) * day)) =
          serverUsage rows userId (halfOpen a (a + n * day)) +
            serverUsage rows userId (halfOpen (a + n * day) (a + (n + 1 : Nat) * day)) :=
        usage_halfOpen (by omega) (by omega)
      have hlast := h n (Nat.lt_succ_self n)
      rw [hsplit, ih fun i hi => h i (Nat.lt_succ_of_lt hi)]
      push_cast at hlast ⊢
      rw [hlast]
      ring

end Windows

section Ranges

variable {range now}

theorem getUserUsage_eq : getUserUsage rows userId range now =
    usageCosts rows userId (since range now) (parseDateRange range now).2 := by
  simp only [getUserUsage, since, getUserUsageFromRollups, getUserUsageFromRaw, ite_self]

theorem costTrend_self (cost : Nat) : costTrend cost cost = 0 := by
  rw [costTrend]
  by_cases hcost : cost > 0
  · simp [hcost, halfEven]
  · simp [hcost, halfEven]

theorem length_days (days now : Int) : ∃ n, n ≠ 0 ∧ reportedLength (.days days) now = n * day ∧
    (parseDateRange (.days days) now).2 = since (.days days) now + n * day := by
  refine ⟨if days = 0 then 30 else days, ?_, ?_, ?_⟩
  · split
    · decide
    · assumption
  · simp only [reportedLength, since, parseDateRange]
    omega
  · simp only [since, parseDateRange]
    omega

theorem length_dates (fromDate toDate now : Int) : (parseDateRange (.dates fromDate toDate) now).2 =
    since (.dates fromDate toDate) now + reportedLength (.dates fromDate toDate) now - 1 := by
  simp only [reportedLength]
  omega

/-- The length before is that of the reported window for every range by days, and
otherwise for a single day. -/
theorem period_eq_iff (hlength : 0 < reportedLength range now) :
    periodDays (since range now) (parseDateRange range now).2 * day = reportedLength range now ↔
      (∃ days, range = .days days) ∨ reportedLength range now = day := by
  have hday : day = 86400000000 := by decide
  cases range with
  | days days =>
      obtain ⟨n, hn, hlength, hend⟩ := length_days days now
      refine iff_of_true ?_ (Or.inl ⟨days, rfl⟩)
      have hdays : (since (.days days) now + n * day - since (.days days) now) / day = n := by
        rw [add_sub_cancel_left]
        exact Int.mul_ediv_cancel n (by decide)
      rw [hlength, hend, periodDays, hdays, if_neg hn]
  | dates fromDate toDate =>
      rw [length_dates, periodDays]
      generalize since (.dates fromDate toDate) now = start at hlength ⊢
      generalize reportedLength (.dates fromDate toDate) now = length at hlength ⊢
      have hspan : start + length - 1 - start = length - 1 := by omega
      rw [hspan, hday]
      constructor
      · intro h
        right
        split at h <;> omega
      · rintro (⟨days, hdays⟩ | h)
        · cases hdays
        · rw [h]
          rfl

theorem period_nonpos (hlength : reportedLength range now ≤ 0) :
    periodDays (since range now) (parseDateRange range now).2 * day ≤ 0 := by
  have hday : day = 86400000000 := by decide
  have hend : (parseDateRange range now).2 - since range now < 0 := by
    cases range with
    | days days =>
        obtain ⟨n, hn, hdays, hend⟩ := length_days days now
        rw [hend, hday]
        rw [hdays, hday] at hlength
        omega
    | dates fromDate toDate =>
        rw [length_dates]
        omega
  rw [periodDays, hday]
  split <;> omega

theorem prevCost_eq (rows : List CreditTransaction) (userId : Uuid) : (getUserUsage rows userId range now).prevCost =
    (serverUsage rows userId (halfOpen (since range now -
      periodDays (since range now) (parseDateRange range now).2 * day) (since range now))).natAbs := by
  rw [getUserUsage_eq, usageCosts]

theorem halfOpen_ne {a b c : Int} (hab : a < b) (hac : a < c) : ∃ rows userId,
    (serverUsage rows userId (halfOpen a c)).natAbs ≠ (serverUsage rows userId (halfOpen b c)).natAbs := by
  refine ⟨[⟨0, 0, 1, 0, .serverUsage, "", none, none, [], a⟩], 0, ?_⟩
  have hnil : ∀ w, serverUsage [] 0 w = 0 := fun _ => rfl
  rw [serverUsage_cons, serverUsage_cons, hnil, hnil, if_pos, if_neg]
  · exact one_ne_zero
  · simp only [halfOpen, Bool.and_eq_true, decide_eq_true_iff]
    omega
  · simp only [halfOpen, Bool.and_eq_true, decide_eq_true_iff, true_and]
    omega

theorem previous_iff : (∀ rows userId, (getUserUsage rows userId range now).prevCost =
      (serverUsage rows userId (halfOpen (since range now - reportedLength range now) (since range now))).natAbs) ↔
    (∃ days, range = .days days) ∨ reportedLength range now ≤ 0 ∨ reportedLength range now = day := by
  rcases lt_or_ge 0 (reportedLength range now) with hpos | hnonpos
  · have hiff := period_eq_iff hpos
    constructor
    · intro h
      have hsame : periodDays (since range now) (parseDateRange range now).2 * day = reportedLength range now := by
        by_contra hne
        have hdiffer : ∃ rows userId, (serverUsage rows userId (halfOpen (since range now -
            periodDays (since range now) (parseDateRange range now).2 * day) (since range now))).natAbs ≠
              (serverUsage rows userId (halfOpen (since range now - reportedLength range now) (since range now))).natAbs := by
          rcases lt_or_gt_of_ne hne with hlt | hgt
          · obtain ⟨rows, userId, hrows⟩ := halfOpen_ne (a := since range now - reportedLength range now)
              (b := since range now - periodDays (since range now) (parseDateRange range now).2 * day) (c := since range now)
              (by omega) (by omega)
            exact ⟨rows, userId, hrows.symm⟩
          · exact halfOpen_ne (by omega) (by omega)
        obtain ⟨rows, userId, hrows⟩ := hdiffer
        exact hrows ((prevCost_eq rows userId).symm.trans (h rows userId))
      rcases hiff.mp hsame with hdays | hday
      · exact Or.inl hdays
      · exact Or.inr (Or.inr hday)
    · intro h rows userId
      have hsame : periodDays (since range now) (parseDateRange range now).2 * day = reportedLength range now := by
        apply hiff.mpr
        rcases h with hdays | hle | hday
        · exact Or.inl hdays
        · omega
        · exact Or.inr hday
      rw [prevCost_eq, hsame]
  · refine iff_of_true ?_ (Or.inr (Or.inl hnonpos))
    intro rows userId
    have hperiod := period_nonpos hnonpos
    rw [prevCost_eq, usage_empty (by omega), usage_empty (by omega)]

variable {rows userId}

theorem usage_reported {n : Nat} {cost : Int} (hlength : reportedLength range now = n * day)
    (h : SameEveryDay rows userId range now n cost) :
    serverUsage rows userId (closed (since range now) (parseDateRange range now).2) = n * cost := by
  have hday := day_pos
  have hend : (parseDateRange range now).2 = since range now + n * day ∧ n ≠ 0 ∨
      (parseDateRange range now).2 = since range now + n * day - 1 := by
    cases range with
    | days days =>
        obtain ⟨m, hm, hdays, hend⟩ := length_days days now
        refine Or.inl ⟨by rw [hend, ← hlength, hdays], ?_⟩
        rintro rfl
        rw [hdays] at hlength
        have hzero := (Int.mul_eq_zero.mp (hlength.trans (Int.zero_mul day))).resolve_right hday.ne'
        exact hm hzero
    | dates fromDate toDate =>
        right
        rw [length_dates, hlength]
  cases n with
  | zero =>
      rw [Int.natCast_zero, Int.zero_mul]
      apply serverUsage_empty
      intro t
      simp only [closed, Bool.and_eq_false_iff, decide_eq_false_iff_not]
      rcases hend with ⟨-, hne⟩ | hend
      · exact absurd rfl hne
      · rw [hend]
        omega
  | succ n =>
      have hn : ((n + 1 : Nat) : Int) * day = n * day + day := by push_cast; ring
      have hpos : 0 ≤ (n : Int) * day := Int.mul_nonneg (Int.natCast_nonneg n) hday.le
      have hlast := (h n (Nat.lt_succ_self n)).1
      rw [dayOf, if_neg (Nat.lt_irrefl _)] at hlast
      have hfirst : serverUsage rows userId (halfOpen (since range now) (since range now + n * day)) = n * cost := by
        apply usage_days
        intro i hi
        have hi' := (h i (Nat.lt_succ_of_lt hi)).1
        rwa [dayOf, if_pos (Nat.succ_lt_succ hi)] at hi'
      rw [usage_closed (b := since range now + n * day) (by omega) (by omega), hlast, hfirst]
      push_cast
      ring

theorem steady_of_previous {n : Nat} {cost : Int} (hlength : reportedLength range now = n * day)
    (h : SameEveryDay rows userId range now n cost)
    (hprevious : (getUserUsage rows userId range now).prevCost =
      (serverUsage rows userId (halfOpen (since range now - reportedLength range now) (since range now))).natAbs) :
    (getUserUsage rows userId range now).costTrend = 0 := by
  have hprev : serverUsage rows userId (halfOpen (since range now - n * day) (since range now)) = n * cost := by
    have hdays : serverUsage rows userId (halfOpen (since range now - n * day) (since range now - n * day + n * day)) =
        n * cost := usage_days n fun i hi => (h i hi).2
    rwa [Int.sub_add_cancel] at hdays
  have htotal : (getUserUsage rows userId range now).totalCost = (getUserUsage rows userId range now).prevCost := by
    rw [hprevious, hlength, hprev, getUserUsage_eq, usageCosts, usage_reported hlength h]
  have htrend : (getUserUsage rows userId range now).costTrend =
      costTrend (getUserUsage rows userId range now).totalCost (getUserUsage rows userId range now).prevCost := by
    rw [getUserUsage_eq, usageCosts]
  rw [htrend, htotal, costTrend_self]

end Ranges

/-- The two windows are as long as each other for a range by days, for an empty one,
and for a single day, and for no other. -/
theorem compares_iff : (∀ rows userId, Compares rows userId range now) ↔
    (∃ days, range = .days days) ∨ reportedLength range now ≤ 0 ∨ reportedLength range now = day := by
  rw [← previous_iff]
  constructor
  · exact fun h rows userId => (h rows userId).previous
  · exact fun h rows userId => ⟨h rows userId, fun n cost hlength hsame => steady_of_previous hlength hsame (h rows userId)⟩

/-- The week from 8 to 14 January 2024, with one transaction on the first day of the week before. -/
theorem week_compares : ¬ ∀ range now rows userId, Compares rows userId range now := by
  intro h
  have hweek := (h (.dates 1704672000000000 1705190400000000) 1705276800000000
    [⟨0, 0, -10, 0, .serverUsage, "", none, none, [], 1704067200000000⟩] 0).previous
  revert hweek
  decide

end NukeLab.CostTrends
