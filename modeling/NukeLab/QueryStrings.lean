import Mathlib.Data.List.Basic

namespace NukeLab.QueryStrings

def hexValue (c : Char) : Option Nat :=
  if '0' ≤ c ∧ c ≤ '9' then some (c.toNat - 48)
  else if 'a' ≤ c ∧ c ≤ 'f' then some (c.toNat - 87)
  else if 'A' ≤ c ∧ c ≤ 'F' then some (c.toNat - 55)
  else none

def unescapeByte (a b : Char) : Option Char :=
  (hexValue a).bind fun high => (hexValue b).map fun low => Char.ofNat (16 * high + low)

/-- None where a percent sign is not followed by two hexadecimal digits. -/
def queryUnescape : List Char → Option (List Char)
  | [] => some []
  | '%' :: a :: b :: cs => (unescapeByte a b).bind fun c => (queryUnescape cs).map fun rest => c :: rest
  | '%' :: _ => none
  | '+' :: cs => (queryUnescape cs).map fun rest => ' ' :: rest
  | c :: cs => (queryUnescape cs).map fun rest => c :: rest

def keyOf (pair : List Char) : List Char := pair.takeWhile (· ≠ '=')

def valueOf (pair : List Char) : List Char := (pair.dropWhile (· ≠ '=')).drop 1

/-- A pair that is not valid is left out. -/
def parsePair (pair : List Char) : Option (List Char × List Char) :=
  if ';' ∈ pair ∨ pair = [] then none
  else (queryUnescape (keyOf pair)).bind fun key => (queryUnescape (valueOf pair)).map fun value => (key, value)

def parseQuery (query : List Char) : List (List Char × List Char) := (query.splitOn '&').filterMap parsePair

/-- The first value of a parameter, empty where there is none. -/
def get (param query : List Char) : List Char := ((parseQuery query).lookup param).getD []

/-- The pair is one of the parameter once it has been parsed. -/
def decodesTo (param pair : List Char) : Bool := (parsePair pair).any fun entry => entry.1 = param

variable {param pair query cs v : List Char}

theorem length_queryUnescape (h : queryUnescape cs = some v) : v.length ≤ cs.length := by
  induction cs using queryUnescape.induct generalizing v with
  | case1 =>
      cases h
      exact Nat.le_refl 0
  | case2 a b cs ih =>
      obtain ⟨c, -, h⟩ := Option.bind_eq_some_iff.mp h
      obtain ⟨rest, hrest, rfl⟩ := Option.map_eq_some_iff.mp h
      have hle := ih hrest
      simp only [List.length_cons]
      omega
  | case3 cs hshort =>
      rw [queryUnescape] at h
      · cases h
      · exact hshort
  | case4 cs ih =>
      obtain ⟨rest, hrest, rfl⟩ := Option.map_eq_some_iff.mp h
      exact Nat.succ_le_succ (ih hrest)
  | case5 c cs hlong hpercent hplus ih =>
      rw [queryUnescape] at h
      · obtain ⟨rest, hrest, rfl⟩ := Option.map_eq_some_iff.mp h
        exact Nat.succ_le_succ (ih hrest)
      · exact hlong
      · exact hpercent
      · exact hplus

theorem queryUnescape_eq_nil_iff : queryUnescape cs = some [] ↔ cs = [] := by
  constructor
  · intro h
    cases cs using queryUnescape.fun_cases with
    | case1 => rfl
    | case2 a b cs =>
        obtain ⟨c, -, h⟩ := Option.bind_eq_some_iff.mp h
        obtain ⟨rest, -, hrest⟩ := Option.map_eq_some_iff.mp h
        cases hrest
    | case3 cs hshort =>
        rw [queryUnescape] at h
        · cases h
        · exact hshort
    | case4 cs =>
        obtain ⟨rest, -, hrest⟩ := Option.map_eq_some_iff.mp h
        cases hrest
    | case5 c cs hlong hpercent hplus =>
        rw [queryUnescape] at h
        · obtain ⟨rest, -, hrest⟩ := Option.map_eq_some_iff.mp h
          cases hrest
        · exact hlong
        · exact hpercent
        · exact hplus
  · rintro rfl
    rfl

theorem queryUnescape_eq_self_iff : queryUnescape cs = some cs ↔ '%' ∉ cs ∧ '+' ∉ cs := by
  induction cs using queryUnescape.induct with
  | case1 => exact iff_of_true rfl ⟨List.not_mem_nil, List.not_mem_nil⟩
  | case2 a b cs ih =>
      refine iff_of_false (fun h => ?_) fun h => h.1 List.mem_cons_self
      obtain ⟨c, -, h⟩ := Option.bind_eq_some_iff.mp h
      obtain ⟨rest, hrest, heq⟩ := Option.map_eq_some_iff.mp h
      obtain ⟨-, rfl⟩ := List.cons.inj heq
      have hle := length_queryUnescape hrest
      simp only [List.length_cons] at hle
      omega
  | case3 cs hshort =>
      refine iff_of_false (fun h => ?_) fun h => h.1 List.mem_cons_self
      rw [queryUnescape] at h
      · cases h
      · exact hshort
  | case4 cs ih =>
      refine iff_of_false (fun h => ?_) fun h => h.2 List.mem_cons_self
      obtain ⟨rest, -, heq⟩ := Option.map_eq_some_iff.mp h
      cases (List.cons.inj heq).1
  | case5 c cs hlong hpercent hplus ih =>
      rw [queryUnescape]
      · rw [Option.map_eq_some_iff, List.mem_cons, List.mem_cons]
        have hc : '%' ≠ c := fun h => hpercent h.symm
        have hc' : '+' ≠ c := fun h => hplus h.symm
        constructor
        · rintro ⟨rest, hrest, heq⟩
          obtain ⟨-, rfl⟩ := List.cons.inj heq
          obtain ⟨h, h'⟩ := ih.mp hrest
          exact ⟨not_or.mpr ⟨hc, h⟩, not_or.mpr ⟨hc', h'⟩⟩
        · rintro ⟨h, h'⟩
          exact ⟨cs, ih.mpr ⟨(not_or.mp h).2, (not_or.mp h').2⟩, rfl⟩
      · exact hlong
      · exact hpercent
      · exact hplus

theorem parsePair_of_decodesTo (h : decodesTo param pair = true) :
    ∃ value, parsePair pair = some (param, value) ∧ queryUnescape (valueOf pair) = some value := by
  rw [decodesTo, Option.any_eq_true] at h
  obtain ⟨⟨key, value⟩, hparse, hkey⟩ := h
  obtain rfl := of_decide_eq_true hkey
  refine ⟨value, hparse, ?_⟩
  rw [parsePair] at hparse
  split at hparse
  · cases hparse
  · obtain ⟨k, -, hvalue⟩ := Option.bind_eq_some_iff.mp hparse
    obtain ⟨v, hv, heq⟩ := Option.map_eq_some_iff.mp hvalue
    obtain ⟨-, rfl⟩ := Prod.mk.inj heq
    exact hv

theorem lookup_pairs (param : List Char) (pairs : List (List Char)) : (pairs.filterMap parsePair).lookup param =
    (pairs.find? (decodesTo param)).bind fun pair => queryUnescape (valueOf pair) := by
  induction pairs with
  | nil => rfl
  | cons pair pairs ih =>
      by_cases hpair : decodesTo param pair = true
      · obtain ⟨value, hparse, hvalue⟩ := parsePair_of_decodesTo hpair
        rw [List.filterMap_cons_some hparse, List.lookup_cons_self, List.find?_cons_of_pos hpair, Option.bind_some, hvalue]
      · rw [List.find?_cons_of_neg hpair, ← ih]
        cases hparse : parsePair pair with
        | none => rw [List.filterMap_cons_none hparse]
        | some entry =>
            have hkey : (param == entry.1) = false := by
              rw [beq_eq_false_iff_ne]
              rintro rfl
              apply hpair
              rw [decodesTo, hparse]
              exact decide_eq_true rfl
            rw [List.filterMap_cons_some hparse, List.lookup_cons, hkey]

theorem get_eq (param query : List Char) : get param query =
    (((query.splitOn '&').find? (decodesTo param)).bind fun pair => queryUnescape (valueOf pair)).getD [] := by
  rw [get, parseQuery, lookup_pairs]

end NukeLab.QueryStrings
