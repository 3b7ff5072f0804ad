import Mathlib.Algebra.GroupWithZero.Nat
import Mathlib.Algebra.Order.BigOperators.Group.List
import Mathlib.Algebra.Order.Group.Nat
import Mathlib.Data.List.Basic
import Mathlib.Data.List.Sort
import Mathlib.Data.List.TakeWhile
import Mathlib.Tactic.Common
import NukeLab.Binary64

namespace NukeLab.JsonTexts

def isNumeric (c : Char) : Bool := c.isDigit || c ∈ ['-', '+', '.', 'e', 'E']

structure Number where
  chars : List Char
  nonempty : chars ≠ []
  numeric : ∀ c ∈ chars, isNumeric c = true
deriving DecidableEq

inductive Json
  | null
  | bool (value : Bool)
  | number (value : Number)
  | text (value : String)
  | array (items : List Json)
  | object (entries : List (String × Json))

def hex4 (n : Nat) : List Char :=
  [Nat.digitChar (n / 4096 % 16), Nat.digitChar (n / 256 % 16), Nat.digitChar (n / 16 % 16), Nat.digitChar (n % 16)]

def units (c : Char) : List Nat :=
  if c.toNat < 0x10000 then [c.toNat]
  else [0xd800 + (c.toNat - 0x10000) / 0x400, 0xdc00 + (c.toNat - 0x10000) % 0x400]

def shortEscapes : List (Char × Char) :=
  [('"', '"'), ('\\', '\\'), ('\n', 'n'), ('\r', 'r'), ('\t', 't'), ('\x0c', 'f'), ('\x08', 'b')]

def escape (c : Char) : List Char :=
  match shortEscapes.find? fun s => s.1 = c with
  | some (_, letter) => ['\\', letter]
  | none => if 32 ≤ c.toNat ∧ c.toNat ≤ 126 then [c] else (units c).flatMap fun n => '\\' :: 'u' :: hex4 n

def quoted (s : String) : List Char := '"' :: (s.toList.flatMap escape ++ ['"'])

section Writing

-- Whether the keys are sorted, and whether a blank stands after each separator.
variable (sorted spaced : Bool)

def separator (c : Char) : List Char := if spaced then [c, ' '] else [c]

def inOrder (entries : List (String × List Char)) : List (String × List Char) :=
  if sorted then entries.insertionSort fun a b => a.1 ≤ b.1 else entries

mutual

def dumps : Json → List Char
  | .null => "null".toList
  | .bool value => (if value then "true" else "false").toList
  | .number value => value.chars
  | .text value => quoted value
  | .array items => '[' :: ((separator spaced ',').intercalate (dumpsItems items) ++ [']'])
  | .object entries =>
    '\x7b' :: ((separator spaced ',').intercalate
      ((inOrder sorted (dumpsEntries entries)).map fun e => quoted e.1 ++ separator spaced ':' ++ e.2) ++ ['\x7d'])

def dumpsItems : List Json → List (List Char)
  | [] => []
  | j :: items => dumps j :: dumpsItems items

def dumpsEntries : List (String × Json) → List (String × List Char)
  | [] => []
  | (key, j) :: entries => (key, dumps j) :: dumpsEntries entries

end

end Writing

def isBlank (c : Char) : Bool := c = ' ' || c = '\t' || c = '\n' || c = '\r'

def skip (cs : List Char) : List Char := cs.dropWhile isBlank

def hexValue (c : Char) : Option Nat := (List.range 16).find? fun d => Nat.digitChar d = c.toLower

def readHex4 : List Char → Option (Nat × List Char)
  | a :: b :: c :: d :: cs => do
    return (4096 * (← hexValue a) + 256 * (← hexValue b) + 16 * (← hexValue c) + (← hexValue d), cs)
  | _ => none

def readUnit : List Char → Option (Nat × List Char)
  | [] => none
  | c :: cs =>
    if c = '\\' then
      match cs with
      | [] => none
      | e :: cs =>
        if e = 'u' then readHex4 cs
        else if e = '/' then some ('/'.toNat, cs)
        else (shortEscapes.find? fun s => s.2 = e).map fun s => (s.1.toNat, cs)
    else some (c.toNat, cs)

def readUnits : Nat → List Char → Option (List Nat × List Char)
  | 0, _ => none
  | fuel + 1, cs =>
    if cs.head? = some '"' then some ([], cs.tail)
    else (readUnit cs).bind fun u => (readUnits fuel u.2).map fun r => (u.1 :: r.1, r.2)

/-- Two halves make one character; a half alone makes none. -/
def joinUnits : List Nat → Option (List Char)
  | [] => some []
  | [n] => if n < 0xd800 ∨ 0xdfff < n then some [Char.ofNat n] else none
  | n :: m :: ns =>
    if n < 0xd800 ∨ 0xdfff < n then (joinUnits (m :: ns)).map fun cs => Char.ofNat n :: cs
    else if n < 0xdc00 ∧ 0xdc00 ≤ m ∧ m ≤ 0xdfff then
      (joinUnits ns).map fun cs => Char.ofNat (0x10000 + 0x400 * (n - 0xd800) + (m - 0xdc00)) :: cs
    else none

def readText (cs : List Char) : Option (String × List Char) :=
  (readUnits cs.length cs).bind fun r => (joinUnits r.1).map fun text => (String.ofList text, r.2)

def readNumber (cs : List Char) : Option (Json × List Char) :=
  if h : cs.takeWhile isNumeric = [] then none
  else some (.number ⟨cs.takeWhile isNumeric, h, fun _ hc => List.mem_takeWhile_imp hc⟩, cs.dropWhile isNumeric)

def readLiteral (cs : List Char) : Option (Json × List Char) :=
  if "null".toList.isPrefixOf cs then some (.null, cs.drop 4)
  else if "true".toList.isPrefixOf cs then some (.bool true, cs.drop 4)
  else if "false".toList.isPrefixOf cs then some (.bool false, cs.drop 5)
  else none

mutual

def readValue : Nat → List Char → Option (Json × List Char)
  | 0, _ => none
  | fuel + 1, cs =>
    if cs.head? = some '"' then (readText cs.tail).map fun r => (.text r.1, r.2)
    else if cs.head? = some '[' then
      if (skip cs.tail).head? = some ']' then some (.array [], (skip cs.tail).tail)
      else (readItems fuel cs.tail).map fun r => (.array r.1, r.2)
    else if cs.head? = some '\x7b' then
      if (skip cs.tail).head? = some '\x7d' then some (.object [], (skip cs.tail).tail)
      else (readEntries fuel cs.tail).map fun r => (.object r.1, r.2)
    else if cs.head?.any isNumeric then readNumber cs
    else readLiteral cs

def readItems : Nat → List Char → Option (List Json × List Char)
  | 0, _ => none
  | fuel + 1, cs =>
    (readValue fuel (skip cs)).bind fun j =>
      if (skip j.2).head? = some ',' then (readItems fuel (skip j.2).tail).map fun r => (j.1 :: r.1, r.2)
      else if (skip j.2).head? = some ']' then some ([j.1], (skip j.2).tail)
      else none

def readEntries : Nat → List Char → Option (List (String × Json) × List Char)
  | 0, _ => none
  | fuel + 1, cs =>
    if (skip cs).head? = some '"' then
      (readText (skip cs).tail).bind fun key =>
        if (skip key.2).head? = some ':' then
          (readValue fuel (skip (skip key.2).tail)).bind fun j =>
            if (skip j.2).head? = some ',' then
              (readEntries fuel (skip j.2).tail).map fun r => ((key.1, j.1) :: r.1, r.2)
            else if (skip j.2).head? = some '\x7d' then some ([(key.1, j.1)], (skip j.2).tail)
            else none
        else none
    else none

end

def loads (cs : List Char) : Option Json :=
  match readValue (cs.length + 1) (skip cs) with
  | some (j, cs) => if skip cs = [] then some j else none
  | none => none

variable {c : Char} {cs rest : List Char} {n fuel : Nat}

theorem hexValue_digitChar : ∀ d : Fin 16, hexValue (Nat.digitChar d) = some d.val := by decide

theorem hexValue_mod (n : Nat) : hexValue (Nat.digitChar (n % 16)) = some (n % 16) :=
  hexValue_digitChar ⟨n % 16, Nat.mod_lt n (by decide)⟩

theorem readHex4_hex4 (h : n < 0x10000) : readHex4 (hex4 n ++ rest) = some (n, rest) := by
  have hsum : 4096 * (n / 4096 % 16) + 256 * (n / 256 % 16) + 16 * (n / 16 % 16) + n % 16 = n := by omega
  simp only [hex4, List.cons_append, List.nil_append, readHex4, hexValue_mod, Option.bind_eq_bind, Option.bind_some,
    Option.pure_def, hsum]

theorem readUnits_step (hunit : readUnit cs = some (n, rest)) (hquote : cs.head? ≠ some '"') :
    readUnits (fuel + 1) cs = (readUnits fuel rest).map fun r => (n :: r.1, r.2) := by
  rw [readUnits, if_neg hquote, hunit, Option.bind_some]

theorem readUnits_unicode (h : n < 0x10000) :
    readUnits (fuel + 1) ('\\' :: 'u' :: (hex4 n ++ rest)) = (readUnits fuel rest).map fun r => (n :: r.1, r.2) := by
  apply readUnits_step
  · simp [readUnit, readHex4_hex4 h]
  · simp

theorem shortEscapes_spec : ∀ s ∈ shortEscapes, s.2 ≠ 'u' ∧ s.2 ≠ '/' ∧ s.1.toNat < 0x10000 ∧
    (shortEscapes.find? fun t => t.2 = s.2) = some s := by decide

theorem valid_toNat (c : Char) : c.toNat < 0xd800 ∨ 0xdfff < c.toNat ∧ c.toNat < 0x110000 := c.valid

theorem units_lt {m : Nat} (h : m ∈ units c) : m < 0x10000 := by
  have hvalid := valid_toNat c
  rw [units] at h
  split at h
  · rw [List.mem_singleton.mp h]
    assumption
  · simp only [List.mem_cons, List.not_mem_nil, or_false] at h
    omega

theorem readUnits_hex {ns : List Nat} (h : ∀ m ∈ ns, m < 0x10000) :
    readUnits (fuel + ns.length) ((ns.flatMap fun n => '\\' :: 'u' :: hex4 n) ++ rest) =
      (readUnits fuel rest).map fun r => (ns ++ r.1, r.2) := by
  induction ns with
  | nil => simp
  | cons n ns ih =>
      rw [List.forall_mem_cons] at h
      rw [List.flatMap_cons, List.append_assoc, List.cons_append, List.cons_append, List.length_cons, ← Nat.add_assoc,
        readUnits_unicode h.1, ih h.2, Option.map_map]
      rfl

theorem length_le_flatMap {α β : Type} {f : α → List β} {xs : List α} (h : ∀ x, f x ≠ []) :
    xs.length ≤ (xs.flatMap f).length := by
  induction xs with
  | nil => exact le_rfl
  | cons x xs ih =>
      have hpos := List.length_pos_of_ne_nil (h x)
      rw [List.flatMap_cons, List.length_append, List.length_cons]
      omega

theorem escape_spec (c : Char) : (units c).length ≤ (escape c).length ∧ ∀ fuel rest,
    readUnits (fuel + (units c).length) (escape c ++ rest) = (readUnits fuel rest).map fun r => (units c ++ r.1, r.2) := by
  rw [escape]
  cases hshort : shortEscapes.find? fun s => s.1 = c with
  | some s =>
      obtain ⟨hu, hslash, hlow, hfind⟩ := shortEscapes_spec s (List.mem_of_find?_eq_some hshort)
      obtain rfl : s.1 = c := by simpa using List.find?_some hshort
      have hunits : units s.1 = [s.1.toNat] := by rw [units, if_pos hlow]
      rw [hunits]
      refine ⟨by simp, ?_⟩
      intro fuel rest
      apply readUnits_step
      · simp [readUnit, hu, hslash, hfind]
      · simp
  | none =>
      by_cases hplain : 32 ≤ c.toNat ∧ c.toNat ≤ 126
      · have hunits : units c = [c.toNat] := by rw [units, if_pos (by omega)]
        have hquote : c ≠ '"' ∧ c ≠ '\\' := by
          constructor <;> rintro rfl <;> cases hshort
        rw [if_pos hplain, hunits]
        refine ⟨le_rfl, ?_⟩
        intro fuel rest
        apply readUnits_step
        · simp [readUnit, hquote.2]
        · simpa using hquote.1
      · rw [if_neg hplain]
        constructor
        · exact length_le_flatMap fun n => List.cons_ne_nil _ _
        · intro fuel rest
          exact readUnits_hex fun m hm => units_lt hm

theorem length_units_le (cs : List Char) : (cs.flatMap units).length ≤ (cs.flatMap escape).length := by
  induction cs with
  | nil => exact le_rfl
  | cons c cs ih =>
      rw [List.flatMap_cons, List.flatMap_cons, List.length_append, List.length_append]
      exact Nat.add_le_add (escape_spec c).1 ih

theorem readUnits_text (h : (cs.flatMap units).length < fuel) :
    readUnits fuel (cs.flatMap escape ++ '"' :: rest) = some (cs.flatMap units, rest) := by
  induction cs generalizing fuel with
  | nil =>
      cases fuel with
      | zero => cases h
      | succ fuel => simp [readUnits]
  | cons c cs ih =>
      rw [List.flatMap_cons, List.length_append] at h
      have hfuel : fuel = fuel - (units c).length + (units c).length := by omega
      have hrest : (cs.flatMap units).length < fuel - (units c).length := by omega
      rw [List.flatMap_cons, List.flatMap_cons, List.append_assoc, hfuel, (escape_spec c).2, ih hrest, Option.map_some]

theorem joinUnits_single {ns : List Nat} (h : n < 0xd800 ∨ 0xdfff < n) :
    joinUnits (n :: ns) = (joinUnits ns).map fun cs => Char.ofNat n :: cs := by
  cases ns with
  | nil => simp only [joinUnits, if_pos h, Option.map_some]
  | cons m ns => rw [joinUnits, if_pos h]

theorem joinUnits_units (cs : List Char) : joinUnits (cs.flatMap units) = some cs := by
  induction cs with
  | nil => rfl
  | cons c cs ih =>
      have hvalid := valid_toNat c
      rw [List.flatMap_cons, units]
      split
      · rw [List.singleton_append, joinUnits_single (by omega), ih, Option.map_some, Char.ofNat_toNat]
      · have hhalf : ¬ (0xd800 + (c.toNat - 0x10000) / 0x400 < 0xd800 ∨ 0xdfff < 0xd800 + (c.toNat - 0x10000) / 0x400) := by
          omega
        have hhalves : 0xd800 + (c.toNat - 0x10000) / 0x400 < 0xdc00 ∧ 0xdc00 ≤ 0xdc00 + (c.toNat - 0x10000) % 0x400 ∧
            0xdc00 + (c.toNat - 0x10000) % 0x400 ≤ 0xdfff := by omega
        have hwhole : 0x10000 + 0x400 * (0xd800 + (c.toNat - 0x10000) / 0x400 - 0xd800) +
            (0xdc00 + (c.toNat - 0x10000) % 0x400 - 0xdc00) = c.toNat := by omega
        rw [List.cons_append, List.singleton_append, joinUnits, if_neg hhalf, if_pos hhalves, ih, Option.map_some, hwhole,
          Char.ofNat_toNat]

theorem readText_quoted (s : String) : readText (s.toList.flatMap escape ++ '"' :: rest) = some (s, rest) := by
  have hlength : (s.toList.flatMap units).length < (s.toList.flatMap escape ++ '"' :: rest).length := by
    have hle := length_units_le s.toList
    rw [List.length_append, List.length_cons]
    omega
  rw [readText, readUnits_text hlength, Option.bind_some, joinUnits_units, Option.map_some, String.ofList_toList]

theorem Json.induct {P : Json → Prop} (null : P .null) (bool : ∀ b, P (.bool b)) (number : ∀ n, P (.number n))
    (text : ∀ s, P (.text s)) (array : ∀ items, (∀ j ∈ items, P j) → P (.array items))
    (object : ∀ entries, (∀ e ∈ entries, P e.2) → P (.object entries)) : ∀ j, P j := by
  refine @Json.rec P (fun items => ∀ j ∈ items, P j) (fun entries => ∀ e ∈ entries, P e.2) (fun e => P e.2) null bool number
    text array object ?_ ?_ ?_ ?_ ?_
  · exact List.forall_mem_nil _
  · exact fun j items hj hitems => List.forall_mem_cons.mpr ⟨hj, hitems⟩
  · exact List.forall_mem_nil _
  · exact fun e entries he hentries => List.forall_mem_cons.mpr ⟨he, hentries⟩
  · exact fun key j hj => hj

section Written

variable {sorted spaced : Bool}

theorem dumpsItems_eq (items : List Json) : dumpsItems sorted spaced items = items.map (dumps sorted spaced) := by
  induction items with
  | nil => rfl
  | cons j items ih => rw [dumpsItems, ih, List.map_cons]

theorem dumpsEntries_eq (entries : List (String × Json)) :
    dumpsEntries sorted spaced entries = entries.map fun e => (e.1, dumps sorted spaced e.2) := by
  induction entries with
  | nil => rfl
  | cons e entries ih => rw [dumpsEntries, ih, List.map_cons]

def blanks (spaced : Bool) : List Char := if spaced then [' '] else []

theorem separator_eq (c : Char) : separator spaced c = c :: blanks spaced := by cases spaced <;> rfl

theorem skip_blanks (cs : List Char) : skip (blanks spaced ++ cs) = skip cs := by cases spaced <;> rfl

theorem skip_cons (h : isBlank c = false) : skip (c :: cs) = c :: cs := List.dropWhile_cons_of_neg (by simp [h])

theorem not_numeric : ∀ c ∈ ['"', '[', ']', '\x7b', '\x7d', ',', ' ', '\t', '\n', '\r', 'n', 't', 'f'], isNumeric c = false := by
  simp [isNumeric]

theorem dumps_head (j : Json) : ∃ c cs, dumps sorted spaced j = c :: cs ∧ isBlank c = false ∧ c ≠ ']' ∧ c ≠ '\x7d' := by
  cases j with
  | null => exact ⟨_, _, rfl, by decide⟩
  | bool value => cases value <;> exact ⟨_, _, rfl, by decide⟩
  | number value =>
      obtain ⟨c, cs, hchars⟩ := List.exists_cons_of_ne_nil value.nonempty
      have hnumeric : isNumeric c = true := value.numeric c (hchars ▸ List.mem_cons_self)
      have hne : ∀ d ∈ ['"', '[', ']', '\x7b', '\x7d', ',', ' ', '\t', '\n', '\r', 'n', 't', 'f'], c ≠ d := by
        rintro d hd rfl
        rw [not_numeric _ hd] at hnumeric
        cases hnumeric
      refine ⟨c, cs, by rw [dumps, hchars], ?_, hne _ (by decide), hne _ (by decide)⟩
      simp [isBlank, hne]
  | text value => exact ⟨_, _, by rw [dumps, quoted], by decide⟩
  | array items => exact ⟨_, _, by rw [dumps], by decide⟩
  | object entries => exact ⟨_, _, by rw [dumps], by decide⟩

def Delimited (rest : List Char) : Prop := ∀ c ∈ rest.head?, isNumeric c = false

/-- With fuel for its length a value is read back, whatever comes after it. -/
def Reads (spaced : Bool) (j : Json) : Prop :=
  ∀ fuel rest, Delimited rest → (dumps false spaced j).length < fuel →
    readValue fuel (dumps false spaced j ++ rest) = some (j, rest)

theorem delimited_cons (h : isNumeric c = false) : Delimited (c :: rest) := by
  rintro d ⟨⟩
  exact h

theorem delimited_comma (rest : List Char) : Delimited (',' :: rest) := delimited_cons (by decide)

theorem delimited_bracket (rest : List Char) : Delimited (']' :: rest) := delimited_cons (by decide)

theorem delimited_brace (rest : List Char) : Delimited ('\x7d' :: rest) := delimited_cons (by decide)

theorem skip_dumps (j : Json) (rest : List Char) :
    skip (blanks spaced ++ (dumps sorted spaced j ++ rest)) = dumps sorted spaced j ++ rest := by
  obtain ⟨c, cs, hdumps, hblank, -⟩ := @dumps_head sorted spaced j
  rw [skip_blanks, hdumps, List.cons_append, skip_cons hblank]

theorem skip_comma (cs : List Char) : skip (',' :: cs) = ',' :: cs := skip_cons (by decide)

theorem intercalate_head (sep part : List Char) (parts : List (List Char)) :
    ∃ cs, sep.intercalate (part :: parts) = part ++ cs := by
  cases parts with
  | nil => exact ⟨[], by rw [List.intercalate_singleton, List.append_nil]⟩
  | cons next parts => exact ⟨_, by rw [List.intercalate_cons_cons, List.append_assoc]⟩

theorem skip_items (j : Json) (items : List Json) (rest : List Char) :
    skip (blanks spaced ++ ((separator spaced ',').intercalate ((j :: items).map (dumps false spaced)) ++ rest)) =
      (separator spaced ',').intercalate ((j :: items).map (dumps false spaced)) ++ rest := by
  obtain ⟨cs, hcs⟩ := intercalate_head (separator spaced ',') (dumps false spaced j) (items.map (dumps false spaced))
  rw [List.map_cons, hcs, List.append_assoc, skip_dumps]

theorem readItems_spec {items : List Json} (hne : items ≠ []) (hreads : ∀ j ∈ items, Reads spaced j)
    (hfuel : ((separator spaced ',').intercalate (items.map (dumps false spaced))).length + 1 < fuel)
    (hcs : skip cs = (separator spaced ',').intercalate (items.map (dumps false spaced)) ++ ']' :: rest) :
    readItems fuel cs = some (items, rest) := by
  induction items generalizing fuel cs with
  | nil => exact absurd rfl hne
  | cons j items ih =>
      rw [List.forall_mem_cons] at hreads
      obtain ⟨fuel, rfl⟩ : ∃ n, fuel = n + 1 := Nat.exists_eq_succ_of_ne_zero (by omega)
      cases items with
      | nil =>
          rw [List.map_singleton, List.intercalate_singleton] at hfuel hcs
          have hvalue := hreads.1 fuel _ (delimited_bracket rest) (by omega)
          rw [readItems, hcs, hvalue, Option.bind_some]
          rfl
      | cons k items =>
          have hsplit : (separator spaced ',').intercalate ((j :: k :: items).map (dumps false spaced)) =
              dumps false spaced j ++ ',' :: (blanks spaced ++
                (separator spaced ',').intercalate ((k :: items).map (dumps false spaced))) := by
            rw [List.map_cons, List.map_cons, List.intercalate_cons_cons, List.append_assoc, separator_eq, List.cons_append]
          rw [hsplit] at hfuel hcs
          simp only [List.length_append, List.length_cons] at hfuel
          rw [List.append_assoc, List.cons_append, List.append_assoc] at hcs
          have hrest : ((separator spaced ',').intercalate ((k :: items).map (dumps false spaced))).length + 1 < fuel := by omega
          have hlater := ih (List.cons_ne_nil k items) hreads.2 hrest (skip_items k items (']' :: rest))
          rw [readItems, hcs, hreads.1 fuel _ (delimited_comma _) (by omega), Option.bind_some]
          simp only [skip_comma, List.head?_cons, if_true, List.tail_cons, hlater, Option.map_some]

def entryText (spaced : Bool) (e : String × Json) : List Char :=
  quoted e.1 ++ separator spaced ':' ++ dumps false spaced e.2

theorem entryText_append (e : String × Json) (rest : List Char) : entryText spaced e ++ rest =
    '"' :: (e.1.toList.flatMap escape ++ '"' :: ':' :: (blanks spaced ++ (dumps false spaced e.2 ++ rest))) := by
  simp [entryText, quoted, separator_eq]

theorem skip_entries (e : String × Json) (entries : List (String × Json)) (rest : List Char) :
    skip (blanks spaced ++ ((separator spaced ',').intercalate ((e :: entries).map (entryText spaced)) ++ rest)) =
      (separator spaced ',').intercalate ((e :: entries).map (entryText spaced)) ++ rest := by
  obtain ⟨cs, hcs⟩ := intercalate_head (separator spaced ',') (entryText spaced e) (entries.map (entryText spaced))
  rw [List.map_cons, hcs, List.append_assoc, skip_blanks, entryText_append, skip_cons (by decide)]

theorem readEntries_entry {e : String × Json} (hreads : Reads spaced e.2) (hrest : Delimited rest)
    (hfuel : (dumps false spaced e.2).length < fuel) (hcs : skip cs = entryText spaced e ++ rest) :
    readEntries (fuel + 1) cs =
      if (skip rest).head? = some ',' then (readEntries fuel (skip rest).tail).map fun r => ((e.1, e.2) :: r.1, r.2)
      else if (skip rest).head? = some '\x7d' then some ([(e.1, e.2)], (skip rest).tail)
      else none := by
  rw [entryText_append] at hcs
  have hcolon : ∀ cs, skip (':' :: cs) = ':' :: cs := fun cs => skip_cons (by decide)
  rw [readEntries, hcs, List.head?_cons, if_pos rfl, List.tail_cons, readText_quoted, Option.bind_some]
  simp only [hcolon, List.head?_cons, if_true, List.tail_cons, skip_dumps, hreads fuel rest hrest hfuel, Option.bind_some]

theorem readEntries_spec {entries : List (String × Json)} (hne : entries ≠ []) (hreads : ∀ e ∈ entries, Reads spaced e.2)
    (hfuel : ((separator spaced ',').intercalate (entries.map (entryText spaced))).length + 1 < fuel)
    (hcs : skip cs = (separator spaced ',').intercalate (entries.map (entryText spaced)) ++ '\x7d' :: rest) :
    readEntries fuel cs = some (entries, rest) := by
  induction entries generalizing fuel cs with
  | nil => exact absurd rfl hne
  | cons e entries ih =>
      rw [List.forall_mem_cons] at hreads
      obtain ⟨fuel, rfl⟩ : ∃ n, fuel = n + 1 := Nat.exists_eq_succ_of_ne_zero (by omega)
      have hvalue : (dumps false spaced e.2).length ≤ (entryText spaced e).length := by
        rw [entryText, List.length_append]
        omega
      cases entries with
      | nil =>
          rw [List.map_singleton, List.intercalate_singleton] at hfuel hcs
          rw [readEntries_entry hreads.1 (delimited_brace rest) (by omega) hcs]
          rfl
      | cons f entries =>
          have hsplit : (separator spaced ',').intercalate ((e :: f :: entries).map (entryText spaced)) =
              entryText spaced e ++ ',' :: (blanks spaced ++
                (separator spaced ',').intercalate ((f :: entries).map (entryText spaced))) := by
            rw [List.map_cons, List.map_cons, List.intercalate_cons_cons, List.append_assoc, separator_eq, List.cons_append]
          rw [hsplit] at hfuel hcs
          simp only [List.length_append, List.length_cons] at hfuel
          rw [List.append_assoc, List.cons_append, List.append_assoc] at hcs
          have hrest : ((separator spaced ',').intercalate ((f :: entries).map (entryText spaced))).length + 1 < fuel := by omega
          have hlater := ih (List.cons_ne_nil f entries) hreads.2 hrest (skip_entries f entries ('\x7d' :: rest))
          rw [readEntries_entry hreads.1 (delimited_comma _) (by omega) hcs]
          simp only [skip_comma, List.head?_cons, if_true, List.tail_cons, hlater, Option.map_some]

theorem readNumber_chars (n : Number) (hrest : Delimited rest) : readNumber (n.chars ++ rest) = some (.number n, rest) := by
  have hnone : rest.takeWhile isNumeric = [] ∧ rest.dropWhile isNumeric = rest := by
    rcases rest with _ | ⟨c, cs⟩
    · exact ⟨rfl, rfl⟩
    · have hc := hrest c rfl
      exact ⟨List.takeWhile_cons_of_neg (by simp [hc]), List.dropWhile_cons_of_neg (by simp [hc])⟩
  have htake : (n.chars ++ rest).takeWhile isNumeric = n.chars := by
    rw [List.takeWhile_append_of_pos n.numeric, hnone.1, List.append_nil]
  have hdrop : (n.chars ++ rest).dropWhile isNumeric = rest := by
    rw [List.dropWhile_append_of_pos n.numeric, hnone.2]
  rw [readNumber, dif_neg (by rw [htake]; exact n.nonempty)]
  simp only [htake, hdrop]

theorem readValue_array (fuel : Nat) (cs : List Char) : readValue (fuel + 1) ('[' :: cs) =
    if (skip cs).head? = some ']' then some (.array [], (skip cs).tail)
    else (readItems fuel cs).map fun r => (.array r.1, r.2) := by
  rw [readValue, List.head?_cons, if_neg (by decide), if_pos rfl, List.tail_cons]

theorem readValue_object (fuel : Nat) (cs : List Char) : readValue (fuel + 1) ('\x7b' :: cs) =
    if (skip cs).head? = some '\x7d' then some (.object [], (skip cs).tail)
    else (readEntries fuel cs).map fun r => (.object r.1, r.2) := by
  rw [readValue, List.head?_cons, if_neg (by decide), if_neg (by decide), if_pos rfl, List.tail_cons]

/-- Every value is read back as it was, by induction over what it holds. -/
theorem reads (j : Json) : Reads spaced j := by
  induction j using Json.induct with
  | null =>
      intro fuel rest hrest hfuel
      obtain ⟨fuel, rfl⟩ : ∃ n, fuel = n + 1 := Nat.exists_eq_succ_of_ne_zero (by omega)
      simp [readValue, dumps, readLiteral, isNumeric]
  | bool value =>
      intro fuel rest hrest hfuel
      obtain ⟨fuel, rfl⟩ : ∃ n, fuel = n + 1 := Nat.exists_eq_succ_of_ne_zero (by omega)
      cases value <;> simp [readValue, dumps, readLiteral, isNumeric]
  | number value =>
      intro fuel rest hrest hfuel
      obtain ⟨fuel, rfl⟩ : ∃ n, fuel = n + 1 := Nat.exists_eq_succ_of_ne_zero (by omega)
      obtain ⟨c, cs, hchars⟩ := List.exists_cons_of_ne_nil value.nonempty
      have hnumeric : isNumeric c = true := value.numeric c (hchars ▸ List.mem_cons_self)
      have hne : ∀ d ∈ ['"', '[', '\x7b'], c ≠ d := by
        rintro d hd rfl
        have hnot : isNumeric c = false := not_numeric c (by
          simp only [List.mem_cons, List.not_mem_nil, or_false] at hd ⊢
          tauto)
        rw [hnot] at hnumeric
        cases hnumeric
      have hread := readNumber_chars value hrest
      rw [hchars, List.cons_append] at hread
      rw [readValue, dumps, hchars, List.cons_append]
      simp [hne, hnumeric, hread]
  | text value =>
      intro fuel rest hrest hfuel
      obtain ⟨fuel, rfl⟩ : ∃ n, fuel = n + 1 := Nat.exists_eq_succ_of_ne_zero (by omega)
      simp [readValue, dumps, quoted, readText_quoted]
  | array items ih =>
      intro fuel rest hrest hfuel
      obtain ⟨fuel, rfl⟩ : ∃ n, fuel = n + 1 := Nat.exists_eq_succ_of_ne_zero (by omega)
      rw [dumps, dumpsItems_eq, List.length_cons, List.length_append, List.length_singleton] at hfuel
      rw [dumps, dumpsItems_eq, List.cons_append, List.append_assoc, List.singleton_append]
      rw [readValue_array]
      cases items with
      | nil => simp [skip, isBlank]
      | cons j items =>
          have hskip := @skip_items spaced j items (']' :: rest)
          rw [skip_blanks] at hskip
          obtain ⟨c, cs, hdumps, -, hbracket, -⟩ := @dumps_head false spaced j
          obtain ⟨later, hlater⟩ := intercalate_head (separator spaced ',') (dumps false spaced j) (items.map (dumps false spaced))
          have hopen : (skip ((separator spaced ',').intercalate ((j :: items).map (dumps false spaced)) ++ ']' :: rest)).head? ≠
              some ']' := by
            rw [hskip, List.map_cons, hlater, hdumps]
            simpa using hbracket
          rw [if_neg hopen, readItems_spec (List.cons_ne_nil j items) ih (by omega) hskip, Option.map_some]
  | object entries ih =>
      intro fuel rest hrest hfuel
      obtain ⟨fuel, rfl⟩ : ∃ n, fuel = n + 1 := Nat.exists_eq_succ_of_ne_zero (by omega)
      have htexts : (inOrder false (dumpsEntries false spaced entries)).map
          (fun e => quoted e.1 ++ separator spaced ':' ++ e.2) = entries.map (entryText spaced) := by
        rw [dumpsEntries_eq, inOrder, if_neg Bool.false_ne_true, List.map_map]
        rfl
      rw [dumps, htexts, List.length_cons, List.length_append, List.length_singleton] at hfuel
      rw [dumps, htexts, List.cons_append, List.append_assoc, List.singleton_append, readValue_object]
      cases entries with
      | nil => simp [skip, isBlank]
      | cons e entries =>
          have hskip := @skip_entries spaced e entries ('\x7d' :: rest)
          rw [skip_blanks] at hskip
          obtain ⟨later, hlater⟩ := intercalate_head (separator spaced ',') (entryText spaced e) (entries.map (entryText spaced))
          have hopen : (skip ((separator spaced ',').intercalate ((e :: entries).map (entryText spaced)) ++ '\x7d' :: rest)).head? ≠
              some '\x7d' := by
            rw [hskip, List.map_cons, hlater, List.append_assoc, entryText_append]
            simp
          rw [if_neg hopen, readEntries_spec (List.cons_ne_nil e entries) ih (by omega) hskip, Option.map_some]

/-- A written text is read as the value that it was written from. -/
theorem loads_dumps (j : Json) : loads (dumps false spaced j) = some j := by
  obtain ⟨c, cs, hdumps, hblank, -⟩ := @dumps_head false spaced j
  have hskip : skip (dumps false spaced j) = dumps false spaced j := by rw [hdumps, skip_cons hblank]
  have hvalue := @reads spaced j ((dumps false spaced j).length + 1) [] (fun c hc => by cases hc) (Nat.lt_succ_self _)
  rw [List.append_nil] at hvalue
  rw [loads, hskip, hvalue]
  rfl

theorem length_intercalate (sep : List Char) (parts : List (List Char)) :
    (sep.intercalate parts).length = (parts.map List.length).sum + sep.length * (parts.length - 1) := by
  induction parts with
  | nil => simp
  | cons part parts ih =>
      cases parts with
      | nil => simp
      | cons next parts =>
          rw [List.intercalate_cons_cons, List.length_append, List.length_append, ih]
          simp only [List.map_cons, List.sum_cons, List.length_cons, Nat.add_sub_cancel]
          rw [Nat.mul_add_one]
          omega

theorem inOrder_perm (entries : List (String × List Char)) : (inOrder sorted entries).Perm entries := by
  rw [inOrder]
  split
  · exact List.perm_insertionSort _ entries
  · exact List.Perm.refl entries

theorem length_separator (c : Char) : (separator spaced c).length = if spaced then 2 else 1 := by cases spaced <;> rfl

theorem length_object (entries : List (String × Json)) : (dumps sorted spaced (.object entries)).length =
    (entries.map fun e => (quoted e.1).length + (separator spaced ':').length + (dumps sorted spaced e.2).length).sum +
      (separator spaced ',').length * (entries.length - 1) + 2 := by
  have hperm := @inOrder_perm sorted (dumpsEntries sorted spaced entries)
  have hlength : (inOrder sorted (dumpsEntries sorted spaced entries)).length = entries.length := by
    rw [hperm.length_eq, dumpsEntries_eq, List.length_map]
  have hsum := (hperm.map fun e => (quoted e.1).length + (separator spaced ':').length + e.2.length).sum_nat
  have hparts : ((inOrder sorted (dumpsEntries sorted spaced entries)).map
      (List.length ∘ fun e => quoted e.1 ++ separator spaced ':' ++ e.2)) =
        (inOrder sorted (dumpsEntries sorted spaced entries)).map
          fun e => (quoted e.1).length + (separator spaced ':').length + e.2.length := by
    apply List.map_congr_left
    intro e he
    simp only [Function.comp_apply, List.length_append]
  rw [dumps, List.length_cons, List.length_append, length_intercalate, List.length_map, hlength, List.map_map, hparts, hsum,
    dumpsEntries_eq, List.map_map]
  rfl

theorem compact_object_lt {entries : List (String × Json)} (h : entries ≠ [])
    (hvalues : ∀ e ∈ entries, (dumps sorted false e.2).length ≤ (dumps false true e.2).length) :
    (dumps sorted false (.object entries)).length < (dumps false true (.object entries)).length := by
  have hsum : (entries.map fun e => (quoted e.1).length + (separator false ':').length + (dumps sorted false e.2).length).sum <
      (entries.map fun e => (quoted e.1).length + (separator true ':').length + (dumps false true e.2).length).sum := by
    apply List.sum_lt_sum_of_ne_nil h
    intro e he
    have hvalue := hvalues e he
    simp only [length_separator, if_true, Bool.false_eq_true, if_false]
    omega
  have hcommas : (separator false ',').length * (entries.length - 1) ≤ (separator true ',').length * (entries.length - 1) :=
    Nat.mul_le_mul_right _ (by decide)
  rw [length_object, length_object]
  omega

theorem compact_le (j : Json) : (dumps sorted false j).length ≤ (dumps false true j).length := by
  induction j using Json.induct with
  | null | bool value | number value | text value => exact le_rfl
  | array items ih =>
      have hsum : (items.map fun j => (dumps sorted false j).length).sum ≤ (items.map fun j => (dumps false true j).length).sum :=
        List.sum_le_sum ih
      have hcommas : (separator false ',').length * (items.length - 1) ≤ (separator true ',').length * (items.length - 1) :=
        Nat.mul_le_mul_right _ (by decide)
      rw [dumps, dumps, List.length_cons, List.length_cons, List.length_append, List.length_append, length_intercalate,
        length_intercalate, dumpsItems_eq, dumpsItems_eq, List.map_map, List.map_map, List.length_map, List.length_map]
      simp only [Function.comp_def]
      omega
  | object entries ih =>
      by_cases h : entries = []
      · subst h
        rw [length_object, length_object]
        rfl
      · exact (compact_object_lt h ih).le

theorem compact_lt {entries : List (String × Json)} (h : entries ≠ []) :
    (dumps sorted false (.object entries)).length < (dumps false true (.object entries)).length :=
  compact_object_lt h fun e _ => compact_le e.2

theorem toNat_digitChar_lt : ∀ d : Fin 16, (Nat.digitChar d).toNat < 128 := by decide

theorem hex4_ascii (n : Nat) : ∀ c ∈ hex4 n, c.toNat < 128 := by
  have hdigit : ∀ m, (Nat.digitChar (m % 16)).toNat < 128 := fun m => toNat_digitChar_lt ⟨m % 16, Nat.mod_lt m (by decide)⟩
  simp only [hex4, List.forall_mem_cons, hdigit, List.not_mem_nil, false_imp_iff, implies_true, and_self]

theorem escape_ascii (c : Char) : ∀ d ∈ escape c, d.toNat < 128 := by
  have hshort : ∀ s ∈ shortEscapes, s.2.toNat < 128 := by decide
  rw [escape]
  cases hfind : shortEscapes.find? fun s => s.1 = c with
  | some s =>
      rintro d hd
      rcases List.mem_cons.mp hd with rfl | hd
      · decide
      · rw [List.mem_singleton.mp hd]
        exact hshort s (List.mem_of_find?_eq_some hfind)
  | none =>
      simp only
      split
      · rintro d hd
        rw [List.mem_singleton.mp hd]
        omega
      · rintro d hd
        obtain ⟨n, -, hd⟩ := List.mem_flatMap.mp hd
        rcases List.mem_cons.mp hd with rfl | hd
        · decide
        · rcases List.mem_cons.mp hd with rfl | hd
          · decide
          · exact hex4_ascii n d hd

theorem quoted_ascii (s : String) : ∀ c ∈ quoted s, c.toNat < 128 := by
  intro c hc
  rw [quoted] at hc
  rcases List.mem_cons.mp hc with rfl | hc
  · decide
  rcases List.mem_append.mp hc with hc | hc
  · obtain ⟨d, -, hd⟩ := List.mem_flatMap.mp hc
    exact escape_ascii d c hd
  · rw [List.mem_singleton.mp hc]
    decide

theorem separator_ascii {d : Char} (h : d.toNat < 128) : ∀ c ∈ separator spaced d, c.toNat < 128 := by
  intro c hc
  rw [separator_eq] at hc
  rcases List.mem_cons.mp hc with rfl | hc
  · exact h
  · cases spaced
    · cases hc
    · rw [List.mem_singleton.mp hc]
      decide

theorem intercalate_ascii {sep : List Char} {parts : List (List Char)} (hsep : ∀ c ∈ sep, c.toNat < 128)
    (hparts : ∀ part ∈ parts, ∀ c ∈ part, c.toNat < 128) : ∀ c ∈ sep.intercalate parts, c.toNat < 128 := by
  induction parts with
  | nil =>
      intro c hc
      cases hc
  | cons part parts ih =>
      rw [List.forall_mem_cons] at hparts
      cases parts with
      | nil => simpa only [List.intercalate_singleton] using hparts.1
      | cons next parts =>
          intro c hc
          rw [List.intercalate_cons_cons] at hc
          rcases List.mem_append.mp hc with hc | hc
          · rcases List.mem_append.mp hc with hc | hc
            · exact hparts.1 c hc
            · exact hsep c hc
          · exact ih hparts.2 c hc

theorem numeric_ascii {c : Char} (h : isNumeric c = true) : c.toNat < 128 := by
  rw [isNumeric, Bool.or_eq_true, Char.isDigit, Bool.and_eq_true, decide_eq_true_iff, decide_eq_true_iff,
    decide_eq_true_iff] at h
  rcases h with ⟨-, hnine⟩ | hsign
  · have hle : c.toNat ≤ '9'.toNat := hnine
    exact Nat.lt_of_le_of_lt hle (by decide)
  · simp only [List.mem_cons, List.not_mem_nil, or_false] at hsign
    rcases hsign with rfl | rfl | rfl | rfl | rfl <;> decide

theorem dumps_ascii (j : Json) : ∀ c ∈ dumps sorted spaced j, c.toNat < 128 := by
  have hword : ∀ word ∈ ["null", "true", "false"], ∀ c ∈ word.toList, c.toNat < 128 := by simp
  induction j using Json.induct with
  | null => exact hword "null" (by decide)
  | bool value =>
      cases value
      · exact hword "false" (by decide)
      · exact hword "true" (by decide)
  | number value => exact fun c hc => numeric_ascii (value.numeric c hc)
  | text value => exact quoted_ascii value
  | array items ih =>
      rw [dumps, dumpsItems_eq]
      intro c hc
      rcases List.mem_cons.mp hc with rfl | hc
      · decide
      rcases List.mem_append.mp hc with hc | hc
      · refine intercalate_ascii (separator_ascii (by decide)) ?_ c hc
        intro part hpart
        obtain ⟨j, hj, rfl⟩ := List.mem_map.mp hpart
        exact ih j hj
      · rw [List.mem_singleton.mp hc]
        decide
  | object entries ih =>
      rw [dumps]
      intro c hc
      rcases List.mem_cons.mp hc with rfl | hc
      · decide
      rcases List.mem_append.mp hc with hc | hc
      · refine intercalate_ascii (separator_ascii (by decide)) ?_ c hc
        intro part hpart
        obtain ⟨e, he, rfl⟩ := List.mem_map.mp hpart
        rw [(inOrder_perm _).mem_iff, dumpsEntries_eq] at he
        obtain ⟨entry, hentry, rfl⟩ := List.mem_map.mp he
        intro c hc
        rcases List.mem_append.mp hc with hc | hc
        · rcases List.mem_append.mp hc with hc | hc
          · exact quoted_ascii _ c hc
          · exact separator_ascii (by decide) c hc
        · exact ih entry hentry c hc
      · rw [List.mem_singleton.mp hc]
        decide

end Written

end NukeLab.JsonTexts

namespace NukeLab.JsonValues

open Binary64

inductive Json
  | null
  | bool (value : Bool)
  | int (value : Int)
  | float (value : Value)
  | text (value : String)
  | array (items : List Json)
  | object (entries : List (String × Json))

namespace Json

/-- `bool` of a value. -/
def truthy : Json → Bool
  | null => false
  | bool value => value
  | int value => value ≠ 0
  | float value => value ≠ .finite 0
  | text value => value ≠ ""
  | array items => ¬ items.isEmpty
  | object entries => ¬ entries.isEmpty

end Json

abbrev Dict := List (String × Json)

def get (entries : Dict) (key : String) (default : Json) : Json := (entries.lookup key).getD default

end NukeLab.JsonValues
