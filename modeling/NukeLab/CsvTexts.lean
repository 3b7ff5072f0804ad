import Mathlib.Data.List.TakeDrop
import Mathlib.Data.List.TakeWhile

namespace NukeLab.CsvTexts

abbrev Field := List Char

def isText (c : Char) : Bool := c ≠ ',' && c ≠ '"' && c ≠ '\n' && c ≠ '\r'

/-- Up to the closing quote; two quotes in a row stand for one. -/
def readQuoted : List Char → Option (Field × List Char)
  | [] => none
  | '"' :: '"' :: cs => (readQuoted cs).map fun p => ('"' :: p.1, p.2)
  | '"' :: cs => some ([], cs)
  | c :: cs => (readQuoted cs).map fun p => (c :: p.1, p.2)

def readField : List Char → Option (Field × List Char)
  | '"' :: cs => readQuoted cs
  | cs => some (cs.span isText)

def addField (f : Field) : List (List Field) → Option (List (List Field))
  | [] => none
  | row :: rows => some ((f :: row) :: rows)

/-- The records of a text, the last of which may end with a line break. -/
def readRows : Nat → List Char → Option (List (List Field))
  | 0, _ => none
  | fuel + 1, cs =>
    match readField cs with
    | some (f, []) => some [[f]]
    | some (f, ',' :: rest) => (readRows fuel rest).bind (addField f)
    | some (f, '\n' :: rest) | some (f, '\r' :: '\n' :: rest) =>
      if rest = [] then some [[f]] else (readRows fuel rest).map fun rows => [f] :: rows
    | _ => none

def parse (cs : List Char) : Option (List (List Field)) := readRows (cs.length + 1) cs

structure Cell where
  quoted : Bool
  value : Field

def double (f : Field) : List Char := f.flatMap fun c => if c = '"' then ['"', '"'] else [c]

def Cell.raw (c : Cell) : List Char := if c.quoted then '"' :: (double c.value ++ ['"']) else c.value

def Cell.Sound (c : Cell) : Prop := c.quoted = true ∨ ∀ x ∈ c.value, isText x = true

def rowText (cells : List Cell) : List Char := [','].intercalate (cells.map Cell.raw)

def rowsText (rows : List (List Cell)) : List Char := ['\n'].intercalate (rows.map rowText)

def Ends (rest : List Char) : Prop := ∀ c ∈ rest.head?, isText c = false ∧ c ≠ '"'

variable {cs rest : List Char} {f g : Field} {n : Nat}

@[simp] theorem double_cons_quote (f : Field) : double ('"' :: f) = '"' :: '"' :: double f := rfl

theorem double_cons_of_ne {c : Char} (h : c ≠ '"') (f : Field) : double (c :: f) = c :: double f := by
  rw [double, List.flatMap_cons, if_neg h]
  rfl

theorem readQuoted_double (h : rest.head? ≠ some '"') (f : Field) : readQuoted (double f ++ '"' :: rest) = some (f, rest) := by
  induction f with
  | nil =>
      cases rest with
      | nil => rfl
      | cons c rest =>
          have hc : c ≠ '"' := fun hc => h (congrArg some hc)
          simp only [double, List.flatMap_nil, List.nil_append]
          rw [readQuoted.eq_3]
          intro cs hcs
          exact hc (List.cons.inj hcs).1
  | cons c f ih =>
      by_cases hc : c = '"'
      · subst hc
        rw [double_cons_quote, List.cons_append, List.cons_append, readQuoted, ih]
        rfl
      · rw [double_cons_of_ne hc, List.cons_append, readQuoted, ih]
        · rfl
        · exact fun cs h _ => absurd h hc
        · exact fun h => absurd h hc

theorem eq_of_readQuoted (h : readQuoted cs = some (f, rest)) : cs = double f ++ '"' :: rest := by
  fun_induction readQuoted cs generalizing f with
  | case1 => cases h
  | case2 cs ih =>
      obtain ⟨⟨g, r⟩, hread, hpair⟩ := Option.map_eq_some_iff.mp h
      cases hpair
      rw [ih hread]
      rfl
  | case3 cs => 
      cases h
      rfl
  | case4 c cs _ hc ih =>
      obtain ⟨⟨g, r⟩, hread, hpair⟩ := Option.map_eq_some_iff.mp h
      cases hpair
      rw [ih hread, double_cons_of_ne hc]
      rfl

theorem ne_quotes_double (hrest : rest.head? ≠ some '"') (t : List Char) (n : Nat) (r : List Char) :
    t ++ rest ≠ List.replicate (n + 1) '"' ++ (double t ++ '"' :: r) := by
  induction t generalizing n with
  | nil =>
      intro h
      rw [List.nil_append] at h
      rw [h] at hrest
      exact hrest rfl
  | cons c t ih =>
      intro h
      rw [List.replicate_succ, List.cons_append, List.cons_append] at h
      obtain ⟨rfl, htail⟩ := List.cons.inj h
      apply ih (n + 1)
      rw [htail, double_cons_quote, List.replicate_succ', List.replicate_succ', List.append_assoc, List.append_assoc]
      rfl

theorem Ends.head (h : Ends rest) : rest.head? ≠ some '"' := fun hquote => (h '"' hquote).2 rfl

theorem span_append (hf : ∀ c ∈ f, isText c = true) (h : ∀ c ∈ rest.head?, isText c = false) :
    (f ++ rest).span isText = (f, rest) := by
  rw [List.span_eq_takeWhile_dropWhile, List.takeWhile_append_of_pos hf, List.dropWhile_append_of_pos hf]
  cases rest with
  | nil => simp
  | cons c rest =>
      have hc : isText c = false := h c rfl
      rw [List.takeWhile_cons_of_neg (by simp [hc]), List.dropWhile_cons_of_neg (by simp [hc]), List.append_nil]

theorem readField_of_head (h : cs.head? ≠ some '"') : readField cs = some (cs.span isText) := by
  rw [readField]
  rintro cs rfl
  exact h rfl

theorem Cell.Sound.read {c : Cell} (hc : c.Sound) (hrest : Ends rest) : readField (c.raw ++ rest) = some (c.value, rest) := by
  rw [Cell.raw]
  by_cases hquoted : c.quoted = true
  · rw [if_pos hquoted, List.cons_append, readField, List.append_assoc]
    exact readQuoted_double hrest.head c.value
  · rw [if_neg hquoted]
    have htext := hc.resolve_left hquoted
    rw [readField_of_head, span_append htext fun x hx => (hrest x hx).1]
    intro hhead
    cases hvalue : c.value with
    | nil =>
        rw [hvalue, List.nil_append] at hhead
        exact hrest.head hhead
    | cons x xs =>
        rw [hvalue] at hhead htext
        obtain rfl := Option.some.inj hhead
        exact absurd (htext '"' List.mem_cons_self) (by decide)

theorem Cell.value_ne_of_read {c : Cell} (hc : ¬ c.Sound) (hrest : Ends rest)
    (h : readField (c.raw ++ rest) = some (f, cs)) : f ≠ c.value := by
  rw [Cell.Sound, not_or] at hc
  obtain ⟨hquoted, htext⟩ := hc
  rw [Cell.raw, if_neg hquoted] at h
  rintro rfl
  by_cases hhead : (c.value ++ rest).head? = some '"'
  · cases hvalue : c.value with
    | nil =>
        rw [hvalue] at htext
        exact htext fun _ hx => (nomatch hx)
    | cons x t =>
        rw [hvalue] at hhead h
        obtain rfl := Option.some.inj hhead
        have hdouble := eq_of_readQuoted h
        rw [double_cons_quote] at hdouble
        exact ne_quotes_double hrest.head t 1 cs hdouble
  · rw [readField_of_head hhead, List.span_eq_takeWhile_dropWhile] at h
    have htake := (Prod.mk.inj (Option.some.inj h)).1
    apply htext
    intro x hx
    rw [← htake] at hx
    exact List.mem_takeWhile_imp hx

def after : List Cell → List (List Cell) → List Char
  | [], [] => []
  | [], r :: rs => '\n' :: rowsText (r :: rs)
  | c :: cs, rs => ',' :: rowsText ((c :: cs) :: rs)

def values (rows : List (List Cell)) : List (List Field) := rows.map fun r => r.map Cell.value

def Closes (rows : List (List Cell)) : Prop := ∀ last ∈ rows.tail.getLast?, rowText last ≠ []

section

variable {c : Cell} {cells : List Cell} {rows : List (List Cell)}

theorem rowText_cons_cons (c d : Cell) (ds : List Cell) : rowText (c :: d :: ds) = c.raw ++ ',' :: rowText (d :: ds) := by
  rw [rowText, List.map_cons, List.map_cons, List.intercalate_cons_cons, List.append_assoc]
  rfl

theorem rowsText_cons (r : List Cell) (rows : List (List Cell)) : rowsText (r :: rows) = rowText r ++ after [] rows := by
  cases rows with
  | nil => rw [rowsText, List.map_singleton, List.intercalate_singleton, after, List.append_nil]
  | cons s rows =>
      rw [rowsText, List.map_cons, List.map_cons, List.intercalate_cons_cons, List.append_assoc]
      rfl

theorem rowsText_cons_cons (c : Cell) (cells : List Cell) (rows : List (List Cell)) :
    rowsText ((c :: cells) :: rows) = c.raw ++ after cells rows := by
  cases cells with
  | nil => rw [rowsText_cons, rowText, List.map_singleton, List.intercalate_singleton]
  | cons d ds => rw [rowsText_cons, rowText_cons_cons, after, rowsText_cons, List.append_assoc, List.cons_append]

theorem ends_after (cells : List Cell) (rows : List (List Cell)) : Ends (after cells rows) := by
  intro x hx
  match cells, rows with
  | [], [] => cases hx
  | [], _ :: _ | _ :: _, _ =>
      obtain rfl := Option.some.inj hx
      decide

theorem rowText_eq_nil_of_rowsText (h : rowsText rows = []) (hrows : rows ≠ []) : ∃ r, rows = [r] ∧ rowText r = [] := by
  match rows with
  | [r] =>
      rw [rowsText_cons, after, List.append_nil] at h
      exact ⟨r, rfl, h⟩
  | r :: s :: rs =>
      rw [rowsText_cons] at h
      exact absurd (List.append_eq_nil_iff.mp h).2 (List.cons_ne_nil _ _)

theorem rowText_eq_nil (h : cells ≠ []) : rowText cells = [] ↔ ∃ c, cells = [c] ∧ c.raw = [] := by
  match cells with
  | [c] => simp [rowText]
  | c :: d :: ds => simp [rowText_cons_cons]

theorem addField_eq_some {row : List Field} {rows out : List (List Field)} :
    addField f out = some (row :: rows) ↔ ∃ row', out = row' :: rows ∧ row = f :: row' := by
  cases out with
  | nil => simp [addField]
  | cons row' rows' => simp [addField, and_comm, eq_comm]

theorem head_of_readRows {out : List (List Field)} (h : readRows n cs = some out) :
    ∃ f rest row rows, readField cs = some (f, rest) ∧ out = (f :: row) :: rows := by
  cases n with
  | zero => cases h
  | succ n =>
      rw [readRows] at h
      split at h
      · next hread => exact ⟨_, _, _, _, hread, (Option.some.inj h).symm⟩
      · next hread =>
          obtain ⟨out', -, h⟩ := Option.bind_eq_some_iff.mp h
          cases out' with
          | nil => cases h
          | cons row rows => exact ⟨_, _, _, _, hread, (Option.some.inj h).symm⟩
      · next hread =>
          split at h
          · exact ⟨_, _, _, _, hread, (Option.some.inj h).symm⟩
          · obtain ⟨rows, -, h⟩ := Option.map_eq_some_iff.mp h
            exact ⟨_, _, _, _, hread, h.symm⟩
      · next hread =>
          split at h
          · exact ⟨_, _, _, _, hread, (Option.some.inj h).symm⟩
          · obtain ⟨rows, -, h⟩ := Option.map_eq_some_iff.mp h
            exact ⟨_, _, _, _, hread, h.symm⟩
      · cases h

theorem readRows_end (h : readField cs = some (f, [])) : readRows (n + 1) cs = some [[f]] := by
  simp only [readRows, h]

theorem readRows_comma (h : readField cs = some (f, ',' :: rest)) (row : List Field) (out : List (List Field)) :
    readRows (n + 1) cs = some ((f :: row) :: out) ↔ readRows n rest = some (row :: out) := by
  have hstep : readRows (n + 1) cs = (readRows n rest).bind (addField f) := by simp only [readRows, h]
  rw [hstep, Option.bind_eq_some_iff]
  constructor
  · rintro ⟨out', hrest, hadd⟩
    obtain ⟨row', rfl, hrow⟩ := addField_eq_some.mp hadd
    rw [hrest, (List.cons.inj hrow).2]
  · exact fun h => ⟨_, h, rfl⟩

theorem readRows_line (h : readField cs = some (f, '\n' :: rest)) (hrest : rest ≠ []) (out : List (List Field)) :
    readRows (n + 1) cs = some ([f] :: out) ↔ readRows n rest = some out := by
  rw [readRows, h]
  simp [hrest]

theorem readRows_blank (h : readField cs = some (f, '\n' :: rest)) (hrest : rest = []) : readRows (n + 1) cs = some [[f]] := by
  simp only [readRows, h, if_pos hrest]

theorem closes_cons {r : List Cell} {rows : List (List Cell)} (first : List Cell) (h : rowsText (r :: rows) ≠ []) :
    Closes (first :: r :: rows) ↔ Closes (r :: rows) := by
  cases rows with
  | nil =>
      rw [rowsText_cons, after, List.append_nil] at h
      exact iff_of_true (fun last hlast => Option.some.inj hlast ▸ h) fun last hlast => nomatch hlast
  | cons s rows => rw [Closes, Closes, List.tail_cons, List.tail_cons, List.getLast?_cons_cons]

/-- Records are read back exactly if every cell is sound and the last of several is not a blank line. -/
theorem readRows_text (hrows : ∀ r ∈ rows, r ≠ []) (hn : (rowsText ((c :: cells) :: rows)).length < n) :
    readRows n (rowsText ((c :: cells) :: rows)) = some (values ((c :: cells) :: rows)) ↔
      (∀ r ∈ (c :: cells) :: rows, ∀ d ∈ r, d.Sound) ∧ Closes ((c :: cells) :: rows) := by
  induction n generalizing c cells rows with
  | zero => exact absurd hn (Nat.not_lt_zero _)
  | succ n ih =>
      rw [rowsText_cons_cons] at hn ⊢
      by_cases hc : c.Sound
      · have hread := hc.read (ends_after cells rows)
        match cells, rows with
        | d :: ds, rows =>
            have hlen : (rowsText ((d :: ds) :: rows)).length < n := by
              rw [after, List.length_append, List.length_cons] at hn
              omega
            refine (readRows_comma hread _ _).trans ((ih hrows hlen).trans (and_congr_left' ?_))
            simp only [List.forall_mem_cons, hc, true_and]
        | [], [] =>
            refine iff_of_true ?_ ⟨?_, fun last hlast => nomatch hlast⟩
            · exact readRows_end hread
            · simpa only [List.forall_mem_singleton] using hc
        | [], [] :: rs => exact absurd rfl (hrows [] List.mem_cons_self)
        | [], (d :: ds) :: rs =>
            have hrows' : ∀ r ∈ rs, r ≠ [] := fun r hr => hrows r (List.mem_cons_of_mem _ hr)
            have hlen : (rowsText ((d :: ds) :: rs)).length < n := by
              rw [after, List.length_append, List.length_cons] at hn
              omega
            by_cases hempty : rowsText ((d :: ds) :: rs) = []
            · obtain ⟨r, hr, htext⟩ := rowText_eq_nil_of_rowsText hempty (List.cons_ne_nil _ _)
              refine iff_of_false (fun h => ?_) fun h => ?_
              · rw [readRows_blank hread hempty] at h
                exact List.cons_ne_nil _ _ (List.cons.inj (Option.some.inj h)).2.symm
              · rw [hr] at h
                exact h.2 r rfl htext
            · refine (readRows_line hread hempty _).trans ((ih hrows' hlen).trans ?_)
              rw [closes_cons _ hempty, List.forall_mem_cons (l := (d :: ds) :: rs), List.forall_mem_singleton]
              simp only [hc, true_and]
      · refine iff_of_false (fun h => ?_) fun h => hc (h.1 _ List.mem_cons_self c List.mem_cons_self)
        obtain ⟨f, rest, row, rows', hread, hout⟩ := head_of_readRows h
        exact Cell.value_ne_of_read hc (ends_after cells rows) hread (List.cons.inj (List.cons.inj hout).1).1.symm

theorem parse_rowsText {row : List Cell} (hrows : ∀ r ∈ row :: rows, r ≠ []) :
    parse (rowsText (row :: rows)) = some (values (row :: rows)) ↔
      (∀ r ∈ row :: rows, ∀ d ∈ r, d.Sound) ∧ Closes (row :: rows) := by
  rw [List.forall_mem_cons] at hrows
  obtain ⟨c, cells, rfl⟩ := List.exists_cons_of_ne_nil hrows.1
  exact readRows_text hrows.2 (Nat.lt_succ_self _)

theorem parse_ne_nil_cons (cs : List Char) (out : List (List Field)) : parse cs ≠ some ([] :: out) := by
  intro h
  obtain ⟨f, rest, row, rows, -, hout⟩ := head_of_readRows h
  exact List.cons_ne_nil _ _ (List.cons.inj hout).1.symm

end

end NukeLab.CsvTexts
