import Mathlib.Data.List.TakeWhile
import NukeLab.Dictionaries
import NukeLab.XfsQuota

namespace NukeLab.ProjectsFile

open Dictionaries Texts
open XfsQuota (startsWith)

section Files

/-- How a text file is read: each of the three line ends as one. -/
def universalNewlines : List Char → List Char
  | [] => []
  | '\r' :: '\n' :: cs => '\n' :: universalNewlines cs
  | '\r' :: cs => '\n' :: universalNewlines cs
  | c :: cs => c :: universalNewlines cs

def splitLines : List Char → List (List Char)
  | [] => []
  | c :: cs =>
    if c = '\n' then ['\n'] :: splitLines cs
    else
      match splitLines cs with
      | [] => [[c]]
      | line :: lines => (c :: line) :: lines

def readLines (file : Option (List Char)) : List (List Char) :=
  match file with
  | none => []
  | some text => splitLines (universalNewlines text)

def updateLine (file : Option (List Char)) (linePrefix : List Char) : Option (List Char) :=
  let key := linePrefix.takeWhile (· ≠ ':') ++ [':']
  let found := (readLines file).any (startsWith key)
  let lines := (readLines file).map fun line => if startsWith key line then linePrefix ++ ['\n'] else line
  some (if found then lines else lines ++ [linePrefix ++ ['\n']]).flatten

def removeLine (file : Option (List Char)) (start : List Char) : Option (List Char) :=
  match file with
  | none => none
  | some text => some ((readLines (some text)).filter fun line => !startsWith start line).flatten

end Files

@[ext] structure Key where
  chars : List Char
  word : ∀ c ∈ chars, isSpace c = false ∧ c ≠ ':'
  deriving DecidableEq

/-- A path without a newline or a carriage return. -/
structure Path where
  chars : List Char
  oneLine : ∀ c ∈ chars, c ≠ '\n' ∧ c ≠ '\r'

inductive Call
  | update (key : Key) (path : Path)
  | remove (key : Key)

def Call.key : Call → Key
  | .update key _ => key
  | .remove key => key

def line (key : Key) (path : Path) : List Char := key.chars ++ ':' :: path.chars

def apply (file : Option (List Char)) : Call → Option (List Char)
  | .update key path => updateLine file (line key path)
  | .remove key => removeLine file (key.chars ++ [':'])

def parseLine (l : List Char) : List Char × List Char :=
  let l := l.takeWhile (· ≠ '\n')
  (l.takeWhile (· ≠ ':'), (l.dropWhile (· ≠ ':')).drop 1)

/-- The path that a key was last updated with, unless it has been removed since. -/
def lastPath (key : Key) (calls : List Call) : Option Path :=
  calls.foldl (fun last call =>
    match call with
    | .update k path => if k = key then some path else last
    | .remove k => if k = key then none else last) none

section Lines

variable {ls : List (List Char)} {l : List Char}

def unlines (ls : List (List Char)) : List Char := ls.flatMap (· ++ ['\n'])

def OneLine (l : List Char) : Prop := ∀ c ∈ l, c ≠ '\n' ∧ c ≠ '\r'

theorem universalNewlines_eq {cs : List Char} (h : '\r' ∉ cs) : universalNewlines cs = cs := by
  induction cs with
  | nil => rfl
  | cons c cs ih =>
      obtain ⟨hc, hcs⟩ := not_or.mp (List.mem_cons.not.mp h)
      rw [universalNewlines, ih hcs]
      · rintro cs rfl
        exact absurd rfl hc
      · exact fun heq => hc heq.symm

theorem splitLines_append (hl : '\n' ∉ l) (rest : List Char) :
    splitLines (l ++ '\n' :: rest) = (l ++ ['\n']) :: splitLines rest := by
  induction l with
  | nil => exact if_pos rfl
  | cons c l ih =>
      obtain ⟨hc, hcs⟩ := not_or.mp (List.mem_cons.not.mp hl)
      rw [List.cons_append, splitLines, if_neg (Ne.symm hc), ih hcs]
      rfl

theorem unlines_cons (l : List Char) (ls : List (List Char)) : unlines (l :: ls) = l ++ '\n' :: unlines ls := by
  rw [unlines, List.flatMap_cons, List.append_assoc]
  rfl

theorem readLines_unlines (h : ∀ l ∈ ls, OneLine l) : readLines (some (unlines ls)) = ls.map (· ++ ['\n']) := by
  have hreturn : '\r' ∉ unlines ls := by
    intro hmem
    obtain ⟨l, hl, hc⟩ := List.mem_flatMap.mp hmem
    obtain hc | hc := List.mem_append.mp hc
    · exact (h l hl '\r' hc).2 rfl
    · cases List.mem_singleton.mp hc
  rw [readLines, universalNewlines_eq hreturn]
  clear hreturn
  induction ls with
  | nil => rfl
  | cons l ls ih =>
      have hl : '\n' ∉ l := fun hc => (h l List.mem_cons_self '\n' hc).1 rfl
      rw [unlines_cons, splitLines_append hl, ih fun l hl => h l (List.mem_cons_of_mem _ hl), List.map_cons]

theorem strip_append_newline (l : List Char) : strip (l ++ ['\n']) = strip l := by
  rw [strip, strip]
  by_cases hall : l.all isSpace
  · have hall : ∀ c ∈ l, isSpace c = true := List.all_eq_true.mp hall
    have hnil : (l ++ ['\n']).dropWhile isSpace = [] := by
      rw [List.dropWhile_append_of_pos hall]
      rfl
    rw [hnil, List.dropWhile_eq_nil_iff.mpr hall]
  · rw [List.dropWhile_append]
    have hne : (l.dropWhile isSpace).isEmpty = false := by
      rw [List.isEmpty_eq_false_iff, ne_eq, List.dropWhile_eq_nil_iff, ← List.all_eq_true]
      exact hall
    rw [hne, if_neg Bool.false_ne_true, List.reverse_append, List.reverse_singleton, List.singleton_append,
      List.dropWhile_cons_of_pos (by decide)]

theorem startsWith_newline (start l : List Char) : startsWith start (l ++ ['\n']) = startsWith start l := by
  rw [startsWith, startsWith, strip_append_newline]

end Lines

section Refinement

variable {lines : Option (List (List Char))} {l : List Char}

def textOf (lines : Option (List (List Char))) : Option (List Char) := lines.map unlines

def OneLines (lines : Option (List (List Char))) : Prop := ∀ ls ∈ lines, ∀ l ∈ ls, OneLine l

theorem readLines_textOf (h : OneLines lines) : readLines (textOf lines) = (lines.getD []).map (· ++ ['\n']) := by
  cases lines with
  | none => rfl
  | some ls => exact readLines_unlines (h ls rfl)

theorem flatten_lines (ls : List (List Char)) : (ls.map (· ++ ['\n'])).flatten = unlines ls := List.flatMap_def.symm

theorem updateLine_textOf (h : OneLines lines) (l : List Char) :
    updateLine (textOf lines) l = textOf (XfsQuota.updateLine lines l) := by
  rw [updateLine, readLines_textOf h, XfsQuota.updateLine]
  have hfound : ((lines.getD []).map (· ++ ['\n'])).any (startsWith (l.takeWhile (· ≠ ':') ++ [':'])) =
      (lines.getD []).any (startsWith (l.takeWhile (· ≠ ':') ++ [':'])) := by
    rw [List.any_map]
    exact List.any_congr rfl fun l => startsWith_newline _ l
  have hlines : (((lines.getD []).map (· ++ ['\n'])).map fun line =>
      if startsWith (l.takeWhile (· ≠ ':') ++ [':']) line then l ++ ['\n'] else line) =
        (((lines.getD []).map fun line => if startsWith (l.takeWhile (· ≠ ':') ++ [':']) line then l else line).map
          (· ++ ['\n'])) := by
    rw [List.map_map, List.map_map]
    refine List.map_congr_left fun line _ => ?_
    rw [Function.comp_apply, Function.comp_apply, startsWith_newline]
    exact (apply_ite (· ++ ['\n']) _ _ _).symm
  rw [hfound, hlines]
  split
  next hany => rw [flatten_lines]; rfl
  next hnone =>
    have hkept : (lines.getD []).map (fun line => if startsWith (l.takeWhile (· ≠ ':') ++ [':']) line then l else line) =
        lines.getD [] := by
      refine (List.map_congr_left fun line hline => ?_).trans (List.map_id _)
      rw [if_neg fun hstarts => hnone (List.any_eq_true.mpr ⟨line, hline, hstarts⟩)]
      rfl
    have hmap : (lines.getD []).map (· ++ ['\n']) ++ [l ++ ['\n']] = (lines.getD [] ++ [l]).map (· ++ ['\n']) := by
      rw [List.map_append, List.map_singleton]
    rw [hkept, hmap, flatten_lines]
    rfl

theorem removeLine_textOf (h : OneLines lines) (start : List Char) :
    removeLine (textOf lines) start = textOf (XfsQuota.removeLine lines start) := by
  cases lines with
  | none => rfl
  | some ls =>
      have hread := readLines_unlines (h ls rfl)
      have hfilter : ((ls.map (· ++ ['\n'])).filter fun line => !startsWith start line) =
          (ls.filter fun line => !startsWith start line).map (· ++ ['\n']) := by
        rw [List.filter_map]
        congr 1
        refine List.filter_congr fun line _ => ?_
        rw [Function.comp_apply, startsWith_newline]
      rw [textOf, Option.map_some, removeLine, hread, hfilter, flatten_lines]
      rfl

end Refinement

section Entries

variable {key k : Key} {path : Path} {entries : List (Key × Path)} {d : Dict Key Path}

theorem oneLine_line (key : Key) (path : Path) : OneLine (line key path) := by
  intro c hc
  obtain hc | hc := List.mem_append.mp hc
  · have hspace := (key.word c hc).1
    constructor
    · rintro rfl
      cases hspace
    · rintro rfl
      cases hspace
  · obtain rfl | hc := List.mem_cons.mp hc
    · exact ⟨by decide, by decide⟩
    · exact path.oneLine c hc

theorem takeWhile_key (key : Key) (rest : List Char) : (key.chars ++ ':' :: rest).takeWhile (· ≠ ':') = key.chars := by
  have hword : ∀ c ∈ key.chars, decide (c ≠ ':') = true := fun c hc => decide_eq_true (key.word c hc).2
  rw [List.takeWhile_append_of_pos hword]
  exact List.append_nil _

theorem dropWhile_key (key : Key) (rest : List Char) : (key.chars ++ ':' :: rest).dropWhile (· ≠ ':') = ':' :: rest := by
  have hword : ∀ c ∈ key.chars, decide (c ≠ ':') = true := fun c hc => decide_eq_true (key.word c hc).2
  rw [List.dropWhile_append_of_pos hword]
  rfl

theorem prefix_strip (key : Key) (rest : List Char) : key.chars ++ [':'] <+: strip (key.chars ++ ':' :: rest) := by
  have hfront : (key.chars ++ ':' :: rest).dropWhile isSpace = key.chars ++ ':' :: rest := by
    cases hchars : key.chars with
    | nil => exact List.dropWhile_cons_of_neg (by decide)
    | cons c cs =>
        have hspace := (key.word c (hchars ▸ List.mem_cons_self)).1
        exact List.dropWhile_cons_of_neg (by simp [hspace])
  have hback : (key.chars ++ ':' :: rest).reverse = rest.reverse ++ ':' :: key.chars.reverse := by simp
  rw [strip, hfront, hback, List.dropWhile_append]
  split
  · rw [List.dropWhile_cons_of_neg (by decide)]
    simp
  · rw [List.reverse_append, List.reverse_cons, List.reverse_reverse]
    exact List.prefix_append _ _

theorem strip_line (key : Key) (rest : List Char) : strip (key.chars ++ ':' :: rest) <+: key.chars ++ ':' :: rest := by
  cases hchars : key.chars with
  | nil => exact XfsQuota.strip_idText (by decide)
  | cons c cs => exact XfsQuota.strip_idText (key.word c (hchars ▸ List.mem_cons_self)).1

theorem startsWith_line_iff : startsWith (k.chars ++ [':']) (line key path) = true ↔ key = k := by
  rw [startsWith, List.isPrefixOf_iff_prefix, line]
  constructor
  · intro h
    obtain ⟨rest, hrest⟩ := h.trans (strip_line key path.chars)
    have hkey : k.chars = key.chars := by
      rw [← takeWhile_key k rest, ← takeWhile_key key path.chars, ← hrest, List.append_assoc]
      rfl
    exact Key.ext hkey.symm
  · rintro rfl
    exact prefix_strip key path.chars

def linesOf (entries : List (Key × Path)) : List (List Char) := entries.map fun entry => line entry.1 entry.2

theorem oneLine_linesOf (entries : List (Key × Path)) : ∀ l ∈ linesOf entries, OneLine l := by
  intro l hl
  obtain ⟨entry, -, rfl⟩ := List.mem_map.mp hl
  exact oneLine_line entry.1 entry.2

theorem any_startsWith : (linesOf entries).any (startsWith (key.chars ++ [':'])) = true ↔ key ∈ entries.map Prod.fst := by
  rw [List.any_eq_true, List.mem_map]
  constructor
  · rintro ⟨l, hl, hstarts⟩
    obtain ⟨entry, hentry, rfl⟩ := List.mem_map.mp hl
    exact ⟨entry, hentry, startsWith_line_iff.mp hstarts⟩
  · rintro ⟨entry, hentry, rfl⟩
    exact ⟨_, List.mem_map_of_mem hentry, startsWith_line_iff.mpr rfl⟩

theorem replace_lines (hdistinct : (entries.map Prod.fst).Nodup) :
    ((linesOf entries).map fun l => if startsWith (key.chars ++ [':']) l then line key path else l) =
      if key ∈ entries.map Prod.fst then linesOf (Dict.putEntry key path entries) else linesOf entries := by
  induction entries with
  | nil => rfl
  | cons entry entries ih =>
      obtain ⟨hfresh, hrest⟩ := List.nodup_cons.mp hdistinct
      have hcons : ∀ entries, linesOf (entry :: entries) = line entry.1 entry.2 :: linesOf entries := fun _ => rfl
      rw [hcons, List.map_cons, List.map_cons, ih hrest, Dict.putEntry]
      by_cases hkey : entry.1 = key
      · rw [if_pos (startsWith_line_iff.mpr hkey), if_neg (hkey ▸ hfresh), if_pos hkey,
          if_pos (hkey ▸ List.mem_cons_self)]
        rfl
      · rw [if_neg (fun h => hkey (startsWith_line_iff.mp h)), if_neg hkey, hcons]
        by_cases hmem : key ∈ entries.map Prod.fst
        · rw [if_pos hmem, if_pos (List.mem_cons_of_mem _ hmem)]
        · rw [if_neg hmem, if_neg (List.not_mem_cons_of_ne_of_not_mem (Ne.symm hkey) hmem)]

theorem putEntry_of_notMem (h : key ∉ entries.map Prod.fst) : Dict.putEntry key path entries = entries ++ [(key, path)] := by
  induction entries with
  | nil => rfl
  | cons entry entries ih =>
      obtain ⟨hne, hmem⟩ := not_or.mp (List.mem_cons.not.mp h)
      rw [Dict.putEntry, if_neg (Ne.symm hne), ih hmem, List.cons_append]

theorem updateLine_linesOf (d : Dict Key Path) (key : Key) (path : Path) :
    XfsQuota.updateLine (some (linesOf d.entries)) (line key path) = some (linesOf (d.put key path).entries) := by
  have hkey : (line key path).takeWhile (· ≠ ':') = key.chars := takeWhile_key key path.chars
  rw [XfsQuota.updateLine, hkey, Option.getD_some, replace_lines d.distinct]
  by_cases hmem : key ∈ d.entries.map Prod.fst
  · rw [if_pos (any_startsWith.mpr hmem), if_pos hmem]
    rfl
  · have hput : (d.put key path).entries = d.entries ++ [(key, path)] := putEntry_of_notMem hmem
    rw [if_neg (fun h => hmem (any_startsWith.mp h)), hput, linesOf, linesOf, List.map_append]
    rfl

theorem removeLine_linesOf (d : Dict Key Path) (key : Key) :
    XfsQuota.removeLine (some (linesOf d.entries)) (key.chars ++ [':']) = some (linesOf (d.pop key).entries) := by
  rw [XfsQuota.removeLine, Option.map_some, linesOf, List.filter_map, linesOf, Dict.pop, Dict.filter]
  dsimp only
  congr 2
  refine List.filter_congr fun entry _ => ?_
  rw [Function.comp_apply, Bool.eq_iff_iff, Bool.not_eq_true', decide_eq_true_iff, ← Bool.not_eq_true]
  exact startsWith_line_iff.not

end Entries

section Projects

def Key.ofNat (id : Nat) : Key where
  chars := Nat.toDigits 10 id
  word c hc := by
    have hdigit : c.isDigit = true := isDigit_toDigits hc
    exact ⟨XfsQuota.isSpace_digitChar hdigit, XfsQuota.isDigit_ne_colon c hc⟩

/-- A project's entry is written and removed by calls with its key. -/
theorem apply_project (file : Option (List Char)) (id : Nat) (path : Path) :
    updateLine file (XfsQuota.entry id (String.ofList path.chars)) = apply file (.update (Key.ofNat id) path) ∧
      removeLine file (XfsQuota.idPrefix id) = apply file (.remove (Key.ofNat id)) := by
  have hentry : XfsQuota.entry id (String.ofList path.chars) = line (Key.ofNat id) path := by
    rw [XfsQuota.entry, XfsQuota.idPrefix, String.toList_ofList, List.append_assoc]
    rfl
  rw [hentry]
  exact ⟨rfl, rfl⟩

end Projects

section Runs

variable {key : Key} {d : Option (Dict Key Path)}

/-- What the calls are for: a map from keys to paths, or none before the first update. -/
def applyDict (d : Option (Dict Key Path)) : Call → Option (Dict Key Path)
  | .update key path => some ((d.getD Dict.empty).put key path)
  | .remove key => d.map fun d => d.pop key

def entriesOf (d : Option (Dict Key Path)) : List (Key × Path) := (d.map Dict.entries).getD []

def fileOf (d : Option (Dict Key Path)) : Option (List Char) := textOf (d.map fun d => linesOf d.entries)

theorem oneLines_dict (d : Option (Dict Key Path)) : OneLines (d.map fun d => linesOf d.entries) := by
  intro ls hls
  obtain ⟨d, -, rfl⟩ := Option.map_eq_some_iff.mp hls
  exact oneLine_linesOf d.entries

theorem apply_fileOf (d : Option (Dict Key Path)) (call : Call) : apply (fileOf d) call = fileOf (applyDict d call) := by
  cases call with
  | update key path =>
      rw [apply, fileOf, updateLine_textOf (oneLines_dict d)]
      cases d with
      | none => exact congrArg textOf (updateLine_linesOf Dict.empty key path)
      | some d => exact congrArg textOf (updateLine_linesOf d key path)
  | remove key =>
      rw [apply, fileOf, removeLine_textOf (oneLines_dict d)]
      cases d with
      | none => rfl
      | some d => exact congrArg textOf (removeLine_linesOf d key)

theorem run_fileOf (calls : List Call) (d : Option (Dict Key Path)) :
    calls.foldl apply (fileOf d) = fileOf (calls.foldl applyDict d) := by
  induction calls generalizing d with
  | nil => rfl
  | cons call calls ih => rw [List.foldl_cons, apply_fileOf, ih, List.foldl_cons]

theorem get_applyDict (d : Option (Dict Key Path)) (call : Call) (key : Key) :
    ((applyDict d call).bind fun d => d.get key) =
      match call with
      | .update k path => if k = key then some path else d.bind fun d => d.get key
      | .remove k => if k = key then none else d.bind fun d => d.get key := by
  cases call with
  | update k path =>
      have hget : (d.getD Dict.empty).get key = d.bind fun d => d.get key := by
        cases d with
        | none => rfl
        | some d => rfl
      rw [applyDict, Option.bind_some, Dict.get_put, hget]
      simp only [eq_comm]
  | remove k =>
      cases d with
      | none => exact (ite_self _).symm
      | some d =>
          rw [applyDict, Option.map_some, Option.bind_some, Dict.get_pop]
          simp only [eq_comm, Option.bind_some]

theorem get_run (calls : List Call) (key : Key) :
    ((calls.foldl applyDict none).bind fun d => d.get key) = lastPath key calls := by
  have hfold : ∀ (calls : List Call) (d : Option (Dict Key Path)),
      ((calls.foldl applyDict d).bind fun d => d.get key) = calls.foldl (fun last call =>
        match call with
        | .update k path => if k = key then some path else last
        | .remove k => if k = key then none else last) (d.bind fun d => d.get key) := by
    intro calls
    induction calls with
    | nil => exact fun d => rfl
    | cons call calls ih =>
        intro d
        rw [List.foldl_cons, ih, List.foldl_cons, get_applyDict]
  exact hfold calls none

theorem readLines_fileOf (d : Option (Dict Key Path)) :
    readLines (fileOf d) = (entriesOf d).map fun entry => line entry.1 entry.2 ++ ['\n'] := by
  rw [fileOf, readLines_textOf (oneLines_dict d)]
  cases d with
  | none => rfl
  | some d => exact List.map_map

theorem parseLine_line (key : Key) (path : Path) : parseLine (line key path ++ ['\n']) = (key.chars, path.chars) := by
  have hline : (line key path ++ ['\n']).takeWhile (· ≠ '\n') = line key path := by
    have hne : ∀ c ∈ line key path, decide (c ≠ '\n') = true := fun c hc => decide_eq_true (oneLine_line key path c hc).1
    rw [List.takeWhile_append_of_pos hne]
    exact List.append_nil _
  rw [parseLine, hline, line, takeWhile_key, dropWhile_key]
  rfl

theorem filter_entriesOf (d : Option (Dict Key Path)) (key : Key) :
    ((entriesOf d).filter fun entry => entry.1 = key) =
      ((d.bind fun d => d.get key).toList.map fun path => (key, path)) := by
  cases d with
  | none => rfl
  | some d => exact d.filter_key key

theorem others_applyDict (d : Option (Dict Key Path)) (call : Call) :
    ((entriesOf (applyDict d call)).filter fun entry => entry.1 ≠ call.key) =
      (entriesOf d).filter fun entry => entry.1 ≠ call.key := by
  cases call with
  | update key path =>
      cases d with
      | none => exact Dict.filter_putEntry key path []
      | some d => exact Dict.filter_putEntry key path d.entries
  | remove key =>
      cases d with
      | none => rfl
      | some d =>
          refine (List.filter_filter ..).trans (List.filter_congr fun entry _ => ?_)
          exact Bool.and_self _

/-- The file is a map: each key has the line of its last update and no other, every line
is one of a key, and a call leaves the lines of all other keys as they are. -/
theorem file_map (calls : List Call) :
    (∀ key : Key, (((readLines (calls.foldl apply none)).map parseLine).filter fun entry => entry.1 = key.chars) =
      (lastPath key calls).toList.map fun path => (key.chars, path.chars)) ∧
    (∀ l ∈ readLines (calls.foldl apply none), ∃ key path, l = line key path ++ ['\n']) ∧
    (readLines (calls.foldl apply none)).flatten = (calls.foldl apply none).getD [] ∧
    ∀ call, ((readLines (apply (calls.foldl apply none) call)).filter fun l => (parseLine l).1 ≠ call.key.chars) =
      (readLines (calls.foldl apply none)).filter fun l => (parseLine l).1 ≠ call.key.chars := by
  have hrun : calls.foldl apply none = fileOf (calls.foldl applyDict none) := run_fileOf calls none
  rw [hrun]
  have hchars : ∀ key key' : Key, key.chars = key'.chars ↔ key = key' := fun key key' => Key.ext_iff.symm
  refine ⟨fun key => ?_, fun l hl => ?_, ?_, fun call => ?_⟩
  · have hfilter := filter_entriesOf (calls.foldl applyDict none) key
    rw [get_run] at hfilter
    rw [readLines_fileOf, List.map_map, List.filter_map]
    simp only [Function.comp_def, parseLine_line, hchars, hfilter, List.map_map]
  · rw [readLines_fileOf] at hl
    obtain ⟨entry, -, rfl⟩ := List.mem_map.mp hl
    exact ⟨entry.1, entry.2, rfl⟩
  · cases calls.foldl applyDict none with
    | none => rfl
    | some d =>
        rw [fileOf, readLines_textOf (oneLines_dict (some d))]
        exact flatten_lines _
  · have hothers := others_applyDict (calls.foldl applyDict none) call
    rw [apply_fileOf, readLines_fileOf, readLines_fileOf, List.filter_map, List.filter_map]
    simp only [Function.comp_def, parseLine_line, ne_eq, hchars] at hothers ⊢
    rw [hothers]

/-- A carriage return in a path ends a line when the file is read. -/
theorem carriage_return_splits : ¬ ∀ (id : Nat) (path key : List Char), '\n' ∉ path →
    (((readLines (updateLine none (XfsQuota.idPrefix id ++ path))).map parseLine).filter fun entry => entry.1 = key) =
      if key = Nat.toDigits 10 id then [(key, path)] else [] := by
  intro h
  have hfile := h 7 "/a\r13:/x".toList "13".toList (by decide)
  exact absurd hfile (by decide +kernel)

end Runs

end NukeLab.ProjectsFile
