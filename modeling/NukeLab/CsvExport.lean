import NukeLab.CsvTexts

namespace NukeLab.CsvExport

open CsvTexts (Field Cell isText parse rowText rowsText values Closes)

/-- An exported object: its own keys in order, and what `row[h]` is, unless null or undefined, as a string. -/
structure Row where
  keys : List Field
  get : Field → Option Field

structure Download where
  csv : List Char
  name : List Char

/-- `str.replace(/"/g, '""')` -/
def replaceQuotes (str : Field) : Field := str.flatMap fun c => if c = '"' then ['"', '"'] else [c]

def needsQuotes (str : Field) : Bool := ',' ∈ str || '"' ∈ str || '\n' ∈ str

def escape (val : Option Field) : Field :=
  let str := val.getD []
  if needsQuotes str then '"' :: (replaceQuotes str ++ ['"']) else str

def headers (data : List Row) : List Field := (data.head?.map Row.keys).getD []

def exportToCSV (data : List Row) (filename : List Char) : Option Download :=
  if data = [] then none
  else
    let rows := data.map fun row => [','].intercalate ((headers data).map fun h => escape (row.get h))
    some {
      csv := ['\n'].intercalate ([','].intercalate (headers data) :: rows)
      name := if ".csv".toList <:+ filename then filename else filename ++ ".csv".toList }

def cell (row : Row) (h : Field) : Field := (row.get h).getD []

def table (data : List Row) : List (List Field) := headers data :: data.map fun row => (headers data).map (cell row)

/-- The headers are written as they are, and a carriage return alone is no reason to quote. -/
structure Readable (data : List Row) : Prop where
  headed : headers data ≠ []
  plain : ∀ h ∈ headers data, ∀ c ∈ h, isText c = true
  returns : ∀ row ∈ data, ∀ h ∈ headers data, '\r' ∈ cell row h → needsQuotes (cell row h) = true
  closes : ∀ row ∈ data.getLast?, ∀ h, headers data = [h] → cell row h ≠ []

def headerCells (data : List Row) : List Cell := (headers data).map (Cell.mk false)

def cells (data : List Row) (row : Row) : List Cell :=
  (headers data).map fun h => ⟨needsQuotes (cell row h), cell row h⟩

variable {data : List Row}

theorem rowText_headerCells : rowText (headerCells data) = [','].intercalate (headers data) := by
  rw [rowText, headerCells, List.map_map]
  exact congrArg _ (List.map_id _)

theorem rowText_cells (row : Row) :
    rowText (cells data row) = [','].intercalate ((headers data).map fun h => escape (row.get h)) := by
  rw [rowText, cells, List.map_map]
  rfl

theorem exportToCSV_csv (hdata : data ≠ []) (filename : List Char) :
    (exportToCSV data filename).map Download.csv = some (rowsText (headerCells data :: data.map (cells data))) := by
  rw [exportToCSV, if_neg hdata, rowsText, List.map_cons, rowText_headerCells, List.map_map]
  simp only [Function.comp_def, rowText_cells]
  rfl

theorem values_eq : values (headerCells data :: data.map (cells data)) = table data := by
  simp [values, headerCells, cells, table, Function.comp_def]

theorem isText_of_needsQuotes {str : Field} (h : needsQuotes str = false) (hreturn : '\r' ∉ str) : ∀ c ∈ str, isText c = true := by
  intro c hc
  simp only [needsQuotes, Bool.or_eq_false_iff, decide_eq_false_iff_not] at h
  simp only [isText, Bool.and_eq_true, decide_eq_true_eq]
  refine ⟨⟨⟨?_, ?_⟩, ?_⟩, ?_⟩ <;> rintro rfl
  · exact h.1.1 hc
  · exact h.1.2 hc
  · exact h.2 hc
  · exact hreturn hc

theorem sound_cell {str : Field} : (Cell.mk (needsQuotes str) str).Sound ↔ ('\r' ∈ str → needsQuotes str = true) := by
  rw [Cell.Sound]
  constructor
  · rintro (h | h) hreturn
    · exact h
    · exact absurd (h _ hreturn) (by decide)
  · intro h
    cases hq : needsQuotes str with
    | true => exact .inl rfl
    | false =>
        refine .inr (isText_of_needsQuotes hq fun hreturn => ?_)
        rw [h hreturn] at hq
        cases hq

theorem raw_eq_nil {str : Field} : Cell.raw ⟨needsQuotes str, str⟩ = [] ↔ str = [] := by
  rw [Cell.raw]
  split
  · next h =>
      refine iff_of_false (List.cons_ne_nil _ _) fun hnil => ?_
      subst hnil
      cases h
  · rfl

theorem rowText_cells_ne_nil (hheaded : headers data ≠ []) (row : Row) :
    rowText (cells data row) ≠ [] ↔ ∀ h, headers data = [h] → cell row h ≠ [] := by
  have hcells : cells data row ≠ [] := fun h => hheaded (List.map_eq_nil_iff.mp h)
  rw [ne_eq, CsvTexts.rowText_eq_nil hcells]
  constructor
  · rintro hne h hheaders hcell
    exact hne ⟨_, by rw [cells, hheaders, List.map_singleton], raw_eq_nil.mpr hcell⟩
  · rintro hne ⟨c, hc, hraw⟩
    obtain ⟨h, hheaders, rfl⟩ := List.map_eq_singleton_iff.mp hc
    exact hne h hheaders (raw_eq_nil.mp hraw)

theorem sound_headerCells : (∀ d ∈ headerCells data, d.Sound) ↔ ∀ h ∈ headers data, ∀ c ∈ h, isText c = true := by
  simp [headerCells, Cell.Sound]

theorem sound_cells (row : Row) :
    (∀ d ∈ cells data row, d.Sound) ↔ ∀ h ∈ headers data, '\r' ∈ cell row h → needsQuotes (cell row h) = true := by
  simp only [cells, List.forall_mem_map, sound_cell]

theorem closes_iff (r : List Cell) :
    Closes (r :: data.map (cells data)) ↔ ∀ row ∈ data.getLast?, rowText (cells data row) ≠ [] := by
  rw [Closes, List.tail_cons, List.getLast?_map]
  cases data.getLast? with
  | none =>
      constructor
      · intro _ row hrow
        cases hrow
      · intro _ row hrow
        cases hrow
  | some last => simp

/-- A file is read back as the table it was made from exactly when nothing in it had to be quoted and was not. -/
theorem export_reads_back_iff (data : List Row) (filename : List Char) :
    ((exportToCSV data filename).bind fun d => parse d.csv) = some (table data) ↔ Readable data := by
  by_cases hdata : data = []
  · subst hdata
    exact iff_of_false (fun h => nomatch h) fun h => h.headed rfl
  · have hcsv := exportToCSV_csv hdata filename
    obtain ⟨d, hd, hcsv⟩ := Option.map_eq_some_iff.mp hcsv
    rw [hd, Option.bind_some, hcsv]
    by_cases hheaded : headers data = []
    · refine iff_of_false (fun h => ?_) fun h => h.headed hheaded
      rw [table, hheaded] at h
      exact CsvTexts.parse_ne_nil_cons _ _ h
    · have hne : ∀ r ∈ headerCells data :: data.map (cells data), r ≠ [] := by
        rw [List.forall_mem_cons, List.forall_mem_map]
        exact ⟨fun h => hheaded (List.map_eq_nil_iff.mp h), fun row _ h => hheaded (List.map_eq_nil_iff.mp h)⟩
      rw [← values_eq, CsvTexts.parse_rowsText hne, List.forall_mem_cons, List.forall_mem_map, sound_headerCells,
        closes_iff]
      simp only [sound_cells, rowText_cells_ne_nil hheaded]
      exact ⟨fun h => ⟨hheaded, h.1.1, h.1.2, h.2⟩, fun h => ⟨⟨h.plain, h.returns⟩, h.closes⟩⟩

end NukeLab.CsvExport
