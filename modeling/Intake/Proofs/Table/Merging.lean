import Intake.Proofs.Text.Lines
import Intake.Table.Pages

/-!
# Merged tables

The rows of the tables of several pages, merged.

There are three groups.

* Rows.  `length_rows` counts the rows of a text by its newlines, and
  `rows_append` are the rows of two texts, of which the first ends its last row.
* Parts.  `rows_flatten_iff` says when the rows of several texts in one are the
  rows of each.
* Tables.  `toList_mergeTables` says which parts a merged table has, and
  `rows_mergeTables` what becomes of the rows.
-/

namespace Intake.Pages

open Text

/-! ## Rows -/

/-- The rows of a table.  Nothing behind the last newline is no row. -/
def rows (table : List Char) : List (List Char) :=
  if (lines table).getLast? = some [] then (lines table).dropLast else lines table

/-- Whether a table ends its last row with a newline. -/
def EndsRow (table : List Char) : Prop := table.getLast? = some '\n'

instance : DecidablePred EndsRow := fun _ => inferInstanceAs (Decidable (_ = _))

theorem endsRow_append {s t : List Char} (ht : t ≠ []) : EndsRow (s ++ t) ↔ EndsRow t := by
  rw [EndsRow, EndsRow, List.getLast?_append_of_ne_nil s ht]

theorem exists_of_endsRow {s : List Char} (h : EndsRow s) : ∃ s', s = s' ++ ['\n'] :=
  List.getLast?_eq_some_iff.1 h

theorem rows_nil : rows [] = [] := rfl

theorem rows_append_newline (s t : List Char) : rows (s ++ '\n' :: t) = lines s ++ rows t := by
  have hlast : (lines s ++ lines t).getLast? = (lines t).getLast? :=
    List.getLast?_append_of_ne_nil _ (lines_ne_nil t)
  rw [rows, rows, lines_append_newline, hlast, List.dropLast_append_of_ne_nil (lines_ne_nil t)]
  split <;> rfl

theorem rows_append {s : List Char} (h : EndsRow s) (t : List Char) :
    rows (s ++ t) = rows s ++ rows t := by
  obtain ⟨s, rfl⟩ := exists_of_endsRow h
  rw [List.append_assoc, List.singleton_append, rows_append_newline, rows_append_newline, rows_nil,
    List.append_nil]

theorem rows_eq_lines {s : List Char} (hne : s ≠ []) (h : ¬ EndsRow s) : rows s = lines s := by
  rw [rows, if_neg]
  intro hlast
  have hjoin : s = joinWith ['\n'] ((lines s).dropLast ++ [[]]) := by
    rw [List.dropLast_append_getLast? [] hlast, joinWith_lines]
  by_cases hinit : (lines s).dropLast = []
  · rw [hinit, List.nil_append, joinWith_singleton] at hjoin
    exact hne hjoin
  · rw [joinWith_append _ hinit (List.cons_ne_nil _ _), joinWith_singleton, List.append_nil]
      at hjoin
    refine h ?_
    rw [EndsRow, hjoin]
    exact List.getLast?_concat

theorem length_lines (s : List Char) : (lines s).length = s.count '\n' + 1 := by
  induction s with
  | nil => rfl
  | cons c s ih =>
    by_cases hc : c = '\n'
    · rw [hc, lines_newline_cons, List.length_cons, ih, List.count_cons_self]
    · rw [lines_cons hc, List.length_modifyHead, ih, List.count_cons_of_ne hc]

/-- A text has a row for each newline, and one more where it does not end with one. -/
theorem length_rows (s : List Char) :
    (rows s).length = s.count '\n' + if s = [] ∨ EndsRow s then 0 else 1 := by
  by_cases hs : s = []
  · rw [hs]
    rfl
  · by_cases h : EndsRow s
    · rw [if_pos (Or.inr h)]
      obtain ⟨s, rfl⟩ := exists_of_endsRow h
      rw [rows_append_newline, rows_nil, List.append_nil, length_lines, List.count_append]
      rfl
    · rw [if_neg (not_or.2 ⟨hs, h⟩), rows_eq_lines hs h, length_lines]

theorem rows_eq_nil_iff {s : List Char} : rows s = [] ↔ s = [] := by
  constructor
  · intro h
    have hlength := length_rows s
    rw [h, List.length_nil] at hlength
    by_contra hs
    by_cases hends : EndsRow s
    · have hcount : 0 < s.count '\n' := List.count_pos_iff.2 (List.mem_of_getLast? hends)
      omega
    · rw [if_neg (not_or.2 ⟨hs, hends⟩)] at hlength
      omega
  · rintro rfl
    rfl

/-- The rows hold everything but the newlines, in order. -/
theorem flatten_rows (s : List Char) : (rows s).flatten = s.filter (· != '\n') := by
  have hlines : (lines s).flatten = s.filter (· != '\n') := by
    induction s with
    | nil => rfl
    | cons c s ih =>
      by_cases hc : c = '\n'
      · rw [hc, lines_newline_cons, List.flatten_cons, List.nil_append, ih]
        rfl
      · obtain ⟨l, ls, hls⟩ := List.exists_cons_of_ne_nil (lines_ne_nil s)
        rw [hls] at ih
        rw [lines_cons hc, hls, List.modifyHead_cons, List.flatten_cons, List.cons_append,
          ← List.flatten_cons, ih, List.filter_cons_of_pos (by simpa using hc)]
  rw [rows]
  split
  · rename_i hlast
    rw [← hlines]
    conv_rhs => rw [← List.dropLast_append_getLast? [] hlast]
    rw [List.flatten_append, List.flatten_singleton, List.append_nil]
  · exact hlines

/-! ## Parts -/

theorem flatten_flatMap_rows (parts : List (List Char)) :
    (parts.flatMap rows).flatten = parts.flatten.filter (· != '\n') := by
  induction parts with
  | nil => rfl
  | cons part parts ih =>
    rw [List.flatMap_cons, List.flatten_append, flatten_rows, ih, List.flatten_cons,
      List.filter_append]

/-- Two texts in one have no more rows than the two have. -/
theorem length_rows_append_le (s t : List Char) :
    (rows (s ++ t)).length ≤ (rows s).length + (rows t).length := by
  by_cases ht : t = []
  · rw [ht, List.append_nil]
    omega
  · by_cases hs : s = []
    · rw [hs, List.nil_append]
      omega
    · have hne : s ++ t ≠ [] := List.append_ne_nil_of_left_ne_nil hs t
      simp only [length_rows, List.count_append, endsRow_append ht, hs, ht, hne, false_or]
      omega

/-- Two texts in one have fewer rows where the first leaves its last row open. -/
theorem length_rows_append_lt {s t : List Char} (hs : s ≠ []) (hopen : ¬ EndsRow s) (ht : t ≠ []) :
    (rows (s ++ t)).length < (rows s).length + (rows t).length := by
  have hne : s ++ t ≠ [] := List.append_ne_nil_of_left_ne_nil hs t
  simp only [length_rows, List.count_append, endsRow_append ht, hs, ht, hne, hopen, false_or,
    if_false]
  omega

theorem length_rows_flatten_le (parts : List (List Char)) :
    (rows parts.flatten).length ≤ (parts.flatMap rows).length := by
  induction parts with
  | nil => exact Nat.le_refl 0
  | cons part parts ih =>
    rw [List.flatten_cons, List.flatMap_cons, List.length_append]
    exact (length_rows_append_le _ _).trans (Nat.add_le_add_left ih _)

/-- The rows of texts in one are the rows of each, unless a text leaves a row open that
another one goes on with. -/
theorem rows_flatten_iff {parts : List (List Char)} :
    rows parts.flatten = parts.flatMap rows ↔
      parts.Pairwise fun s t => s = [] ∨ EndsRow s ∨ t = [] := by
  induction parts with
  | nil => exact iff_of_true rfl List.Pairwise.nil
  | cons s parts ih =>
    rw [List.flatten_cons, List.flatMap_cons, List.pairwise_cons, ← ih]
    by_cases hs : s = []
    · simp [hs, rows_nil]
    · by_cases hends : EndsRow s
      · simp [hends, rows_append hends]
      · by_cases hrest : parts.flatten = []
        · have hnil : ∀ t ∈ parts, t = [] := List.flatten_eq_nil_iff.1 hrest
          have hrows : parts.flatMap rows = [] :=
            List.flatMap_eq_nil_iff.2 fun t ht => rows_eq_nil_iff.2 (hnil t ht)
          rw [hrest, hrows, List.append_nil, List.append_nil]
          exact iff_of_true rfl ⟨fun t ht => Or.inr (Or.inr (hnil t ht)), rows_nil⟩
        · refine iff_of_false ?_ ?_
          · intro heq
            have hlt := length_rows_append_lt hs hends hrest
            have hle := length_rows_flatten_le parts
            rw [heq, List.length_append] at hlt
            omega
          · rintro ⟨hall, -⟩
            refine hrest (List.flatten_eq_nil_iff.2 fun t ht => ?_)
            exact ((hall t ht).resolve_left hs).resolve_left hends

/-! ## Tables -/

/-- The rows of a table below its headings. -/
def dataRows (table : List Char) : List (List Char) := (rows table).tail

/-- The headings of the first table and the rows below the headings of each table. -/
def mergedRows (tables : List (List Char)) : List (List Char) :=
  ((tables.take 1).flatMap fun table => (rows table).take 1) ++ tables.flatMap dataRows

/-- Whether each table ends its last row that it brings to the merged table, or no table
behind it brings any. -/
def Separated : List (List Char) → Prop
  | [] => True
  | first :: rest =>
    (EndsRow first ∨ ∀ table ∈ rest, dataRows table = []) ∧
      rest.Pairwise fun s t => dataRows s = [] ∨ EndsRow s ∨ dataRows t = []

instance : DecidablePred Separated
  | [] => inferInstanceAs (Decidable True)
  | first :: rest => inferInstanceAs (Decidable
      ((EndsRow first ∨ ∀ table ∈ rest, dataRows table = []) ∧
        rest.Pairwise fun s t => dataRows s = [] ∨ EndsRow s ∨ dataRows t = []))

theorem belowHeadings_of_notMem {s : List Char} (h : '\n' ∉ s) : belowHeadings s = [] := by
  have hnil : s.dropWhile (· != '\n') = [] := by
    rw [List.dropWhile_eq_nil_iff]
    intro c hc
    have hne : c ≠ '\n' := by
      rintro rfl
      exact h hc
    simpa using hne
  rw [belowHeadings, hnil]
  rfl

theorem belowHeadings_append {s : List Char} (h : '\n' ∉ s) (t : List Char) :
    belowHeadings (s ++ '\n' :: t) = t := by
  have hkeep : ∀ c ∈ s, (c != '\n') = true := by
    intro c hc
    have hne : c ≠ '\n' := by
      rintro rfl
      exact h hc
    simpa using hne
  rw [belowHeadings, List.dropWhile_append_of_pos hkeep]
  rfl

theorem rows_belowHeadings (table : List Char) : rows (belowHeadings table) = dataRows table := by
  by_cases h : '\n' ∈ table
  · obtain ⟨s, t, rfl, hs⟩ := List.eq_append_cons_of_mem h
    rw [belowHeadings_append hs, dataRows, rows_append_newline, lines_of_notMem hs]
    rfl
  · have hnone : (rows table).tail = [] := by
      rw [rows, lines_of_notMem h]
      split <;> rfl
    rw [belowHeadings_of_notMem h, dataRows, hnone, rows_nil]

theorem belowHeadings_eq_nil_iff {table : List Char} :
    belowHeadings table = [] ↔ dataRows table = [] := by
  rw [← rows_belowHeadings, rows_eq_nil_iff]

theorem endsRow_belowHeadings {table : List Char} (h : belowHeadings table ≠ []) :
    EndsRow (belowHeadings table) ↔ EndsRow table := by
  by_cases hmem : '\n' ∈ table
  · obtain ⟨s, t, rfl, hs⟩ := List.eq_append_cons_of_mem hmem
    rw [belowHeadings_append hs] at h ⊢
    rw [List.append_cons, endsRow_append h]
  · exact absurd (belowHeadings_of_notMem hmem) h

/-- What each table brings to the merged table. -/
def parts : List (List Char) → List (List Char)
  | [] => []
  | first :: rest => first :: rest.map belowHeadings

theorem flatMap_rows_parts (tables : List (List Char)) :
    (parts tables).flatMap rows = mergedRows tables := by
  cases tables with
  | nil => rfl
  | cons first rest =>
    have hrest : (rest.map belowHeadings).flatMap rows = rest.flatMap dataRows := by
      rw [List.flatMap_map]
      simp only [rows_belowHeadings]
    have hfirst : rows first = (rows first).take 1 ++ dataRows first := by
      rw [dataRows, ← List.drop_one, List.take_append_drop]
    rw [parts, List.flatMap_cons, hrest, mergedRows, List.take_succ_cons, List.take_zero,
      List.flatMap_singleton, List.flatMap_cons, ← List.append_assoc, ← hfirst]

theorem pairwise_parts_iff {tables : List (List Char)} (hne : [] ∉ tables) :
    ((parts tables).Pairwise fun s t => s = [] ∨ EndsRow s ∨ t = []) ↔ Separated tables := by
  cases tables with
  | nil => exact iff_of_true List.Pairwise.nil trivial
  | cons first rest =>
    have hfirst : first ≠ [] := by
      rintro rfl
      exact hne List.mem_cons_self
    have hopen : ∀ s t : List Char,
        (dataRows s = [] ∨ EndsRow (belowHeadings s) ∨ dataRows t = []) ↔
          (dataRows s = [] ∨ EndsRow s ∨ dataRows t = []) := by
      intro s t
      by_cases hs : dataRows s = []
      · simp [hs]
      · rw [endsRow_belowHeadings (belowHeadings_eq_nil_iff.not.2 hs)]
    rw [parts, List.pairwise_cons, List.pairwise_map, Separated]
    simp only [List.forall_mem_map, belowHeadings_eq_nil_iff, hopen, hfirst, false_or,
      forall_or_left]

/-- A table that is added to others is added without its headings. -/
theorem toList_appendTable {merged : String} (h : merged ≠ "") (table : String) :
    (appendTable merged table).toList = merged.toList ++ belowHeadings table.toList := by
  have hne : merged.isEmpty = false := by simpa using h
  rw [appendTable, hne, if_neg (by decide), String.toList_append, String.toList_ofList]

theorem toList_foldl_appendTable {merged : String} (h : merged ≠ "") (tables : List String) :
    (tables.foldl appendTable merged).toList =
      merged.toList ++ (tables.map fun table => belowHeadings table.toList).flatten := by
  induction tables generalizing merged with
  | nil => exact (List.append_nil _).symm
  | cons table tables ih =>
    have hstep := toList_appendTable h table
    have hne : appendTable merged table ≠ "" := by
      intro hnil
      rw [hnil] at hstep
      exact h (String.toList_eq_nil_iff.1 (List.append_eq_nil_iff.1 hstep.symm).1)
    rw [List.foldl_cons, ih hne, hstep, List.map_cons, List.flatten_cons, List.append_assoc]

theorem toList_mergeTables {tables : List String} (h : "" ∉ tables) :
    (mergeTables tables).toList = (parts (tables.map String.toList)).flatten := by
  cases tables with
  | nil => rfl
  | cons first rest =>
    obtain ⟨hfirst, -⟩ := not_or.1 (List.mem_cons.not.1 h)
    have hmerge : mergeTables (first :: rest) = rest.foldl appendTable first := rfl
    rw [hmerge, toList_foldl_appendTable (Ne.symm hfirst), List.map_cons, parts, List.flatten_cons,
      List.map_map]
    rfl

/-- Merging loses, doubles and moves nothing.  The rows of the merged table are the first
headings and then the rows of all tables just if no table leaves a row open that another
one goes on with. -/
theorem rows_mergeTables {tables : List String} (h : "" ∉ tables) :
    (rows (mergeTables tables).toList).flatten =
        (mergedRows (tables.map String.toList)).flatten ∧
      (rows (mergeTables tables).toList = mergedRows (tables.map String.toList) ↔
        Separated (tables.map String.toList)) := by
  have hne : [] ∉ tables.map String.toList := by
    intro hmem
    obtain ⟨table, htable, hnil⟩ := List.mem_map.1 hmem
    rw [String.toList_eq_nil_iff.1 hnil] at htable
    exact h htable
  rw [toList_mergeTables h, ← flatMap_rows_parts, rows_flatten_iff, pairwise_parts_iff hne,
    flatten_flatMap_rows, flatten_rows]
  exact ⟨rfl, Iff.rfl⟩

/-- The last table may leave its last row open, and a table with headings only its headings. -/
theorem rows_mergeTables_threePages :
    "" ∉ ["word\nOne\n", "word", "word\nTwo"] ∧
      rows (mergeTables ["word\nOne\n", "word", "word\nTwo"]).toList =
        ["word".toList, "One".toList, "Two".toList] := by
  have h : "" ∉ ["word\nOne\n", "word", "word\nTwo"] := by decide
  have hseparated :
      Separated (["word\nOne\n", "word", "word\nTwo"].map String.toList) := by decide
  exact ⟨h, ((rows_mergeTables h).2.2 hseparated).trans (by decide)⟩

/-- A row that is left open takes in the first row of the next page. -/
theorem not_rows_mergeTables : ¬ ∀ tables : List String, "" ∉ tables →
    rows (mergeTables tables).toList = mergedRows (tables.map String.toList) := by
  intro h
  have hrows := h ["word\nOne", "word\nTwo"] (by decide)
  exact absurd hrows (by decide)

end Intake.Pages
