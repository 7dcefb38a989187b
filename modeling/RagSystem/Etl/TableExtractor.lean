import RagSystem.Data.HtmlTree
import RagSystem.Data.Joining
import RagSystem.Data.MarkdownTable
import RagSystem.Etl.MarkdownText

/-! Tables of a page (`etl/chunker/table_extractor.py`): their header and rows, the Markdown text of
both, and which tables survive the two. -/

namespace RagSystem.Etl.TableExtractor

open HtmlTree MarkdownText

structure TableData where
  headers : List Text
  rows : List (List Text)
  caption : Text := []
  deriving DecidableEq, Repr

/-! ### Extraction -/

/-- `element.get_text(strip=True)` -/
def getText (element : HtmlTree.Element) : Text :=
  (((stringsIn element.2).map strip).filter (· ≠ [])).flatten

def cellsOf (row : HtmlTree.Element) : List HtmlTree.Element := findAll ["th", "td"] row

def textsOf (row : HtmlTree.Element) : List Text := (cellsOf row).map getText

def hasHeaderCell (row : HtmlTree.Element) : Bool := (cellsOf row).any (fun cell => cell.1 = "th")

def addRow (found : List Text × List (List Text)) (row : HtmlTree.Element) :
    List Text × List (List Text) :=
  if cellsOf row = [] then found
  else if hasHeaderCell row = true ∧ found.1 = [] then (textsOf row, found.2)
  else (found.1, found.2 ++ [textsOf row])

/-- The cells of the first row of the first `thead`. -/
def headOf (table : HtmlTree.Element) : List Text :=
  match HtmlTree.find "thead" table with
  | none => []
  | some thead =>
      match HtmlTree.find "tr" thead with
      | none => []
      | some row => textsOf row

/-- The first `tbody`, or the table. -/
def bodyOf (table : HtmlTree.Element) : HtmlTree.Element := (HtmlTree.find "tbody" table).getD table

def gather (table : HtmlTree.Element) : List Text × List (List Text) :=
  (findAll ["tr"] (bodyOf table)).foldl addRow (headOf table, [])

def extractTable (table : HtmlTree.Element) : Option TableData :=
  let caption :=
    match HtmlTree.find "caption" table with
    | none => []
    | some element => getText element
  let found := gather table
  if found.1 = [] ∧ found.2 = [] then none else some ⟨found.1, found.2, caption⟩

/-- `extract_tables_from_html`. The parser may be missing, or fail. -/
def extractTablesFromHtml (beautifulSoup : Option (Text → Option (List HtmlTree.Node)))
    (html : Text) :
    List TableData :=
  if html = [] then []
  else
    match beautifulSoup with
    | none => []
    | some parse =>
        match parse html with
        | none => []
        | some page => (findAll ["table"] ("[document]", page)).filterMap extractTable

/-! ### Markdown -/

/-- `text.replace("\n", " ")` -/
def oneLine (text : Text) : Text := text.map (fun char => if char = '\n' then ' ' else char)

def cleanCell (text : Text) : Text := (oneLine text).flatMap MarkdownTable.escapeBar

def bars (cells : List Text) : Text :=
  ['|', ' '] ++ [' ', '|', ' '].intercalate cells ++ [' ', '|']

def pad (columns : Nat) (cells : List Text) : List Text :=
  cells ++ List.replicate (columns - cells.length) []

def maxCols (table : TableData) : Nat :=
  if table.headers = [] then (table.rows.map List.length).foldl max 0 else table.headers.length

def tableToMarkdown (table : TableData) : Text :=
  if table.rows = [] ∧ table.headers = [] then []
  else if maxCols table = 0 then []
  else
    let caption :=
      if table.caption = [] then []
      else [['*', '*'] ++ table.caption ++ ['*', '*', '\n']]
    let header :=
      if table.headers = [] then bars (List.replicate (maxCols table) [' '])
      else bars ((pad (maxCols table) table.headers).map cleanCell)
    let delimiter := ['|'] ++
      ['|'].intercalate (List.replicate (maxCols table) [' ', '-', '-', '-', ' ']) ++ ['|']
    let rows := table.rows.map (fun row => bars ((pad (maxCols table) row).map cleanCell))
    ['\n'].intercalate (caption ++ [header, delimiter] ++ rows)

/-! ### What survives -/

def rowsOf (table : HtmlTree.Element) : List (List Text) := (findAll ["tr"] table).map textsOf

def linesOf (found : List Text × List (List Text)) : List (List Text) :=
  (if found.1 = [] then [] else [found.1]) ++ found.2

def readTable (markdown : Text) : List (List Text) :=
  (MarkdownTable.tableLines markdown).map MarkdownTable.readCells

/-- The lines are the header, the delimiter and the rows, padded to one number of cells. -/
def Rendered (data : TableData) : Prop :=
  ∃ columns, (∀ line ∈ readTable (tableToMarkdown data), line.length = columns) ∧
    readTable (tableToMarkdown data) = pad columns data.headers ::
      List.replicate columns ['-', '-', '-'] :: data.rows.map (pad columns)

/-- Every row of the table is the header or one of the rows, once and in order, and the Markdown
table has them all. -/
def Survives (table : HtmlTree.Element) : Prop :=
  match extractTable table with
  | none => rowsOf table = []
  | some data => linesOf (data.headers, data.rows) = rowsOf table ∧ Rendered data

/-- A header comes from the `thead`, or from a row with a header cell. -/
def Headed (table : HtmlTree.Element) : Prop :=
  headOf table ≠ [] ∨ ∃ row ∈ findAll ["tr"] (bodyOf table), hasHeaderCell row = true

/-- The rows before the first one with a header cell look like it. -/
def Leading (rows : List HtmlTree.Element) : Prop :=
  ∀ row, rows.find? hasHeaderCell = some row →
    ∀ other ∈ rows.takeWhile (fun other => !hasHeaderCell other), textsOf other = textsOf row

structure Regular (table : HtmlTree.Element) : Prop where
  /-- No row is without a cell. -/
  filled : ∀ row ∈ rowsOf table, row ≠ []
  /-- The rows of the table are the one taken from the `thead` and those of the body. -/
  arranged : rowsOf table =
    (if headOf table = [] then [] else [headOf table]) ++ rowsOf (bodyOf table)
  leading : headOf table = [] → Leading (findAll ["tr"] (bodyOf table))
  /-- No row is longer than the header. -/
  narrow : Headed table → ∀ row ∈ rowsOf table, row.length ≤ ((rowsOf table).headD []).length
  unbroken : ∀ row ∈ rowsOf table, ∀ text ∈ row, '\n' ∉ text

/-! The rows that are found. -/

section Rows

variable {table row : HtmlTree.Element} {rows : List HtmlTree.Element} {header : List Text}
  {earlier : List (List Text)}

theorem textsOf_eq_nil_iff : textsOf row = [] ↔ cellsOf row = [] := List.map_eq_nil_iff

theorem textsOf_ne_nil (header : hasHeaderCell row = true) : textsOf row ≠ [] := by
  obtain ⟨cell, member, -⟩ := List.any_eq_true.mp header
  exact fun none => List.ne_nil_of_mem member (textsOf_eq_nil_iff.mp none)

def kept (rows : List HtmlTree.Element) : List (List Text) := (rows.map textsOf).filter (· ≠ [])

theorem kept_eq (filled : ∀ texts ∈ rows.map textsOf, texts ≠ []) : kept rows = rows.map textsOf :=
  List.filter_eq_self.mpr (by simpa using filled)

theorem ne_nil_of_mem_kept {texts : List Text} (member : texts ∈ kept rows) : texts ≠ [] := by
  simpa using (List.mem_filter.mp member).2

theorem kept_cons (row : HtmlTree.Element) (rows : List HtmlTree.Element) :
    kept (row :: rows) = (if textsOf row = [] then [] else [textsOf row]) ++ kept rows := by
  by_cases empty : textsOf row = []
  · simp [kept, empty]
  · simp [kept, empty]

theorem foldl_addRow_plain
    (plain : header ≠ [] ∨ ∀ row ∈ rows, hasHeaderCell row = false) :
    rows.foldl addRow (header, earlier) = (header, earlier ++ kept rows) := by
  induction rows generalizing earlier with
  | nil => simp [kept]
  | cons row rows ih =>
      have later : header ≠ [] ∨ ∀ row ∈ rows, hasHeaderCell row = false :=
        plain.imp_right (fun each other member => each other (List.mem_cons_of_mem row member))
      have apart : ¬ (hasHeaderCell row = true ∧ header = []) := by
        intro both
        rcases plain with named | each
        · exact named both.2
        · simp [each row List.mem_cons_self] at both
      by_cases empty : cellsOf row = []
      · rw [List.foldl_cons, addRow, if_pos empty, ih later, kept_cons,
          if_pos (textsOf_eq_nil_iff.mpr empty)]
        rfl
      · rw [List.foldl_cons, addRow, if_neg empty, if_neg apart, ih later, kept_cons,
          if_neg (fun none => empty (textsOf_eq_nil_iff.mp none)), List.append_assoc]

theorem foldl_addRow_first {before after : List HtmlTree.Element}
    (plain : ∀ other ∈ before, hasHeaderCell other = false) (header : hasHeaderCell row = true) :
    (before ++ row :: after).foldl addRow ([], []) = (textsOf row, kept before ++ kept after) := by
  have filled : cellsOf row ≠ [] := fun none => textsOf_ne_nil header (textsOf_eq_nil_iff.mpr none)
  rw [List.foldl_append, foldl_addRow_plain (Or.inr plain), List.foldl_cons, addRow,
    if_neg filled, if_pos ⟨header, rfl⟩, foldl_addRow_plain (Or.inl (textsOf_ne_nil header))]
  rfl

theorem rowsOf_bodyOf_sublist (table : HtmlTree.Element) :
    (rowsOf (bodyOf table)).Sublist (rowsOf table) := by
  rw [bodyOf]
  cases found : HtmlTree.find "tbody" table with
  | none => exact List.Sublist.refl _
  | some tbody => exact (findAll_sublist_of_find found ["tr"]).map textsOf

theorem cons_append_eq_iff {α : Type} {item : α} {before after : List α} :
    item :: (before ++ after) = before ++ item :: after ↔ ∀ other ∈ before, other = item := by
  induction before with
  | nil => simp
  | cons first before ih =>
      rw [List.cons_append, List.cons_append, List.cons.injEq, List.forall_mem_cons]
      constructor
      · intro same
        obtain ⟨rfl, rest⟩ := same
        exact ⟨rfl, ih.mp rest⟩
      · intro same
        obtain ⟨rfl, rest⟩ := same
        exact ⟨rfl, ih.mpr rest⟩

theorem first_header (found : rows.find? hasHeaderCell = some row) :
    ∃ after, rows = rows.takeWhile (fun other => !hasHeaderCell other) ++ row :: after ∧
      (∀ other ∈ rows.takeWhile (fun other => !hasHeaderCell other),
        hasHeaderCell other = false) ∧ hasHeaderCell row = true := by
  obtain ⟨header, before, after, rfl, plain⟩ := List.find?_eq_some_iff_append.mp found
  have taken : (before ++ row :: after).takeWhile (fun other => !hasHeaderCell other) = before := by
    rw [List.takeWhile_append_of_pos plain, List.takeWhile_cons_of_neg (by simp [header]),
      List.append_nil]
  rw [taken]
  exact ⟨after, rfl, by simpa using plain, header⟩

theorem gather_named (named : headOf table ≠ []) :
    gather table = (headOf table, kept (findAll ["tr"] (bodyOf table))) := by
  rw [gather, foldl_addRow_plain (Or.inl named), List.nil_append]

theorem gather_plain (unnamed : headOf table = [])
    (plain : (findAll ["tr"] (bodyOf table)).find? hasHeaderCell = none) :
    gather table = ([], kept (findAll ["tr"] (bodyOf table))) := by
  have each : ∀ row ∈ findAll ["tr"] (bodyOf table), hasHeaderCell row = false := by
    simpa using List.find?_eq_none.mp plain
  rw [gather, unnamed, foldl_addRow_plain (Or.inr each), List.nil_append]

theorem gather_first (unnamed : headOf table = [])
    (found : (findAll ["tr"] (bodyOf table)).find? hasHeaderCell = some row) :
    ∃ after, findAll ["tr"] (bodyOf table) =
        (findAll ["tr"] (bodyOf table)).takeWhile (fun other => !hasHeaderCell other) ++
          row :: after ∧
      gather table = (textsOf row,
        kept ((findAll ["tr"] (bodyOf table)).takeWhile (fun other => !hasHeaderCell other)) ++
          kept after) := by
  obtain ⟨after, split, plain, header⟩ := first_header found
  refine ⟨after, split, ?_⟩
  rw [gather, unnamed]
  conv_lhs => rw [split]
  exact foldl_addRow_first plain header

theorem gather_fst_ne_nil_iff : (gather table).1 ≠ [] ↔ Headed table := by
  by_cases unnamed : headOf table = []
  · cases found : (findAll ["tr"] (bodyOf table)).find? hasHeaderCell with
    | none =>
        have plain := List.find?_eq_none.mp found
        rw [gather_plain unnamed found, Headed]
        refine iff_of_false (fun named => named rfl) ?_
        intro headed
        rcases headed with named | ⟨row, member, header⟩
        · exact named unnamed
        · exact plain row member header
    | some row =>
        have header := List.find?_some found
        obtain ⟨after, -, gathered⟩ := gather_first unnamed found
        rw [gathered]
        exact iff_of_true (textsOf_ne_nil header)
          (Or.inr ⟨row, List.mem_of_find?_eq_some found, header⟩)
  · rw [gather_named unnamed]
    exact iff_of_true unnamed (Or.inl unnamed)

theorem ne_nil_of_mem_gather {texts : List Text} (member : texts ∈ linesOf (gather table)) :
    texts ≠ [] := by
  have front {found : List Text} (inside : texts ∈ (if found = [] then [] else [found])) :
      texts ≠ [] := by
    by_cases empty : found = []
    · rw [if_pos empty] at inside
      cases inside
    · rw [if_neg empty, List.mem_singleton] at inside
      exact inside ▸ empty
  rw [linesOf] at member
  rcases List.mem_append.mp member with header | row
  · exact front header
  · by_cases unnamed : headOf table = []
    · cases found : (findAll ["tr"] (bodyOf table)).find? hasHeaderCell with
      | none =>
          rw [gather_plain unnamed found] at row
          exact ne_nil_of_mem_kept row
      | some first =>
          obtain ⟨after, -, gathered⟩ := gather_first unnamed found
          rw [gathered] at row
          rcases List.mem_append.mp row with before | later
          · exact ne_nil_of_mem_kept before
          · exact ne_nil_of_mem_kept later
    · rw [gather_named unnamed] at row
      exact ne_nil_of_mem_kept row

section Filled

variable (filled : ∀ texts ∈ rowsOf (bodyOf table), texts ≠ [])
include filled

theorem linesOf_gather_first (unnamed : headOf table = [])
    (found : (findAll ["tr"] (bodyOf table)).find? hasHeaderCell = some row) :
    ∃ after, linesOf (gather table) = textsOf row ::
        (((findAll ["tr"] (bodyOf table)).takeWhile (fun other => !hasHeaderCell other)).map
          textsOf ++ after) ∧
      rowsOf (bodyOf table) =
        ((findAll ["tr"] (bodyOf table)).takeWhile (fun other => !hasHeaderCell other)).map
          textsOf ++ textsOf row :: after := by
  obtain ⟨after, split, gathered⟩ := gather_first unnamed found
  have whole : rowsOf (bodyOf table) =
      ((findAll ["tr"] (bodyOf table)).takeWhile (fun other => !hasHeaderCell other)).map
        textsOf ++ textsOf row :: after.map textsOf := by
    rw [rowsOf]
    conv_lhs => rw [split, List.map_append, List.map_cons]
  rw [whole] at filled
  refine ⟨after.map textsOf, ?_, whole⟩
  rw [gathered, linesOf, if_neg (textsOf_ne_nil (List.find?_some found)),
    kept_eq (fun texts member => filled texts (List.mem_append_left _ member)),
    kept_eq (fun texts member =>
      filled texts (List.mem_append_right _ (List.mem_cons_of_mem _ member)))]
  rfl

theorem linesOf_gather_plain (unnamed : headOf table = [])
    (plain : (findAll ["tr"] (bodyOf table)).find? hasHeaderCell = none) :
    linesOf (gather table) = rowsOf (bodyOf table) := by
  rw [gather_plain unnamed plain, linesOf, if_pos rfl, List.nil_append, kept_eq filled]
  rfl

theorem linesOf_gather_named (named : headOf table ≠ []) :
    linesOf (gather table) = headOf table :: rowsOf (bodyOf table) := by
  rw [gather_named named, linesOf, if_neg named, kept_eq filled]
  rfl

theorem linesOf_gather :
    linesOf (gather table) =
        (if headOf table = [] then [] else [headOf table]) ++ rowsOf (bodyOf table) ↔
      (headOf table = [] → Leading (findAll ["tr"] (bodyOf table))) := by
  by_cases unnamed : headOf table = []
  · rw [if_pos unnamed, List.nil_append]
    cases found : (findAll ["tr"] (bodyOf table)).find? hasHeaderCell with
    | none =>
        refine iff_of_true (linesOf_gather_plain filled unnamed found) (fun _ row header => ?_)
        rw [found] at header
        cases header
    | some row =>
        obtain ⟨after, lines, whole⟩ := linesOf_gather_first filled unnamed found
        rw [lines, whole, cons_append_eq_iff]
        simp only [unnamed, forall_const, Leading, found, Option.some.injEq, forall_eq',
          List.forall_mem_map]
  · rw [linesOf_gather_named filled unnamed, if_neg unnamed]
    exact iff_of_true rfl (fun empty => absurd empty unnamed)

end Filled

theorem linesOf_gather_eq_iff :
    linesOf (gather table) = rowsOf table ↔
      (∀ row ∈ rowsOf table, row ≠ []) ∧
      rowsOf table =
        (if headOf table = [] then [] else [headOf table]) ++ rowsOf (bodyOf table) ∧
      (headOf table = [] → Leading (findAll ["tr"] (bodyOf table))) := by
  constructor
  · intro same
    have filled : ∀ row ∈ rowsOf table, row ≠ [] := by
      intro row member
      rw [← same] at member
      exact ne_nil_of_mem_gather member
    have body : ∀ texts ∈ rowsOf (bodyOf table), texts ≠ [] :=
      fun texts member => filled texts ((rowsOf_bodyOf_sublist table).subset member)
    by_cases unnamed : headOf table = []
    · have count : (linesOf (gather table)).length = (rowsOf (bodyOf table)).length := by
        cases found : (findAll ["tr"] (bodyOf table)).find? hasHeaderCell with
        | none => rw [linesOf_gather_plain body unnamed found]
        | some row =>
            obtain ⟨after, lines, whole⟩ := linesOf_gather_first body unnamed found
            rw [lines, whole]
            simp only [List.length_append, List.length_map, List.length_cons]
            omega
      have equal : rowsOf (bodyOf table) = rowsOf table := by
        apply (rowsOf_bodyOf_sublist table).eq_of_length
        rw [← count, same]
      have arranged : rowsOf table =
          (if headOf table = [] then [] else [headOf table]) ++ rowsOf (bodyOf table) := by
        rw [if_pos unnamed, List.nil_append, equal]
      exact ⟨filled, arranged, (linesOf_gather body).mp (same.trans arranged)⟩
    · have arranged : rowsOf table =
          (if headOf table = [] then [] else [headOf table]) ++ rowsOf (bodyOf table) := by
        rw [← same, linesOf_gather_named body unnamed, if_neg unnamed]
        rfl
      exact ⟨filled, arranged, fun empty => absurd empty unnamed⟩
  · intro fine
    obtain ⟨filled, arranged, leading⟩ := fine
    have body : ∀ texts ∈ rowsOf (bodyOf table), texts ≠ [] :=
      fun texts member => filled texts ((rowsOf_bodyOf_sublist table).subset member)
    exact ((linesOf_gather body).mpr leading).trans arranged.symm

end Rows

/-! The texts of the cells. -/

section Texts

variable {text : Text} {cells : List Text} {pieces : List Text}

def Tidy (text : Text) : Prop :=
  (∀ char, text.head? = some char → isSpace char = false) ∧
    ∀ char, text.getLast? = some char → isSpace char = false

theorem tidy_nil : Tidy [] := ⟨nofun, nofun⟩

theorem tidy_strip (text : Text) : Tidy (strip text) := by
  refine ⟨fun _ => head_strip, ?_⟩
  intro char last
  rw [strip, List.getLast?_reverse] at last
  exact head_dropWhile_isSpace last

theorem tidy_flatten (each : ∀ piece ∈ pieces, Tidy piece) : Tidy pieces.flatten := by
  induction pieces with
  | nil => exact tidy_nil
  | cons piece rest ih =>
      obtain ⟨first, others⟩ := List.forall_mem_cons.mp each
      rw [List.flatten_cons]
      constructor
      · intro char head
        rw [List.head?_append, Option.or_eq_some_iff] at head
        rcases head with here | ⟨-, later⟩
        · exact first.1 char here
        · exact (ih others).1 char later
      · intro char last
        rw [List.getLast?_append, Option.or_eq_some_iff] at last
        rcases last with later | ⟨-, here⟩
        · exact (ih others).2 char later
        · exact first.2 char here

theorem tidy_getText (element : HtmlTree.Element) : Tidy (getText element) := by
  apply tidy_flatten
  intro piece member
  obtain ⟨words, -, rfl⟩ := List.mem_map.mp (List.mem_filter.mp member).1
  exact tidy_strip words

theorem tidy_of_mem_rowsOf {table : HtmlTree.Element} {row : List Text}
    (member : row ∈ rowsOf table) :
    ∀ text ∈ row, Tidy text := by
  intro text inside
  obtain ⟨element, -, rfl⟩ := List.mem_map.mp member
  obtain ⟨cell, -, rfl⟩ := List.mem_map.mp inside
  exact tidy_getText cell

theorem trimmed_oneLine (tidy : Tidy text) : MarkdownTable.Trimmed (oneLine text) := by
  have kept {char : Char} (solid : isSpace char = false) :
      (if char = '\n' then ' ' else char) ≠ ' ' := by
    have line : char ≠ '\n' := by
      intro same
      rw [same] at solid
      exact absurd solid (by decide)
    have blank : char ≠ ' ' := by
      intro same
      rw [same] at solid
      exact absurd solid (by decide)
    rwa [if_neg line]
  constructor
  · rw [oneLine, List.head?_map]
    intro head
    obtain ⟨char, first, same⟩ := Option.map_eq_some_iff.mp head
    exact kept (tidy.1 char first) same
  · rw [oneLine, List.getLast?_map]
    intro last
    obtain ⟨char, final, same⟩ := Option.map_eq_some_iff.mp last
    exact kept (tidy.2 char final) same

theorem oneLine_eq_self_iff : oneLine text = text ↔ '\n' ∉ text := by
  have each : oneLine text = text ↔
      ∀ char ∈ text, (if char = '\n' then ' ' else char) = char := by
    conv_lhs => rw [oneLine, ← List.map_id text, List.map_map]
    exact List.map_inj_left
  rw [each]
  constructor
  · intro same member
    exact absurd (same '\n' member) (by decide)
  · intro absent char member
    have other : char ≠ '\n' := fun same => absent (same ▸ member)
    rw [if_neg other]

theorem newline_not_mem_escaped {text : Text} (absent : '\n' ∉ text) :
    '\n' ∉ text.flatMap MarkdownTable.escapeBar := by
  intro member
  obtain ⟨char, inside, escaped⟩ := List.mem_flatMap.mp member
  rw [MarkdownTable.escapeBar] at escaped
  split at escaped
  · exact absurd escaped (by decide)
  · rw [List.mem_singleton] at escaped
    exact absent (escaped ▸ inside)

theorem newline_not_mem_oneLine (text : Text) : '\n' ∉ oneLine text := by
  intro member
  obtain ⟨char, -, same⟩ := List.mem_map.mp member
  by_cases line : char = '\n'
  · rw [if_pos line] at same
    exact absurd same (by decide)
  · rw [if_neg line] at same
    exact line same

/-! The lines of the Markdown text. -/

def barLine (cells : List Text) : Text :=
  '|' :: cells.flatMap (fun cell => ' ' :: (cell.flatMap MarkdownTable.escapeBar ++ [' ', '|']))

theorem bars_eq (cells : List Text) (some : cells ≠ []) :
    bars (cells.map (fun cell => cell.flatMap MarkdownTable.escapeBar)) = barLine cells := by
  have joined (cell : Text) (rest : List Text) :
      ([' ', '|', ' '].intercalate
          ((cell :: rest).map (fun cell => cell.flatMap MarkdownTable.escapeBar)) ++ [' ', '|']) =
        cell.flatMap MarkdownTable.escapeBar ++ [' ', '|'] ++ rest.flatMap (fun cell =>
          ' ' :: (cell.flatMap MarkdownTable.escapeBar ++ [' ', '|'])) := by
    induction rest generalizing cell with
    | nil => simp
    | cons next rest ih =>
        rw [List.map_cons, List.map_cons, List.intercalate_cons_cons, List.append_assoc,
          ← List.map_cons, ih next, List.flatMap_cons]
        simp
  cases cells with
  | nil => exact absurd rfl some
  | cons cell rest =>
      rw [bars, List.append_assoc, joined, barLine, List.flatMap_cons]
      simp

theorem newline_not_mem_barLine (absent : ∀ cell ∈ cells, '\n' ∉ cell) :
    '\n' ∉ barLine cells := by
  intro member
  rcases List.mem_cons.mp member with same | inside
  · exact absurd same (by decide)
  · obtain ⟨cell, given, inner⟩ := List.mem_flatMap.mp inside
    rcases List.mem_cons.mp inner with same | later
    · exact absurd same (by decide)
    · rcases List.mem_append.mp later with escaped | bar
      · exact newline_not_mem_escaped (absent cell given) escaped
      · exact absurd bar (by decide)

theorem readCells_barLine (cells : List Text) : MarkdownTable.readCells (barLine cells) =
    cells.map (fun cell => MarkdownTable.trim (' ' :: (cell ++ [' ']))) :=
  MarkdownTable.readCells_row cells

theorem readCells_trimmed (trimmed : ∀ cell ∈ cells, MarkdownTable.Trimmed cell) :
    MarkdownTable.readCells (barLine cells) = cells := by
  have each : ∀ cell ∈ cells, MarkdownTable.trim (' ' :: (cell ++ [' '])) = id cell :=
    fun cell member => MarkdownTable.trim_cell (trimmed cell member)
  rw [readCells_barLine, List.map_congr_left each, List.map_id]

theorem words_lines {lines : List Text} (whole : ∀ line ∈ lines, '\n' ∉ line) :
    Joining.words '\n' lines = lines := by
  induction lines with
  | nil => rfl
  | cons line lines ih =>
      obtain ⟨first, rest⟩ := List.forall_mem_cons.mp whole
      have more := ih rest
      rw [Joining.words] at more ⊢
      rw [List.flatMap_cons, List.splitOn_eq_singleton first, more]
      rfl

theorem tableLines_joined {lines : List Text} (some : lines ≠ [])
    (whole : ∀ line ∈ lines, '\n' ∉ line) (full : ∀ line ∈ lines, line ≠ []) (caption : Text) :
    MarkdownTable.tableLines (['\n'].intercalate
      ((if caption = [] then [] else [['*', '*'] ++ caption ++ ['*', '*', '\n']]) ++ lines)) =
      lines := by
  by_cases empty : caption = []
  · have split : (['\n'].intercalate lines).splitOn '\n' = lines :=
      List.splitOn_intercalate '\n' whole some
    rw [if_pos empty, List.nil_append, MarkdownTable.tableLines_self (by rwa [split]), split]
  · rw [if_neg empty, List.singleton_append]
    have marked : (['*', '*'] ++ caption ++ ['*', '*', '\n']).splitOn '\n' =
        (['*', '*'] ++ caption ++ ['*', '*']).splitOn '\n' ++ [[]] := by
      have shape : ['*', '*'] ++ caption ++ ['*', '*', '\n'] =
          (['*', '*'] ++ caption ++ ['*', '*']) ++ '\n' :: [] := by simp
      rw [shape, List.splitOn_append_cons_self]
      rfl
    have split : (['\n'].intercalate ((['*', '*'] ++ caption ++ ['*', '*', '\n']) :: lines)).splitOn
        '\n' = (['*', '*'] ++ caption ++ ['*', '*']).splitOn '\n' ++ [] :: lines := by
      rw [Joining.splitOn_intercalate (List.cons_ne_nil _ _), Joining.words, List.flatMap_cons,
        marked, ← Joining.words, words_lines whole]
      simp
    exact MarkdownTable.tableLines_eq split full

end Texts

section Markdown

variable {data : TableData}

theorem barLine_blank (columns : Nat) (some : columns ≠ 0) :
    bars (List.replicate columns [' ']) = barLine (List.replicate columns [' ']) := by
  have same := bars_eq (List.replicate columns [' ']) (by simpa using some)
  rw [List.map_replicate] at same
  exact same

theorem barLine_delimiter (columns : Nat) (some : columns ≠ 0) :
    ['|'] ++ ['|'].intercalate (List.replicate columns [' ', '-', '-', '-', ' ']) ++ ['|'] =
      barLine (List.replicate columns ['-', '-', '-']) := by
  have joined (count : Nat) :
      ['|'].intercalate (List.replicate (count + 1) [' ', '-', '-', '-', ' ']) ++ ['|'] =
        (List.replicate (count + 1) ['-', '-', '-']).flatMap
          (fun cell => ' ' :: (cell.flatMap MarkdownTable.escapeBar ++ [' ', '|'])) := by
    induction count with
    | zero => rfl
    | succ count ih =>
        rw [List.replicate_succ, List.replicate_succ, List.intercalate_cons_cons,
          ← List.replicate_succ, List.append_assoc, ih, List.replicate_succ, List.flatMap_cons,
          List.flatMap_cons, List.flatMap_cons]
        rfl
  obtain ⟨count, rfl⟩ := Nat.exists_eq_succ_of_ne_zero some
  rw [List.append_assoc, joined count]
  rfl

theorem length_pad (columns : Nat) (cells : List Text) :
    (pad columns cells).length = max cells.length columns := by
  rw [pad, List.length_append, List.length_replicate]
  omega

theorem readTable_tableToMarkdown (some : ¬ (data.rows = [] ∧ data.headers = []))
    (positive : maxCols data ≠ 0)
    (tidy : ∀ cells ∈ data.headers :: data.rows, ∀ text ∈ cells, Tidy text) :
    readTable (tableToMarkdown data) =
      (pad (maxCols data) data.headers).map oneLine ::
        List.replicate (maxCols data) ['-', '-', '-'] ::
        data.rows.map (fun row => (pad (maxCols data) row).map oneLine) := by
  have clean (cells : List Text) (filled : cells ≠ []) :
      bars (cells.map cleanCell) = barLine (cells.map oneLine) := by
    have same := bars_eq (cells.map oneLine) (by simpa using filled)
    rw [List.map_map] at same
    exact same
  have padded (cells : List Text) : pad (maxCols data) cells ≠ [] := by
    rw [← List.length_pos_iff, length_pad]
    omega
  have whole (cells : List Text) : '\n' ∉ barLine (cells.map oneLine) := by
    apply newline_not_mem_barLine
    intro cell member
    obtain ⟨text, -, rfl⟩ := List.mem_map.mp member
    exact newline_not_mem_oneLine text
  have read (cells : List Text) (each : ∀ text ∈ cells, Tidy text) :
      MarkdownTable.readCells (barLine ((pad (maxCols data) cells).map oneLine)) =
        (pad (maxCols data) cells).map oneLine := by
    apply readCells_trimmed
    intro cell member
    obtain ⟨text, inside, rfl⟩ := List.mem_map.mp member
    apply trimmed_oneLine
    rcases List.mem_append.mp inside with given | filler
    · exact each text given
    · rw [(List.mem_replicate.mp filler).2]
      exact tidy_nil
  obtain ⟨first, rest⟩ := List.forall_mem_cons.mp tidy
  have header : ∃ line, (if data.headers = [] then bars (List.replicate (maxCols data) [' '])
      else bars ((pad (maxCols data) data.headers).map cleanCell)) = barLine line ∧
      '\n' ∉ barLine line ∧
      MarkdownTable.readCells (barLine line) = (pad (maxCols data) data.headers).map oneLine := by
    by_cases unnamed : data.headers = []
    · refine ⟨List.replicate (maxCols data) [' '], ?_, ?_, ?_⟩
      · rw [if_pos unnamed, barLine_blank _ positive]
      · apply newline_not_mem_barLine
        intro cell member
        rw [(List.mem_replicate.mp member).2]
        decide
      · rw [readCells_barLine, unnamed, List.map_replicate, pad, List.nil_append,
          List.map_replicate]
        rfl
    · exact ⟨(pad (maxCols data) data.headers).map oneLine,
        by rw [if_neg unnamed, clean _ (padded _)], whole _, read _ first⟩
  obtain ⟨line, shown, unbroken, headed⟩ := header
  have rows : data.rows.map (fun row => bars ((pad (maxCols data) row).map cleanCell)) =
      data.rows.map (fun row => barLine ((pad (maxCols data) row).map oneLine)) :=
    List.map_congr_left (fun row _ => clean _ (padded row))
  have dashes : '\n' ∉ barLine (List.replicate (maxCols data) ['-', '-', '-']) := by
    apply newline_not_mem_barLine
    intro cell member
    rw [(List.mem_replicate.mp member).2]
    decide
  have delimiter : MarkdownTable.readCells (barLine (List.replicate (maxCols data)
      ['-', '-', '-'])) = List.replicate (maxCols data) ['-', '-', '-'] := by
    apply readCells_trimmed
    intro cell member
    rw [(List.mem_replicate.mp member).2]
    exact ⟨by decide, by decide⟩
  have lines : MarkdownTable.tableLines (tableToMarkdown data) =
      barLine line :: barLine (List.replicate (maxCols data) ['-', '-', '-']) ::
        data.rows.map (fun row => barLine ((pad (maxCols data) row).map oneLine)) := by
    rw [tableToMarkdown, if_neg some, if_neg positive, shown, barLine_delimiter _ positive, rows]
    dsimp only
    rw [List.append_assoc]
    apply tableLines_joined (List.cons_ne_nil _ _)
    · intro text member
      rcases List.mem_cons.mp member with rfl | later
      · exact unbroken
      · rcases List.mem_cons.mp later with rfl | row
        · exact dashes
        · obtain ⟨cells, -, rfl⟩ := List.mem_map.mp row
          exact whole _
    · intro text member
      rcases List.mem_cons.mp member with rfl | later
      · exact List.cons_ne_nil _ _
      · rcases List.mem_cons.mp later with rfl | row
        · exact List.cons_ne_nil _ _
        · obtain ⟨cells, -, rfl⟩ := List.mem_map.mp row
          exact List.cons_ne_nil _ _
  rw [readTable, lines, List.map_cons, List.map_cons, headed, delimiter, List.map_map]
  congr 2
  exact List.map_congr_left (fun row member => read row (rest row member))

theorem pad_oneLine_iff (columns : Nat) (cells : List Text) :
    (pad columns cells).map oneLine = pad columns cells ↔ ∀ text ∈ cells, '\n' ∉ text := by
  have filler : (List.replicate (columns - cells.length) ([] : Text)).map oneLine =
      List.replicate (columns - cells.length) [] := by
    rw [List.map_replicate]
    rfl
  rw [pad, List.map_append, filler, List.append_left_inj]
  constructor
  · intro same text member
    apply oneLine_eq_self_iff.mp
    have each : cells.map oneLine = cells.map id := by rw [same, List.map_id]
    exact List.map_inj_left.mp each text member
  · intro plain
    have each : cells.map oneLine = cells.map id :=
      List.map_inj_left.mpr (fun text member => oneLine_eq_self_iff.mpr (plain text member))
    rw [each, List.map_id]

theorem rendered_iff (some : ¬ (data.rows = [] ∧ data.headers = []))
    (positive : maxCols data ≠ 0) (fits : data.headers.length ≤ maxCols data)
    (tidy : ∀ cells ∈ data.headers :: data.rows, ∀ text ∈ cells, Tidy text) :
    Rendered data ↔ (∀ row ∈ data.rows, row.length ≤ maxCols data) ∧
      ∀ cells ∈ data.headers :: data.rows, ∀ text ∈ cells, '\n' ∉ text := by
  have length (cells : List Text) :
      ((pad (maxCols data) cells).map oneLine).length = max cells.length (maxCols data) := by
    rw [List.length_map, length_pad]
  rw [Rendered, readTable_tableToMarkdown some positive tidy]
  constructor
  · intro shown
    obtain ⟨columns, even, same⟩ := shown
    have width : maxCols data = columns := by
      have delimiter := even (List.replicate (maxCols data) ['-', '-', '-']) (by simp)
      rwa [List.length_replicate] at delimiter
    subst width
    obtain ⟨header, rest⟩ := List.cons.inj same
    have rows := List.map_inj_left.mp (List.cons.inj rest).2
    constructor
    · intro row member
      have line := even ((pad (maxCols data) row).map oneLine)
        (List.mem_cons_of_mem _ (List.mem_cons_of_mem _ (List.mem_map_of_mem member)))
      rw [length] at line
      omega
    · rw [List.forall_mem_cons]
      exact ⟨(pad_oneLine_iff _ _).mp header,
        fun row member => (pad_oneLine_iff _ _).mp (rows row member)⟩
  · intro fine
    obtain ⟨narrow, plain⟩ := fine
    obtain ⟨first, rest⟩ := List.forall_mem_cons.mp plain
    refine ⟨maxCols data, ?_, ?_⟩
    · intro line member
      rcases List.mem_cons.mp member with rfl | later
      · rw [length]
        omega
      · rcases List.mem_cons.mp later with rfl | row
        · rw [List.length_replicate]
        · obtain ⟨cells, given, rfl⟩ := List.mem_map.mp row
          have short := narrow cells given
          rw [length]
          omega
    · rw [(pad_oneLine_iff _ _).mpr first]
      congr 2
      exact List.map_congr_left (fun row member => (pad_oneLine_iff _ _).mpr (rest row member))

theorem le_foldl_max {row : List Text} (lengths : List Nat) (start : Nat)
    (member : row.length ∈ lengths ∨ row.length ≤ start) :
    row.length ≤ lengths.foldl max start := by
  induction lengths generalizing start with
  | nil => simpa using member
  | cons length lengths ih =>
      apply ih
      rcases member with inside | small
      · rcases List.mem_cons.mp inside with same | later
        · exact Or.inr (same ▸ le_max_right start length)
        · exact Or.inl later
      · exact Or.inr (small.trans (le_max_left start length))

theorem length_le_maxCols (data : TableData) (unnamed : data.headers = []) {row : List Text}
    (member : row ∈ data.rows) : row.length ≤ maxCols data := by
  rw [maxCols, if_pos unnamed]
  exact le_foldl_max _ 0 (Or.inl (List.mem_map_of_mem member))

end Markdown

theorem rendered_gather_iff {table : HtmlTree.Element} {caption : Text}
    (found : ¬ ((gather table).1 = [] ∧ (gather table).2 = []))
    (lines : linesOf (gather table) = rowsOf table) :
    Rendered ⟨(gather table).1, (gather table).2, caption⟩ ↔
      (Headed table → ∀ row ∈ rowsOf table, row.length ≤ ((rowsOf table).headD []).length) ∧
      ∀ row ∈ rowsOf table, ∀ text ∈ row, '\n' ∉ text := by
  have filled : ∀ row ∈ rowsOf table, row ≠ [] := (linesOf_gather_eq_iff.mp lines).1
  have tidy : ∀ cells ∈ rowsOf table, ∀ text ∈ cells, Tidy text :=
    fun cells member => tidy_of_mem_rowsOf member
  rw [← gather_fst_ne_nil_iff]
  rw [← lines] at filled tidy ⊢
  by_cases unnamed : (gather table).1 = []
  · have shape : linesOf (gather table) = (gather table).2 := by
      rw [linesOf, if_pos unnamed, List.nil_append]
    rw [shape] at filled tidy ⊢
    obtain ⟨row, rest, given⟩ := List.exists_cons_of_ne_nil (fun none => found ⟨unnamed, none⟩)
    have inside : row ∈ (gather table).2 := given ▸ List.mem_cons_self
    have positive : maxCols ⟨(gather table).1, (gather table).2, caption⟩ ≠ 0 := by
      have short := length_le_maxCols ⟨(gather table).1, (gather table).2, caption⟩ unnamed
        inside
      have some := List.length_pos_iff.mpr (filled row inside)
      omega
    rw [rendered_iff (fun both => found ⟨both.2, both.1⟩) positive (by simp [unnamed])
      (by rw [unnamed]; exact List.forall_mem_cons.mpr ⟨nofun, tidy⟩)]
    simp only [unnamed, ne_eq, not_true_eq_false, false_implies, true_and, List.forall_mem_cons,
      List.not_mem_nil, implies_true]
    exact and_iff_right (fun other member => length_le_maxCols _ rfl member)
  · have shape : linesOf (gather table) = (gather table).1 :: (gather table).2 := by
      rw [linesOf, if_neg unnamed]
      rfl
    have width : maxCols ⟨(gather table).1, (gather table).2, caption⟩ =
        (gather table).1.length := if_neg unnamed
    rw [shape] at filled tidy ⊢
    rw [rendered_iff (fun both => found ⟨both.2, both.1⟩)
      (by rw [width]; simpa using unnamed) width.ge tidy, width]
    simp [unnamed]

/-- A table survives exactly if it is regular. -/
theorem survives_iff (table : HtmlTree.Element) : Survives table ↔ Regular table := by
  have parts : Regular table ↔ linesOf (gather table) = rowsOf table ∧
      (Headed table → ∀ row ∈ rowsOf table, row.length ≤ ((rowsOf table).headD []).length) ∧
      ∀ row ∈ rowsOf table, ∀ text ∈ row, '\n' ∉ text := by
    rw [linesOf_gather_eq_iff]
    constructor
    · intro regular
      exact ⟨⟨regular.filled, regular.arranged, regular.leading⟩, regular.narrow,
        regular.unbroken⟩
    · intro fine
      obtain ⟨⟨filled, arranged, leading⟩, narrow, unbroken⟩ := fine
      exact ⟨filled, arranged, leading, narrow, unbroken⟩
  rw [parts, Survives, extractTable]
  by_cases none : (gather table).1 = [] ∧ (gather table).2 = []
  · have blank : linesOf (gather table) = [] := by
      rw [linesOf, if_pos none.1, none.2]
      rfl
    rw [if_pos none, blank]
    constructor
    · intro empty
      rw [empty]
      exact ⟨rfl, nofun, nofun⟩
    · intro fine
      exact fine.1.symm
  · rw [if_neg none]
    exact and_congr_right (fun lines => rendered_gather_iff none lines)

/-- `<table><thead><tr><th>ID</th></tr></thead><tr><td>1</td></tr></table>` -/
def headWithoutBody : HtmlTree.Element :=
  ("table", [.tag "thead" [.tag "tr" [.tag "th" [.text ['I', 'D']]]],
    .tag "tr" [.tag "td" [.text ['1']]]])

/-- The row of the `thead` is found once more in the table. -/
theorem header_row_twice : ¬ Survives headWithoutBody := by
  have extracted : extractTable headWithoutBody =
      some ⟨[['I', 'D']], [[['I', 'D']], [['1']]], []⟩ := by decide +kernel
  intro survives
  rw [Survives, extracted] at survives
  exact absurd survives.1 (by decide +kernel)

end RagSystem.Etl.TableExtractor
