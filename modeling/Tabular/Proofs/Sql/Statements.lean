import Tabular.Proofs.Runner.Held
import Tabular.Proofs.Sql.Literals

/-!
# Tabular.Proofs.Sql.Statements — no name and no value changes how a statement is read

A `Command` asks for the statements of a table, of a row or of a key.  Its `quoted` tokens are the names, strings
and bytes that are meant to be in them, its `Shape` is all else that they depend on.  Main statement:
`statements_read_back`, reading the texts gives precisely the quoted tokens, each of which ends where its written
form ends, and around them an outline that the shape determines.
-/

namespace Tabular.Sql

/-! ### Commands -/

/-- What statements are written for. -/
inductive Command where
  | createTable (s : TableSchema)
  | createIndexes (s : TableSchema)
  | dropTable (table : String)
  | upsert (s : TableSchema) (row : Row)
  | selectByKey (s : TableSchema) (key : RowKey)
  | deleteByKey (s : TableSchema) (key : RowKey)
  | selectAll (s : TableSchema)

/-- The statements of a command. -/
def Command.statements : Command → List Statement
  | createTable s => [Sql.createTable s]
  | createIndexes s => Sql.createIndexes s
  | dropTable table => [Sql.dropTable table]
  | upsert s row => [Sql.upsert s row]
  | selectByKey s key => [Sql.selectByKey s key]
  | deleteByKey s key => [Sql.deleteByKey s key]
  | selectAll s => [Sql.selectAll s]

/-- The texts of the statements of a command. -/
def Command.texts (c : Command) : List String := c.statements.map render

/-- The key columns in quotes, each before its part of the key if the part is quoted. -/
def quotedKey (s : TableSchema) (key : RowKey) : List Token :=
  (s.primaryKey.zip key.parts).flatMap fun pair => .identifier pair.1 :: quotedValue pair.2.toValue

/-- The names, strings and bytes that the statements of a command are meant to have in quotes, in order. -/
def Command.quoted : Command → List (List Token)
  | createTable s =>
    [.identifier s.name :: s.columns.map (fun column => .identifier column.name) ++ s.primaryKey.map .identifier]
  | createIndexes s =>
    s.indexes.map fun column =>
      [.identifier (s.name ++ "_" ++ column ++ "_idx"), .identifier s.name, .identifier column]
  | dropTable table => [[.identifier table]]
  | upsert s row =>
    [.identifier s.name :: row.keys.map .identifier ++ row.values.flatMap quotedValue
      ++ s.primaryKey.map .identifier
      ++ (row.keys.filter (· ∉ s.primaryKey)).flatMap fun column => [.identifier column, .identifier column]]
  | selectByKey s key | deleteByKey s key => [.identifier s.name :: quotedKey s key]
  | selectAll s => [.identifier s.name :: s.primaryKey.map .identifier]

/-- What an insertion does with a row of the same key: it updates columns, if there are any to update. -/
def onConflict (updates : List String) : Statement :=
  if updates = [] then [.plain "DO NOTHING"]
  else .plain "DO UPDATE SET " :: separated ", " (updates.map takeExcluded)

theorem upsert_eq (s : TableSchema) (row : Row) :
    upsert s row =
      .plain "INSERT INTO " :: .identifier s.name :: .plain " (" :: (names row.keys
        ++ .plain ") VALUES (" :: (separated ", " (row.values.map literal)
        ++ .plain ") ON CONFLICT (" :: (names s.primaryKey
        ++ .plain ") " :: onConflict (row.keys.filter (· ∉ s.primaryKey))))) := by
  simp only [upsert, onConflict, List.append_assoc, List.cons_append, List.nil_append]

/-! ### Readability -/

section Readability

variable (s : TableSchema)

theorem readable_columnDefinition (column : Column) : Readable (columnDefinition column) := by
  have hraw (type : FieldType) (nullable : Bool) :
      Separates (" " ++ type.sqlType ++ if nullable then "" else " NOT NULL") := by
    cases type <;> cases nullable <;> decide
  exact .named column.name (hraw column.type column.nullable) .nil

theorem readable_createTable : Readable (createTable s) := by
  have hkey : Readable (.plain "PRIMARY KEY (" :: names s.primaryKey ++ [.plain ")"]) :=
    .plain (by decide) ((readable_names s.primaryKey).join (by decide) .nil)
  have hparts : ∀ part ∈ s.columns.map columnDefinition
      ++ [.plain "PRIMARY KEY (" :: names s.primaryKey ++ [.plain ")"]], Readable part := by
    intro part hpart
    rcases List.mem_append.1 hpart with hcolumn | hlast
    · obtain ⟨column, -, rfl⟩ := List.mem_map.1 hcolumn
      exact readable_columnDefinition column
    · rw [List.mem_singleton.1 hlast]
      exact hkey
  have hlist := Readable.separated (show Separates ", " by decide) hparts
  exact .plain (by decide) (.named s.name (by decide) (hlist.join (by decide) .nil))

theorem readable_createIndex (column : String) : Readable (createIndex s column) :=
  .plain (by decide) (.named _ (by decide) (.named s.name (by decide) (.named column (by decide) .nil)))

theorem readable_dropTable (table : String) : Readable (dropTable table) :=
  .plain (by decide) (.singleton trivial)

theorem readable_onConflict (updates : List String) : Readable (onConflict updates) := by
  rw [onConflict]
  split
  · exact .plain (by decide) .nil
  · have hupdate (column : String) : Readable (takeExcluded column) :=
      .named column (by decide) (.singleton trivial)
    exact .plain (by decide) (.separated_map (by decide) hupdate)

theorem readable_upsert (row : Row) : Readable (upsert s row) := by
  have hvalues : Readable (separated ", " (row.values.map literal)) :=
    .separated_map (by decide) readable_literal
  rw [upsert_eq]
  exact .plain (by decide) (.named s.name (by decide) ((readable_names row.keys).join (by decide)
    (hvalues.join (by decide)
      ((readable_names s.primaryKey).join (by decide) (readable_onConflict _)))))

theorem readable_keyCondition (key : RowKey) : Readable (keyCondition s key) :=
  .separated_map (by decide) fun pair => .named pair.1 (by decide) (readable_literal pair.2.toValue)

end Readability

theorem Command.readable {c : Command} {statement : Statement} (h : statement ∈ c.statements) :
    Readable statement := by
  cases c with
  | createTable s =>
    rw [List.mem_singleton.1 h]
    exact readable_createTable s
  | createIndexes s =>
    obtain ⟨column, -, rfl⟩ := List.mem_map.1 h
    exact readable_createIndex s column
  | dropTable table =>
    rw [List.mem_singleton.1 h]
    exact readable_dropTable table
  | upsert s row =>
    rw [List.mem_singleton.1 h]
    exact readable_upsert s row
  | selectByKey s key | deleteByKey s key =>
    rw [List.mem_singleton.1 h]
    exact .plain (by decide) (.named s.name (by decide) (readable_keyCondition s key))
  | selectAll s =>
    rw [List.mem_singleton.1 h]
    exact .plain (by decide) (.named s.name (by decide) (readable_names s.primaryKey))

/-! ### Quoted tokens -/

theorem quotes_keyCondition (s : TableSchema) (key : RowKey) : quotes (keyCondition s key) = quotedKey s key := by
  simp [keyCondition, quotedKey, List.flatMap_map]

theorem quotes_onConflict (updates : List String) :
    quotes (onConflict updates) = updates.flatMap fun column => [.identifier column, .identifier column] := by
  rw [onConflict]
  split
  · subst updates
    rfl
  · simp [takeExcluded, List.flatMap_map]

theorem Command.quotes_statements (c : Command) : c.statements.map quotes = c.quoted := by
  cases c with
  | createTable s =>
    simp [statements, quoted, Sql.createTable, columnDefinition, List.flatMap_map, ← List.map_eq_flatMap]
  | createIndexes s => simp [statements, quoted, Sql.createIndexes, createIndex]
  | dropTable table => rfl
  | upsert s row => simp [statements, quoted, upsert_eq, quotes_onConflict, List.flatMap_map]
  | selectByKey s key => simp [statements, quoted, Sql.selectByKey, quotes_keyCondition]
  | deleteByKey s key => simp [statements, quoted, Sql.deleteByKey, quotes_keyCondition]
  | selectAll s => simp [statements, quoted, Sql.selectAll]

/-! ### Shapes -/

/-- What the statements of a command depend on besides what they have in quotes. -/
inductive Shape where
  /-- The types of the columns with their nullability, and how many key columns there are. -/
  | createTable (columns : List (FieldType × Bool)) (keys : Nat)
  /-- How many index columns there are. -/
  | createIndexes (indexes : Nat)
  | dropTable
  /-- What literals the cells have and which of them are in key columns, and how many key columns there are. -/
  | upsert (cells : List (Value × Bool)) (keys : Nat)
  /-- What literals the parts of the key have. -/
  | selectByKey (parts : List Value)
  | deleteByKey (parts : List Value)
  | selectAll (keys : Nat)
deriving DecidableEq

def columnShapes (s : TableSchema) : List (FieldType × Bool) :=
  s.columns.map fun column => (column.type, column.nullable)

def cellShapes (s : TableSchema) (row : Row) : List (Value × Bool) :=
  row.toList.map fun cell => (blankValue cell.2, decide (cell.1 ∈ s.primaryKey))

def partShapes (s : TableSchema) (key : RowKey) : List Value :=
  (s.primaryKey.zip key.parts).map fun pair => blankValue pair.2.toValue

/-- The shape of a command. -/
def Command.shape : Command → Shape
  | createTable s => .createTable (columnShapes s) s.primaryKey.length
  | createIndexes s => .createIndexes s.indexes.length
  | dropTable _ => .dropTable
  | upsert s row => .upsert (cellShapes s row) s.primaryKey.length
  | selectByKey s key => .selectByKey (partShapes s key)
  | deleteByKey s key => .deleteByKey (partShapes s key)
  | selectAll s => .selectAll s.primaryKey.length

section Outlines

variable {s s' : TableSchema} {row row' : Row} {key key' : RowKey}

theorem outline_columns (s : TableSchema) :
    s.columns.map (outline ∘ columnDefinition) =
      (columnShapes s).map fun column => outline (columnDefinition ⟨"", column.1, column.2⟩) := by
  rw [columnShapes, List.map_map]
  rfl

theorem outline_createTable (hcolumns : columnShapes s = columnShapes s')
    (hkeys : s.primaryKey.length = s'.primaryKey.length) :
    outline (createTable s) = outline (createTable s') := by
  simp [createTable, outline_names, outline_columns, hcolumns, hkeys]

theorem outline_createIndexes (h : s.indexes.length = s'.indexes.length) :
    (createIndexes s).map outline = (createIndexes s').map outline := by
  simp [createIndexes, createIndex, Function.comp_def, h]

theorem outline_keyCondition (h : partShapes s key = partShapes s' key') :
    outline (keyCondition s key) = outline (keyCondition s' key') := by
  have houtline (s : TableSchema) (key : RowKey) : outline (keyCondition s key) =
      separated " AND " ((partShapes s key).map fun v => .identifier "" :: .plain " = " :: outline (literal v)) := by
    simp [keyCondition, partShapes, Function.comp_def, ← outline_literal]
  rw [houtline, houtline, h]

theorem length_keys (s : TableSchema) (row : Row) : row.keys.length = (cellShapes s row).length := by
  rw [← Std.ExtTreeMap.map_fst_toList_eq_keys, cellShapes, List.length_map, List.length_map]

/-- How many columns an insertion updates if there is such a row already. -/
theorem length_updates (s : TableSchema) (row : Row) :
    (row.keys.filter (· ∉ s.primaryKey)).length = (cellShapes s row).countP (!·.2) := by
  rw [← Std.ExtTreeMap.map_fst_toList_eq_keys, cellShapes, ← List.countP_eq_length_filter, List.countP_map,
    List.countP_map]
  simp [Function.comp_def]

theorem outline_values (s : TableSchema) (row : Row) :
    row.values.map (outline ∘ literal) = (cellShapes s row).map fun cell => outline (literal cell.1) := by
  simp [values_eq_map_toList, cellShapes, Function.comp_def, ← outline_literal]

theorem outline_onConflict {updates updates' : List String} (h : updates.length = updates'.length) :
    outline (onConflict updates) = outline (onConflict updates') := by
  have hnone : updates = [] ↔ updates' = [] := by
    rw [← List.length_eq_zero_iff, ← List.length_eq_zero_iff, h]
  simp only [onConflict, hnone]
  split
  · rfl
  · simp [takeExcluded, Function.comp_def, h]

theorem outline_upsert (hcells : cellShapes s row = cellShapes s' row')
    (hkeys : s.primaryKey.length = s'.primaryKey.length) :
    outline (upsert s row) = outline (upsert s' row') := by
  have hlength : row.keys.length = row'.keys.length := by rw [length_keys s, length_keys s', hcells]
  have hvalues : row.values.map (outline ∘ literal) = row'.values.map (outline ∘ literal) := by
    rw [outline_values s, outline_values s', hcells]
  have hconflict : outline (onConflict (row.keys.filter (· ∉ s.primaryKey))) =
      outline (onConflict (row'.keys.filter (· ∉ s'.primaryKey))) := by
    apply outline_onConflict
    rw [length_updates, length_updates, hcells]
  simp only [upsert_eq, outline_plain, outline_identifier, outline_append, outline_names, outline_separated,
    List.map_map, hlength, hkeys, hvalues, hconflict]

/-- The shape of a command determines what its statements are but for the contents of their quotes. -/
theorem Command.outline_statements {c c' : Command} (h : c.shape = c'.shape) :
    c.statements.map outline = c'.statements.map outline := by
  cases c <;> cases c' <;>
    simp only [shape, reduceCtorEq, Shape.createTable.injEq, Shape.createIndexes.injEq, Shape.upsert.injEq,
      Shape.selectByKey.injEq, Shape.deleteByKey.injEq, Shape.selectAll.injEq] at h
  case createTable.createTable => simp only [statements, List.map_singleton, outline_createTable h.1 h.2]
  case createIndexes.createIndexes => exact outline_createIndexes h
  case dropTable.dropTable => rfl
  case upsert.upsert => simp only [statements, List.map_singleton, outline_upsert h.1 h.2]
  case selectByKey.selectByKey =>
    simp only [statements, Sql.selectByKey, List.map_singleton, outline_append, outline_plain, outline_identifier,
      outline_nil, outline_keyCondition h]
  case deleteByKey.deleteByKey =>
    simp only [statements, Sql.deleteByKey, List.map_singleton, outline_append, outline_plain, outline_identifier,
      outline_nil, outline_keyCondition h]
  case selectAll.selectAll =>
    simp only [statements, Sql.selectAll, List.map_singleton, outline_append, outline_plain, outline_identifier,
      outline_nil, outline_names, h]

end Outlines

/-! ### Reading back -/

/-- The quoted tokens of a text, if it can be read. -/
def quotesOf (text : String) : Option (List Token) := (readTokens text.toList).map quotes

/-- The tokens of a text without what is in its quotes, if it can be read. -/
def outlineOf (text : String) : Option (List Token) := (readTokens text.toList).map outline

theorem quotesOf_render {statement : Statement} (h : Readable statement) :
    quotesOf (render statement) = some (quotes statement) := by
  rw [quotesOf, readTokens_render h, Option.map_some, quotes_spelled]

theorem outlineOf_render {statement : Statement} (h : Readable statement) :
    outlineOf (render statement) = some ((outline statement).flatMap Token.spelled) := by
  rw [outlineOf, readTokens_render h, Option.map_some, outline_spelled]

/-- **No name and no value changes how a statement is read.**  Reading the texts of a command gives precisely the
tokens that are meant to be quoted, in order and character by character.  Each is read in its place, to where its
written form ends, since its quote does not follow it.  Commands of one shape have texts that differ in nothing but
the contents of quotes. -/
theorem statements_read_back (c : Command) :
    c.texts.map quotesOf = c.quoted.map some ∧
      (∀ before token after q, before ++ token :: after ∈ c.statements → token.quote? = some q →
        readTokens (render (before ++ token :: after)).toList =
            some (before.flatMap Token.spelled ++ token :: after.flatMap Token.spelled) ∧
          (render after).toList.head? ≠ some q ∧
          readToken (token.render.toList ++ (render after).toList) = some (token, (render after).toList)) ∧
      ∀ c' : Command, c.shape = c'.shape → c.texts.map outlineOf = c'.texts.map outlineOf := by
  have houtlines (c : Command) :
      c.texts.map outlineOf = (c.statements.map outline).map fun st => some (st.flatMap Token.spelled) := by
    rw [Command.texts, List.map_map, List.map_map]
    exact List.map_congr_left fun statement hmem => outlineOf_render (Command.readable hmem)
  refine ⟨?_, fun before token after q hmem hquote => ?_, fun c' hshape => ?_⟩
  · rw [Command.texts, ← Command.quotes_statements, List.map_map, List.map_map]
    exact List.map_congr_left fun statement hmem => quotesOf_render (Command.readable hmem)
  · exact readToken_of_readable (Command.readable hmem) hquote
  · rw [houtlines, houtlines, Command.outline_statements hshape]

/-- The selection of a row by a key of a string and of bytes. -/
def selection (table first second : String) (v : String) (bytes : List UInt8) : Command :=
  .selectByKey ⟨table, [⟨first, .string, false⟩, ⟨second, .bytes, false⟩], [first, second], []⟩
    ⟨[.string v, .bytes bytes]⟩

/-- Quotes in the names and in the string, and a backslash at its end, change nothing but what the quotes hold. -/
theorem statements_read_back_selection :
    let odd := selection "a\"b" "k\"" "v'" "it's' OR 1 \\" [0xde]
    let before : Statement := [.plain "SELECT * FROM ", .identifier "a\"b", .plain " WHERE ", .identifier "k\"",
      .plain " = "]
    let after : Statement := [.plain " AND ", .identifier "v'", .plain " = ", .text "\\xde", .plain "::bytea"]
    odd.texts =
        ["SELECT * FROM \"a\"\"b\" WHERE \"k\"\"\" = 'it''s'' OR 1 \\' AND \"v'\" = '\\xde'::bytea"] ∧
      odd.texts.map quotesOf = [some [.identifier "a\"b", .identifier "k\"", .text "it's' OR 1 \\",
        .identifier "v'", .text "\\xde"]] ∧
      before ++ .text "it's' OR 1 \\" :: after ∈ odd.statements ∧
      (render after).toList.head? ≠ some '\x27' ∧
      readToken ("'it''s'' OR 1 \\'".toList ++ (render after).toList) =
        some (.text "it's' OR 1 \\", (render after).toList) ∧
      odd.texts.map outlineOf = (selection "a" "k" "v" "" []).texts.map outlineOf := by
  intro odd before after
  obtain ⟨hquotes, hends, houtline⟩ := statements_read_back odd
  have hmem : before ++ .text "it's' OR 1 \\" :: after ∈ odd.statements := by decide
  obtain ⟨-, hhead, hread⟩ := hends before _ after '\x27' hmem rfl
  exact ⟨by decide, hquotes.trans (by decide), hmem, hhead, hread, houtline _ (by decide)⟩

end Tabular.Sql
