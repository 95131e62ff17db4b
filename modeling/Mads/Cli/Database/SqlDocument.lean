import Mads.Cli.Database.Sql
import Mads.Library.SqlText

/-!
# A plan written as two SQL files

The files carry the names of a live database. They go through quotes, and then the line ends of the
whole text are normalised.
-/

namespace Mads

namespace Sql

open Catalog SqlText

def REVIEW_HEADER : List String :=
  ["-- Generated by MADS.rs. Review before applying.",
    "-- Unsupported defaults, indexes, checks, triggers, and FK policies are not synthesized."]

/-- `str::replace` of a character. -/
def replaceChar (text : String) (c : Char) (replacement : String) : String :=
  String.ofList (text.toList.flatMap fun x => if x = c then replacement.toList else [x])

/-- `str::replace` of `"\r\n"` by `"\n"`. -/
def joinCrLf : List Char → List Char
  | '\r' :: '\n' :: rest => '\n' :: joinCrLf rest
  | c :: rest => c :: joinCrLf rest
  | [] => []

def escapeWarningLineBreaks (content : String) : String :=
  replaceChar (replaceChar content '\r' "\\r") '\n' "\\n"

/-- The subject and the message of a warning, in comparison order. -/
def escaped (warning : MigrationWarning) : String ×ₗ String :=
  toLex (escapeWarningLineBreaks warning.subject, escapeWarningLineBreaks warning.message)

def warningText (fields : String ×ₗ String) : String :=
  (ofLex fields).1 ++ ": " ++ (ofLex fields).2

def normalizedWarnings (warnings : List MigrationWarning) : List String :=
  ((sortByKey id (warnings.map escaped)).destutter (· ≠ ·)).map warningText

/-- The line ends of a text, each as a line feed. -/
def newlines (text : String) : String :=
  replaceChar (String.ofList (joinCrLf text.toList)) '\r' "\n"

/-- `trim_end_matches` of line feeds. -/
def trimNewlines (text : String) : String :=
  String.ofList (text.toList.reverse.dropWhile (· = '\n')).reverse

def normalizeNewlines (document : String) : String := trimNewlines (newlines document) ++ "\n"

def commentLine (warning : String) : String := "-- WARNING: " ++ warning

def renderDocument (warnings : List String) (operations : List Operation) : String :=
  normalizeNewlines ("\n".intercalate (REVIEW_HEADER ++ warnings.map commentLine ++
    if operations.isEmpty then [] else "" :: operations.map renderOperation))

structure RenderedMigration where
  upSql : String
  downSql : String
  warnings : List String
  deriving DecidableEq, Repr

def renderMigration (plan : MigrationPlan) : RenderedMigration :=
  let warnings := normalizedWarnings plan.warnings
  { upSql := renderDocument warnings plan.up
    downSql := renderDocument warnings plan.down
    warnings := warnings }

/-! ### Line ends -/

/-- The line ends of a text, with characters in a list. -/
def newlineChars (chars : List Char) : List Char :=
  (joinCrLf chars).map fun c => if c = '\r' then '\n' else c

theorem toList_newlines (text : String) : (newlines text).toList = newlineChars text.toList := by
  have hreplace : ∀ chars : List Char, chars.flatMap (fun c => if c = '\r' then ['\n'] else [c]) =
      chars.map (fun c => if c = '\r' then '\n' else c) := by
    intro chars
    rw [List.map_eq_flatMap]
    congr 1
    funext c
    split <;> rfl
  simp only [newlines, replaceChar, String.toList_ofList, newlineChars]
  exact hreplace _

variable {front chars rest : List Char} {c : Char}

theorem newlineChars_cons (h : c ≠ '\r') : newlineChars (c :: rest) = c :: newlineChars rest := by
  rw [newlineChars, joinCrLf, List.map_cons, if_neg h]
  · rfl
  · rintro _ rfl
    exact absurd rfl h

theorem newlineChars_append (h : '\r' ∉ front) :
    newlineChars (front ++ rest) = front ++ newlineChars rest := by
  induction front with
  | nil => rfl
  | cons c front ih =>
    rw [List.mem_cons, not_or] at h
    rw [List.cons_append, newlineChars_cons (Ne.symm h.1), ih h.2, List.cons_append]

theorem newlineChars_return (h : rest.head? ≠ some '\n') :
    newlineChars ('\r' :: rest) = '\n' :: newlineChars rest := by
  rw [newlineChars, joinCrLf]
  · rfl
  · rintro _ - rfl
    exact h rfl

/-- No carriage return is left. -/
theorem notMem_newlineChars (chars : List Char) : '\r' ∉ newlineChars chars := by
  rw [newlineChars, List.mem_map]
  rintro ⟨c, -, hc⟩
  split at hc
  · cases hc
  · exact absurd hc ‹_›

theorem newlineChars_eq_self_iff : newlineChars chars = chars ↔ '\r' ∉ chars := by
  constructor
  · intro h hmem
    rw [← h] at hmem
    exact notMem_newlineChars chars hmem
  · intro h
    have happend : newlineChars (chars ++ []) = chars ++ newlineChars [] := newlineChars_append h
    rw [List.append_nil] at happend
    exact happend.trans (List.append_nil chars)

theorem newlines_eq_self_iff {text : String} : newlines text = text ↔ '\r' ∉ text.toList := by
  rw [← newlineChars_eq_self_iff, ← toList_newlines, String.toList_inj]

theorem newlineChars_crlf : newlineChars ('\r' :: '\n' :: rest) = '\n' :: newlineChars rest := by
  rw [newlineChars, joinCrLf]
  rfl

/-- A text can be cut before a character that is no line feed. -/
theorem newlineChars_append_cons (h : c ≠ '\n') :
    newlineChars (front ++ c :: rest) = newlineChars front ++ newlineChars (c :: rest) := by
  induction front using joinCrLf.induct with
  | case1 front ih =>
    rw [List.cons_append, List.cons_append, newlineChars_crlf, newlineChars_crlf, ih,
      List.cons_append]
  | case2 x front hfront ih =>
    rw [List.cons_append]
    by_cases hreturn : x = '\r'
    · subst hreturn
      have hhead : front.head? ≠ some '\n' := by
        rw [ne_eq, List.head?_eq_some_iff]
        rintro ⟨back, rfl⟩
        exact hfront back rfl rfl
      have hnext : (front ++ c :: rest).head? ≠ some '\n' := by
        rw [List.head?_append, ne_eq, Option.or_eq_some_iff, not_or]
        exact ⟨hhead, fun hc => h (Option.some.inj hc.2)⟩
      rw [newlineChars_return hnext, newlineChars_return hhead, ih, List.cons_append]
    · rw [newlineChars_cons hreturn, newlineChars_cons hreturn, ih, List.cons_append]
  | case3 => rfl

/-- The line ends of a quoted name are normalised as if the name stood alone. -/
theorem newlineChars_doubled (name : List Char) :
    newlineChars (doubled name) = doubled (newlineChars name) := by
  induction name using joinCrLf.induct with
  | case1 name ih =>
    rw [doubled_cons (by decide), doubled_cons (by decide), newlineChars_crlf, newlineChars_crlf,
      doubled_cons (by decide), ih]
  | case2 c name hname ih =>
    by_cases hreturn : c = '\r'
    · subst hreturn
      have hhead : name.head? ≠ some '\n' := by
        rw [ne_eq, List.head?_eq_some_iff]
        rintro ⟨back, rfl⟩
        exact hname back rfl rfl
      have hnext : (doubled name).head? ≠ some '\n' := by
        rw [head?_doubled]
        exact hhead
      rw [doubled_cons (by decide), newlineChars_return hnext, newlineChars_return hhead,
        doubled_cons (by decide), ih]
    · rw [newlineChars_cons hreturn]
      by_cases hquote : c = '"'
      · rw [hquote, doubled_quote, doubled_quote, newlineChars_cons (by decide),
          newlineChars_cons (by decide), ih]
      · rw [doubled_cons hquote, doubled_cons hquote, newlineChars_cons hreturn, ih]
  | case3 => rfl

/-- The line ends of a statement are normalised in its names only. -/
theorem newlineChars_written {pieces : List Piece} (h : Sound pieces) (rest : List Char) :
    newlineChars (written pieces ++ rest) =
      written (pieces.map (Piece.mapName newlines)) ++ newlineChars rest := by
  induction h generalizing rest with
  | nil => rfl
  | name identifier =>
    have hwritten (identifier : String) : written [.name identifier] =
        '"' :: (doubled identifier.toList ++ ['"']) := List.append_nil _
    rw [List.map_singleton, Piece.mapName, hwritten, hwritten, List.cons_append,
      newlineChars_cons (by decide), List.append_assoc, List.singleton_append,
      newlineChars_append_cons (by decide), newlineChars_doubled, newlineChars_cons (by decide),
      toList_newlines, List.cons_append, List.append_assoc, List.singleton_append]
  | @join front back text _ htext _ ihfront ihback =>
    have hreturn : '\r' ∉ text.toList := fun h => absurd (htext.2 '\r' h) (by decide)
    have hwritten (back : List Piece) : written (.words text :: back) =
      text.toList ++ written back := rfl
    rw [List.map_append, List.map_cons, Piece.mapName, written_append, written_append, hwritten,
      hwritten, List.append_assoc, List.append_assoc, ihfront, newlineChars_append hreturn, ihback,
      List.append_assoc, List.append_assoc]

/-! ### Operations as statements -/

def tablePieces (table : QualifiedTableName) : List Piece :=
  [.name table.schema, .words ".", .name table.table]

def columnPieces (column : ColumnSchema) : List Piece :=
  [.name column.name,
    .words (" " ++ column.sqlType.toSql ++ if column.nullable then "" else " NOT NULL")]

def keyPieces (primaryKey : List String) : List Piece :=
  .words "PRIMARY KEY (" ::
    ([.words ", "].intercalate (primaryKey.map fun column => [.name column]) ++ [.words ")"])

def declarationPieces (table : TableSchema) : List (List Piece) :=
  table.columns.map columnPieces ++
    if table.primaryKey.isEmpty then [] else [keyPieces table.primaryKey]

/-- What an operation says: SQL words, and the names that it is about. -/
def pieces : Operation → List Piece
  | .createTable table => .words "CREATE TABLE " :: (tablePieces table.name ++
      .words " (\n    " :: ([.words ",\n    "].intercalate (declarationPieces table) ++
        [.words "\n)"]))
  | .dropTable table => .words "DROP TABLE " :: tablePieces table.name
  | .addColumn table column =>
    .words "ALTER TABLE " :: (tablePieces table ++ .words " ADD COLUMN " :: columnPieces column)
  | .dropColumn table column =>
    .words "ALTER TABLE " :: (tablePieces table ++ [.words " DROP COLUMN ", .name column.name])
  | .alterType table column _ «to» =>
    .words "ALTER TABLE " :: (tablePieces table ++ [.words " ALTER COLUMN ", .name column,
      .words (" TYPE " ++ «to».toSql ++ " USING "), .name column, .words ("::" ++ «to».toSql)])
  | .setNotNull table column =>
    .words "ALTER TABLE " :: (tablePieces table ++
      [.words " ALTER COLUMN ", .name column, .words " SET NOT NULL"])
  | .dropNotNull table column =>
    .words "ALTER TABLE " :: (tablePieces table ++
      [.words " ALTER COLUMN ", .name column, .words " DROP NOT NULL"])

theorem written_name (identifier : String) :
    Piece.written (.name identifier) = (quoteIdentifier identifier).toList := by
  simp [quoteIdentifier, Piece.written, quoted, doubled]

theorem written_words (text : String) : Piece.written (.words text) = text.toList := rfl

theorem written_tablePieces (table : QualifiedTableName) :
    written (tablePieces table) = (qualified table).toList := by
  simp only [qualified, tablePieces, written_cons, written_name, written_words,
    String.toList_append, List.append_assoc]
  exact congrArg _ (congrArg _ (List.append_nil _))

theorem written_columnPieces (column : ColumnSchema) :
    written (columnPieces column) = (renderColumn column).toList := by
  simp only [renderColumn, columnPieces, written_cons, written_name, written_words,
    String.toList_append, List.append_assoc]
  exact congrArg _ (congrArg _ (congrArg _ (List.append_nil _)))

theorem written_keyPieces (primaryKey : List String) : written (keyPieces primaryKey) =
    ("PRIMARY KEY (" ++ ", ".intercalate (primaryKey.map quoteIdentifier) ++ ")").toList := by
  have hkey : (written ∘ fun column => [Piece.name column]) =
      String.toList ∘ quoteIdentifier := by
    funext column
    exact (List.append_nil _).trans (written_name column)
  simp only [keyPieces, written_cons, written_append, written_intercalate, written_words,
    String.toList_append, String.toList_intercalate, List.map_map, hkey, List.append_assoc]
  rfl

theorem written_declarationPieces (table : TableSchema) :
    (declarationPieces table).map written = (declarations table).map String.toList := by
  have hcolumns : written ∘ columnPieces = String.toList ∘ renderColumn := by
    funext column
    exact written_columnPieces column
  rw [declarations, declarationPieces, List.map_append, List.map_append, List.map_map, List.map_map,
    hcolumns]
  congr 1
  split
  · rfl
  · rw [List.map_singleton, List.map_singleton, written_keyPieces]

theorem toList_renderCreateTable (table : TableSchema) :
    (renderCreateTable table).toList = written (pieces (.createTable table)) ++ [';'] := by
  have hclose : "\n);".toList = "\n)".toList ++ [';'] := by decide
  have hend : written [.words "\n)"] = "\n)".toList := List.append_nil _
  rw [pieces, written_cons, written_append, written_cons, written_append, written_tablePieces,
    written_intercalate, written_declarationPieces, hend, renderCreateTable]
  rw [String.toList_append, String.toList_append, String.toList_append, String.toList_append,
    String.toList_intercalate, hclose]
  simp only [written_words, List.append_assoc]

/-- The rendered text of an operation is its statement, and a semicolon. -/
theorem toList_renderOperation (operation : Operation) :
    (renderOperation operation).toList = written (pieces operation) ++ [';'] := by
  have hsemicolon : ";".toList = [';'] := by decide
  have hnil : written [] = [] := rfl
  cases operation with
  | createTable table => exact toList_renderCreateTable table
  | dropTable table =>
    show ("DROP TABLE " ++ qualified table.name ++ ";").toList = _
    simp only [pieces, written_cons, written_tablePieces, written_words, String.toList_append,
      List.append_assoc, hsemicolon]
  | addColumn table column =>
    show ("ALTER TABLE " ++ qualified table ++ " ADD COLUMN " ++ renderColumn column ++
      ";").toList = _
    simp only [pieces, written_cons, written_append, written_tablePieces, written_columnPieces,
      written_words, String.toList_append, List.append_assoc, hsemicolon]
  | dropColumn table column =>
    show ("ALTER TABLE " ++ qualified table ++ " DROP COLUMN " ++ quoteIdentifier column.name ++
      ";").toList = _
    simp only [pieces, written_cons, written_append, written_tablePieces, written_words,
      written_name, String.toList_append, List.append_assoc, hsemicolon, hnil, List.nil_append]
  | alterType table column «from» «to» =>
    show ("ALTER TABLE " ++ qualified table ++ " ALTER COLUMN " ++ quoteIdentifier column ++
      " TYPE " ++ «to».toSql ++ " USING " ++ quoteIdentifier column ++ "::" ++ «to».toSql ++
      ";").toList = _
    simp only [pieces, written_cons, written_append, written_tablePieces, written_words,
      written_name, String.toList_append, List.append_assoc, hsemicolon, hnil, List.nil_append]
  | setNotNull table column =>
    have hclose : " SET NOT NULL;".toList = " SET NOT NULL".toList ++ [';'] := by decide
    show ("ALTER TABLE " ++ qualified table ++ " ALTER COLUMN " ++ quoteIdentifier column ++
      " SET NOT NULL;").toList = _
    simp only [pieces, written_cons, written_append, written_tablePieces, written_words,
      written_name, String.toList_append, List.append_assoc, hclose, hnil, List.nil_append]
  | dropNotNull table column =>
    have hclose : " DROP NOT NULL;".toList = " DROP NOT NULL".toList ++ [';'] := by decide
    show ("ALTER TABLE " ++ qualified table ++ " ALTER COLUMN " ++ quoteIdentifier column ++
      " DROP NOT NULL;").toList = _
    simp only [pieces, written_cons, written_append, written_tablePieces, written_words,
      written_name, String.toList_append, List.append_assoc, hclose, hnil, List.nil_append]

/-! ### Statements are sound -/

theorem plain_length (length : UInt32) : Plain (toString length.toNat) := by
  intro c hc
  rw [Nat.toString_eq_ofList_toDigits, String.toList_ofList] at hc
  have hdigit : c.isDigit = true := Nat.isDigit_of_mem_toDigits (by decide) (by decide) hc
  have hnone : "\"-;'$/&\r".toList.all (fun x => !x.isDigit) = true := by decide
  rw [isPlain, decide_eq_true_iff]
  intro hmem
  have hnot := List.all_eq_true.mp hnone c hmem
  rw [hdigit] at hnot
  cases hnot

theorem plain_renderLengthLimitedType {base : String} (h : Plain base) (length : Option UInt32) :
    Plain (PgType.renderLengthLimitedType base length) := by
  cases length with
  | none => exact h
  | some length =>
    exact ((h.append (by decide)).append (plain_length length)).append (by decide)

/-- The words of a type stand for themselves. -/
theorem plain_toSql (kind : PgType) : Plain kind.toSql := by
  induction kind with
  | varChar length => exact plain_renderLengthLimitedType (by decide) length
  | char length => exact plain_renderLengthLimitedType (by decide) length
  | array element ih => exact ih.append (by decide)
  | _ => decide

theorem sound_tablePieces (table : QualifiedTableName) : Sound (tablePieces table) :=
  .join (.name table.schema) (by decide) (.name table.table)

theorem sound_columnPieces (column : ColumnSchema) : Sound (columnPieces column) := by
  have hnull : Plain (if column.nullable then "" else " NOT NULL") := by
    split <;> decide
  have hspace : Words " " := by decide
  exact .join (.name column.name) ((hspace.append (plain_toSql column.sqlType)).append hnull) .nil

theorem sound_keyPieces (primaryKey : List String) : Sound (keyPieces primaryKey) := by
  have hnames : Sound ([.words ", "].intercalate (primaryKey.map fun column => [.name column])) := by
    apply Sound.intercalate _ (by decide)
    intro part hpart
    obtain ⟨column, -, rfl⟩ := List.mem_map.mp hpart
    exact .name column
  exact .cons (by decide) (.join hnames (by decide) .nil)

theorem sound_declarationPieces (table : TableSchema) :
    ∀ part ∈ declarationPieces table, Sound part := by
  intro part hpart
  obtain hpart | hpart := List.mem_append.mp hpart
  · obtain ⟨column, -, rfl⟩ := List.mem_map.mp hpart
    exact sound_columnPieces column
  · split at hpart
    · cases hpart
    · obtain rfl := List.mem_singleton.mp hpart
      exact sound_keyPieces table.primaryKey

theorem sound_pieces (operation : Operation) : Sound (pieces operation) := by
  cases operation with
  | createTable table =>
    have hdeclarations : Sound ([.words ",\n    "].intercalate (declarationPieces table)) :=
      .intercalate (sound_declarationPieces table) (by decide)
    exact .cons (by decide) (.join (sound_tablePieces table.name) (by decide)
      (.join hdeclarations (by decide) .nil))
  | dropTable table => exact .cons (by decide) (sound_tablePieces table.name)
  | addColumn table column =>
    exact .cons (by decide) (.join (sound_tablePieces table) (by decide)
      (sound_columnPieces column))
  | dropColumn table column =>
    exact .cons (by decide) (.join (sound_tablePieces table) (by decide) (.name column.name))
  | alterType table column «from» «to» =>
    have htype : Words (" TYPE " ++ «to».toSql ++ " USING ") :=
      (Words.append (by decide) (plain_toSql «to»)).append (by decide)
    have hcast : Words ("::" ++ «to».toSql) := Words.append (by decide) (plain_toSql «to»)
    exact .cons (by decide) (.join (sound_tablePieces table) (by decide)
      (.join (.name column) htype (.join (.name column) hcast .nil)))
  | setNotNull table column | dropNotNull table column =>
    exact .cons (by decide) (.join (sound_tablePieces table) (by decide)
      (.join (.name column) (by decide) .nil))

/-- A statement begins with a letter, whatever its names become. -/
theorem readable_pieces (f : String → String) (operation : Operation) :
    Readable ((pieces operation).map (Piece.mapName f)) := by
  refine ⟨(sound_pieces operation).map f, ?_⟩
  cases operation with
  | createTable table => exact ⟨.plain 'C', _, rfl, by decide⟩
  | dropTable table => exact ⟨.plain 'D', _, rfl, by decide⟩
  | _ => exact ⟨.plain 'A', _, rfl, by decide⟩

/-! ### The names of a plan -/

/-- The schemas, tables, columns and keys that an operation names. -/
def identifiers : Operation → List String
  | .createTable table => table.name.schema :: table.name.table ::
      (table.columns.map (·.name) ++ table.primaryKey)
  | .dropTable table => [table.name.schema, table.name.table]
  | .addColumn table column | .dropColumn table column => [table.schema, table.table, column.name]
  | .alterType table column _ _ | .setNotNull table column | .dropNotNull table column =>
    [table.schema, table.table, column]

theorem mem_names_declarationPieces {table : TableSchema} {name : String} :
    name ∈ names ([.words ",\n    "].intercalate (declarationPieces table)) ↔
      name ∈ table.columns.map (·.name) ++ table.primaryKey := by
  have hcolumn (column : ColumnSchema) : names (columnPieces column) = [column.name] := by
    rw [columnPieces, names_name, names_words]
    rfl
  have hkey : name ∈ names (keyPieces table.primaryKey) ↔ name ∈ table.primaryKey := by
    rw [keyPieces, names_words, names_append, List.mem_append, mem_names_intercalate, names_words]
    simp [names, tokens, Piece.tokens, Token.name?]
  rw [mem_names_intercalate, List.mem_append]
  simp only [declarationPieces, List.mem_append, List.mem_map, or_and_right, exists_or]
  apply or_congr
  · simp [hcolumn, eq_comm]
  · split
    · next hempty => simp [List.isEmpty_iff.mp hempty]
    · simp [hkey]

theorem mem_names_pieces {operation : Operation} {name : String} :
    name ∈ names (pieces operation) ↔ name ∈ identifiers operation := by
  have htable (table : QualifiedTableName) : names (tablePieces table) =
      [table.schema, table.table] := by
    rw [tablePieces, names_name, names_words]
    rfl
  cases operation with
  | createTable table =>
    rw [pieces, names_words, names_append, htable, names_words, names_append, names_words, names_nil,
      List.append_nil]
    simp only [List.mem_append, mem_names_declarationPieces, identifiers, List.mem_cons,
      List.not_mem_nil, or_false, or_assoc]
  | dropTable table => rw [pieces, names_words, htable, identifiers]
  | addColumn table column | dropColumn table column =>
    simp only [pieces, identifiers, names_words, names_append, names_name, htable, columnPieces,
      names_nil, List.cons_append, List.nil_append]
  | alterType table column «from» «to» =>
    simp only [pieces, identifiers, names_words, names_append, names_name, htable, names_nil,
      List.cons_append, List.nil_append, List.mem_cons,
      List.not_mem_nil, or_false, or_self]
  | setNotNull table column | dropNotNull table column =>
    simp only [pieces, identifiers, names_words, names_append, names_name, htable, names_nil,
      List.cons_append, List.nil_append]

/-! ### Documents -/

/-- The text ends within a line. -/
def EndsInline (part : String) : Prop :=
  ∃ front last, part.toList = front ++ [last] ∧ isNewline last = false

theorem endsInline_of_commentLine {line : String} (h : CommentLine line) : EndsInline line := by
  have hne : line.toList ≠ [] := by
    obtain ⟨rest, hrest⟩ := h.dashes
    rw [hrest]
    exact List.cons_ne_nil _ _
  refine ⟨line.toList.dropLast, line.toList.getLast hne,
    (List.dropLast_append_getLast hne).symm, ?_⟩
  exact h.inline _ (List.getLast_mem hne)

theorem endsInline_renderOperation (operation : Operation) :
    EndsInline (renderOperation operation) :=
  ⟨written (pieces operation), ';', toList_renderOperation operation, by decide⟩

theorem intercalate_concat (parts : List (List Char)) (final : List Char) :
    ['\n'].intercalate (parts ++ [final]) = parts.flatMap (· ++ ['\n']) ++ final := by
  induction parts with
  | nil => simp [List.intercalate_singleton]
  | cons part parts ih =>
    rw [List.cons_append, List.flatMap_cons, List.append_assoc, ← ih]
    cases parts with
    | nil => simp [List.intercalate_cons_cons]
    | cons next parts => simp [List.intercalate_cons_cons]

/-- A document that ends within a line is written with a line feed behind each line. -/
theorem toList_normalizeNewlines {parts : List String} {final : String} (h : EndsInline final) :
    (normalizeNewlines ("\n".intercalate (parts ++ [final]))).toList =
      newlineChars ((parts ++ [final]).flatMap fun part => part.toList ++ ['\n']) := by
  obtain ⟨front, last, hfinal, hlast⟩ := h
  have hne : last ≠ '\n' ∧ last ≠ '\r' := by simpa [isNewline] using hlast
  have hline : "\n".toList = ['\n'] := by decide
  set before := parts.flatMap (fun part => part.toList ++ ['\n']) ++ front with hbefore
  have hjoined : ("\n".intercalate (parts ++ [final])).toList = before ++ [last] := by
    rw [String.toList_intercalate, hline, List.map_append, List.map_singleton, intercalate_concat,
      hfinal, List.flatMap_map, hbefore, List.append_assoc]
  have hlines : (parts ++ [final]).flatMap (fun part => part.toList ++ ['\n']) =
      before ++ [last, '\n'] := by
    rw [List.flatMap_append, List.flatMap_singleton, hfinal, hbefore]
    simp only [List.append_assoc, List.singleton_append]
  have hlast : newlineChars [last] = [last] := newlineChars_cons hne.2
  have hfeed : newlineChars [last, '\n'] = [last, '\n'] :=
    (newlineChars_cons hne.2).trans (congrArg (last :: ·) (newlineChars_cons (by decide)))
  rw [hlines, normalizeNewlines, String.toList_append, trimNewlines, String.toList_ofList,
    toList_newlines, hjoined, newlineChars_append_cons hne.1, newlineChars_append_cons hne.1, hlast,
    hfeed, List.reverse_concat, List.dropWhile_cons_of_neg (by simpa using hne.1),
    List.reverse_cons, List.reverse_reverse, hline, List.append_assoc]
  rfl

/-- The comment lines of a document. -/
def commentLines (warnings : List String) : List String :=
  REVIEW_HEADER ++ warnings.map commentLine

/-- The line between the comments and the statements. -/
def blank (operations : List Operation) : List Char := if operations.isEmpty then [] else ['\n']

/-- The statement of an operation, with the line ends of its names normalised. -/
def normalized (operation : Operation) : List Piece :=
  (pieces operation).map (Piece.mapName newlines)

theorem newlineChars_statements (operations : List Operation) :
    newlineChars (operations.flatMap fun operation => (renderOperation operation).toList ++ ['\n']) =
      writtenBodies (operations.map normalized) := by
  induction operations with
  | nil => rfl
  | cons operation operations ih =>
    have hwritten (rest : List Char) : (renderOperation operation).toList ++ ['\n'] ++ rest =
        written (pieces operation) ++ (';' :: '\n' :: rest) := by
      rw [toList_renderOperation, List.append_assoc, List.append_assoc]
      rfl
    rw [List.flatMap_cons, hwritten, newlineChars_written (sound_pieces operation),
      newlineChars_cons (by decide), newlineChars_cons (by decide), ih, List.map_cons,
      writtenBodies_cons, normalized]

theorem notMem_writtenLines {lines : List String} (h : ∀ line ∈ lines, CommentLine line) :
    '\r' ∉ writtenLines lines := by
  intro hmem
  obtain ⟨line, hline, hmem⟩ := List.mem_flatMap.mp hmem
  obtain hmem | hmem := List.mem_append.mp hmem
  · exact absurd ((h line hline).inline '\r' hmem) (by decide)
  · exact absurd (List.mem_singleton.mp hmem) (by decide)

variable {warnings : List String} {operations : List Operation}

/-- What is joined to a document. -/
def parts (warnings : List String) (operations : List Operation) : List String :=
  commentLines warnings ++
    if operations.isEmpty then [] else "" :: operations.map renderOperation

theorem flatMap_parts : (parts warnings operations).flatMap (fun part => part.toList ++ ['\n']) =
    writtenLines (commentLines warnings) ++ (blank operations ++
      operations.flatMap fun operation => (renderOperation operation).toList ++ ['\n']) := by
  rw [parts, List.flatMap_append, blank]
  cases operations with
  | nil => rfl
  | cons operation operations =>
    rw [List.isEmpty_cons, if_neg Bool.false_ne_true, if_neg Bool.false_ne_true, List.flatMap_cons,
      List.flatMap_map]
    rfl

theorem exists_parts_concat (operations : List Operation)
    (h : ∀ line ∈ commentLines warnings, CommentLine line) :
    ∃ front final, parts warnings operations = front ++ [final] ∧ EndsInline final := by
  obtain rfl | ⟨operations, operation, rfl⟩ := List.eq_nil_or_concat' operations
  · have hne : commentLines warnings ≠ [] := List.cons_ne_nil _ _
    refine ⟨(commentLines warnings).dropLast, (commentLines warnings).getLast hne, ?_,
      endsInline_of_commentLine (h _ (List.getLast_mem hne))⟩
    rw [List.dropLast_append_getLast hne]
    exact List.append_nil _
  · refine ⟨commentLines warnings ++ "" :: operations.map renderOperation,
      renderOperation operation, ?_, endsInline_renderOperation operation⟩
    have hne : (operations ++ [operation]).isEmpty = false := by simp
    rw [parts, hne, if_neg Bool.false_ne_true, List.map_append, List.map_singleton,
      List.append_assoc, List.cons_append]

/-- The text of a document, line by line. -/
theorem toList_renderDocument (h : ∀ line ∈ commentLines warnings, CommentLine line) :
    (renderDocument warnings operations).toList = writtenLines (commentLines warnings) ++
      (blank operations ++ writtenBodies (operations.map normalized)) := by
  have hblank : '\r' ∉ blank operations := by
    rw [blank]
    split <;> decide
  obtain ⟨front, final, hparts, hfinal⟩ := exists_parts_concat operations h
  change (normalizeNewlines ("\n".intercalate (parts warnings operations))).toList = _
  rw [hparts, toList_normalizeNewlines hfinal, ← hparts, flatMap_parts,
    newlineChars_append (notMem_writtenLines h), newlineChars_append hblank,
    newlineChars_statements]

/-- A document is read back with its comment lines and its statements, and the line ends of names
come back as line feeds. -/
theorem read_renderDocument (operations : List Operation)
    (h : ∀ line ∈ commentLines warnings, CommentLine line) :
    SqlText.read (renderDocument warnings operations) =
      some ⟨commentLines warnings, operations.map fun operation => tokens (normalized operation)⟩ := by
  have hbodies : ∀ body ∈ operations.map normalized, Readable body := by
    intro body hbody
    obtain ⟨operation, -, rfl⟩ := List.mem_map.mp hbody
    exact readable_pieces newlines operation
  have hblank : blank operations = [] ∨ blank operations = ['\n'] := by
    rw [blank]
    split
    · exact .inl rfl
    · exact .inr rfl
  rw [← String.ofList_toList (s := renderDocument warnings operations), toList_renderDocument h,
    read_script h hbodies hblank, List.map_map]
  rfl

/-! ### Warnings -/

theorem mem_replaceChar {text replacement : String} {x : Char} :
    x ∈ (replaceChar text c replacement).toList ↔
      (x ∈ text.toList ∧ x ≠ c) ∨ (c ∈ text.toList ∧ x ∈ replacement.toList) := by
  rw [replaceChar, String.toList_ofList, List.mem_flatMap]
  constructor
  · rintro ⟨y, hy, hx⟩
    split at hx
    · next heq => exact .inr ⟨heq ▸ hy, hx⟩
    · next hne =>
      obtain rfl := List.mem_singleton.mp hx
      exact .inl ⟨hy, hne⟩
  · rintro (⟨hx, hne⟩ | ⟨hc, hx⟩)
    · exact ⟨x, hx, by simp [hne]⟩
    · exact ⟨c, hc, by simpa using hx⟩

theorem inline_escapeWarningLineBreaks (content : String) :
    Inline (escapeWarningLineBreaks content) := by
  intro c hc
  have hescape : Inline "\\n" := by decide
  have hreturn : '\r' ∉ "\\r".toList := by decide
  rw [escapeWarningLineBreaks, mem_replaceChar] at hc
  obtain ⟨hc, hne⟩ | ⟨-, hc⟩ := hc
  · have hnone : c ≠ '\r' := by
      rintro rfl
      obtain ⟨-, hself⟩ | ⟨-, hmem⟩ := mem_replaceChar.mp hc
      · exact hself rfl
      · exact hreturn hmem
    simp [isNewline, hne, hnone]
  · exact hescape c hc

/-- A warning cannot leave its line. -/
theorem commentLine_warningText (warning : MigrationWarning) :
    CommentLine (commentLine (warningText (escaped warning))) := by
  have hmarker : Inline "-- WARNING: " := by decide
  have hsubject : Inline (escapeWarningLineBreaks warning.subject ++ ": ") :=
    (inline_escapeWarningLineBreaks warning.subject).append (by decide)
  have hmessage := inline_escapeWarningLineBreaks warning.message
  refine ⟨⟨" WARNING: ".toList ++ (warningText (escaped warning)).toList, ?_⟩,
    hmarker.append (hsubject.append hmessage)⟩
  rw [commentLine, String.toList_append]
  rfl

theorem commentLine_of_mem (migrationWarnings : List MigrationWarning) :
    ∀ line ∈ commentLines (normalizedWarnings migrationWarnings), CommentLine line := by
  intro line hline
  obtain hline | hline := List.mem_append.mp hline
  · have hinline : ∀ line ∈ REVIEW_HEADER, Inline line := by decide
    have hdashes : ∀ line ∈ REVIEW_HEADER, line.toList = '-' :: '-' :: line.toList.drop 2 := by
      decide
    exact ⟨⟨_, hdashes line hline⟩, hinline line hline⟩
  · obtain ⟨text, htext, rfl⟩ := List.mem_map.mp hline
    obtain ⟨fields, hfields, rfl⟩ := List.mem_map.mp htext
    have hmem := (List.destutter_sublist _ _).subset hfields
    obtain ⟨warning, -, rfl⟩ := List.mem_map.mp (mem_sortByKey.mp hmem)
    exact commentLine_warningText warning

/-! ### The files mean the plan -/

/-- The statement that an operation stands for. -/
def statement (operation : Operation) : List Token := tokens (pieces operation)

/-- The text has a comment line for each warning, one line for warnings that read the same, and a
statement for each operation. -/
def ReadsAs (text : String) (warnings : List MigrationWarning) (operations : List Operation) :
    Prop :=
  ∃ lines, SqlText.read text = some ⟨REVIEW_HEADER ++ lines, operations.map statement⟩ ∧
    lines.Perm ((warnings.map escaped).dedup.map fun fields => commentLine (warningText fields))

/-- Both files say what the plan says. -/
def MeansPlan (plan : MigrationPlan) : Prop :=
  ReadsAs (renderMigration plan).upSql plan.warnings plan.up ∧
    ReadsAs (renderMigration plan).downSql plan.warnings plan.down

theorem perm_normalizedWarnings (migrationWarnings : List MigrationWarning) :
    ((normalizedWarnings migrationWarnings).map commentLine).Perm
      ((migrationWarnings.map escaped).dedup.map fun fields => commentLine (warningText fields)) := by
  have hnodup : ((sortByKey id (migrationWarnings.map escaped)).destutter (· ≠ ·)).Nodup := by
    have hkeys := nodup_destutter_sortBy id (migrationWarnings.map escaped)
    rwa [List.map_id] at hkeys
  rw [normalizedWarnings, List.map_map]
  apply List.Perm.map
  rw [List.perm_ext_iff_of_nodup hnodup (List.nodup_dedup _)]
  intro fields
  rw [mem_destutter, mem_sortByKey, List.mem_dedup]

theorem readsAs_iff {migrationWarnings : List MigrationWarning} :
    ReadsAs (renderDocument (normalizedWarnings migrationWarnings) operations) migrationWarnings
        operations ↔
      ∀ operation ∈ operations, ∀ name ∈ identifiers operation, '\r' ∉ name.toList := by
  have hstatement (operation : Operation) : tokens (normalized operation) = statement operation ↔
      ∀ name ∈ identifiers operation, '\r' ∉ name.toList := by
    rw [normalized, statement, tokens_map_eq_iff]
    simp only [mem_names_pieces, newlines_eq_self_iff]
  have hread := read_renderDocument operations (commentLine_of_mem migrationWarnings)
  simp only [← hstatement]
  constructor
  · rintro ⟨lines, hlines, -⟩
    have hscript := Option.some.inj (hread.symm.trans hlines)
    exact List.map_inj_left.mp (Script.mk.inj hscript).2
  · intro h
    refine ⟨(normalizedWarnings migrationWarnings).map commentLine, ?_,
      perm_normalizedWarnings migrationWarnings⟩
    rw [hread, List.map_inj_left.mpr h]
    rfl

/-- A table whose name has a carriage return in it is dropped under another name. -/
theorem carriage_return_renamed :
    ¬ MeansPlan ⟨[.dropTable ⟨⟨"public", "a\rb"⟩, [], []⟩],
      [.createTable ⟨⟨"public", "a\rb"⟩, [], []⟩], []⟩ := by
  intro h
  have hplain : '\r' ∉ "a\rb".toList :=
    readsAs_iff.mp h.1 _ List.mem_cons_self "a\rb" (List.mem_cons_of_mem _ List.mem_cons_self)
  exact hplain (by decide)

end Sql

open Sql

/-- The files of a plan mean the plan just when no name that they write has a carriage return. -/
theorem renderMigration_means_iff (plan : MigrationPlan) : MeansPlan plan ↔
    ∀ operation ∈ plan.up ++ plan.down, ∀ name ∈ identifiers operation, '\r' ∉ name.toList := by
  rw [List.forall_mem_append]
  exact and_congr readsAs_iff readsAs_iff

end Mads
