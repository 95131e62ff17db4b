import Mads.Cli.Database.DropOrder
import Mads.Cli.Database.Sql

/-!
# The PostgreSQL type that a type name denotes

A type name is the name of a base type, with modifiers in parentheses behind its first words and
with brackets behind it. The catalog and the renderer spell types differently; both spellings are
read here.
-/

namespace Mads

open Text

/-- The base types that the planner knows. -/
inductive PostgresBase where
  | boolean
  | smallint
  | integer
  | bigint
  | real
  | doublePrecision
  | numeric
  | text
  | varchar
  | char
  | bytea
  | date
  | time
  | timestamp
  | timestamptz
  | json
  | jsonb
  | uuid
  | inet
  | cidr
  | macaddr
  deriving DecidableEq, Repr

/-- A base type with its length, precision or scale, or an array. -/
inductive PostgresType where
  | base (name : PostgresBase) (modifiers : List ℤ)
  | array (element : PostgresType)
  deriving DecidableEq, Repr

namespace PostgresType

/-- The names of the base types, as SQL and the catalog spell them. -/
def baseNames : List (String × PostgresBase) :=
  [("boolean", .boolean), ("bool", .boolean), ("smallint", .smallint), ("int2", .smallint),
    ("integer", .integer), ("int4", .integer), ("bigint", .bigint), ("int8", .bigint),
    ("real", .real), ("float4", .real), ("double precision", .doublePrecision),
    ("float8", .doublePrecision), ("numeric", .numeric), ("text", .text),
    ("character varying", .varchar), ("varchar", .varchar), ("character", .char), ("char", .char),
    ("bytea", .bytea), ("date", .date), ("time without time zone", .time), ("time", .time),
    ("timestamp without time zone", .timestamp), ("timestamp", .timestamp),
    ("timestamp with time zone", .timestamptz), ("json", .json), ("jsonb", .jsonb),
    ("uuid", .uuid), ("inet", .inet), ("cidr", .cidr), ("macaddr", .macaddr)]

/-- The modifiers that a base type takes; `char` means `char(1)`, and a precision alone has the
scale zero. -/
def modified : PostgresBase → List ℤ → Option PostgresType
  | .varchar, [] => some (base .varchar [])
  | .varchar, [length] => some (base .varchar [length])
  | .char, [] => some (base .char [1])
  | .char, [length] => some (base .char [length])
  | .numeric, [] => some (base .numeric [])
  | .numeric, [precision] => some (base .numeric [precision, 0])
  | .numeric, [precision, scale] => some (base .numeric [precision, scale])
  | .time, [precision] => some (base .time [precision])
  | .timestamp, [precision] => some (base .timestamp [precision])
  | .timestamptz, [precision] => some (base .timestamptz [precision])
  | name, [] => some (base name [])
  | _, _ => none

def digitsValue (digits : List Char) : Option ℤ :=
  if digits ≠ [] ∧ digits.all Char.isDigit then
    some ((Nat.ofDigitChars 10 digits 0 : ℕ) : ℤ)
  else none

def modifierValue (text : String) : Option ℤ :=
  match text.toList with
  | '-' :: digits => (digitsValue digits).map (fun value => -value)
  | digits => digitsValue digits

/-- The type that a name without brackets denotes. -/
def scalar (text : String) : Option PostgresType :=
  match splitOnce text '(' with
  | none => (baseNames.lookup text).bind (modified · [])
  | some (name, rest) =>
    (splitOnce rest ')').bind fun (inside, qualifier) =>
      (split inside ',' |>.mapM modifierValue).bind fun modifiers =>
        (baseNames.lookup (name ++ qualifier)).bind (modified · modifiers)

def denoted (text : String) : Option PostgresType :=
  match _h : stripSuffix text "[]" with
  | some element => (denoted element).map array
  | none => scalar text
termination_by text.length
decreasing_by
  have hlength := length_of_stripSuffix _h
  have hbrackets : "[]".length = 2 := rfl
  omega

/-- The type without the precision and the scale of numbers and the precision of times, which the
planner's types do not have. -/
def supported : PostgresType → PostgresType
  | base .numeric _ => base .numeric []
  | base .time _ => base .time []
  | base .timestamp _ => base .timestamp []
  | base .timestamptz _ => base .timestamptz []
  | base name modifiers => base name modifiers
  | array element => array element.supported

theorem denoted_array (element : String) :
    denoted (element ++ "[]") = (denoted element).map array := by
  rw [denoted]
  split
  · next found heq =>
    rw [stripSuffix_append] at heq
    rw [Option.some.inj heq]
  · next heq => simp at heq

theorem denoted_scalar {text : String} (h : stripSuffix text "[]" = none) :
    denoted text = scalar text := by
  rw [denoted]
  split
  · next found heq => simp [h] at heq
  · rfl

example : denoted "numeric(10,2)[]" = some (.array (.base .numeric [10, 2])) := by
  rw [show "numeric(10,2)[]" = "numeric(10,2)" ++ "[]" from rfl, denoted_array,
    denoted_scalar (by decide +kernel)]
  decide +kernel

/-! ### Names with one modifier -/

theorem splitOnce_append {front back : String} {separator : String} {c : Char}
    (hseparator : separator.toList = [c]) (h : c ∉ front.toList) :
    splitOnce (front ++ separator ++ back) c = some (front, back) := by
  rw [splitOnce_eq_some]
  exact ⟨by simp [String.toList_append, hseparator], h⟩

/-- A name with one modifier in parentheses. -/
theorem scalar_modifier {name inside qualifier : String} (hname : '(' ∉ name.toList)
    (hinside : ')' ∉ inside.toList) (hcomma : ',' ∉ inside.toList) :
    scalar (name ++ "(" ++ inside ++ ")" ++ qualifier) = (modifierValue inside).bind fun value =>
      (baseNames.lookup (name ++ qualifier)).bind (modified · [value]) := by
  have houter : splitOnce (name ++ "(" ++ (inside ++ ")" ++ qualifier)) '(' =
      some (name, inside ++ ")" ++ qualifier) := splitOnce_append rfl hname
  have hinner : splitOnce (inside ++ ")" ++ qualifier) ')' = some (inside, qualifier) :=
    splitOnce_append rfl hinside
  have hsplit : split inside ',' = [inside] := by
    rw [split_eq_iff]
    exact ⟨by simp, by simpa using hcomma, by simp⟩
  have htext : name ++ "(" ++ inside ++ ")" ++ qualifier =
      name ++ "(" ++ (inside ++ ")" ++ qualifier) := by
    simp only [String.append_assoc]
  unfold scalar
  rw [htext, houter]
  dsimp only
  rw [hinner, Option.bind_some, hsplit, List.mapM_cons, List.mapM_nil]
  cases modifierValue inside <;> rfl

theorem digits_notMem {digits : List Char} (h : digits.all Char.isDigit) {c : Char}
    (hc : ¬ c.isDigit) : c ∉ digits :=
  fun hmem => hc (List.all_eq_true.mp h c hmem)

theorem modifierValue_digits {text : String} (hne : text.toList ≠ [])
    (h : text.toList.all Char.isDigit) :
    modifierValue text = some ((Nat.ofDigitChars 10 text.toList 0 : ℕ) : ℤ) := by
  unfold modifierValue
  split
  · next digits heq =>
    rw [heq] at h
    simp at h
  · rw [digitsValue, if_pos ⟨hne, h⟩]

/-- A length that both the planner and SQL read is the same for both. -/
theorem modifierValue_length {text : String} {length : UInt32} {value : ℤ}
    (hlength : parseU32 text = some length) (hvalue : modifierValue text = some value) :
    value = length.toNat ∧ text.toList.all Char.isDigit := by
  obtain ⟨parsed, hparsed, rfl⟩ := Option.map_eq_some_iff.mp hlength
  unfold parseUnsigned at hparsed
  dsimp only at hparsed
  split at hparsed
  · next digits heq =>
    -- SQL takes no plus sign
    have hnone : modifierValue text = none := by
      unfold modifierValue
      rw [heq]
      rfl
    rw [hnone] at hvalue
    cases hvalue
  · obtain ⟨⟨hne, hdigits, hbound⟩, hparsed⟩ := Option.ite_none_right_eq_some.mp hparsed
    rw [modifierValue_digits hne hdigits] at hvalue
    rw [← Option.some.inj hvalue, ← Option.some.inj hparsed,
      UInt32.toNat_ofNat_of_lt' hbound]
    exact ⟨rfl, hdigits⟩

/-- What a length that the planner reads consists of. -/
theorem parseU32_chars {text : String} {length : UInt32} (h : parseU32 text = some length) :
    ∀ c ∈ text.toList, c = '+' ∨ c.isDigit := by
  obtain ⟨parsed, hparsed, -⟩ := Option.map_eq_some_iff.mp h
  unfold parseUnsigned at hparsed
  dsimp only at hparsed
  split at hparsed
  · next digits heq =>
    obtain ⟨⟨-, hdigits, -⟩, -⟩ := Option.ite_none_right_eq_some.mp hparsed
    rw [heq]
    intro c hc
    obtain rfl | hc := List.mem_cons.mp hc
    · exact .inl rfl
    · exact .inr (List.all_eq_true.mp hdigits c hc)
  · obtain ⟨⟨-, hdigits, -⟩, -⟩ := Option.ite_none_right_eq_some.mp hparsed
    exact fun c hc => .inr (List.all_eq_true.mp hdigits c hc)

theorem denoted_sized {name : String} (hname : '(' ∉ name.toList) (length : UInt32) :
    denoted (name ++ "(" ++ toString length.toNat ++ ")") =
      (baseNames.lookup name).bind (modified · [(length.toNat : ℤ)]) := by
  have hchars : (toString length.toNat).toList = Nat.toDigits 10 length.toNat := by
    rw [Nat.toString_eq_ofList_toDigits, String.toList_ofList]
  have hdigits : (toString length.toNat).toList.all Char.isDigit := by
    rw [hchars]
    exact List.all_eq_true.mpr fun c hc => Nat.isDigit_of_mem_toDigits (by decide) (by decide) hc
  have hne : (toString length.toNat).toList ≠ [] := by
    rw [hchars]
    exact Nat.toDigits_ne_nil
  have hmodifier : scalar (name ++ "(" ++ toString length.toNat ++ ")" ++ "") = _ :=
    scalar_modifier hname (digits_notMem hdigits (by decide)) (digits_notMem hdigits (by decide))
  rw [String.append_empty, String.append_empty, modifierValue_digits hne hdigits, hchars,
    Nat.ofDigitChars_ten_toDigits] at hmodifier
  rw [denoted_scalar (PgType.stripSuffix_sized name length), hmodifier, Option.bind_some]

/-! ### What the catalog parser accepts -/

theorem typeLength_eq_some {text base : String} {length : Option UInt32}
    (h : Catalog.typeLength text base = some length) :
    text = base ∧ length = none ∨ ∃ inside n, text = base ++ "(" ++ inside ++ ")" ++ "" ∧
      parseU32 inside = some n ∧ length = some n := by
  unfold Catalog.typeLength at h
  split at h
  · next heq => exact .inl ⟨heq, (Option.some.inj h).symm⟩
  · simp only [Option.bind_eq_bind, Option.bind_eq_some_iff, stripPrefix_eq_some,
      stripSuffix_eq_some, Option.some.injEq] at h
    obtain ⟨_, rfl, _, rfl, inside, rfl, n, hn, rfl⟩ := h
    exact .inr ⟨inside, n, by simp [String.append_assoc], hn, rfl⟩

theorem temporalType_eq_true {text base qualifier : String}
    (h : Catalog.temporalType text base qualifier = true) :
    text = base ++ qualifier ∨ ∃ precision : String, precision.toList ≠ [] ∧
      precision.toList.all Char.isDigit ∧ text = base ++ "(" ++ precision ++ ")" ++ qualifier := by
  unfold Catalog.temporalType at h
  split at h
  · cases h
  · next suffix hsuffix =>
    rw [stripPrefix_eq_some] at hsuffix
    split at h
    · next heq => exact .inl (by rw [hsuffix, heq])
    · split at h
      · cases h
      · next precision rest hparts =>
        simp only [Bool.and_eq_true, decide_eq_true_eq] at h
        obtain ⟨⟨hne, hdigits⟩, rfl⟩ := h
        obtain ⟨inside, hinside, hsplit⟩ := Option.bind_eq_some_iff.mp hparts
        rw [stripPrefix_eq_some] at hinside
        obtain ⟨hlist, -⟩ := splitOnce_eq_some.mp hsplit
        refine .inr ⟨precision, fun hnil => hne (String.toList_inj.mp hnil), hdigits, ?_⟩
        apply String.toList_inj.mp
        rw [hsuffix, hinside]
        simp [String.toList_append, hlist]

/-- What is denoted by the SQL for a type that was read with a length. -/
theorem sized_denotes {base name : String} {b : PostgresBase} (hbase : '(' ∉ base.toList)
    (hlookup : baseNames.lookup base = some b) (hname : '(' ∉ name.toList)
    (hlookup' : baseNames.lookup name = some b) {inside : String} {n : UInt32}
    (hn : parseU32 inside = some n) {type : PostgresType}
    (htype : scalar (base ++ "(" ++ inside ++ ")" ++ "") = some type) :
    denoted (name ++ "(" ++ toString n.toNat ++ ")") = some type ∧
      modified b [(n.toNat : ℤ)] = some type := by
  have hchars := parseU32_chars hn
  have hclose : ')' ∉ inside.toList := fun h => by simpa using hchars _ h
  have hcomma : ',' ∉ inside.toList := fun h => by simpa using hchars _ h
  rw [scalar_modifier hbase hclose hcomma, String.append_empty, hlookup] at htype
  obtain ⟨value, hvalue, hmodified⟩ := Option.bind_eq_some_iff.mp htype
  obtain ⟨rfl, -⟩ := modifierValue_length hn hvalue
  rw [denoted_sized hname, hlookup']
  exact ⟨hmodified, hmodified⟩

theorem scalar_name {name : String} {b : PostgresBase} (hname : '(' ∉ name.toList)
    (hlookup : baseNames.lookup name = some b) : scalar name = modified b [] := by
  rw [scalar, splitOnce_eq_none hname]
  dsimp only
  rw [hlookup, Option.bind_some]

theorem supported_modified {b : PostgresBase} (hb : b = .varchar ∨ b = .char)
    {modifiers : List ℤ} {type : PostgresType} (h : modified b modifiers = some type) :
    type.supported = type := by
  obtain rfl | rfl := hb
  all_goals
    rcases modifiers with _ | ⟨length, _ | _⟩
    all_goals first | (obtain rfl := Option.some.inj h; rfl) | cases h

/-- The SQL for a type that the catalog spells with a length, or without its length, denotes that
type. -/
theorem lengthLimited_denotes {text base name : String} {b : PostgresBase}
    (hb : b = .varchar ∨ b = .char) (hbase : '(' ∉ base.toList)
    (hlookup : baseNames.lookup base = some b) (hname : '(' ∉ name.toList)
    (hscalar : stripSuffix name "[]" = none) (hlookup' : baseNames.lookup name = some b)
    {length : Option UInt32} (hlength : Catalog.typeLength text base = some length)
    {type : PostgresType} (htype : scalar text = some type) :
    denoted (PgType.renderLengthLimitedType name length) = some type.supported := by
  obtain ⟨rfl, rfl⟩ | ⟨inside, n, rfl, hn, rfl⟩ := typeLength_eq_some hlength
  · rw [scalar_name hbase hlookup] at htype
    rw [supported_modified hb htype, PgType.renderLengthLimitedType, denoted_scalar hscalar,
      scalar_name hname hlookup', htype]
  · obtain ⟨hdenoted, hmodified⟩ := sized_denotes hbase hlookup hname hlookup' hn htype
    rw [supported_modified hb hmodified]
    exact hdenoted

/-- A numeric type, whatever its modifiers. -/
theorem scalar_numeric {rest : String} {type : PostgresType}
    (h : scalar ("numeric" ++ "(" ++ rest) = some type) : type.supported = base .numeric [] := by
  have houter : splitOnce ("numeric" ++ "(" ++ rest) '(' = some ("numeric", rest) :=
    splitOnce_append rfl (by decide)
  unfold scalar at h
  rw [houter] at h
  obtain ⟨⟨inside, qualifier⟩, -, h⟩ := Option.bind_eq_some_iff.mp h
  obtain ⟨modifiers, -, h⟩ := Option.bind_eq_some_iff.mp h
  obtain ⟨b, hb, h⟩ := Option.bind_eq_some_iff.mp h
  -- no other name starts as this one
  have hnumeric : b = .numeric := by
    have hnames : ∀ entry ∈ baseNames, "numeric".toList <+: entry.1.toList →
        entry.2 = .numeric := by decide +kernel
    obtain ⟨front, back, heq, -⟩ := List.lookup_eq_some_iff.mp hb
    exact hnames ("numeric" ++ qualifier, b) (by simp [heq]) (by simp [String.toList_append])
  subst hnumeric
  rcases modifiers with _ | ⟨p, _ | ⟨s, _ | _⟩⟩
  all_goals first | (obtain rfl := Option.some.inj h; rfl) | cases h

theorem scalar_temporal {base qualifier : String} {b : PostgresBase}
    (hb : b = .time ∨ b = .timestamp ∨ b = .timestamptz) (hbase : '(' ∉ base.toList)
    (hlookup : baseNames.lookup (base ++ qualifier) = some b) {precision : String}
    (hne : precision.toList ≠ []) (hdigits : precision.toList.all Char.isDigit)
    {type : PostgresType}
    (h : scalar (base ++ "(" ++ precision ++ ")" ++ qualifier) = some type) :
    type.supported = .base b [] := by
  rw [scalar_modifier hbase (digits_notMem hdigits (by decide)) (digits_notMem hdigits (by decide)),
    modifierValue_digits hne hdigits, hlookup] at h
  obtain rfl | rfl | rfl := hb
  all_goals
    obtain rfl := Option.some.inj h
    rfl

/-- A time, with or without a precision. -/
theorem supported_of_temporal {text base qualifier : String} {b : PostgresBase}
    (hb : b = .time ∨ b = .timestamp ∨ b = .timestamptz)
    (hname : '(' ∉ (base ++ qualifier).toList)
    (hlookup : baseNames.lookup (base ++ qualifier) = some b)
    (htext : Catalog.temporalType text base qualifier = true) {type : PostgresType}
    (h : scalar text = some type) : type.supported = .base b [] := by
  obtain rfl | ⟨precision, hne, hdigits, rfl⟩ := temporalType_eq_true htext
  · rw [scalar_name hname hlookup] at h
    obtain rfl | rfl | rfl := hb
    all_goals
      obtain rfl := Option.some.inj h
      rfl
  · have hbase : '(' ∉ base.toList := fun hmem =>
      hname (by rw [String.toList_append]; exact List.mem_append_left _ hmem)
    exact scalar_temporal hb hbase hlookup hne hdigits h

/-- A name that is known as it is denotes the type that is written for it. -/
theorem parseTypeName_denotes {text : String} {kind : PgType}
    (h : Catalog.parseTypeName text = some kind) :
    scalar kind.toSql = (scalar text).map supported ∧ stripSuffix kind.toSql "[]" = none := by
  unfold Catalog.parseTypeName at h
  split at h
  case h_22 => cases h
  all_goals
    obtain rfl := Option.some.inj h
    decide +kernel

theorem parseScalarType_denotes {text : String} {kind : PgType} {type : PostgresType}
    (hparse : Catalog.parseScalarType text = some kind) (htype : scalar text = some type) :
    denoted kind.toSql = some type.supported := by
  unfold Catalog.parseScalarType at hparse
  split at hparse
  · next length hlength =>
    obtain rfl := Option.some.inj hparse
    exact lengthLimited_denotes (.inl rfl) (by decide) rfl (by decide) (by decide) rfl hlength htype
  split at hparse
  · next length hlength =>
    obtain rfl := Option.some.inj hparse
    exact lengthLimited_denotes (.inr rfl) (by decide) rfl (by decide) (by decide) rfl hlength htype
  -- from here on the SQL has no modifier, so a modifier of the name is lost
  split at hparse
  · next hnumeric =>
    obtain rfl := Option.some.inj hparse
    have hsupported : type.supported = .base .numeric [] := by
      obtain rfl | hrest := hnumeric
      · obtain rfl : PostgresType.base .numeric [] = type := Option.some.inj htype
        rfl
      · obtain ⟨rest, hrest⟩ := Option.isSome_iff_exists.mp hrest
        obtain rfl := stripPrefix_eq_some.mp hrest
        exact scalar_numeric htype
    rw [hsupported, denoted_scalar (by decide)]
    decide
  split at hparse
  · next htime =>
    obtain rfl := Option.some.inj hparse
    rw [supported_of_temporal (.inl rfl) (by decide) rfl htime htype, denoted_scalar (by decide)]
    decide
  split at hparse
  · next htimestamp =>
    obtain rfl := Option.some.inj hparse
    rw [supported_of_temporal (.inr (.inl rfl)) (by decide) rfl htimestamp htype,
      denoted_scalar (by decide)]
    decide
  split at hparse
  · next htimestamptz =>
    obtain rfl := Option.some.inj hparse
    rw [supported_of_temporal (.inr (.inr rfl)) (by decide) rfl htimestamptz htype,
      denoted_scalar (by decide)]
    decide
  obtain ⟨hsql, hscalar⟩ := parseTypeName_denotes hparse
  rw [denoted_scalar hscalar, hsql, htype]
  rfl

theorem denoted_toSql {text : String} {kind : PgType} {type : PostgresType}
    (hparse : Catalog.parseCatalogType text = some kind) (htype : denoted text = some type) :
    denoted kind.toSql = some type.supported := by
  fun_induction Catalog.parseCatalogType text generalizing kind type with
  | case1 text element h ih =>
    rw [stripSuffix_eq_some] at h
    subst h
    obtain ⟨inner, hinner, rfl⟩ := Option.map_eq_some_iff.mp hparse
    rw [denoted_array] at htype
    obtain ⟨innerType, hinnerType, rfl⟩ := Option.map_eq_some_iff.mp htype
    rw [PgType.toSql, denoted_array, ih hinner hinnerType]
    rfl
  | case2 text h =>
    rw [denoted_scalar h] at htype
    exact parseScalarType_denotes hparse htype

/-- The SQL for a type that the catalog reports denotes the type that was reported, up to what the
planner's types do not have. Where the way up takes a column's type, the way down has the operation
that takes this back, and its statement gives the column exactly that SQL type. -/
theorem restores_supported_type {text : String} {kind : PgType} {type : PostgresType}
    (hparse : Catalog.parseCatalogType text = some kind) (htype : denoted text = some type) :
    denoted kind.toSql = some type.supported ∧
      ∀ desired live plan, planDiff desired live = .ok plan →
        ∀ operation ∈ plan.up, ∀ table column, (table, column, kind) ∈ Sql.untyped operation →
          operation.inverse ∈ plan.down ∧
            Sql.Declares table column kind.toSql (Sql.renderOperation operation.inverse) := by
  refine ⟨denoted_toSql hparse htype, ?_⟩
  intro desired live plan hplan operation hoperation table column hcolumn
  obtain ⟨-, -, _, _, -, -, -, hdown⟩ := Diff.planTablesRef_ok hplan
  have hinverse : operation.inverse ∈ plan.down := by
    rw [hdown]
    exact List.mem_map_of_mem (List.mem_reverse.mpr hoperation)
  rw [← Sql.typed_inverse] at hcolumn
  exact ⟨hinverse, Sql.declares_of_typed hcolumn⟩

def tagsColumn : ColumnSchema where
  name := "tags"
  sqlType := .array (.varChar (some 255))
  nullable := true
  ordinal := 1

/-- A table with some columns besides its key. -/
def postsWith (columns : List ColumnSchema) : TableMap :=
  ⟨[⟨⟨"public", "posts"⟩, ⟨"id", .integer, false, 0⟩ :: columns, ["id"]⟩],
    List.pairwise_singleton _ _⟩

/-- The sources do not have the column of tags that the database has. -/
theorem restores_supported_type_varchar :
    Catalog.parseCatalogType ("character varying(255)" ++ "[]") = some tagsColumn.sqlType ∧
      denoted tagsColumn.sqlType.toSql = some (.array (.base .varchar [255])) ∧
      ∃ plan, planDiff ⟨postsWith []⟩ ⟨postsWith [tagsColumn], [], []⟩ = .ok plan ∧
        .addColumn ⟨"public", "posts"⟩ tagsColumn ∈ plan.down ∧
        Sql.Declares ⟨"public", "posts"⟩ "tags" tagsColumn.sqlType.toSql
          (Sql.renderOperation (.addColumn ⟨"public", "posts"⟩ tagsColumn)) := by
  have hparse : Catalog.parseCatalogType ("character varying(255)" ++ "[]") =
      some (.array (.varChar (some 255))) := by
    rw [Catalog.parseCatalogType_array, Catalog.parseCatalogType_scalar (by decide +kernel)]
    decide +kernel
  have htype : denoted ("character varying(255)" ++ "[]") =
      some (.array (.base .varchar [255])) := by
    rw [denoted_array, denoted_scalar (by decide +kernel)]
    decide +kernel
  obtain ⟨hsql, hrestores⟩ := restores_supported_type hparse htype
  obtain ⟨plan, hplan, hup⟩ : ∃ plan,
      planDiff ⟨postsWith []⟩ ⟨postsWith [tagsColumn], [], []⟩ = .ok plan ∧
        plan.up = [.dropColumn ⟨"public", "posts"⟩ tagsColumn] := ⟨_, rfl, by decide +kernel⟩
  obtain ⟨hdown, hdeclares⟩ := hrestores _ _ plan hplan _
    (by rw [hup]; exact List.mem_singleton_self _) ⟨"public", "posts"⟩ "tags"
    (List.mem_singleton_self _)
  exact ⟨hparse, hsql, plan, hplan, hdown, hdeclares⟩

/-- The precision and the scale of a number are lost. -/
theorem numeric_not_restored : ¬ ∀ text kind type, Catalog.parseCatalogType text = some kind →
    denoted text = some type → denoted kind.toSql = some type := by
  intro h
  have hparse : Catalog.parseCatalogType "numeric(10,2)" = some .numeric := by
    rw [Catalog.parseCatalogType_scalar (by decide +kernel)]
    decide +kernel
  have htype : denoted "numeric(10,2)" = some (.base .numeric [10, 2]) := by
    rw [denoted_scalar (by decide +kernel)]
    decide +kernel
  have hsql := h _ _ _ hparse htype
  rw [denoted_scalar (by decide +kernel)] at hsql
  revert hsql
  decide +kernel

end PostgresType

end Mads
