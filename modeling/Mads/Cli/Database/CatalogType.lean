import Mads.Cli.Database.Schema
import Mads.Library.Text

/-!
# The types of the planner, written as SQL and read from the catalog
-/

namespace Mads

namespace PgType

def renderLengthLimitedType (name : String) (length : Option UInt32) : String :=
  match length with
  | some length => name ++ "(" ++ toString length.toNat ++ ")"
  | none => name

def toSql : PgType → String
  | bool => "boolean"
  | smallInt => "smallint"
  | integer => "integer"
  | bigInt => "bigint"
  | real => "real"
  | doublePrecision => "double precision"
  | numeric => "numeric"
  | text => "text"
  | varChar length => renderLengthLimitedType "varchar" length
  | char length => renderLengthLimitedType "char" length
  | bytea => "bytea"
  | date => "date"
  | time => "time"
  | timestamp => "timestamp"
  | timestampWithTimeZone => "timestamp with time zone"
  | json => "json"
  | jsonb => "jsonb"
  | uuid => "uuid"
  | inet => "inet"
  | cidr => "cidr"
  | macAddr => "macaddr"
  | array element => element.toSql ++ "[]"

end PgType

namespace Catalog

open Text

/-- A type without a length, or with one in parentheses. -/
def typeLength (catalogType base : String) : Option (Option UInt32) :=
  if catalogType = base then some none
  else do
    let suffix ← Text.stripPrefix catalogType base
    let suffix ← Text.stripPrefix suffix "("
    let length ← stripSuffix suffix ")"
    let length ← parseU32 length
    some (some length)

theorem typeLength_sized (base : String) (length : UInt32) :
    typeLength (base ++ "(" ++ toString length.toNat ++ ")") base = some (some length) := by
  have hsplit : base ++ "(" ++ toString length.toNat ++ ")" =
      base ++ ("(" ++ (toString length.toNat ++ ")")) := by
    simp only [String.append_assoc]
  have hne : base ++ ("(" ++ (toString length.toNat ++ ")")) ≠ base := fun h => by
    have hlength := congrArg String.length h
    have hopen : "(".length = 1 := rfl
    rw [String.length_append, String.length_append, hopen] at hlength
    omega
  rw [hsplit, typeLength, if_neg hne, stripPrefix_append]
  simp only [Option.bind_eq_bind, Option.bind_some, stripPrefix_append, stripSuffix_append,
    parseU32_toString]

def temporalType (catalogType base qualifier : String) : Bool :=
  match Text.stripPrefix catalogType base with
  | none => false
  | some suffix =>
    if suffix = qualifier then true
    else
      match (Text.stripPrefix suffix "(").bind (splitOnce · ')') with
      | none => false
      | some (precision, suffix) =>
        precision ≠ "" && precision.toList.all Char.isDigit && suffix = qualifier

/-- The types that are known by their name alone. -/
def parseTypeName : String → Option PgType
  | "boolean" | "bool" => some .bool
  | "smallint" | "int2" => some .smallInt
  | "integer" | "int4" => some .integer
  | "bigint" | "int8" => some .bigInt
  | "real" | "float4" => some .real
  | "double precision" | "float8" => some .doublePrecision
  | "text" => some .text
  | "bytea" => some .bytea
  | "date" => some .date
  | "json" => some .json
  | "jsonb" => some .jsonb
  | "uuid" => some .uuid
  | "inet" => some .inet
  | "cidr" => some .cidr
  | "macaddr" => some .macAddr
  | _ => none

/-- What `parse_catalog_type` makes of a type that is no array. -/
def parseScalarType (catalogType : String) : Option PgType :=
  match typeLength catalogType "character varying" with
  | some length => some (.varChar length)
  | none =>
    match typeLength catalogType "character" with
    | some length => some (.char length)
    | none =>
      if catalogType = "numeric" ∨ (Text.stripPrefix catalogType "numeric(").isSome then some .numeric
      else if temporalType catalogType "time" " without time zone" then some .time
      else if temporalType catalogType "timestamp" " without time zone" then some .timestamp
      else if temporalType catalogType "timestamp" " with time zone" then
        some .timestampWithTimeZone
      else parseTypeName catalogType

def parseCatalogType (catalogType : String) : Option PgType :=
  match _h : stripSuffix catalogType "[]" with
  | some element => (parseCatalogType element).map .array
  | none => parseScalarType catalogType
termination_by catalogType.length
decreasing_by
  have hlength := length_of_stripSuffix _h
  have hbrackets : "[]".length = 2 := rfl
  omega

theorem parseCatalogType_array (element : String) :
    parseCatalogType (element ++ "[]") = (parseCatalogType element).map .array := by
  rw [parseCatalogType]
  split
  · next found heq =>
    rw [stripSuffix_append] at heq
    rw [Option.some.inj heq]
  · next heq => simp at heq

theorem parseCatalogType_scalar {catalogType : String}
    (h : stripSuffix catalogType "[]" = none) :
    parseCatalogType catalogType = parseScalarType catalogType := by
  rw [parseCatalogType]
  split
  · next found heq => simp [h] at heq
  · rfl

end Catalog

/-! ## What comes back from a database -/

namespace PgType

open Catalog Text

def isArray : PgType → Bool
  | array _ => true
  | _ => false

/-- What PostgreSQL reports for a column that was created with a type in SQL, where it accepts the
type: most names as they are, lengths where there are any, and one pair of brackets for an array of
any dimension. -/
structure FormatType (reported : String → Option String) : Prop where
  same (name : String) : name ∈ ["boolean", "smallint", "integer", "bigint", "real",
      "double precision", "numeric", "text", "bytea", "date", "timestamp with time zone", "json",
      "jsonb", "uuid", "inet", "cidr", "macaddr"] → reported name = some name
  varchar : reported "varchar" = some "character varying"
  varcharLength (length : UInt32) (text : String) :
    reported ("varchar" ++ "(" ++ toString length.toNat ++ ")") = some text →
      text = "character varying" ++ "(" ++ toString length.toNat ++ ")"
  char : reported "char" = some ("character" ++ "(" ++ toString (1 : UInt32).toNat ++ ")")
  charLength (length : UInt32) (text : String) :
    reported ("char" ++ "(" ++ toString length.toNat ++ ")") = some text →
      text = "character" ++ "(" ++ toString length.toNat ++ ")"
  time : reported "time" = some "time without time zone"
  timestamp : reported "timestamp" = some "timestamp without time zone"
  array (element : PgType) : element.isArray = false →
    reported (element.toSql ++ "[]") = (reported element.toSql).map (· ++ "[]")
  dimensions (element : PgType) :
    reported (element.toSql ++ "[]" ++ "[]") = reported (element.toSql ++ "[]")

/-- The type that a column is read with. -/
def readBack : PgType → PgType
  | char none => char (some 1)
  | array (array element) => readBack (array element)
  | array element => array (readBack element)
  | kind => kind

/-- No unsized `char`, and no array of arrays. -/
def converges : PgType → Bool
  | char none => false
  | array (array _) => false
  | array element => element.converges
  | _ => true

theorem isArray_readBack (kind : PgType) : (readBack kind).isArray = kind.isArray := by
  fun_induction readBack kind with
  | case1 => rfl
  | case2 inner ih => exact ih
  | case3 inner hinner ih => rfl
  | case4 => rfl

theorem isArray_eq_true {kind : PgType} : kind.isArray = true ↔ ∃ element, kind = array element := by
  cases kind <;> simp [isArray]

/-- What is read is no array of arrays. -/
theorem readBack_ne_array (kind element : PgType) : readBack kind ≠ array (array element) := by
  fun_induction readBack kind with
  | case1 => simp
  | case2 inner ih => exact ih
  | case3 inner hinner ih =>
    intro h
    have harray : inner.isArray = true := by
      rw [← isArray_readBack, PgType.array.inj h]
      rfl
    obtain ⟨other, hother⟩ := isArray_eq_true.mp harray
    exact hinner other hother
  | case4 kind _ _ hkind => exact hkind (array element)

theorem readBack_eq_iff (kind : PgType) : readBack kind = kind ↔ kind.converges = true := by
  fun_induction readBack kind with
  | case1 => simp [converges]
  | case2 inner ih => simp [converges, readBack_ne_array]
  | case3 inner hinner ih =>
    rw [converges, ← ih, PgType.array.injEq]
    exact hinner
  | case4 kind hchar harrays harray =>
    rw [converges]
    · simp
    · exact hchar
    · exact harrays
    · exact harray

theorem parseScalarType_varchar (length : UInt32) :
    parseScalarType ("character varying" ++ "(" ++ toString length.toNat ++ ")") =
      some (.varChar (some length)) := by
  unfold parseScalarType
  rw [typeLength_sized]

theorem parseScalarType_char (length : UInt32) :
    parseScalarType ("character" ++ "(" ++ toString length.toNat ++ ")") =
      some (.char (some length)) := by
  have hother (rest : String) : "character" ++ "(" ++ toString length.toNat ++ ")" ≠
      "character varying" ++ rest := fun h => by
    -- the parenthesis stands where the blank would
    have hlists := congrArg String.toList h
    simp [String.toList_append] at hlists
  have hnone : typeLength ("character" ++ "(" ++ toString length.toNat ++ ")")
      "character varying" = none := by
    have hstrip : Text.stripPrefix ("character" ++ "(" ++ toString length.toNat ++ ")")
        "character varying" = none :=
      Option.eq_none_iff_forall_ne_some.mpr fun rest hrest =>
        hother rest (stripPrefix_eq_some.mp hrest)
    have hne := hother ""
    rw [String.append_empty] at hne
    rw [typeLength, if_neg hne, hstrip]
    rfl
  unfold parseScalarType
  rw [hnone, typeLength_sized]

/-- A type in parentheses is no array. -/
theorem stripSuffix_sized (base : String) (length : UInt32) :
    stripSuffix (base ++ "(" ++ toString length.toNat ++ ")") "[]" = none := by
  refine Option.eq_none_iff_forall_ne_some.mpr fun rest hrest => ?_
  have hlists := congrArg (fun text => text.toList.getLast?) (stripSuffix_eq_some.mp hrest)
  have hclose : ")".toList = [')'] := rfl
  have hbrackets : "[]".toList = ['['] ++ [']'] := rfl
  simp only [String.toList_append, hclose, hbrackets, ← List.append_assoc,
    List.getLast?_concat] at hlists
  exact absurd (Option.some.inj hlists) (by decide)

variable {reported : String → Option String} {text : String}

theorem parseCatalogType_reported_scalar (h : FormatType reported) {kind : PgType}
    (hkind : kind.isArray = false) (htext : reported kind.toSql = some text) :
    parseCatalogType text = some kind.readBack := by
  cases kind with
  | array element => cases hkind
  | varChar length =>
    cases length with
    | none =>
      obtain rfl := Option.some.inj (h.varchar.symm.trans htext)
      rw [parseCatalogType_scalar (by decide)]
      decide
    | some length =>
      rw [h.varcharLength length text htext, parseCatalogType_scalar (stripSuffix_sized _ _),
        parseScalarType_varchar]
      rfl
  | char length =>
    cases length with
    | none =>
      obtain rfl := Option.some.inj (h.char.symm.trans htext)
      rw [parseCatalogType_scalar (stripSuffix_sized _ _), parseScalarType_char]
      rfl
    | some length =>
      rw [h.charLength length text htext, parseCatalogType_scalar (stripSuffix_sized _ _),
        parseScalarType_char]
      rfl
  | time =>
    obtain rfl := Option.some.inj (h.time.symm.trans htext)
    rw [parseCatalogType_scalar (by decide)]
    decide
  | timestamp =>
    obtain rfl := Option.some.inj (h.timestamp.symm.trans htext)
    rw [parseCatalogType_scalar (by decide)]
    decide
  | _ =>
    obtain rfl := Option.some.inj ((h.same _ (by decide)).symm.trans htext)
    rw [toSql, parseCatalogType_scalar (by decide)]
    decide

/-- The type that a column is read with, after it was created with the SQL for a type. -/
theorem parseCatalogType_reported (h : FormatType reported) {kind : PgType}
    (htext : reported kind.toSql = some text) : parseCatalogType text = some kind.readBack := by
  fun_induction readBack kind generalizing text with
  | case1 => exact parseCatalogType_reported_scalar h rfl htext
  | case2 inner ih =>
    rw [toSql, toSql, h.dimensions] at htext
    exact ih htext
  | case3 inner hinner ih =>
    have hscalar : inner.isArray = false := by
      refine Bool.eq_false_iff.mpr fun harray => ?_
      obtain ⟨element, helement⟩ := isArray_eq_true.mp harray
      exact hinner element helement
    rw [toSql, h.array inner hscalar] at htext
    obtain ⟨found, hfound, rfl⟩ := Option.map_eq_some_iff.mp htext
    rw [parseCatalogType_array, ih hfound]
    rfl
  | case4 kind hchar harrays harray =>
    have hscalar : kind.isArray = false := by
      refine Bool.eq_false_iff.mpr fun hkind => ?_
      obtain ⟨element, helement⟩ := isArray_eq_true.mp hkind
      exact harray element helement
    have hread : readBack kind = kind := (readBack_eq_iff kind).mpr (by
      rw [converges]
      · exact hchar
      · exact harrays
      · exact harray)
    rw [parseCatalogType_reported_scalar h hscalar htext, hread]

end PgType

end Mads
