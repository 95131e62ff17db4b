import Mathlib.Data.List.Basic
import Mathlib.Data.String.Basic

/-!
# SQL text, as far as comments and quoted identifiers go

A reader of the text of a script, and texts that it reads back as they were meant: statements are
put together from fixed words and from names in quotes.
-/

namespace SqlText

/-- A comment with its dashes, a quoted identifier by its name, or one other character. -/
inductive Token where
  | comment (line : String)
  | identifier (name : String)
  | plain (c : Char)
  deriving DecidableEq, Repr

inductive Mode where
  | plain
  | comment (done : List Char)
  | quoted (done : List Char)

/-- Characters that begin forms which are not read here: strings, dollar quotes, block comments and
escaped identifiers. -/
def beginsOther (c : Char) : Bool := c ∈ "'$/&".toList

def isNewline (c : Char) : Bool := c = '\n' || c = '\r'

/-- The tokens of a text. A comment ends with its line, and a doubled quote stands for one quote. -/
def scan : Mode → List Char → Option (List Token)
  | .plain, [] => some []
  | .plain, '-' :: '-' :: rest => scan (.comment ['-', '-']) rest
  | .plain, '"' :: rest => scan (.quoted []) rest
  | .plain, c :: rest => if beginsOther c then none else (scan .plain rest).map (.plain c :: ·)
  | .comment done, [] => some [.comment (String.ofList done.reverse)]
  | .comment done, c :: rest =>
    if isNewline c then
      (scan .plain rest).map (.comment (String.ofList done.reverse) :: .plain c :: ·)
    else scan (.comment (c :: done)) rest
  | .quoted _, [] => none
  | .quoted done, '"' :: '"' :: rest => scan (.quoted ('"' :: done)) rest
  | .quoted done, '"' :: rest =>
    (scan .plain rest).map (.identifier (String.ofList done.reverse) :: ·)
  | .quoted done, c :: rest => scan (.quoted (c :: done)) rest

def Token.isSpace : Token → Bool
  | .plain c => c ∈ " \n\r\t".toList
  | _ => false

def Token.isComment : Token → Bool
  | .comment _ => true
  | _ => false

def Token.comment? : Token → Option String
  | .comment line => some line
  | _ => none

def Token.name? : Token → Option String
  | .identifier name => some name
  | _ => none

/-- The statements of a script without comments. Each ends with a semicolon. -/
def statements (current : List Token) : List Token → Option (List (List Token))
  | [] => if current = [] then some [] else none
  | token :: rest =>
    if token = .plain ';' then (statements [] rest).map (current.reverse :: ·)
    else if current = [] ∧ token.isSpace then statements [] rest
    else statements (token :: current) rest

structure Script where
  comments : List String
  statements : List (List Token)
  deriving DecidableEq

/-- The comment lines and the statements of a text. -/
def read (text : String) : Option Script := do
  let tokens ← scan .plain text.toList
  let statements ← statements [] (tokens.filter (!·.isComment))
  some ⟨tokens.filterMap Token.comment?, statements⟩

/-! ### Characters, comments and names -/

variable {chars rest done : List Char}

/-- A character that stands for itself. -/
def isPlain (c : Char) : Bool := c ∉ "\"-;'$/&\r".toList

theorem scan_cons {c : Char} (h : isPlain c) :
    scan .plain (c :: rest) = (scan .plain rest).map (.plain c :: ·) := by
  have hne : c ≠ '-' ∧ c ≠ '"' ∧ beginsOther c = false := by
    simp only [isPlain, beginsOther] at h ⊢
    simp_all
  obtain ⟨hdash, hquote, hother⟩ := hne
  rw [scan]
  · rw [hother]
    rfl
  · exact fun _ hc => absurd hc hdash
  · exact hquote

theorem scan_chars (h : ∀ c ∈ chars, isPlain c) :
    scan .plain (chars ++ rest) = (scan .plain rest).map (chars.map .plain ++ ·) := by
  induction chars with
  | nil => simp
  | cons c chars ih =>
    rw [List.forall_mem_cons] at h
    rw [List.cons_append, scan_cons h.1, ih h.2, Option.map_map]
    rfl

theorem scan_comment (h : ∀ c ∈ chars, isNewline c = false) :
    scan (.comment done) (chars ++ '\n' :: rest) = (scan .plain rest).map
      (.comment (String.ofList (done.reverse ++ chars)) :: .plain '\n' :: ·) := by
  induction chars generalizing done with
  | nil =>
    rw [List.nil_append, scan, List.append_nil]
    rfl
  | cons c chars ih =>
    rw [List.forall_mem_cons] at h
    rw [List.cons_append, scan, h.1, ih h.2]
    simp

def doubled (name : List Char) : List Char := name.flatMap fun c => if c = '"' then [c, c] else [c]

theorem doubled_cons {c : Char} (h : c ≠ '"') (name : List Char) :
    doubled (c :: name) = c :: doubled name := by
  rw [doubled, List.flatMap_cons, if_neg h]
  rfl

theorem doubled_quote (name : List Char) : doubled ('"' :: name) = '"' :: '"' :: doubled name := rfl

theorem head?_doubled (name : List Char) : (doubled name).head? = name.head? := by
  cases name with
  | nil => rfl
  | cons c name =>
    by_cases hc : c = '"'
    · rw [hc, doubled_quote]
      rfl
    · rw [doubled_cons hc]
      rfl

/-- A name in quotes, with the ones inside doubled. -/
def quoted (name : List Char) : List Char := '"' :: doubled name ++ ['"']

theorem scan_close (h : rest.head? ≠ some '"') : scan (.quoted done) ('"' :: rest) =
    (scan .plain rest).map (.identifier (String.ofList done.reverse) :: ·) := by
  rw [scan]
  rintro tail rfl
  exact h rfl

theorem scan_doubled {name : List Char} (h : rest.head? ≠ some '"') :
    scan (.quoted done) (doubled name ++ '"' :: rest) = (scan .plain rest).map
      (.identifier (String.ofList (done.reverse ++ name)) :: ·) := by
  induction name generalizing done with
  | nil =>
    rw [List.append_nil]
    exact scan_close h
  | cons c name ih =>
    by_cases hc : c = '"'
    · rw [hc, doubled_quote, List.cons_append, List.cons_append, scan, ih]
      simp
    · rw [doubled_cons hc, List.cons_append, scan, ih]
      · simp
      · exact fun _ heq => absurd heq hc
      · exact hc

/-- A quoted name is read back, unless a quote follows. -/
theorem scan_quoted {name : List Char} (h : rest.head? ≠ some '"') :
    scan .plain (quoted name ++ rest) =
      (scan .plain rest).map (.identifier (String.ofList name) :: ·) := by
  rw [quoted, List.cons_append, List.cons_append, List.append_assoc, scan]
  exact scan_doubled h

/-! ### Statements -/

/-- A part of a statement: fixed words, or a name that is written in quotes. -/
inductive Piece where
  | words (text : String)
  | name (identifier : String)
  deriving DecidableEq, Repr

namespace Piece

def written : Piece → List Char
  | words text => text.toList
  | name identifier => quoted identifier.toList

def tokens : Piece → List Token
  | words text => text.toList.map .plain
  | name identifier => [.identifier identifier]

def mapName (f : String → String) : Piece → Piece
  | words text => words text
  | name identifier => name (f identifier)

end Piece

def written (pieces : List Piece) : List Char := pieces.flatMap Piece.written

def tokens (pieces : List Piece) : List Token := pieces.flatMap Piece.tokens

/-- The names that are written in a statement. -/
def names (pieces : List Piece) : List String := (tokens pieces).filterMap Token.name?

/-- No character of the text begins anything. -/
def Plain (text : String) : Prop := ∀ c ∈ text.toList, isPlain c

instance (text : String) : Decidable (Plain text) := decidable_of_iff _ List.all_eq_true

theorem Plain.append {front back : String} (hfront : Plain front) (hback : Plain back) :
    Plain (front ++ back) := by
  intro c hc
  rw [String.toList_append] at hc
  obtain hc | hc := List.mem_append.mp hc
  · exact hfront c hc
  · exact hback c hc

def Words (text : String) : Prop := text ≠ "" ∧ Plain text

instance (text : String) : Decidable (Words text) := inferInstanceAs (Decidable (_ ∧ _))

theorem Words.append {front back : String} (hfront : Words front) (hback : Plain back) :
    Words (front ++ back) := by
  refine ⟨?_, hfront.2.append hback⟩
  intro h
  exact hfront.1 (String.append_eq_empty_iff.mp h).1

/-- There are words between two names. -/
inductive Sound : List Piece → Prop
  | nil : Sound []
  | name (identifier : String) : Sound [.name identifier]
  | join {front back : List Piece} {text : String} (hfront : Sound front) (htext : Words text)
    (hback : Sound back) : Sound (front ++ .words text :: back)

variable {pieces front back : List Piece} {text : String}

theorem Sound.words (h : Words text) : Sound [.words text] := .join .nil h .nil

theorem Sound.cons (h : Words text) (hback : Sound back) : Sound (.words text :: back) :=
  .join .nil h hback

theorem Sound.map (f : String → String) (h : Sound pieces) :
    Sound (pieces.map (Piece.mapName f)) := by
  induction h with
  | nil => exact .nil
  | name identifier => exact .name (f identifier)
  | join _ htext _ ihfront ihback =>
    rw [List.map_append, List.map_cons]
    exact .join ihfront htext ihback

theorem Sound.intercalate {parts : List (List Piece)} (h : ∀ part ∈ parts, Sound part)
    (htext : Words text) : Sound ([Piece.words text].intercalate parts) := by
  induction parts with
  | nil => exact .nil
  | cons part parts ih =>
    rw [List.forall_mem_cons] at h
    cases parts with
    | nil =>
      rw [List.intercalate_singleton]
      exact h.1
    | cons next parts =>
      rw [List.intercalate_cons_cons, List.append_assoc]
      exact .join h.1 htext (ih h.2)

theorem written_append : written (front ++ back) = written front ++ written back :=
  List.flatMap_append

theorem tokens_append : tokens (front ++ back) = tokens front ++ tokens back :=
  List.flatMap_append

theorem written_cons {piece : Piece} : written (piece :: pieces) = piece.written ++ written pieces :=
  rfl

theorem written_intercalate (separator : String) (parts : List (List Piece)) :
    written ([Piece.words separator].intercalate parts) =
      separator.toList.intercalate (parts.map written) := by
  induction parts with
  | nil => rfl
  | cons part parts ih =>
    cases parts with
    | nil => simp [List.intercalate_singleton]
    | cons next parts =>
      have hwords : written [.words separator] = separator.toList := List.append_nil _
      rw [List.intercalate_cons_cons, written_append, written_append, ih, hwords, List.map_cons,
        List.map_cons, List.map_cons, List.intercalate_cons_cons]

theorem head_ne_quote (h : Words text) : (text.toList ++ rest).head? ≠ some '"' := by
  obtain ⟨hne, hplain⟩ := h
  cases htext : text.toList with
  | nil => exact absurd (String.toList_eq_nil_iff.mp htext) hne
  | cons c chars =>
    rintro ⟨⟩
    have hmem : '"' ∈ text.toList := by
      rw [htext]
      exact List.mem_cons_self
    exact absurd (hplain '"' hmem) (by decide)

/-- A statement is read back, with the names that it was written with. -/
theorem scan_written (h : Sound pieces) (hrest : rest.head? ≠ some '"') :
    scan .plain (written pieces ++ rest) = (scan .plain rest).map (tokens pieces ++ ·) := by
  induction h generalizing rest with
  | nil => simp [written, tokens]
  | name identifier =>
    have hwritten : written [.name identifier] = quoted identifier.toList := by
      simp [written, Piece.written]
    rw [hwritten, scan_quoted hrest, String.ofList_toList]
    rfl
  | @join front back text _ htext _ ihfront ihback =>
    have hwritten : written (.words text :: back) = text.toList ++ written back := rfl
    have htokens : tokens (.words text :: back) = text.toList.map .plain ++ tokens back := rfl
    rw [written_append, hwritten, List.append_assoc, List.append_assoc,
      ihfront (head_ne_quote htext), scan_chars htext.2, ihback hrest, tokens_append, htokens]
    simp [Function.comp_def]

theorem scan_semicolon : scan .plain (';' :: rest) = (scan .plain rest).map (.plain ';' :: ·) := by
  rw [scan]
  · rfl
  · exact fun _ heq => absurd heq (by decide)
  · decide

/-! ### Scripts -/

theorem statements_of_ne_nil {current body rest : List Token} (hne : current ≠ [])
    (hbody : ∀ token ∈ body, token ≠ .plain ';') :
    statements current (body ++ .plain ';' :: rest) =
      (statements [] rest).map ((current.reverse ++ body) :: ·) := by
  induction body generalizing current with
  | nil => rw [List.nil_append, statements, if_pos rfl, List.append_nil]
  | cons token body ih =>
    rw [List.forall_mem_cons] at hbody
    rw [List.cons_append, statements, if_neg hbody.1, if_neg (fun h => hne h.1),
      ih (List.cons_ne_nil _ _) hbody.2]
    simp

/-- The tokens up to a semicolon are one statement. -/
theorem statements_cons {first : Token} {body rest : List Token} (hspace : first.isSpace = false)
    (hbody : ∀ token ∈ first :: body, token ≠ .plain ';') :
    statements [] (first :: body ++ .plain ';' :: rest) =
      (statements [] rest).map ((first :: body) :: ·) := by
  rw [List.forall_mem_cons] at hbody
  rw [List.cons_append, statements, if_neg hbody.1, if_neg (by simp [hspace]),
    statements_of_ne_nil (List.cons_ne_nil _ _) hbody.2]
  rfl

theorem statements_space {token : Token} {rest : List Token} (h : token.isSpace = true) :
    statements [] (token :: rest) = statements [] rest := by
  rw [statements, if_neg, if_pos ⟨rfl, h⟩]
  rintro rfl
  cases h

theorem tokens_ne_semicolon (h : Sound pieces) : ∀ token ∈ tokens pieces,
    token ≠ .plain ';' ∧ token.isComment = false := by
  induction h with
  | nil => exact nofun
  | name identifier =>
    intro token htoken
    obtain rfl : token = .identifier identifier := by simpa [tokens, Piece.tokens] using htoken
    exact ⟨nofun, rfl⟩
  | @join front back text _ htext _ ihfront ihback =>
    have htokens : tokens (.words text :: back) = text.toList.map .plain ++ tokens back := rfl
    rw [tokens_append, htokens]
    intro token htoken
    simp only [List.mem_append, List.mem_map] at htoken
    obtain htoken | ⟨c, hc, rfl⟩ | htoken := htoken
    · exact ihfront token htoken
    · refine ⟨?_, rfl⟩
      rintro ⟨⟩
      exact absurd (htext.2 ';' hc) (by decide)
    · exact ihback token htoken

theorem names_nil : names [] = [] := rfl

theorem names_append : names (front ++ back) = names front ++ names back := by
  rw [names, tokens_append, List.filterMap_append]
  rfl

theorem names_name {identifier : String} :
    names (.name identifier :: pieces) = identifier :: names pieces := rfl

theorem names_words : names (.words text :: pieces) = names pieces := by
  have htokens : tokens (.words text :: pieces) = text.toList.map .plain ++ tokens pieces := rfl
  have hplain : (text.toList.map Token.plain).filterMap Token.name? = [] := by
    rw [List.filterMap_eq_nil_iff]
    intro token htoken
    obtain ⟨c, -, rfl⟩ := List.mem_map.mp htoken
    rfl
  rw [names, htokens, List.filterMap_append, hplain]
  rfl

theorem names_map (f : String → String) :
    names (pieces.map (Piece.mapName f)) = (names pieces).map f := by
  induction pieces with
  | nil => rfl
  | cons piece pieces ih =>
    cases piece with
    | words text => rw [List.map_cons, Piece.mapName, names_words, names_words, ih]
    | name identifier => rw [List.map_cons, Piece.mapName, names_name, names_name, ih, List.map_cons]

/-- Renaming keeps a statement just when it keeps each of its names. -/
theorem tokens_map_eq_iff {f : String → String} :
    tokens (pieces.map (Piece.mapName f)) = tokens pieces ↔ ∀ name ∈ names pieces, f name = name := by
  constructor
  · intro h name hname
    have hnames : (names pieces).map f = names pieces := by
      rw [← names_map, names, h]
      rfl
    exact List.map_inj_left.mp (hnames.trans (List.map_id _).symm) name hname
  · intro h
    induction pieces with
    | nil => rfl
    | cons piece pieces ih =>
      cases piece with
      | words text =>
        rw [names_words] at h
        exact congrArg (text.toList.map Token.plain ++ ·) (ih h)
      | name identifier =>
        rw [names_name, List.forall_mem_cons] at h
        rw [List.map_cons, Piece.mapName, h.1]
        exact congrArg (Token.identifier identifier :: ·) (ih h.2)

theorem mem_names_intercalate {separator name : String} {parts : List (List Piece)} :
    name ∈ names ([.words separator].intercalate parts) ↔ ∃ part ∈ parts, name ∈ names part := by
  induction parts with
  | nil => simp [names, tokens]
  | cons part parts ih =>
    cases parts with
    | nil => simp [List.intercalate_singleton]
    | cons next parts =>
      rw [List.intercalate_cons_cons, List.append_assoc, names_append, List.mem_append,
        List.singleton_append, names_words, ih]
      simp only [List.mem_cons, exists_eq_or_imp]

/-- A statement that does not begin with a space. -/
structure Readable (pieces : List Piece) : Prop where
  sound : Sound pieces
  starts : ∃ first body, tokens pieces = first :: body ∧ first.isSpace = false

/-- No line ends in the text. -/
def Inline (text : String) : Prop := ∀ c ∈ text.toList, isNewline c = false

instance (text : String) : Decidable (Inline text) :=
  decidable_of_iff (text.toList.all fun c => !isNewline c) <| by
    simp only [List.all_eq_true, Bool.not_eq_eq_eq_not, Bool.not_true, Inline]

theorem Inline.append {front back : String} (hfront : Inline front) (hback : Inline back) :
    Inline (front ++ back) := by
  intro c hc
  rw [String.toList_append] at hc
  obtain hc | hc := List.mem_append.mp hc
  · exact hfront c hc
  · exact hback c hc

structure CommentLine (line : String) : Prop where
  dashes : ∃ rest, line.toList = '-' :: '-' :: rest
  inline : Inline line

variable {lines : List String} {bodies : List (List Piece)}

/-- The comment lines of a script. -/
def writtenLines (lines : List String) : List Char :=
  lines.flatMap fun line => line.toList ++ ['\n']

/-- The statements of a script, each on lines of its own. -/
def writtenBodies (bodies : List (List Piece)) : List Char :=
  bodies.flatMap fun body => written body ++ [';', '\n']

def lineTokens (lines : List String) : List Token :=
  lines.flatMap fun line => [.comment line, .plain '\n']

def bodyTokens (bodies : List (List Piece)) : List Token :=
  bodies.flatMap fun body => tokens body ++ [.plain ';', .plain '\n']

theorem scan_lines (h : ∀ line ∈ lines, CommentLine line) :
    scan .plain (writtenLines lines ++ rest) =
      (scan .plain rest).map (lineTokens lines ++ ·) := by
  induction lines with
  | nil => simp [writtenLines, lineTokens]
  | cons line lines ih =>
    rw [List.forall_mem_cons] at h
    obtain ⟨chars, hchars⟩ := h.1.dashes
    have hinline : ∀ c ∈ chars, isNewline c = false := fun c hc =>
      h.1.inline c (by rw [hchars]; exact List.mem_cons_of_mem _ (List.mem_cons_of_mem _ hc))
    have hwritten : writtenLines (line :: lines) ++ rest =
        '-' :: '-' :: (chars ++ '\n' :: (writtenLines lines ++ rest)) := by
      simp [writtenLines, hchars]
    have hline : String.ofList (['-', '-'].reverse ++ chars) = line := by
      rw [← String.ofList_toList (s := line), hchars]
      rfl
    rw [hwritten, scan, scan_comment hinline, ih h.2, Option.map_map, hline]
    rfl

theorem writtenBodies_cons {body : List Piece} : writtenBodies (body :: bodies) =
    written body ++ (';' :: '\n' :: writtenBodies bodies) := by
  rw [writtenBodies, List.flatMap_cons, List.append_assoc]
  rfl

theorem scan_bodies (h : ∀ body ∈ bodies, Sound body) :
    scan .plain (writtenBodies bodies) = some (bodyTokens bodies) := by
  induction bodies with
  | nil => simp [writtenBodies, bodyTokens, scan]
  | cons body bodies ih =>
    rw [List.forall_mem_cons] at h
    have htokens : bodyTokens (body :: bodies) =
        tokens body ++ (.plain ';' :: .plain '\n' :: bodyTokens bodies) := by
      simp [bodyTokens]
    rw [writtenBodies_cons, htokens, scan_written h.1 (by simp), scan_semicolon, scan_cons (by decide),
      ih h.2]
    rfl

theorem statements_bodies (h : ∀ body ∈ bodies, Readable body) :
    statements [] (bodyTokens bodies) = some (bodies.map tokens) := by
  induction bodies with
  | nil => simp [bodyTokens, statements]
  | cons body bodies ih =>
    rw [List.forall_mem_cons] at h
    obtain ⟨first, rest, htokens, hspace⟩ := h.1.starts
    have hnone : ∀ token ∈ first :: rest, token ≠ .plain ';' := by
      rw [← htokens]
      exact fun token htoken => (tokens_ne_semicolon h.1.sound token htoken).1
    have hbody : bodyTokens (body :: bodies) =
        first :: rest ++ .plain ';' :: (.plain '\n' :: bodyTokens bodies) := by
      simp [bodyTokens, htokens]
    rw [hbody, statements_cons hspace hnone, statements_space rfl, ih h.2, List.map_cons, htokens]
    rfl

theorem filter_bodyTokens (h : ∀ body ∈ bodies, Sound body) :
    (bodyTokens bodies).filter (!·.isComment) = bodyTokens bodies := by
  rw [List.filter_eq_self]
  intro token htoken
  obtain ⟨body, hbody, htoken⟩ := List.mem_flatMap.mp htoken
  obtain htoken | htoken := List.mem_append.mp htoken
  · rw [(tokens_ne_semicolon (h body hbody) token htoken).2]
    rfl
  · obtain rfl | rfl : token = .plain ';' ∨ token = .plain '\n' := by simpa using htoken
    · rfl
    · rfl

theorem statements_lineTokens (lines : List String) (rest : List Token) :
    statements [] ((lineTokens lines).filter (!·.isComment) ++ rest) = statements [] rest := by
  induction lines with
  | nil => rfl
  | cons line lines ih => exact (statements_space rfl).trans ih

theorem comments_lineTokens (lines : List String) :
    (lineTokens lines).filterMap Token.comment? = lines := by
  induction lines with
  | nil => rfl
  | cons line lines ih => exact congrArg (line :: ·) ih

theorem comments_eq_nil {tokens : List Token} (h : tokens.filter (!·.isComment) = tokens) :
    tokens.filterMap Token.comment? = [] := by
  rw [List.filterMap_eq_nil_iff]
  intro token htoken
  have hnot := List.filter_eq_self.mp h token htoken
  cases token with
  | comment line => cases hnot
  | identifier name => rfl
  | plain c => rfl

/-- Comment lines, perhaps an empty line, and statements are read back as they were meant. -/
theorem read_script (hlines : ∀ line ∈ lines, CommentLine line)
    (hbodies : ∀ body ∈ bodies, Readable body) {blank : List Char}
    (hblank : blank = [] ∨ blank = ['\n']) :
    read (String.ofList (writtenLines lines ++ (blank ++ writtenBodies bodies))) =
      some ⟨lines, bodies.map tokens⟩ := by
  have hsound : ∀ body ∈ bodies, Sound body := fun body hbody => (hbodies body hbody).sound
  have hplain : ∀ c ∈ blank, isPlain c := by
    obtain rfl | rfl := hblank
    · exact nofun
    · exact List.forall_mem_singleton.mpr (by decide)
  have hscan : scan .plain (writtenLines lines ++ (blank ++ writtenBodies bodies)) =
      some (lineTokens lines ++ (blank.map .plain ++ bodyTokens bodies)) := by
    rw [scan_lines hlines, scan_chars hplain, scan_bodies hsound]
    rfl
  have hcode : (blank.map Token.plain ++ bodyTokens bodies).filter (!·.isComment) =
      blank.map Token.plain ++ bodyTokens bodies := by
    rw [List.filter_append, filter_bodyTokens hsound]
    obtain rfl | rfl := hblank
    · rfl
    · rfl
  have hstatements : statements [] (blank.map Token.plain ++ bodyTokens bodies) =
      some (bodies.map tokens) := by
    obtain rfl | rfl := hblank
    · exact statements_bodies hbodies
    · exact (statements_space rfl).trans (statements_bodies hbodies)
  rw [read, String.toList_ofList, hscan]
  change (do
    let found ← statements [] ((lineTokens lines ++ (blank.map Token.plain ++
      bodyTokens bodies)).filter (!·.isComment))
    some (Script.mk ((lineTokens lines ++ (blank.map Token.plain ++
      bodyTokens bodies)).filterMap Token.comment?) found)) = _
  rw [List.filter_append, hcode, statements_lineTokens, hstatements, List.filterMap_append,
    comments_lineTokens, comments_eq_nil hcode, List.append_nil]
  rfl

end SqlText
