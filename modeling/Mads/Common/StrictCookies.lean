import Mads.Common.CredentialIsolation
import Mads.Library.PercentEscapes

/-!
# What the strict reader of cookies accepts and what it counts

One malformed segment in any header is enough for a rejection. What is counted once is what the jar
of the library returns.
-/

namespace Mads

open PercentEscapes Text

namespace CookieJar

/-! ### Percent escapes -/

/-- An index into a slice. -/
def byteAt {ε : Type} (bytes : List UInt8) (index : ℕ) : Run ε UInt8 :=
  Run.expect bytes[index]? "index out of bounds"

/-- The loop of `has_valid_percent_escapes` over the bytes of a value. -/
def percentEscapesFrom {ε : Type} (bytes : List UInt8) (index : ℕ) : Run ε Bool :=
  if index < bytes.length then do
    let byte ← byteAt bytes index
    if byte = 37 then
      if bytes.length ≤ index + 2 then pure false
      else do
        let high ← byteAt bytes (index + 1)
        if isHexDigit high then do
          let low ← byteAt bytes (index + 2)
          if isHexDigit low then percentEscapesFrom bytes (index + 3) else pure false
        else pure false
    else percentEscapesFrom bytes (index + 1)
  else pure true
termination_by bytes.length - index

theorem byteAt_eq {ε : Type} {bytes : List UInt8} {index : ℕ} (h : index < bytes.length) :
    (byteAt bytes index : Run ε UInt8) = .ok bytes[index] := by
  rw [byteAt, List.getElem?_eq_getElem h]
  rfl

/-- The loop stays inside of the bytes, and finds out whether every escape is complete. -/
theorem percentEscapesFrom_eq {ε : Type} (bytes : List UInt8) (index : ℕ) :
    ∃ valid, (percentEscapesFrom bytes index : Run ε Bool) = .ok valid ∧
      (valid = true ↔ Complete (bytes.drop index)) := by
  induction hleft : bytes.length - index using Nat.strong_induction_on generalizing index with
  | h left ih =>
    subst hleft
    rw [percentEscapesFrom]
    by_cases hindex : index < bytes.length
    · have hdrop : bytes.drop index = bytes[index] :: bytes.drop (index + 1) :=
        List.drop_eq_getElem_cons hindex
      rw [if_pos hindex, byteAt_eq hindex, Run.ok_bind, hdrop]
      by_cases hpercent : bytes[index] = 37
      · rw [if_pos hpercent, hpercent]
        by_cases hend : bytes.length ≤ index + 2
        · refine ⟨false, if_pos hend, iff_of_false Bool.false_ne_true fun hcomplete => ?_⟩
          obtain ⟨high, low, rest, heq, -⟩ := hcomplete.digits
          have hlength := congrArg List.length heq
          rw [List.length_drop, List.length_cons, List.length_cons] at hlength
          omega
        · have hhigh : index + 1 < bytes.length := by omega
          have hlow : index + 2 < bytes.length := by omega
          rw [if_neg hend, byteAt_eq hhigh, Run.ok_bind, List.drop_eq_getElem_cons hhigh,
            List.drop_eq_getElem_cons hlow, complete_escape_iff]
          by_cases hdigit : isHexDigit bytes[index + 1]
          · rw [if_pos hdigit, byteAt_eq hlow, Run.ok_bind]
            by_cases hdigit' : isHexDigit bytes[index + 2]
            · obtain ⟨valid, hvalid, hcomplete⟩ := ih _ (by omega) (index + 3) rfl
              refine ⟨valid, (if_pos hdigit').trans hvalid, hcomplete.trans ?_⟩
              exact ⟨fun hrest => ⟨hdigit, hdigit', hrest⟩, fun h => h.2.2⟩
            · exact ⟨false, if_neg hdigit', iff_of_false Bool.false_ne_true
                fun hcomplete => hdigit' hcomplete.2.1⟩
          · exact ⟨false, if_neg hdigit, iff_of_false Bool.false_ne_true
              fun hcomplete => hdigit hcomplete.1⟩
      · rw [if_neg hpercent, complete_cons hpercent]
        exact ih _ (by omega) _ rfl
    · refine ⟨true, if_neg hindex, iff_of_true rfl ?_⟩
      rw [List.drop_eq_nil_of_le (Nat.le_of_not_lt hindex)]
      exact complete_nil

theorem hasValidPercentEscapes_iff (chars : List Char) :
    hasValidPercentEscapes chars = true ↔ Complete (utf8 chars) := by
  have hpercent (rest : List Char) : utf8 ('%' :: rest) = 37 :: utf8 rest := utf8_cons
  induction chars using hasValidPercentEscapes.induct with
  | case1 high low rest ih =>
    replace ih : hasValidPercentEscapes rest = true ↔ Complete (utf8 rest) := ih
    rw [hpercent, complete_percent, hasValidPercentEscapes]
    change (isHexChar high && isHexChar low && hasValidPercentEscapes rest) = true ↔ _
    rw [Bool.and_eq_true, Bool.and_eq_true, ih]
    constructor
    · rintro ⟨⟨hhigh, hlow⟩, hrest⟩
      exact ⟨high, low, rest, rfl, hhigh, hlow, hrest⟩
    · rintro ⟨_, _, _, ⟨⟩, hhigh, hlow, hrest⟩
      exact ⟨⟨hhigh, hlow⟩, hrest⟩
  | case2 rest h =>
    rw [hpercent, complete_percent, hasValidPercentEscapes]
    · refine iff_of_false Bool.false_ne_true ?_
      rintro ⟨high, low, chars, rfl, -⟩
      exact h high low chars rfl
    · exact h
  | case3 c rest h1 h2 ih =>
    rw [utf8_cons, complete_append (ne_of_mem_utf8EncodeChar h2), hasValidPercentEscapes]
    · exact ih
    · exact h1
    · exact h2
  | case4 => exact iff_of_true rfl complete_nil

/-! ### What is accepted -/

/-- The call returns where `good` holds, and rejects the request otherwise. -/
structure Verdict {α : Type} (call : Run CookieError α) (good : Prop) : Prop where
  accepts : good → ∃ a, call = .ok a
  rejects : ¬ good → ∃ source, call = Run.fail ⟨.malformedRequest, source⟩

namespace Verdict

variable {α β : Type} {good next : Prop}

theorem pure (a : α) : Verdict (.ok a) True := ⟨fun _ => ⟨a, rfl⟩, fun h => absurd trivial h⟩

theorem fail (source : Option String) :
    Verdict (Run.fail ⟨.malformedRequest, source⟩ : Run CookieError α) False :=
  ⟨False.elim, fun _ => ⟨source, rfl⟩⟩

theorem ensure (condition : Prop) [Decidable condition] :
    Verdict (Run.ensure condition ⟨.malformedRequest, none⟩) condition := by
  constructor
  · exact fun h => ⟨(), if_pos h⟩
  · exact fun h => ⟨none, if_neg h⟩

theorem congr {call : Run CookieError α} (h : Verdict call good) (hiff : good ↔ next) :
    Verdict call next :=
  ⟨fun hnext => h.accepts (hiff.mpr hnext), fun hnext => h.rejects fun hgood => hnext (hiff.mp hgood)⟩

theorem bind {call : Run CookieError α} {rest : α → Run CookieError β} (h : Verdict call good)
    (hrest : ∀ a, call = .ok a → Verdict (rest a) next) :
    Verdict (call >>= rest) (good ∧ next) := by
  constructor
  · rintro ⟨hgood, hnext⟩
    obtain ⟨a, ha⟩ := h.accepts hgood
    rw [ha, Run.ok_bind]
    exact (hrest a ha).accepts hnext
  · intro hnot
    by_cases hgood : good
    · obtain ⟨a, ha⟩ := h.accepts hgood
      rw [ha, Run.ok_bind]
      exact (hrest a ha).rejects fun hnext => hnot ⟨hgood, hnext⟩
    · obtain ⟨source, hsource⟩ := h.rejects hgood
      exact ⟨source, by rw [hsource]; rfl⟩

/-- One element that is not good is enough, wherever it stands. -/
theorem foldlM {step : β → α → Run CookieError β} {isGood : α → Prop}
    (h : ∀ b a, Verdict (step b a) (isGood a)) (xs : List α) (b : β) :
    Verdict (xs.foldlM step b) (∀ a ∈ xs, isGood a) := by
  induction xs generalizing b with
  | nil => exact (pure b).congr (iff_of_true trivial nofun)
  | cons a xs ih =>
    rw [List.foldlM_cons, List.forall_mem_cons]
    exact (h b a).bind fun b' _ => ih b'

end Verdict

variable {Cookie Jar : Type} (library : CookieLibrary Cookie Jar)

/-- A segment is a cookie: what is left of it between blanks is not empty, its escapes are complete,
and the library reads a pair with a name of token characters in it. -/
structure WellFormed (segment : String) : Prop where
  nonempty : trim segment ≠ ""
  escapes : Complete (utf8 (trim segment).toList)
  parsed : ∃ cookie, library.parseEncoded (trim segment) = .ok cookie ∧
    isValidCookieName (library.name cookie)

/-- A header is text, and each of its segments is a cookie. -/
def WellFormedHeader (header : HeaderValue) : Prop :=
  ∃ text, header.toStr = some text ∧ ∀ segment ∈ split text ';', WellFormed library segment

variable {library}

theorem verdict_parseSegment (segment : String) :
    Verdict (parseSegment library segment) (WellFormed library segment) := by
  have hsplit : Verdict (parseSegment library segment)
      ((trim segment ≠ "" ∧ hasValidPercentEscapes (trim segment).toList) ∧
        ∃ cookie, library.parseEncoded (trim segment) = .ok cookie ∧
          isValidCookieName (library.name cookie)) := by
    refine (Verdict.ensure _).bind fun _ _ => ?_
    cases library.parseEncoded (trim segment) with
    | error source =>
      apply (Verdict.fail (some source)).congr
      exact iff_of_false id nofun
    | ok parsed =>
      apply ((Verdict.ensure _).bind fun _ _ => Verdict.pure parsed).congr
      constructor
      · exact fun h => ⟨parsed, rfl, h.1⟩
      · rintro ⟨_, ⟨⟩, h⟩
        exact ⟨h, trivial⟩
  apply hsplit.congr
  rw [hasValidPercentEscapes_iff]
  constructor
  · exact fun h => ⟨h.1.1, h.1.2, h.2⟩
  · exact fun h => ⟨⟨h.nonempty, h.escapes⟩, h.parsed⟩

theorem verdict_countHeader (counted : Counted) (header : HeaderValue) :
    Verdict (countHeader library counted header) (WellFormedHeader library header) := by
  have hsegment (counted : Counted) (segment : String) :
      Verdict (countSegment library counted segment) (WellFormed library segment) :=
    ((verdict_parseSegment segment).bind fun _ _ => Verdict.pure _).congr (and_iff_left trivial)
  cases htext : header.toStr with
  | none =>
    rw [countHeader, htext]
    apply (Verdict.fail (some "failed to convert header to a str")).congr
    refine iff_of_false id ?_
    rintro ⟨text, htext', -⟩
    cases htext.symm.trans htext'
  | some text =>
    rw [countHeader, htext]
    apply (Verdict.foldlM hsegment (split text ';') counted).congr
    constructor
    · exact fun h => ⟨text, htext, h⟩
    · rintro ⟨text', htext', h⟩
      obtain rfl := Option.some.inj (htext.symm.trans htext')
      exact h

/-- The reader accepts headers whose segments are cookies, all of them, and rejects all others. -/
theorem verdict_fromHeaders (headers : HeaderMap) : Verdict (fromHeaders library headers)
    (∀ header ∈ headers.getAll COOKIE, WellFormedHeader library header) :=
  ((Verdict.foldlM verdict_countHeader _ _).bind fun _ _ => Verdict.pure _).congr
    (and_iff_left trivial)

/-! ### What is counted and returned -/

/-- The cookies of a name are those of the segments that hold it. -/
theorem countP_cookies (headers : HeaderMap) (name : String) :
    (library.cookies headers).countP (fun cookie => library.name cookie = name) =
      (CookieLibrary.pairs (headers.getAll COOKIE)).countP (library.holds name) := by
  rw [CookieLibrary.cookies, List.countP_filterMap]
  apply List.countP_congr
  intro segment _
  rw [CookieLibrary.holds]
  cases (library.parseEncoded segment).toOption <;> simp

/-- One segment holds a name, and no segment before or after it does. -/
structure OnlySegment (library : CookieLibrary Cookie Jar) (segments : List String)
    (name segment : String) : Prop where
  holds : library.holds name segment
  only : ∃ front back, segments = front ++ segment :: back ∧
    ∀ other ∈ front ++ back, library.holds name other = false

theorem exists_onlySegment {segments : List String} {name : String}
    (h : segments.countP (library.holds name) = 1) :
    ∃ segment, OnlySegment library segments name segment := by
  obtain ⟨segment, hmem, hholds⟩ := List.countP_pos_iff.mp (Nat.lt_of_lt_of_eq Nat.one_pos h.symm)
  obtain ⟨front, back, rfl⟩ := List.append_of_mem hmem
  rw [List.countP_append, List.countP_cons_of_pos hholds] at h
  have hothers : (front ++ back).countP (library.holds name) = 0 := by
    rw [List.countP_append]
    omega
  refine ⟨segment, hholds, front, back, rfl, fun other hother => ?_⟩
  exact Bool.eq_false_of_not_eq_true (List.countP_eq_zero.mp hothers other hother)

theorem holds_iff {name segment : String} : library.holds name segment = true ↔
    ∃ cookie, library.parseEncoded segment = .ok cookie ∧ library.name cookie = name := by
  rw [CookieLibrary.holds]
  cases library.parseEncoded segment <;> simp [Except.toOption]

/-- The jar returns what the only segment of a name holds. -/
theorem get_of_onlySegment (h : library.Lawful) {headers : HeaderMap} {name segment : String}
    (honly : OnlySegment library (CookieLibrary.pairs (headers.getAll COOKIE)) name segment)
    {cookie : Cookie} (hparse : library.parseEncoded segment = .ok cookie)
    (hname : library.name cookie = name) :
    library.get (library.fromHeaders headers) name = some cookie := by
  obtain ⟨front, back, hpairs, hothers⟩ := honly.only
  rw [h.get, CookieLibrary.cookies, LastWins.filterMap_iff]
  refine ⟨front, segment, back, hpairs, ?_, fun other hother => ?_⟩
  · change (library.parseEncoded segment).toOption.bind _ = _
    rw [hparse]
    exact if_pos hname
  · change (library.parseEncoded other).toOption.bind _ = _
    have hnot : ¬ library.holds name other = true := by
      rw [hothers other (List.mem_append_right _ hother)]
      exact Bool.false_ne_true
    rw [holds_iff, not_exists] at hnot
    cases hother : library.parseEncoded other with
    | error source => rfl
    | ok parsed => exact if_neg fun hparsed => hnot parsed ⟨hother, hparsed⟩

/-- What is counted once has the value of its only segment. -/
theorem value_of_occurrencesOf (h : library.Lawful) {headers : HeaderMap} {jar : CookieJar Jar}
    (hjar : fromHeaders library headers = .ok jar) {name : String}
    (hone : jar.occurrencesOf name = 1) : ∃ segment cookie,
      OnlySegment library (CookieLibrary.pairs (headers.getAll COOKIE)) name segment ∧
        library.parseEncoded segment = .ok cookie ∧ library.name cookie = name ∧
        (jar.get library name).map library.value = some (library.value cookie) := by
  obtain ⟨hinner, hcount⟩ := fromHeaders_ok h hjar
  have hsegments := (countP_cookies headers name).symm.trans ((hcount name).symm.trans hone)
  obtain ⟨segment, honly⟩ := exists_onlySegment hsegments
  obtain ⟨cookie, hparse, hname⟩ := holds_iff.mp honly.holds
  refine ⟨segment, cookie, honly, hparse, hname, ?_⟩
  rw [CookieJar.get, hinner, get_of_onlySegment h honly hparse hname]
  rfl

/-- The strict reader rejects headers just when one of their segments, wherever it stands, is no
cookie. Otherwise it counts the segments of each name, and the value of a name that is counted once
is the value in its segment. The check of escapes stays inside of the text and is exact. -/
theorem fromHeaders_exact (h : library.Lawful) (headers : HeaderMap) (name : String) :
    Verdict (fromHeaders library headers)
        (∀ header ∈ headers.getAll COOKIE, WellFormedHeader library header) ∧
      (∀ jar, fromHeaders library headers = .ok jar →
        jar.occurrencesOf name =
            (CookieLibrary.pairs (headers.getAll COOKIE)).countP (library.holds name) ∧
          (jar.occurrencesOf name = 1 → ∃ segment cookie,
            OnlySegment library (CookieLibrary.pairs (headers.getAll COOKIE)) name segment ∧
              library.parseEncoded segment = .ok cookie ∧ library.name cookie = name ∧
              (jar.get library name).map library.value = some (library.value cookie))) ∧
      ∀ value : String,
        (percentEscapesFrom (utf8 value.toList) 0 : Run CookieError Bool) =
            .ok (hasValidPercentEscapes value.toList) ∧
          (hasValidPercentEscapes value.toList = true ↔ Complete (utf8 value.toList)) := by
  refine ⟨verdict_fromHeaders headers, fun jar hjar => ?_, fun value => ?_⟩
  · have hcount := (fromHeaders_ok h hjar).2 name
    exact ⟨hcount.trans (countP_cookies headers name), value_of_occurrencesOf h hjar⟩
  · have hiff := hasValidPercentEscapes_iff value.toList
    obtain ⟨valid, hvalid, hcomplete⟩ : ∃ valid,
        (percentEscapesFrom (utf8 value.toList) 0 : Run CookieError Bool) = .ok valid ∧
          (valid = true ↔ Complete (utf8 value.toList)) := percentEscapesFrom_eq _ 0
    refine ⟨?_, hiff⟩
    rw [hvalid, Bool.eq_iff_iff.mpr (hcomplete.trans hiff.symm)]

theorem fromHeaders_exact_sample : ∃ jar,
    fromHeaders plainCookies (requestOf ["theme=dark; token = a.b"] none).headers = .ok jar ∧
      jar.occurrencesOf "token" = 1 ∧ ∃ segment cookie,
        OnlySegment plainCookies ["theme=dark", " token = a.b"] "token" segment ∧
          plainCookies.parseEncoded segment = .ok cookie ∧ plainCookies.name cookie = "token" ∧
          (jar.get plainCookies "token").map plainCookies.value =
            some (plainCookies.value cookie) := by
  set headers := (requestOf ["theme=dark; token = a.b"] none).headers
  have hpairs : CookieLibrary.pairs (headers.getAll COOKIE) = ["theme=dark", " token = a.b"] := by
    decide +kernel
  obtain ⟨jar, hjar⟩ : ∃ jar, fromHeaders plainCookies headers = .ok jar := by
    have hsome : (fromHeaders plainCookies headers).toOption.isSome = true := by decide +kernel
    cases hcall : fromHeaders plainCookies headers with
    | ok jar => exact ⟨jar, rfl⟩
    | error outcome =>
      rw [hcall] at hsome
      cases hsome
  obtain ⟨hcount, hvalue⟩ := (fromHeaders_exact plainCookies_lawful headers "token").2.1 jar hjar
  have hone : jar.occurrencesOf "token" = 1 := by
    rw [hcount, hpairs]
    decide +kernel
  exact ⟨jar, hjar, hone, hpairs ▸ hvalue hone⟩

end CookieJar

end Mads
