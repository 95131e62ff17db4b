import Mads.Common.PassportContext

/-!
# Strategies do not see credentials

Two requests that differ in nothing but their credentials show a strategy the same.
-/

namespace Mads

open Text

variable {Cookie Jar : Type} {library : CookieLibrary Cookie Jar}

namespace CookieLibrary

variable (library : CookieLibrary Cookie Jar)

/-- The pairs in the cookie headers. -/
def pairs (headers : List HeaderValue) : List String :=
  (headers.filterMap HeaderValue.toStr).flatMap (split · ';')

/-- The cookies of a request, in order. -/
def cookies (headers : HeaderMap) : List Cookie :=
  (pairs (headers.getAll COOKIE)).filterMap (fun pair => (library.parseEncoded pair).toOption)

/-- How the libraries read cookies: blanks around a pair do not matter, a jar has the last cookie
of each name, and it is iterated over by name. -/
structure Lawful : Prop where
  parse_trim : ∀ pair, library.parseEncoded (trim pair) = library.parseEncoded pair
  get : ∀ headers name cookie, library.get (library.fromHeaders headers) name = some cookie ↔
    LastWins (fun c => if library.name c = name then some c else none) (library.cookies headers)
      cookie
  mem_iter : ∀ headers cookie, cookie ∈ library.iter (library.fromHeaders headers) ↔
    library.get (library.fromHeaders headers) (library.name cookie) = some cookie

/-- The cookies other than the one with a given name. -/
def others (name : String) (headers : HeaderMap) : List Cookie :=
  (library.cookies headers).filter (fun cookie => library.name cookie ≠ name)

/-- A pair holds the cookie of a name, in one encoding or another. -/
def holds (name pair : String) : Bool :=
  (library.parseEncoded pair).toOption.any (fun cookie => library.name cookie = name)

end CookieLibrary

/-! ### Counting -/

namespace CookieJar

/-- The number of cookies of a name among some pairs. -/
def tally (library : CookieLibrary Cookie Jar) (pairs : List String) (name : String) : ℕ :=
  (pairs.filterMap (fun pair => (library.parseEncoded pair).toOption)).countP
    (fun cookie => library.name cookie = name)

theorem tally_append (front back : List String) (name : String) :
    tally library (front ++ back) name = tally library front name + tally library back name := by
  rw [tally, List.filterMap_append, List.countP_append]
  rfl

theorem parse_of_parseSegment (h : library.Lawful) {pair : String} {cookie : Cookie}
    (hparse : parseSegment library pair = .ok cookie) :
    (library.parseEncoded pair).toOption = some cookie := by
  obtain ⟨-, -, hparse⟩ := Run.bind_eq_ok.mp hparse
  rw [h.parse_trim] at hparse
  split at hparse
  · cases hparse
  · next parsed heq =>
    obtain ⟨-, -, hparse⟩ := Run.bind_eq_ok.mp hparse
    obtain rfl := Except.ok.inj hparse
    rw [heq]
    rfl

/-- The counts are those of some pairs. -/
def Counted.Counts (library : CookieLibrary Cookie Jar) (counted : Counted) (pairs : List String) :
    Prop :=
  ∀ name, (counted.occurrences.get name).getD 0 = tally library pairs name

theorem counts_segment (h : library.Lawful) {counted after : Counted} {pairs : List String}
    (hcounts : counted.Counts library pairs) {pair : String}
    (hok : countSegment library counted pair = .ok after) :
    after.Counts library (pairs ++ [pair]) := by
  obtain ⟨cookie, hcookie, hok⟩ := Run.bind_eq_ok.mp hok
  obtain rfl := Except.ok.inj hok
  intro name
  have hparsed := parse_of_parseSegment h hcookie
  have hone : tally library [pair] name = if library.name cookie = name then 1 else 0 := by
    simp only [tally, List.filterMap_cons, hparsed, List.filterMap_nil, List.countP_singleton,
      decide_eq_true_eq]
  rw [tally_append, hone, ← hcounts name]
  show ((counted.occurrences.insert _ _).get name).getD 0 = _
  rw [SortedMap.get_insert]
  by_cases hname : name = library.name cookie
  · subst hname
    rw [if_pos rfl, if_pos rfl, Option.getD_some]
  · rw [if_neg hname, if_neg (Ne.symm hname), Nat.add_zero]

theorem counts_header (h : library.Lawful) {counted after : Counted} {headers : List HeaderValue}
    (hcounts : counted.Counts library (CookieLibrary.pairs headers)) {header : HeaderValue}
    (hok : countHeader library counted header = .ok after) :
    after.Counts library (CookieLibrary.pairs (headers ++ [header])) := by
  obtain ⟨text, htext, hok⟩ := Run.okOr_bind_eq_ok.mp hok
  have hpairs : CookieLibrary.pairs (headers ++ [header]) =
      CookieLibrary.pairs headers ++ split text ';' := by
    simp only [CookieLibrary.pairs, List.filterMap_append, List.filterMap_cons, htext,
      List.filterMap_nil, List.flatMap_append, List.flatMap_singleton]
  rw [hpairs]
  have hstart : counted.Counts library (CookieLibrary.pairs headers ++ []) := by
    rwa [List.append_nil]
  apply Run.foldlM_seen (P := fun seen (counted : Counted) =>
    counted.Counts library (CookieLibrary.pairs headers ++ seen)) ?_ hstart hok
  intro seen counted pair after hcounts hok
  rw [← List.append_assoc]
  exact counts_segment h hcounts hok

/-- What the strict parser makes of the headers it accepts. -/
theorem fromHeaders_ok (h : library.Lawful) {headers : HeaderMap} {jar : CookieJar Jar}
    (hok : fromHeaders library headers = .ok jar) :
    jar.inner = library.fromHeaders headers ∧ ∀ name, jar.occurrencesOf name =
      (library.cookies headers).countP (fun cookie => library.name cookie = name) := by
  obtain ⟨counted, hcounted, hok⟩ := Run.bind_eq_ok.mp hok
  obtain rfl := Except.ok.inj hok
  have hstart : (⟨.empty, 0⟩ : Counted).Counts library (CookieLibrary.pairs []) := fun _ => rfl
  have hall : counted.Counts library (CookieLibrary.pairs (headers.getAll COOKIE)) :=
    Run.foldlM_seen (P := fun seen (counted : Counted) =>
      counted.Counts library (CookieLibrary.pairs seen))
      (fun _ _ _ _ hcounts hok => counts_header h hcounts hok) hstart hcounted
  exact ⟨rfl, hall⟩

end CookieJar

/-! ### What the context shows -/

namespace CookieLibrary

theorem isExcluded_eq (jar : CookieJar Jar) (excluded name : String) :
    (PassportCookies.mk jar (some excluded)).isExcluded name = decide (excluded = name) := by
  rw [PassportCookies.isExcluded]
  exact decide_eq_decide.mpr Option.some_inj

/-- The cookies that a request shows apart from the excluded one. -/
theorem view_get (h : library.Lawful) {headers : HeaderMap} {jar : CookieJar Jar}
    (hjar : jar.inner = library.fromHeaders headers) {excluded name : String} {cookie : Cookie} :
    (PassportCookies.mk jar (some excluded)).get library name = some cookie ↔ name ≠ excluded ∧
      LastWins (fun c => if library.name c = name then some c else none)
        (library.others excluded headers) cookie := by
  by_cases hname : name = excluded
  · subst hname
    simp [PassportCookies.get, isExcluded_eq]
  · have hget : (PassportCookies.mk jar (some excluded)).get library name =
        library.get (library.fromHeaders headers) name := by
      rw [PassportCookies.get, isExcluded_eq, decide_eq_false (Ne.symm hname), CookieJar.get, hjar]
      rfl
    -- the cookies left out have another name
    have hothers : ∀ c, decide (library.name c ≠ excluded) = false →
        (if library.name c = name then some c else none) = none := by
      intro c hc
      have hc : library.name c = excluded := by simpa using hc
      rw [hc, if_neg (Ne.symm hname)]
    rw [hget, h.get, others, LastWins.filter_iff hothers]
    exact (and_iff_right hname).symm

theorem view_occurrences (h : library.Lawful) {headers : HeaderMap} {jar : CookieJar Jar}
    (hok : CookieJar.fromHeaders library headers = .ok jar) (excluded name : String) :
    (PassportCookies.mk jar (some excluded)).occurrences name =
      (library.others excluded headers).countP (fun cookie => library.name cookie = name) := by
  rw [others, List.countP_filter]
  by_cases hname : name = excluded
  · subst hname
    rw [PassportCookies.occurrences, isExcluded_eq, decide_eq_true rfl, if_pos rfl]
    symm
    rw [List.countP_eq_zero]
    intro cookie _
    simp
  · rw [PassportCookies.occurrences, isExcluded_eq, decide_eq_false (Ne.symm hname),
      if_neg Bool.false_ne_true, (CookieJar.fromHeaders_ok h hok).2]
    apply List.countP_congr
    intro cookie _
    by_cases hcookie : library.name cookie = name
    · simp [hcookie, hname]
    · simp [hcookie]

theorem view_iter (h : library.Lawful) {headers : HeaderMap} {jar : CookieJar Jar}
    (hjar : jar.inner = library.fromHeaders headers) {excluded : String} {cookie : Cookie} :
    cookie ∈ (PassportCookies.mk jar (some excluded)).iter library ↔
      (PassportCookies.mk jar (some excluded)).get library (library.name cookie) =
        some cookie := by
  rw [PassportCookies.iter, List.mem_filter, CookieJar.iter, hjar, h.mem_iter,
    PassportCookies.get, CookieJar.get, hjar]
  cases (PassportCookies.mk jar (some excluded)).isExcluded (library.name cookie) <;> simp

end CookieLibrary

/-! ### Two requests -/

/-- Nothing but the credentials differs. -/
structure DifferInCredentials (library : CookieLibrary Cookie Jar) (source : TokenSource)
    (left right : RequestMetadata) : Prop where
  method : left.method = right.method
  uri : left.uri = right.uri
  remoteAddr : left.remoteAddr = right.remoteAddr
  headers : ∀ name, name ≠ AUTHORIZATION → name ≠ PROXY_AUTHORIZATION → name ≠ COOKIE →
    left.headers.values.get name = right.headers.values.get name
  cookies : match source with
    | .bearer => left.headers.values.get COOKIE = right.headers.values.get COOKIE
    | .cookie token => library.others token left.headers = library.others token right.headers

/-- Each accessor answers the same. -/
structure SameAnswers (library : CookieLibrary Cookie Jar) (left right : PassportContext Jar) :
    Prop where
  headers : left.headers = right.headers
  method : left.method = right.method
  uri : left.uri = right.uri
  remoteAddr : left.remoteAddr = right.remoteAddr
  cookies : Option.Rel (fun left right =>
    (∀ name, left.get library name = right.get library name) ∧
    (∀ name, left.occurrences name = right.occurrences name) ∧
    ∀ cookie, cookie ∈ left.iter library ↔ cookie ∈ right.iter library) left.cookies right.cookies

theorem safeHeaders_eq {left right : HeaderMap}
    (h : ∀ name, name ≠ AUTHORIZATION → name ≠ PROXY_AUTHORIZATION → name ≠ COOKIE →
      left.values.get name = right.values.get name) :
    PassportContext.safeHeaders left = PassportContext.safeHeaders right := by
  refine congrArg HeaderMap.mk (SortedMap.ext_get fun name => ?_)
  simp only [HeaderMap.remove, SortedMap.get_erase]
  split_ifs with hcookie hproxy hauthorization
  · rfl
  · rfl
  · rfl
  · exact h name hauthorization hproxy hcookie

/-- The context of a request of either source. -/
theorem handed_eq_ok {source : TokenSource} {request : RequestMetadata}
    {context : PassportContext Jar} {token : String}
    (h : handed library source request = .ok (context, token)) :
    match source with
    | .bearer => context = .new request
    | .cookie name => ∃ jar, CookieJar.fromHeaders library request.headers = .ok jar ∧
      context = .withCookieToken request jar name := by
  cases source with
  | bearer =>
    obtain ⟨_, -, h⟩ := Run.bind_eq_ok.mp h
    exact (congrArg Prod.fst (Except.ok.inj h)).symm
  | cookie name =>
    obtain ⟨jar, hjar, h⟩ := Run.bind_eq_ok.mp h
    obtain ⟨-, h⟩ := Run.ensure_bind_eq_ok.mp h
    obtain ⟨_, -, h⟩ := Run.bind_eq_ok.mp h
    exact ⟨jar, rejectCookies_eq_ok.mp hjar, (congrArg Prod.fst (Except.ok.inj h)).symm⟩

/-- A strategy cannot tell two requests apart that differ in nothing but the credentials. -/
theorem credentials_hidden (h : library.Lawful) {source : TokenSource}
    {left right : RequestMetadata} (hdiffer : DifferInCredentials library source left right)
    {leftContext rightContext : PassportContext Jar} {leftToken rightToken : String}
    (hleft : handed library source left = .ok (leftContext, leftToken))
    (hright : handed library source right = .ok (rightContext, rightToken)) :
    SameAnswers library leftContext rightContext := by
  have hheaders := safeHeaders_eq hdiffer.headers
  have hcookies := hdiffer.cookies
  cases source with
  | bearer =>
    have hleftContext : leftContext = .new left := handed_eq_ok hleft
    have hrightContext : rightContext = .new right := handed_eq_ok hright
    subst hleftContext hrightContext
    exact ⟨hheaders, hdiffer.method, hdiffer.uri, hdiffer.remoteAddr, .none⟩
  | cookie name =>
    obtain ⟨leftJar, hleftJar, rfl⟩ := handed_eq_ok hleft
    obtain ⟨rightJar, hrightJar, rfl⟩ := handed_eq_ok hright
    have hleftInner := (CookieJar.fromHeaders_ok h hleftJar).1
    have hrightInner := (CookieJar.fromHeaders_ok h hrightJar).1
    have hget : ∀ other, (PassportCookies.mk leftJar (some name)).get library other =
        (PassportCookies.mk rightJar (some name)).get library other := by
      intro other
      ext cookie
      rw [CookieLibrary.view_get h hleftInner, CookieLibrary.view_get h hrightInner, hcookies]
    refine ⟨hheaders, hdiffer.method, hdiffer.uri, hdiffer.remoteAddr, .some ⟨hget, ?_, ?_⟩⟩
    · intro other
      rw [CookieLibrary.view_occurrences h hleftJar, CookieLibrary.view_occurrences h hrightJar,
        hcookies]
    · intro cookie
      rw [CookieLibrary.view_iter h hleftInner, CookieLibrary.view_iter h hrightInner, hget]

/-! ### A cookie library -/

/-- The name and the value of a cookie without attributes and without escapes. -/
def parsePlain (pair : String) : Except String (String × String) :=
  match splitOnce (trim pair) '=' with
  | some (name, value) =>
    if trim name = "" then .error "the cookie name is empty" else .ok (trim name, trim value)
  | none => .error "the cookie is missing a name/value pair"

def plainCookies : CookieLibrary (String × String) (SortedMap String (String × String)) where
  name := Prod.fst
  value := Prod.snd
  parseEncoded := parsePlain
  fromHeaders headers := SortedMap.ofList (((CookieLibrary.pairs
    (headers.getAll COOKIE)).filterMap (fun pair => (parsePlain pair).toOption)).map
      (fun cookie => (cookie.1, cookie)))
  get := SortedMap.get
  iter jar := jar.entries.map Prod.snd

theorem plainCookies_get (headers : HeaderMap) (name : String) (cookie : String × String) :
    plainCookies.get (plainCookies.fromHeaders headers) name = some cookie ↔
      LastWins (fun c => if c.1 = name then some c else none) (plainCookies.cookies headers)
        cookie := by
  dsimp only [plainCookies, CookieLibrary.cookies]
  rw [SortedMap.get_ofList_eq_some, ← List.filterMap_eq_map, LastWins.filterMap_iff]
  rfl

theorem plainCookies_lawful : plainCookies.Lawful where
  parse_trim pair := by simp only [plainCookies, parsePlain, trim_trim]
  get := plainCookies_get
  mem_iter headers cookie := by
    show cookie ∈ (plainCookies.fromHeaders headers).entries.map Prod.snd ↔
      (plainCookies.fromHeaders headers).get cookie.1 = some cookie
    rw [List.mem_map, SortedMap.get_eq_some]
    constructor
    · rintro ⟨⟨name, _⟩, hmem, rfl⟩
      -- a cookie stands under its own name
      obtain ⟨-, c, -, -, hc, -⟩ :=
        (plainCookies_get headers name _).mp (SortedMap.get_eq_some.mpr hmem)
      rw [Option.ite_none_right_eq_some] at hc
      obtain ⟨rfl, hcookie⟩ := hc
      rwa [Option.some.inj hcookie] at hmem
    · exact fun hmem => ⟨_, hmem, rfl⟩

/-- A request with some cookie headers and perhaps an authorization. -/
def requestOf (cookies : List String) (authorization : Option String) : RequestMetadata :=
  let value (text : String) : HeaderValue := ⟨text.toList.map (fun c => UInt8.ofNat c.toNat)⟩
  { headers := ⟨SortedMap.ofList ((COOKIE, cookies.map value) ::
      (authorization.map (fun text => (AUTHORIZATION, [value text]))).toList)⟩
    method := "GET"
    uri := "/profile"
    remoteAddr := none }

theorem handed_of_token {source : TokenSource} {request : RequestMetadata} {token : String}
    (h : (handed library source request).toOption.map Prod.snd = some token) :
    ∃ context, handed library source request = .ok (context, token) := by
  cases hhanded : handed library source request with
  | ok pair =>
    rw [hhanded] at h
    obtain rfl := Option.some.inj h
    exact ⟨pair.1, rfl⟩
  | error outcome =>
    rw [hhanded] at h
    cases h

/-- The token comes first, or last in a header of its own. -/
theorem credentials_hidden_moved :
    ∃ left right leftToken rightToken,
      handed plainCookies (.cookie "token") (requestOf ["token=a.b; theme=dark"] none) =
        .ok (left, leftToken) ∧
      handed plainCookies (.cookie "token") (requestOf ["theme=dark", "token = c.d"]
        (some "Basic e")) = .ok (right, rightToken) ∧
      leftToken ≠ rightToken ∧ SameAnswers plainCookies left right := by
  obtain ⟨left, hleft⟩ : ∃ left, handed plainCookies (.cookie "token")
      (requestOf ["token=a.b; theme=dark"] none) = .ok (left, "a.b") :=
    handed_of_token (by decide +kernel)
  obtain ⟨right, hright⟩ : ∃ right, handed plainCookies (.cookie "token")
      (requestOf ["theme=dark", "token = c.d"] (some "Basic e")) = .ok (right, "c.d") :=
    handed_of_token (by decide +kernel)
  have hdiffer : DifferInCredentials plainCookies (.cookie "token")
      (requestOf ["token=a.b; theme=dark"] none)
      (requestOf ["theme=dark", "token = c.d"] (some "Basic e")) := by
    refine ⟨rfl, rfl, rfl, fun name hauthorization _ hcookie => ?_, ?_⟩
    · have hnone : ∀ cookies authorization,
          (requestOf cookies authorization).headers.values.get name = none := by
        intro cookies authorization
        refine SortedMap.get_ofList_eq_none.mpr fun entry hentry => ?_
        obtain rfl | hentry := List.mem_cons.mp hentry
        · exact Ne.symm hcookie
        · obtain ⟨_, -, rfl⟩ := Option.map_eq_some_iff.mp (Option.mem_toList.mp hentry)
          exact Ne.symm hauthorization
      rw [hnone, hnone]
    · show plainCookies.others "token" _ = plainCookies.others "token" _
      decide +kernel
  exact ⟨left, right, "a.b", "c.d", hleft, hright, by decide,
    credentials_hidden plainCookies_lawful hdiffer hleft hright⟩

end Mads
