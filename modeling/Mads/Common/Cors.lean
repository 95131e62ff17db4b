import Mads.Common.ServerConfig
import Mads.Core.ConfigSource
import Mads.Library.WebOrigin

/-!
# The CORS configuration, and which of its origins a browser can send
-/

namespace Mads

namespace Cors

open WebOrigin (Canonical IsSerialized Sends)

/-- The authority of a URI, and its host. -/
structure Authority where
  text : String
  host : String
  deriving DecidableEq, Repr

structure Uri where
  scheme : Option String
  authority : Option Authority
  pathAndQuery : Option String
  deriving DecidableEq, Repr

/-- The HTTP library: how it reads URIs, methods, header names and header values. Values are kept
as they are written. -/
structure HttpLibrary where
  parseUri : String → Option Uri
  isHeaderValue : String → Bool
  parseMethod : String → Option String
  parseHeaderName : String → Option String

inductive CorsValues (T : Type) where
  | any
  | list (values : List T)

def CorsValues.isAny {T : Type} : CorsValues T → Bool
  | any => true
  | list _ => false

structure CorsPlan where
  origins : CorsValues String
  methods : List String
  allowedHeaders : CorsValues String
  exposedHeaders : CorsValues String
  credentials : Bool
  maxAge : Option UInt64

/-! ### Errors -/

/-- `Path::file_name`, where it is text. -/
def fileName (path : String) : Option String :=
  match ((Text.split path '/').filter fun part => part ≠ "" ∧ part ≠ ".").getLast? with
  | some ".." => none
  | last => last

def safeSourceLabel : Option String → String
  | some "defaults" => "defaults"
  | some "environment" => "environment"
  | some "mads.toml" => "mads.toml"
  | some "test" => "test"
  | some source => if fileName source = some "mads.toml" then "mads.toml" else "[REDACTED]"
  | none => "[REDACTED]"

def invalidCorsConfiguration (key : String) (source : Option String) (rule : String) : Error where
  primary :=
    { code := MADS020
      title := "CORS configuration is invalid"
      message := key ++ " " ++ rule ++ "; source: " ++ safeSourceLabel source
      subject := some key
      suggestions := ["configure valid application-wide CORS settings"] }

def invalidCorsArrayElement (key : String) (source : Option String) (position : ℕ) (rule : String) :
    Error :=
  invalidCorsConfiguration key source ("element at position " ++ toString position ++ " " ++ rule)

def sourceForKey (config : Config) (key : String) : Option String :=
  config.sourceOf key <|> config.sourceOfStringArray key

/-! ### Lists of values -/

section

variable {T : Type} [DecidableEq T]

/-- Parses the values of an array, at their positions, and keeps the first of equal ones. -/
def parseValues (key : String) (source : Option String)
    (parse : String → String → Option String → ℕ → Run Error T) (rawValues : List String) :
    Run Error (List T) :=
  (rawValues.zipIdx 1).foldlM (fun values (raw, position) => do
    Run.ensure (raw ≠ "*") (invalidCorsArrayElement key source position
      "must not contain a wildcard inside a string array")
    let value ← parse raw key source position
    pure (if value ∈ values then values else values ++ [value])) []

def parseWildcardOrList (config : Config) (key : String) (required : Bool)
    (parse : String → String → Option String → ℕ → Run Error T) : Run Error (CorsValues T) :=
  match config.get key with
  | some value =>
    if value = "*" then pure .any
    else Run.fail (invalidCorsConfiguration key (sourceForKey config key)
      "must be the scalar wildcard \"*\" or a string array")
  | none =>
    match config.getStringArray key with
    | none =>
      if required then Run.fail (invalidCorsConfiguration key (sourceForKey config key)
        "must be the scalar wildcard \"*\" or a nonempty string array")
      else pure (.list [])
    | some rawValues => do
      Run.ensure (¬ (required ∧ rawValues = [])) (invalidCorsConfiguration key
        (sourceForKey config key) "must be the scalar wildcard \"*\" or a nonempty string array")
      let values ← parseValues key (sourceForKey config key) parse rawValues
      pure (.list values)

end

/-! ### Origins -/

def isValidOriginHost (host : String) : Bool :=
  match Text.stripPrefix host "[" with
  | some bracketed => (Text.stripSuffix bracketed "]").any fun address =>
      (IpAddress.parse address.toList).isSome
  | none => (IpAddress.parse host.toList).isSome || Server.isValidHostname host

/-- What follows the host is nothing, or a colon and a number of 16 bits. -/
def hasValidOptionalPort (authority : Authority) : Bool :=
  let port := String.ofList (authority.text.toList.drop authority.host.toList.length)
  port = "" || (Text.stripPrefix port ":").any fun port =>
    port ≠ "" && port.toList.all Char.isDigit && (Text.parseUnsigned 65536 port).isSome

def isValidOriginAuthority (authority : Authority) : Bool :=
  isValidOriginHost authority.host && hasValidOptionalPort authority

section

variable (library : HttpLibrary)

def parseOrigin (raw key : String) (source : Option String) (position : ℕ) : Run Error String := do
  let uri ← Run.okOr (library.parseUri raw)
    (invalidCorsArrayElement key source position "must be a canonical HTTP origin")
  let hasExplicitPathOrQuery := uri.pathAndQuery.any fun pathAndQuery =>
    pathAndQuery ≠ "/" || raw.toList.getLast? = some '/'
  Run.ensure (¬ (¬ (uri.scheme = some "http" ∨ uri.scheme = some "https") ∨
      ¬ uri.authority.any isValidOriginAuthority ∨ hasExplicitPathOrQuery ∨
      '#' ∈ raw.toList ∨ '@' ∈ raw.toList ∨ IpAddress.lower raw.toList = "null".toList))
    (invalidCorsArrayElement key source position ("must be a canonical HTTP or HTTPS origin " ++
      "without paths, queries, fragments, or user information"))
  Run.ensure (library.isHeaderValue raw)
    (invalidCorsArrayElement key source position "must be a valid HTTP header value")
  pure raw

def parseOrigins (config : Config) : Run Error (CorsValues String) :=
  parseWildcardOrList config "server.cors.origins" true (parseOrigin library)

/-! ### The plan -/

def parseMethods (config : Config) : Run Error (List String) :=
  let key := "server.cors.methods"
  match config.getStringArray key with
  | none => Run.fail (invalidCorsConfiguration key (config.sourceOf key)
      "must be a nonempty string array")
  | some rawMethods => do
    let source := sourceForKey config key
    Run.ensure (rawMethods ≠ []) (invalidCorsConfiguration key source
      "must be a nonempty string array")
    (rawMethods.zipIdx 1).foldlM (fun methods (raw, position) => do
      Run.ensure (raw ≠ "*") (invalidCorsArrayElement key source position
        "must not contain a wildcard method")
      let normalized := String.ofList (raw.toList.map Char.toUpper)
      let method ← Run.okOr (library.parseMethod normalized) (invalidCorsArrayElement key source
        position "must contain valid HTTP methods")
      pure (if method ∈ methods then methods else methods ++ [method])) []

def parseHeaders (config : Config) (key : String) : Run Error (CorsValues String) :=
  parseWildcardOrList config key false fun raw key source position =>
    Run.okOr (library.parseHeaderName raw) (invalidCorsArrayElement key source position
      "must contain valid HTTP header names")

def parseCredentials (config : Config) : Run Error Bool :=
  let key := "server.cors.credentials"
  let invalid := invalidCorsConfiguration key (sourceForKey config key)
    "must be exactly true or false"
  if (config.getStringArray key).isSome then Run.fail invalid
  else match config.get key with
    | none => pure false
    | some "true" => pure true
    | some "false" => pure false
    | some _ => Run.fail invalid

def parseMaxAge (config : Config) : Run Error (Option UInt64) :=
  let key := "server.cors.max_age_seconds"
  let invalid := invalidCorsConfiguration key (sourceForKey config key)
    "must be an unsigned integer number of seconds"
  if (config.getStringArray key).isSome then Run.fail invalid
  else match config.get key with
    | none => pure none
    | some value => do
      let seconds ← Run.okOr (Text.parseU64 value) invalid
      pure (some seconds)

def CorsPlan.fromConfig (config : Config) : Run Error CorsPlan := do
  let origins ← parseOrigins library config
  let methods ← parseMethods library config
  let allowedHeaders ← parseHeaders library config "server.cors.allowed_headers"
  let exposedHeaders ← parseHeaders library config "server.cors.exposed_headers"
  let credentials ← parseCredentials config
  let maxAge ← parseMaxAge config
  Run.ensure (¬ (credentials ∧ (origins.isAny ∨ allowedHeaders.isAny ∨ exposedHeaders.isAny)))
    (invalidCorsConfiguration "server.cors.credentials" (config.sourceOf "server.cors.credentials")
      "must not enable credentials with wildcard origins or headers")
  pure { origins, methods, allowedHeaders, exposedHeaders, credentials, maxAge }

end

/-! ### What is accepted as an origin -/

/-- The text of a path and query behind an authority, with a slash for the empty one. -/
def pathText (rest : List Char) : List Char :=
  if rest.takeWhile (· ≠ '#') = [] then ['/'] else rest.takeWhile (· ≠ '#')

/-- How the library takes a URI apart: the scheme, known in any case, stands before the authority,
and the path, query and fragment behind it; the host stands at the front of an authority without
user information, and only an address in brackets has colons. -/
structure HttpLibrary.Lawful (library : HttpLibrary) : Prop where
  absolute : ∀ {raw uri scheme authority}, library.parseUri raw = some uri →
    uri.scheme = some scheme → uri.authority = some authority →
    ∃ name rest, raw.toList = name ++ "://".toList ++ authority.text.toList ++ rest ∧
      IpAddress.lower name = IpAddress.lower scheme.toList ∧
      (∀ c ∈ rest.head?, WebOrigin.endsAuthority c = true) ∧
      uri.pathAndQuery = some (String.ofList (pathText rest))
  host : ∀ {raw uri authority}, library.parseUri raw = some uri → uri.authority = some authority →
    '@' ∉ authority.text.toList →
    authority.host.toList <+: authority.text.toList ∧
      (authority.host.toList.head? ≠ some '[' → ':' ∉ authority.host.toList)

variable {library : HttpLibrary}

theorem framed_of_isValidHostname {host : String} (h : Server.isValidHostname host = true) :
    WebOrigin.Framed host.toList := by
  rw [Server.isValidHostname] at h
  simp only [Bool.and_eq_true, decide_eq_true_eq, List.all_eq_true] at h
  obtain ⟨⟨hne, -⟩, hlabels⟩ := h
  have hall : ∀ c ∈ ((Text.stripSuffix host ".").getD host).toList,
      WebOrigin.isHostChar c = true := by
    intro c hc
    have hsplit : c = '.' ∨ ∃ label ∈ Text.split ((Text.stripSuffix host ".").getD host) '.',
        c ∈ label.toList := Text.exists_of_mem_split hc
    obtain hdot | ⟨label, hlabel, hc⟩ := hsplit
    · rw [hdot]
      decide
    · have hchar := (hlabels label hlabel).2 c hc
      rw [WebOrigin.isHostChar]
      obtain halphanum | hhyphen := Bool.or_eq_true_iff.mp hchar
      · rw [halphanum]
        rfl
      · rw [of_decide_eq_true hhyphen]
        decide
  cases hstrip : Text.stripSuffix host "." with
  | none =>
    rw [hstrip] at hne hall
    exact .inl ⟨fun hnil => hne (String.toList_eq_nil_iff.mp hnil), hall⟩
  | some hostname =>
    rw [hstrip] at hall
    obtain rfl := Text.stripSuffix_eq_some.mp hstrip
    rw [String.toList_append]
    refine .inl ⟨by simp, List.forall_mem_append.mpr ⟨hall, ?_⟩⟩
    exact List.forall_mem_singleton.mpr (by decide)

/-- A host that is accepted is a name, or an address in brackets. -/
theorem framed_of_isValidOriginHost {host : String} (h : isValidOriginHost host = true)
    (hcolon : host.toList.head? ≠ some '[' → ':' ∉ host.toList) : WebOrigin.Framed host.toList := by
  rw [isValidOriginHost] at h
  split at h
  · next bracketed hstrip =>
    obtain ⟨inner, hinner, hparse⟩ := (Option.any_eq_true _ _).mp h
    obtain rfl := Text.stripPrefix_eq_some.mp hstrip
    obtain rfl := Text.stripSuffix_eq_some.mp hinner
    obtain ⟨address, hparse⟩ := Option.isSome_iff_exists.mp hparse
    refine .inr ⟨inner.toList, ?_, IpAddress.isAddressChar_of_parse hparse⟩
    simp [WebOrigin.bracketed]
  · next hstrip =>
    obtain hparse | hname := Bool.or_eq_true_iff.mp h
    · obtain ⟨address, hparse⟩ := Option.isSome_iff_exists.mp hparse
      have hchars := IpAddress.isAddressChar_of_parse hparse
      have hopen : host.toList.head? ≠ some '[' := fun hhead =>
        WebOrigin.ne_of_isAddressChar (hchars '[' (List.mem_of_head? hhead)) (by decide) rfl
      refine .inl ⟨?_, fun c hc => ?_⟩
      · intro hnil
        rw [hnil] at hparse
        cases hparse
      · have hchar := hchars c hc
        rw [IpAddress.isAddressChar] at hchar
        rw [WebOrigin.isHostChar]
        obtain hchar | hchar := Bool.or_eq_true_iff.mp hchar
        · obtain hchar | hdot := Bool.or_eq_true_iff.mp hchar
          · rw [hchar]
            rfl
          · rw [of_decide_eq_true hdot]
            decide
        · exact absurd (of_decide_eq_true hchar ▸ hc) (hcolon hopen)
    · exact framed_of_isValidHostname hname

theorem portText_of_hasValidOptionalPort {authority : Authority} {port : List Char}
    (htext : authority.text.toList = authority.host.toList ++ port)
    (h : hasValidOptionalPort authority = true) : WebOrigin.PortText port := by
  rw [hasValidOptionalPort, htext, List.drop_left] at h
  obtain hnone | hsome := Bool.or_eq_true_iff.mp h
  · exact .inl (String.ofList_eq_empty_iff.mp (of_decide_eq_true hnone))
  · obtain ⟨digits, hdigits, hvalid⟩ := (Option.any_eq_true _ _).mp hsome
    have hport : port = ':' :: digits.toList := by
      have := congrArg String.toList (Text.stripPrefix_eq_some.mp hdigits)
      simpa using this
    simp only [Bool.and_eq_true, List.all_eq_true] at hvalid
    exact .inr ⟨digits.toList, hport, hvalid.1.2⟩

/-- What is accepted is kept as it is written: a scheme in any case, a host and a port. -/
theorem written_of_parseOrigin (hlibrary : library.Lawful) {raw key value : String}
    {source : Option String} {position : ℕ}
    (h : parseOrigin library raw key source position = .ok value) :
    value = raw ∧ ∃ (scheme : WebOrigin.Scheme) (parts : WebOrigin.Parts),
      WebOrigin.Scheme.ofName parts.scheme = some scheme ∧
      WebOrigin.Framed parts.host ∧ WebOrigin.PortText parts.port ∧
      raw.toList = parts.scheme ++ "://".toList ++ parts.host ++ parts.port := by
  obtain ⟨uri, huri, h⟩ := Run.okOr_bind_eq_ok.mp h
  obtain ⟨haccepted, h⟩ := Run.ensure_bind_eq_ok.mp h
  obtain ⟨-, h⟩ := Run.ensure_bind_eq_ok.mp h
  simp only [not_or, not_not] at haccepted
  obtain ⟨hscheme, hauthority, hpath, hfragment, huser, -⟩ := haccepted
  obtain ⟨authority, hsome, hvalid⟩ := (Option.any_eq_true _ _).mp hauthority
  obtain ⟨hhost, hport⟩ := Bool.and_eq_true_iff.mp hvalid
  refine ⟨(Except.ok.inj h).symm, ?_⟩
  have hname : ∃ text, uri.scheme = some text ∧
      ∃ scheme : WebOrigin.Scheme, IpAddress.lower text.toList = scheme.name := by
    obtain hhttp | hhttps := or_iff_not_and_not.mpr hscheme
    · exact ⟨"http", hhttp, .http, by decide⟩
    · exact ⟨"https", hhttps, .https, by decide⟩
  obtain ⟨text, htext, scheme, hlower⟩ := hname
  obtain ⟨name, rest, hraw, hcase, -, hrest⟩ := hlibrary.absolute huri htext hsome
  -- A fragment, a query or a path would be refused, so nothing stands behind the authority.
  have hnil : rest = [] := by
    by_contra hne
    have hwhole : rest.takeWhile (· ≠ '#') = rest := by
      refine List.takeWhile_eq_self_iff.mpr fun c hc => decide_eq_true ?_
      rintro rfl
      exact hfragment (hraw ▸ List.mem_append_right _ hc)
    rw [hrest, pathText, hwhole, if_neg hne] at hpath
    simp only [Option.any_some, Bool.not_eq_true, Bool.or_eq_false_iff, decide_eq_false_iff_not,
      not_not] at hpath
    obtain ⟨hslash, hlast⟩ := hpath
    have hslash : rest = ['/'] := by simpa using congrArg String.toList hslash
    apply hlast
    rw [hraw, hslash, List.getLast?_append]
    rfl
  rw [hnil, List.append_nil] at hraw
  have hat : '@' ∉ authority.text.toList := fun hmem =>
    huser (hraw ▸ List.mem_append_right _ hmem)
  obtain ⟨⟨port, hfront⟩, hcolon⟩ := hlibrary.host huri hsome hat
  refine ⟨scheme, ⟨name, authority.host.toList, port⟩, ?_, framed_of_isValidOriginHost hhost hcolon,
    portText_of_hasValidOptionalPort hfront.symm hport, ?_⟩
  · rw [WebOrigin.Scheme.ofName_of_lower (hcase.trans hlower)]
  · rw [hraw, ← hfront, List.append_assoc, List.append_assoc, List.append_assoc]

/-- What a browser can send of what is accepted. -/
theorem sends_of_parseOrigin (hlibrary : library.Lawful) {raw key value : String}
    {source : Option String} {position : ℕ}
    (h : parseOrigin library raw key source position = .ok value) :
    value = raw ∧ ∃ scheme parts, WebOrigin.parts raw.toList = some parts ∧
      WebOrigin.Scheme.ofName parts.scheme = some scheme ∧
      (IsSerialized raw.toList ↔ Canonical scheme parts) ∧
      ∀ writes, Sends writes raw.toList ↔ Canonical scheme parts ∧ writes parts.host := by
  obtain ⟨hvalue, scheme, ⟨name, host, port⟩, hscheme, hhost, hport, hraw⟩ :=
    written_of_parseOrigin hlibrary h
  have hserialized := WebOrigin.isSerialized_written hscheme hhost hport
  refine ⟨hvalue, scheme, ⟨name, host, port⟩, ?_, hscheme, ?_, fun writes => ?_⟩
  · rw [hraw]
    exact WebOrigin.parts_written (WebOrigin.Scheme.colon_notMem hscheme) hhost hport
  · rw [hraw]
    exact hserialized
  · rw [hraw, WebOrigin.sends_iff, hserialized]
    refine and_congr_right fun hcanonical => ?_
    rw [WebOrigin.originOf_written hscheme hhost hport, if_pos hcanonical.valid]
    simp only [Option.some.injEq, forall_eq', hcanonical.host]

section

variable {T : Type} [DecidableEq T]

/-- What is built of the texts that are seen: each parses to a value, and no value is made up. -/
def Built (parse : String → ℕ → Run Error T) (seen : List (String × ℕ)) (values : List T) : Prop :=
  (∀ value ∈ values, ∃ entry ∈ seen, parse entry.1 entry.2 = .ok value) ∧
    ∀ entry ∈ seen, ∃ value ∈ values, parse entry.1 entry.2 = .ok value

theorem Built.append {parse : String → ℕ → Run Error T} {seen : List (String × ℕ)} {values : List T}
    (h : Built parse seen values) {entry : String × ℕ} {value : T}
    (hvalue : parse entry.1 entry.2 = .ok value) :
    Built parse (seen ++ [entry]) (if value ∈ values then values else values ++ [value]) := by
  have hmem (other : T) : (other ∈ if value ∈ values then values else values ++ [value]) ↔
      other ∈ values ∨ other = value := by
    split
    · next hold =>
      exact ⟨.inl, fun hother => hother.elim id fun heq => heq ▸ hold⟩
    · rw [List.mem_append, List.mem_singleton]
  constructor
  · intro other hother
    obtain hold | rfl := (hmem other).mp hother
    · obtain ⟨first, hfirst, hparse⟩ := h.1 other hold
      exact ⟨first, List.mem_append_left _ hfirst, hparse⟩
    · exact ⟨entry, List.mem_append_right _ (List.mem_singleton.mpr rfl), hvalue⟩
  · intro first hfirst
    obtain hfirst | hfirst := List.mem_append.mp hfirst
    · obtain ⟨other, hother, hparse⟩ := h.2 first hfirst
      exact ⟨other, (hmem other).mpr (.inl hother), hparse⟩
    · obtain rfl := List.mem_singleton.mp hfirst
      exact ⟨value, (hmem value).mpr (.inr rfl), hvalue⟩

theorem built_of_parseValues {key : String} {source : Option String}
    {parse : String → String → Option String → ℕ → Run Error T} {rawValues : List String}
    {values : List T} (h : parseValues key source parse rawValues = .ok values) :
    Built (fun raw position => parse raw key source position) (rawValues.zipIdx 1) values := by
  have hempty : Built (fun raw position => parse raw key source position) [] [] :=
    ⟨by simp, by simp⟩
  refine Run.foldlM_seen ?_ hempty h
  intro seen values entry next hseen hnext
  obtain ⟨-, hnext⟩ := Run.ensure_bind_eq_ok.mp hnext
  obtain ⟨value, hvalue, hnext⟩ := Run.bind_eq_ok.mp hnext
  obtain rfl := Except.ok.inj hnext
  exact hseen.append hvalue

end

/-- The list of origins of a plan is the array that is configured. -/
theorem accepted_of_fromConfig {config : Config} {plan : CorsPlan} {values : List String}
    (hplan : CorsPlan.fromConfig library config = .ok plan)
    (hvalues : plan.origins = .list values) :
    ∃ configured source, config.getStringArray "server.cors.origins" = some configured ∧
      Built (fun raw position => parseOrigin library raw "server.cors.origins" source position)
        (configured.zipIdx 1) values := by
  obtain ⟨origins, horigins, h⟩ := Run.bind_eq_ok.mp hplan
  have hkept : plan.origins = origins := by
    obtain ⟨methods, -, h⟩ := Run.bind_eq_ok.mp h
    obtain ⟨allowedHeaders, -, h⟩ := Run.bind_eq_ok.mp h
    obtain ⟨exposedHeaders, -, h⟩ := Run.bind_eq_ok.mp h
    obtain ⟨credentials, -, h⟩ := Run.bind_eq_ok.mp h
    obtain ⟨maxAge, -, h⟩ := Run.bind_eq_ok.mp h
    obtain ⟨-, h⟩ := Run.ensure_bind_eq_ok.mp h
    obtain rfl := Except.ok.inj h
    rfl
  obtain rfl := hkept.symm.trans hvalues
  rw [parseOrigins, parseWildcardOrList] at horigins
  split at horigins
  · split at horigins
    · cases horigins
    · cases horigins
  · split at horigins
    · cases horigins
    · next configured hconfigured =>
      obtain ⟨-, horigins⟩ := Run.ensure_bind_eq_ok.mp horigins
      obtain ⟨parsed, hparsed, horigins⟩ := Run.bind_eq_ok.mp horigins
      obtain ⟨rfl⟩ := CorsValues.list.inj (Except.ok.inj horigins)
      exact ⟨configured, _, hconfigured, built_of_parseValues hparsed⟩

/-- The origins of a plan are the texts that are configured; each has the parts of an origin, and is
sent by a browser exactly if it is written canonically and the browser writes its host so. Of a host
`Canonical` asks only for lower case and for brackets around IPv6 addresses: which hosts a browser
rewrites any further, such as a long form of an IPv6 address or an IPv4 address in other numbers, is
up to `writes`. -/
theorem origin_sent_iff_canonical (hlibrary : library.Lawful) {config : Config} {plan : CorsPlan}
    {values : List String} (hplan : CorsPlan.fromConfig library config = .ok plan)
    (hvalues : plan.origins = .list values) :
    ∃ configured, config.getStringArray "server.cors.origins" = some configured ∧
      (∀ value, value ∈ values ↔ value ∈ configured) ∧
      ∀ value ∈ values, ∃ scheme parts, WebOrigin.parts value.toList = some parts ∧
        WebOrigin.Scheme.ofName parts.scheme = some scheme ∧
        (IsSerialized value.toList ↔ Canonical scheme parts) ∧
        ∀ writes, Sends writes value.toList ↔ Canonical scheme parts ∧ writes parts.host := by
  obtain ⟨configured, source, hconfigured, hbuilt⟩ := accepted_of_fromConfig hplan hvalues
  refine ⟨configured, hconfigured, fun value => ⟨fun hvalue => ?_, fun hvalue => ?_⟩,
    fun value hvalue => ?_⟩
  · obtain ⟨entry, hentry, hparse⟩ := hbuilt.1 value hvalue
    rw [(sends_of_parseOrigin hlibrary hparse).1]
    exact List.fst_mem_of_mem_zipIdx hentry
  · rw [← List.zipIdx_map_fst 1 configured] at hvalue
    obtain ⟨entry, hentry, rfl⟩ := List.mem_map.mp hvalue
    obtain ⟨value, hvalue, hparse⟩ := hbuilt.2 entry hentry
    rwa [← (sends_of_parseOrigin hlibrary hparse).1]
  · obtain ⟨entry, -, hparse⟩ := hbuilt.1 value hvalue
    obtain ⟨rfl, hsends⟩ := sends_of_parseOrigin hlibrary hparse
    exact hsends

/-! ### A library that knows some URIs -/

/-- A URI of an origin: the scheme as it is written, its name, the host, and the port's text. -/
abbrev Listed := String × String × String × String

/-- An HTTP library that reads the listed URIs, texts of visible ASCII as header values and `GET` as
a method. -/
def HttpLibrary.listing (uris : List Listed) : HttpLibrary where
  parseUri raw :=
    (uris.find? fun (name, _, host, port) => name ++ "://" ++ host ++ port = raw).map
      fun (_, scheme, host, port) => ⟨some scheme, some ⟨host ++ port, host⟩, some "/"⟩
  isHeaderValue raw := raw.toList.all fun c => ' ' ≤ c ∧ c ≤ '~' ∨ c = '\t'
  parseMethod raw := if raw = "GET" then some raw else none
  parseHeaderName _ := none

theorem HttpLibrary.lawful_listing {uris : List Listed}
    (hschemes : ∀ uri ∈ uris, IpAddress.lower uri.1.toList = IpAddress.lower uri.2.1.toList)
    (hhosts : ∀ uri ∈ uris, uri.2.2.1.toList.head? ≠ some '[' → ':' ∉ uri.2.2.1.toList) :
    (listing uris).Lawful where
  absolute := by
    intro raw uri scheme authority huri hscheme hauthority
    obtain ⟨⟨name, listed, host, port⟩, hfound, rfl⟩ := Option.map_eq_some_iff.mp huri
    obtain rfl := Option.some.inj hscheme
    obtain rfl := Option.some.inj hauthority
    have hraw : name ++ "://" ++ host ++ port = raw := by
      simpa using List.find?_some hfound
    refine ⟨name.toList, [], ?_, hschemes _ (List.mem_of_find?_eq_some hfound), by simp, rfl⟩
    rw [← hraw]
    simp only [String.toList_append, List.append_assoc, List.append_nil]
  host := by
    intro raw uri authority huri hauthority _
    obtain ⟨⟨name, listed, host, port⟩, hfound, rfl⟩ := Option.map_eq_some_iff.mp huri
    obtain rfl := Option.some.inj hauthority
    refine ⟨?_, hhosts _ (List.mem_of_find?_eq_some hfound)⟩
    rw [String.toList_append]
    exact List.prefix_append _ _

/-- A configuration of origins, for requests with the method `GET`. -/
def originsConfig (origins : List String) : Config where
  values := .empty
  stringArrays := {
    entries := [("server.cors.methods", ⟨["GET"], ⟨"mads.toml", none⟩⟩),
      ("server.cors.origins", ⟨origins, ⟨"mads.toml", none⟩⟩)]
    sorted := by
      have hkeys : "server.cors.methods" < "server.cors.origins" := by decide +kernel
      exact List.pairwise_pair.mpr hkeys }

theorem origin_sent_iff_canonical_listed :
    ∃ configured, (originsConfig ["https://app.example.com:8443"]).getStringArray
        "server.cors.origins" = some configured ∧
      (∀ value, value ∈ ["https://app.example.com:8443"] ↔ value ∈ configured) ∧
      ∀ value ∈ ["https://app.example.com:8443"], ∃ scheme parts,
        WebOrigin.parts value.toList = some parts ∧
        WebOrigin.Scheme.ofName parts.scheme = some scheme ∧
        (IsSerialized value.toList ↔ Canonical scheme parts) ∧
        ∀ writes, Sends writes value.toList ↔ Canonical scheme parts ∧ writes parts.host := by
  have hlawful : (HttpLibrary.listing [("https", "https", "app.example.com", ":8443")]).Lawful :=
    HttpLibrary.lawful_listing (by decide) (by decide)
  have hplan : CorsPlan.fromConfig
      (HttpLibrary.listing [("https", "https", "app.example.com", ":8443")])
      (originsConfig ["https://app.example.com:8443"]) =
        .ok ⟨.list ["https://app.example.com:8443"], ["GET"], .list [], .list [], false, none⟩ := by
    rfl
  exact origin_sent_iff_canonical hlawful hplan rfl

/-- Origins that a browser sends in another spelling: a scheme or a host in upper case, a default
port, a port with leading zeros, and an IPv4 address in brackets. -/
def respelled : List Listed :=
  [("HTTPS", "https", "app.example.com", ""), ("https", "https", "App.example.com", ""),
    ("https", "https", "app.example.com", ":443"), ("http", "http", "app.example.com", ":08080"),
    ("http", "http", "[127.0.0.1]", "")]

/-- They are accepted, and no browser sends one of them. -/
theorem respelled_accepted_unsent :
    ∃ plan values, (HttpLibrary.listing respelled).Lawful ∧
      CorsPlan.fromConfig (HttpLibrary.listing respelled)
        (originsConfig (respelled.map fun (name, _, host, port) => name ++ "://" ++ host ++ port)) =
          .ok plan ∧
      plan.origins = .list values ∧
      values = ["HTTPS://app.example.com", "https://App.example.com", "https://app.example.com:443",
        "http://app.example.com:08080", "http://[127.0.0.1]"] ∧
      ∀ value ∈ values, ¬ IsSerialized value.toList ∧
        ∀ writes, ¬ Sends writes value.toList := by
  have hlawful : (HttpLibrary.listing respelled).Lawful :=
    HttpLibrary.lawful_listing (by decide) (by decide)
  have hunserialized : ∀ value ∈ ["HTTPS://app.example.com", "https://App.example.com",
      "https://app.example.com:443", "http://app.example.com:08080", "http://[127.0.0.1]"],
      (WebOrigin.originOf value.toList).map WebOrigin.Origin.serialize ≠ some value.toList := by
    decide +kernel
  refine ⟨⟨.list _, ["GET"], .list [], .list [], false, none⟩, _, hlawful, by rfl, rfl, rfl,
    fun value hvalue => ?_⟩
  have hnot : ¬ IsSerialized value.toList := hunserialized value hvalue
  exact ⟨hnot, fun writes hsends => hnot (WebOrigin.sends_iff.mp hsends).1⟩

end Cors

end Mads
