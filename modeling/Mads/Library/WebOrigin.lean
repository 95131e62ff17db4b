import Mads.Library.Decimal
import Mads.Library.IpAddress

/-!
# Web origins

The origin of an HTTP or HTTPS URI, the text in which a user agent sends it, and which URIs are
that text themselves.
-/

namespace WebOrigin

open IpAddress (lower)

inductive Scheme where
  | http
  | https
  deriving DecidableEq, Repr

namespace Scheme

def name : Scheme → List Char
  | http => "http".toList
  | https => "https".toList

def defaultPort : Scheme → ℕ
  | http => 80
  | https => 443

/-- The scheme of a name in any case. -/
def ofName (text : List Char) : Option Scheme :=
  if lower text = http.name then some http
  else if lower text = https.name then some https
  else none

end Scheme

/-- A scheme, a host in lower case and a port. -/
structure Origin where
  scheme : Scheme
  host : List Char
  port : ℕ
  deriving DecidableEq, Repr

/-- The text of an origin, without the default port of its scheme. -/
def Origin.serialize (origin : Origin) : List Char :=
  origin.scheme.name ++ "://".toList ++ origin.host ++
    if origin.port = origin.scheme.defaultPort then [] else ':' :: Nat.toDigits 10 origin.port

/-- The parts of a URI that make its origin; the port is kept with its colon. -/
structure Parts where
  scheme : List Char
  host : List Char
  port : List Char
  deriving DecidableEq, Repr

/-- A host, with the brackets of an address, and what follows it. -/
def splitHost (authority : List Char) : List Char × List Char :=
  if authority.head? = some '[' then
    (authority.takeWhile (· ≠ ']') ++ (authority.dropWhile (· ≠ ']')).take 1,
      (authority.dropWhile (· ≠ ']')).drop 1)
  else (authority.takeWhile (· ≠ ':'), authority.dropWhile (· ≠ ':'))

def endsAuthority (c : Char) : Bool := c = '/' || c = '?' || c = '#'

/-- The parts of an absolute URI, behind user information and before a path. -/
def parts (uri : List Char) : Option Parts :=
  let rest := uri.dropWhile (· ≠ ':')
  if rest.take 3 = "://".toList then
    let authority := (rest.drop 3).takeWhile fun c => !endsAuthority c
    let host := splitHost (authority.rtakeWhile (· ≠ '@'))
    some ⟨uri.takeWhile (· ≠ ':'), host.1, host.2⟩
  else none

/-- A character of a registered name or of an IPv4 address. -/
def isHostChar (c : Char) : Bool := c.isAlphanum || "-._~%!$&'()*+,;=".toList.contains c

def bracketed (inner : List Char) : List Char := '[' :: (inner ++ [']'])

/-- A registered name, an IPv4 address, or an IPv6 address in brackets. -/
def IsHost (host : List Char) : Prop :=
  (host ≠ [] ∧ host.all isHostChar = true) ∨
    host = bracketed host.tail.dropLast ∧ IpAddress.isIpv6 host.tail.dropLast = true

instance (host : List Char) : Decidable (IsHost host) := inferInstanceAs (Decidable (_ ∨ _))

/-- The number of a port, or the default one where there is none. -/
def portOf (scheme : Scheme) : List Char → Option ℕ
  | [] => some scheme.defaultPort
  | c :: digits =>
    if c ≠ ':' then none
    else if digits = [] then some scheme.defaultPort
    else if digits.all Char.isDigit = true then some (Decimal.value digits)
    else none

def originOf (uri : List Char) : Option Origin := do
  let parts ← parts uri
  let scheme ← Scheme.ofName parts.scheme
  let port ← portOf scheme parts.port
  if IsHost parts.host then some ⟨scheme, lower parts.host, port⟩ else none

/-- A text that is the serialization of its own origin. -/
def IsSerialized (text : List Char) : Prop := (originOf text).map Origin.serialize = some text

/-- A text that a user agent sends as the origin of a URI, where it writes hosts in some ways. -/
def Sends (writes : List Char → Prop) (text : List Char) : Prop :=
  ∃ uri origin, originOf uri = some origin ∧ writes origin.host ∧ origin.serialize = text

/-! ### Written origins -/

/-- A host as it is cut out of an authority: a name, or an address in brackets. -/
def Framed (host : List Char) : Prop :=
  (host ≠ [] ∧ ∀ c ∈ host, isHostChar c = true) ∨
    ∃ inner, host = bracketed inner ∧ ∀ c ∈ inner, IpAddress.isAddressChar c = true

/-- Nothing, or a colon and digits. -/
def PortText (port : List Char) : Prop :=
  port = [] ∨ ∃ digits, port = ':' :: digits ∧ ∀ c ∈ digits, c.isDigit = true

variable {scheme host port : List Char}

theorem ne_of_isHostChar {c d : Char} (hc : isHostChar c = true) (hd : isHostChar d = false) :
    c ≠ d := by
  rintro rfl
  rw [hc] at hd
  cases hd

theorem ne_of_isAddressChar {c d : Char} (hc : IpAddress.isAddressChar c = true)
    (hd : IpAddress.isAddressChar d = false) : c ≠ d := by
  rintro rfl
  rw [hc] at hd
  cases hd

/-- A character of neither kind is in no written host or port. -/
theorem notMem_authority {d : Char} (hhost : Framed host) (hport : PortText port)
    (hname : isHostChar d = false) (haddress : IpAddress.isAddressChar d = false)
    (hopen : d ≠ '[') (hclose : d ≠ ']') (hcolon : d ≠ ':') (hdigit : d.isDigit = false) :
    d ∉ host ++ port := by
  rw [List.mem_append, not_or]
  constructor
  · obtain ⟨-, hall⟩ | ⟨inner, rfl, hall⟩ := hhost
    · exact fun hmem => ne_of_isHostChar (hall d hmem) hname rfl
    · intro hmem
      simp only [bracketed, List.mem_cons, List.mem_append, List.not_mem_nil, or_false] at hmem
      obtain rfl | hmem | rfl := hmem
      · exact hopen rfl
      · exact ne_of_isAddressChar (hall d hmem) haddress rfl
      · exact hclose rfl
  · obtain rfl | ⟨digits, rfl, hall⟩ := hport
    · exact List.not_mem_nil
    · rw [List.mem_cons, not_or]
      refine ⟨hcolon, fun hmem => ?_⟩
      rw [hall d hmem] at hdigit
      cases hdigit

theorem splitHost_append (hhost : Framed host) (hport : PortText port) :
    splitHost (host ++ port) = (host, port) := by
  obtain ⟨hne, hall⟩ | ⟨inner, rfl, hall⟩ := hhost
  · obtain ⟨c, rest, rfl⟩ := List.exists_cons_of_ne_nil hne
    have hfirst : c ≠ '[' := ne_of_isHostChar (hall c List.mem_cons_self) (by decide)
    have hcolon : ∀ d ∈ c :: rest, decide (d ≠ ':') = true := fun d hd =>
      decide_eq_true (ne_of_isHostChar (hall d hd) (by decide))
    rw [splitHost, if_neg (by simpa using hfirst), List.takeWhile_append_of_pos hcolon,
      List.dropWhile_append_of_pos hcolon]
    obtain rfl | ⟨digits, rfl, -⟩ := hport
    · simp
    · simp
  · have hclose : ∀ d ∈ '[' :: inner, decide (d ≠ ']') = true := by
      intro d hd
      obtain rfl | hd := List.mem_cons.mp hd
      · decide
      · exact decide_eq_true (ne_of_isAddressChar (hall d hd) (by decide))
    have hwritten : bracketed inner ++ port = '[' :: inner ++ (']' :: port) := by
      simp [bracketed]
    have hopen : ('[' :: inner ++ ']' :: port).head? = some '[' := rfl
    rw [hwritten, splitHost, if_pos hopen, List.takeWhile_append_of_pos hclose,
      List.dropWhile_append_of_pos hclose]
    simp [bracketed]

/-- What is written as an origin has the parts it is written from. -/
theorem parts_written (hscheme : ':' ∉ scheme) (hhost : Framed host) (hport : PortText port) :
    parts (scheme ++ "://".toList ++ host ++ port) = some ⟨scheme, host, port⟩ := by
  have hwritten : scheme ++ "://".toList ++ host ++ port =
      scheme ++ (':' :: '/' :: '/' :: (host ++ port)) := by
    simp
  have hname : ∀ c ∈ scheme, decide (c ≠ ':') = true := fun c hc =>
    decide_eq_true fun heq => hscheme (heq ▸ hc)
  have hpath : ∀ c ∈ host ++ port, (!endsAuthority c) = true := by
    intro c hc
    have hslash := notMem_authority (d := '/') hhost hport (by decide) (by decide) (by decide)
      (by decide) (by decide) (by decide)
    have hquery := notMem_authority (d := '?') hhost hport (by decide) (by decide) (by decide)
      (by decide) (by decide) (by decide)
    have hfragment := notMem_authority (d := '#') hhost hport (by decide) (by decide) (by decide)
      (by decide) (by decide) (by decide)
    simp only [endsAuthority, Bool.not_eq_true', Bool.or_eq_false_iff, decide_eq_false_iff_not]
    exact ⟨⟨fun h => hslash (h ▸ hc), fun h => hquery (h ▸ hc)⟩, fun h => hfragment (h ▸ hc)⟩
  have huser : ∀ c ∈ host ++ port, decide (c ≠ '@') = true := by
    intro c hc
    have hat := notMem_authority (d := '@') hhost hport (by decide) (by decide) (by decide)
      (by decide) (by decide) (by decide)
    exact decide_eq_true fun h => hat (h ▸ hc)
  have hrest : (scheme ++ (':' :: '/' :: '/' :: (host ++ port))).dropWhile (· ≠ ':') =
      ':' :: '/' :: '/' :: (host ++ port) := by
    rw [List.dropWhile_append_of_pos hname]
    rfl
  have hfront : (scheme ++ (':' :: '/' :: '/' :: (host ++ port))).takeWhile (· ≠ ':') = scheme := by
    rw [List.takeWhile_append_of_pos hname]
    simp
  have hauthority : ((':' :: '/' :: '/' :: (host ++ port)).drop 3).takeWhile
      (fun c => !endsAuthority c) = host ++ port :=
    List.takeWhile_eq_self_iff.mpr hpath
  have hslashes : (':' :: '/' :: '/' :: (host ++ port)).take 3 = "://".toList := rfl
  rw [hwritten, parts, hrest, if_pos hslashes, hauthority, hfront]
  dsimp only
  rw [List.rtakeWhile_eq_self_iff.mpr huser, splitHost_append hhost hport]

theorem IsHost.framed (h : IsHost host) : Framed host := by
  obtain ⟨hne, hall⟩ | ⟨hframe, hipv6⟩ := h
  · exact .inl ⟨hne, List.all_eq_true.mp hall⟩
  · refine .inr ⟨_, hframe, ?_⟩
    rw [IpAddress.isIpv6] at hipv6
    split at hipv6
    · next hparse => exact IpAddress.isAddressChar_of_parse hparse
    · cases hipv6

theorem isHostChar_toLower {c : Char} (h : isHostChar c = true) : isHostChar c.toLower = true := by
  by_cases hupper : c.isUpper
  · have halpha : c.toLower.isAlpha = true := by
      rw [Char.isAlpha_toLower_eq_isAlpha, Char.isAlpha, hupper]
      rfl
    rw [isHostChar, Char.isAlphanum, halpha]
    rfl
  · rwa [Char.toLower_eq_of_not_isUpper hupper]

theorem lower_bracketed (inner : List Char) : lower (bracketed inner) = bracketed (lower inner) := by
  simp [bracketed, lower]

theorem IsHost.lower (h : IsHost host) : IsHost (lower host) := by
  obtain ⟨hne, hall⟩ | ⟨hframe, hipv6⟩ := h
  · refine .inl ⟨by simpa [IpAddress.lower] using hne, List.all_eq_true.mpr fun c hc => ?_⟩
    obtain ⟨d, hd, rfl⟩ := List.mem_map.mp hc
    exact isHostChar_toLower (List.all_eq_true.mp hall d hd)
  · rw [hframe, lower_bracketed]
    refine .inr ⟨by simp [bracketed], ?_⟩
    simpa [bracketed, IpAddress.isIpv6_lower] using hipv6

namespace Scheme

theorem lower_of_ofName {scheme : Scheme} {text : List Char} (h : ofName text = some scheme) :
    lower text = scheme.name := by
  rw [ofName] at h
  split at h
  · next hhttp =>
    obtain rfl := Option.some.inj h
    exact hhttp
  · split at h
    · next hhttps =>
      obtain rfl := Option.some.inj h
      exact hhttps
    · cases h

theorem ofName_of_lower {scheme : Scheme} {text : List Char} (h : lower text = scheme.name) :
    ofName text = some scheme := by
  rw [ofName, h]
  cases scheme <;> decide +kernel

theorem ofName_name (scheme : Scheme) : ofName scheme.name = some scheme :=
  ofName_of_lower (by cases scheme <;> decide)

theorem colon_notMem {scheme : Scheme} {text : List Char} (h : ofName text = some scheme) :
    ':' ∉ text := by
  intro hmem
  have hlowered : ':' ∈ lower text := List.mem_map.mpr ⟨':', hmem, by decide⟩
  rw [lower_of_ofName h] at hlowered
  cases scheme <;> revert hlowered <;> decide

end Scheme

/-- The number of a written port. -/
def portNumber (scheme : Scheme) (port : List Char) : ℕ :=
  if port.tail = [] then scheme.defaultPort else Decimal.value port.tail

theorem portOf_eq (s : Scheme) (hport : PortText port) :
    portOf s port = some (portNumber s port) := by
  obtain rfl | ⟨digits, rfl, hall⟩ := hport
  · rfl
  · rw [portOf, portNumber]
    by_cases hnil : digits = []
    · simp [hnil]
    · simp [hnil, List.all_eq_true.mpr hall]

theorem originOf_written {s : Scheme} (hscheme : Scheme.ofName scheme = some s)
    (hhost : Framed host) (hport : PortText port) :
    originOf (scheme ++ "://".toList ++ host ++ port) =
      if IsHost host then some ⟨s, lower host, portNumber s port⟩ else none := by
  rw [originOf, parts_written (Scheme.colon_notMem hscheme) hhost hport]
  show ((Scheme.ofName scheme).bind fun scheme => (portOf scheme port).bind fun port =>
    if IsHost host then some (Origin.mk scheme (lower host) port) else none) = _
  rw [hscheme, Option.bind_some, portOf_eq s hport, Option.bind_some]

/-- Scheme and host are in lower case, the host is one of a URI, and a port is written out without
leading zeros, unless it is the default one. -/
structure Canonical (s : Scheme) (parts : Parts) : Prop where
  scheme : parts.scheme = s.name
  valid : IsHost parts.host
  host : lower parts.host = parts.host
  port : parts.port = [] ∨ parts.port ≠ [':'] ∧
    (parts.port = [':', '0'] ∨ parts.port.tail.head? ≠ some '0') ∧
    Decimal.value parts.port.tail ≠ s.defaultPort

/-- The text of a port in the serialization of its origin. -/
def portSuffix (s : Scheme) (port : List Char) : List Char :=
  if portNumber s port = s.defaultPort then [] else ':' :: Nat.toDigits 10 (portNumber s port)

theorem portSuffix_eq_iff (s : Scheme) (hport : PortText port) :
    portSuffix s port = port ↔ port = [] ∨ port ≠ [':'] ∧
      (port = [':', '0'] ∨ port.tail.head? ≠ some '0') ∧
      Decimal.value port.tail ≠ s.defaultPort := by
  obtain rfl | ⟨digits, rfl, hall⟩ := hport
  · simp [portSuffix, portNumber]
  · rw [portSuffix, portNumber, List.tail_cons]
    by_cases hnil : digits = []
    · simp [hnil]
    · rw [if_neg hnil]
      by_cases hdefault : Decimal.value digits = s.defaultPort
      · simp [hdefault, hnil]
      · rw [if_neg hdefault, List.cons.injEq, Decimal.toDigits_value_iff hall hnil]
        simp [hdefault, hnil]

/-- What is written as an origin is its own serialization exactly if it is written canonically. -/
theorem isSerialized_written {s : Scheme} (hscheme : Scheme.ofName scheme = some s)
    (hhost : Framed host) (hport : PortText port) :
    IsSerialized (scheme ++ "://".toList ++ host ++ port) ↔ Canonical s ⟨scheme, host, port⟩ := by
  rw [IsSerialized, originOf_written hscheme hhost hport]
  by_cases hvalid : IsHost host
  · rw [if_pos hvalid, Option.map_some, Option.some.injEq]
    show s.name ++ "://".toList ++ lower host ++ portSuffix s port = _ ↔ _
    have hlength : s.name.length = scheme.length := by
      rw [← Scheme.lower_of_ofName hscheme, lower, List.length_map]
    have hhosts : (s.name ++ "://".toList ++ lower host).length =
        (scheme ++ "://".toList ++ host).length := by
      simp only [List.length_append, hlength, lower, List.length_map]
    constructor
    · intro heq
      obtain ⟨hfront, hsuffix⟩ := List.append_inj heq hhosts
      obtain ⟨hfront, hlower⟩ := List.append_inj hfront (by simp [hlength])
      obtain ⟨hname, -⟩ := List.append_inj hfront hlength
      exact ⟨hname.symm, hvalid, hlower, (portSuffix_eq_iff s hport).mp hsuffix⟩
    · rintro ⟨hname, -, hlower, hsuffix⟩
      dsimp only at hname hlower hsuffix
      rw [hname, hlower, (portSuffix_eq_iff s hport).mpr hsuffix]
  · rw [if_neg hvalid]
    refine iff_of_false (fun h => ?_) fun h => hvalid h.valid
    cases h

/-! ### The text of an origin has that origin -/

theorem lower_lower (text : List Char) : lower (lower text) = lower text := by
  rw [lower, lower, List.map_map]
  exact List.map_congr_left fun c _ => Char.toLower_toLower_eq_toLower c

theorem originOf_eq_some {uri : List Char} {origin : Origin} (h : originOf uri = some origin) :
    ∃ host, IsHost host ∧ origin.host = lower host := by
  obtain ⟨parts, -, h⟩ := Option.bind_eq_some_iff.mp h
  obtain ⟨scheme, -, h⟩ := Option.bind_eq_some_iff.mp h
  obtain ⟨port, -, h⟩ := Option.bind_eq_some_iff.mp h
  split at h
  · next hhost =>
    obtain rfl := Option.some.inj h
    exact ⟨parts.host, hhost, rfl⟩
  · cases h

theorem originOf_serialize {uri : List Char} {origin : Origin} (h : originOf uri = some origin) :
    originOf origin.serialize = some origin := by
  obtain ⟨host, hhost, hlower⟩ := originOf_eq_some h
  obtain ⟨scheme, originHost, port⟩ := origin
  dsimp only at hlower
  subst hlower
  have hport : ∃ text, PortText text ∧ portNumber scheme text = port ∧
      (Origin.mk scheme (lower host) port).serialize =
        scheme.name ++ "://".toList ++ lower host ++ text := by
    rw [Origin.serialize]
    by_cases hdefault : port = scheme.defaultPort
    · exact ⟨[], .inl rfl, hdefault.symm, by rw [if_pos hdefault]⟩
    · refine ⟨':' :: Nat.toDigits 10 port, .inr ⟨_, rfl, ?_⟩, ?_, by rw [if_neg hdefault]⟩
      · exact fun c hc => Nat.isDigit_of_mem_toDigits (by decide) (by decide) hc
      · rw [portNumber, List.tail_cons, if_neg Nat.toDigits_ne_nil, Decimal.value_toDigits]
  obtain ⟨text, htext, hnumber, hserialize⟩ := hport
  rw [hserialize, originOf_written (Scheme.ofName_name scheme) hhost.lower.framed htext,
    if_pos hhost.lower, lower_lower, hnumber]

/-- A user agent sends a text exactly if the text is its own serialization and the user agent writes
its host. -/
theorem sends_iff {writes : List Char → Prop} {text : List Char} :
    Sends writes text ↔
      IsSerialized text ∧ ∀ origin, originOf text = some origin → writes origin.host := by
  constructor
  · rintro ⟨uri, origin, horigin, hwrites, rfl⟩
    have hself := originOf_serialize horigin
    refine ⟨by rw [IsSerialized, hself, Option.map_some], fun other hother => ?_⟩
    obtain rfl := Option.some.inj (hself.symm.trans hother)
    exact hwrites
  · rintro ⟨hserialized, hwrites⟩
    obtain ⟨origin, horigin, htext⟩ := Option.map_eq_some_iff.mp hserialized
    exact ⟨text, origin, horigin, hwrites origin horigin, htext⟩

end WebOrigin
