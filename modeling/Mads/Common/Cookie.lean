import Mads.Common.Http
import Mads.Library.LastWins

/-!
# Strict extraction of request cookies
-/

namespace Mads

open Text

inductive CookieErrorKind where
  | malformedRequest
  | invalidResponse
  deriving DecidableEq, Repr

structure CookieError where
  kind : CookieErrorKind
  source : Option String := none
  deriving DecidableEq, Repr

/-- The cookies and the cookie jars of the libraries below. -/
structure CookieLibrary (Cookie Jar : Type) where
  name : Cookie → String
  value : Cookie → String
  parseEncoded : String → Except String Cookie
  fromHeaders : HeaderMap → Jar
  get : Jar → String → Option Cookie
  iter : Jar → List Cookie

/-- A cookie jar of a request, with how often each name occurred in it. -/
structure CookieJar (Jar : Type) where
  inner : Jar
  occurrences : SortedMap String ℕ
  parsedCount : ℕ

namespace CookieJar

/-- A percent sign stands before two hexadecimal digits. -/
def hasValidPercentEscapes : List Char → Bool
  | '%' :: high :: low :: rest =>
    (high.isDigit || high.toLower ∈ "abcdef".toList) &&
      (low.isDigit || low.toLower ∈ "abcdef".toList) && hasValidPercentEscapes rest
  | '%' :: _ => false
  | _ :: rest => hasValidPercentEscapes rest
  | [] => true

def isValidCookieName (name : String) : Bool :=
  name ≠ "" && name.toList.all (fun c => c.isAlphanum || c ∈ "!#$%&'*+-.^_`|~".toList)

section

variable {Cookie Jar : Type} (library : CookieLibrary Cookie Jar)

/-- One strictly parsed pair. -/
def parseSegment (segment : String) : Run CookieError Cookie := do
  let segment := trim segment
  Run.ensure (segment ≠ "" ∧ hasValidPercentEscapes segment.toList) ⟨.malformedRequest, none⟩
  match library.parseEncoded segment with
  | .error source => Run.fail ⟨.malformedRequest, some source⟩
  | .ok parsed => do
    Run.ensure (isValidCookieName (library.name parsed)) ⟨.malformedRequest, none⟩
    pure parsed

/-- How often each name occurred so far. -/
structure Counted where
  occurrences : SortedMap String ℕ
  parsedCount : ℕ

def countSegment (counted : Counted) (segment : String) : Run CookieError Counted := do
  let parsed ← parseSegment library segment
  let name := library.name parsed
  pure
    { occurrences := counted.occurrences.insert name ((counted.occurrences.get name).getD 0 + 1)
      parsedCount := counted.parsedCount + 1 }

def countHeader (counted : Counted) (header : HeaderValue) : Run CookieError Counted := do
  let text ← Run.okOr header.toStr
    ⟨.malformedRequest, some "failed to convert header to a str"⟩
  (split text ';').foldlM (countSegment library) counted

def fromHeaders (headers : HeaderMap) : Run CookieError (CookieJar Jar) := do
  let counted ← (headers.getAll COOKIE).foldlM (countHeader library) ⟨.empty, 0⟩
  pure ⟨library.fromHeaders headers, counted.occurrences, counted.parsedCount⟩

variable (jar : CookieJar Jar)

def get (name : String) : Option Cookie := library.get jar.inner name

def iter : List Cookie := library.iter jar.inner

def occurrencesOf (name : String) : ℕ := (jar.occurrences.get name).getD 0

end

end CookieJar

end Mads
