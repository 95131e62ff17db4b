import Mads.Common.Cookie
import Mads.Common.Guard

/-!
# What a strategy is shown of a request
-/

namespace Mads

open Text

inductive PassportErrorKind where
  | rejected
  | forbidden
  | internal
  deriving DecidableEq, Repr

structure PassportError where
  kind : PassportErrorKind
  source : Option String := none
  deriving DecidableEq, Repr

namespace PassportError

def reject : PassportError := ⟨.rejected, none⟩

def forbidden : PassportError := ⟨.forbidden, none⟩

def internal (source : String) : PassportError := ⟨.internal, some source⟩

end PassportError

/-- The parsed cookies without the one that was used to authenticate. -/
structure PassportCookies (Jar : Type) where
  cookies : CookieJar Jar
  excludedName : Option String

namespace PassportCookies

variable {Cookie Jar : Type} (library : CookieLibrary Cookie Jar) (view : PassportCookies Jar)

def isExcluded (name : String) : Bool := view.excludedName = some name

def get (name : String) : Option Cookie :=
  if view.isExcluded name then none else view.cookies.get library name

def iter : List Cookie :=
  (view.cookies.iter library).filter (fun cookie => !view.isExcluded (library.name cookie))

def occurrences (name : String) : ℕ :=
  if view.isExcluded name then 0 else view.cookies.occurrencesOf name

end PassportCookies

structure PassportContext (Jar : Type) where
  headers : HeaderMap
  method : String
  uri : String
  remoteAddr : Option String
  cookies : Option (PassportCookies Jar)

namespace PassportContext

def safeHeaders (headers : HeaderMap) : HeaderMap :=
  ((headers.remove AUTHORIZATION).remove PROXY_AUTHORIZATION).remove COOKIE

variable {Cookie Jar : Type}

def fromParts (request : RequestMetadata) (cookies : Option (CookieJar Jar))
    (excludedCookie : Option String) : PassportContext Jar where
  headers := safeHeaders request.headers
  method := request.method
  uri := request.uri
  remoteAddr := request.remoteAddr
  cookies := cookies.map (⟨·, excludedCookie⟩)

def new (request : RequestMetadata) : PassportContext Jar := fromParts request none none

def withCookieToken (request : RequestMetadata) (cookies : CookieJar Jar) (tokenCookie : String) :
    PassportContext Jar :=
  fromParts request (some cookies) (some tokenCookie)

end PassportContext

/-! ### Credentials -/

def bearerToken (headers : HeaderMap) : Run PassportError String :=
  match headers.getAll AUTHORIZATION with
  | [value] =>
    match value.toStr.map splitWhitespace with
    | some [scheme, token] =>
      if (scheme.map Char.toLower) = "bearer" then .ok token else Run.fail .reject
    | _ => Run.fail .reject
  | _ => Run.fail .reject

/-- `Result::map_err` with a rejection. -/
def rejectCookies {α : Type} : Run CookieError α → Run PassportError α
  | .ok a => .ok a
  | .error (.err _) => Run.fail .reject
  | .error (.panic message) => .error (.panic message)
  | .error .diverge => .error .diverge

theorem rejectCookies_eq_ok {α : Type} {call : Run CookieError α} {a : α} :
    rejectCookies call = .ok a ↔ call = .ok a := by
  cases call with
  | ok b => exact ⟨fun h => congrArg Except.ok (Except.ok.inj h), fun h => h ▸ rfl⟩
  | error outcome => cases outcome <;> exact iff_of_false nofun nofun

/-- Takes the credential out of the one source that the guard selects, and hands it to the adapter
with what the strategy may see. -/
def authenticateRequest {Cookie Jar α : Type} (library : CookieLibrary Cookie Jar)
    (source : TokenSource) (adapter : PassportContext Jar → String → Run PassportError α)
    (request : RequestMetadata) : Run PassportError α :=
  match source with
  | .bearer => do
    let token ← bearerToken request.headers
    adapter (.new request) token
  | .cookie name => do
    let jar ← rejectCookies (CookieJar.fromHeaders library request.headers)
    Run.ensure (jar.occurrencesOf name = 1) .reject
    let token ← Run.okOr ((jar.get library name).map library.value) .reject
    adapter (.withCookieToken request jar name) token

/-- What the guard takes out of a request. -/
def handed {Cookie Jar : Type} (library : CookieLibrary Cookie Jar) (source : TokenSource)
    (request : RequestMetadata) : Run PassportError (PassportContext Jar × String) :=
  authenticateRequest library source (fun context token => .ok (context, token)) request

/-- Any strategy is run on what is taken out. -/
theorem authenticateRequest_eq {Cookie Jar α : Type} {library : CookieLibrary Cookie Jar}
    (source : TokenSource) (adapter : PassportContext Jar → String → Run PassportError α)
    (request : RequestMetadata) :
    authenticateRequest library source adapter request =
      handed library source request >>= fun (context, token) => adapter context token := by
  cases source with
  | bearer =>
    rw [handed, authenticateRequest, authenticateRequest, bind_assoc]
    rfl
  | cookie name =>
    simp only [handed, authenticateRequest, bind_assoc]
    rfl

end Mads
