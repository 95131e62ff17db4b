import Mads.Base
import Mads.Library.SortedMap
import Mads.Library.Text

/-!
# Requests
-/

namespace Mads

/-- The bytes of a header value. -/
structure HeaderValue where
  bytes : List UInt8
  deriving DecidableEq, Repr

/-- `HeaderValue::to_str`, for visible ASCII only. Where its text is trimmed or split at blanks,
these are ASCII too. -/
def HeaderValue.toStr (value : HeaderValue) : Option String :=
  if value.bytes.all (fun byte => byte = 9 || (32 ≤ byte && byte < 127)) then
    some (String.ofList (value.bytes.map (fun byte => Char.ofNat byte.toNat)))
  else none

/-- The values of each header name, in the order in which they came. -/
structure HeaderMap where
  values : SortedMap String (List HeaderValue)

namespace HeaderMap

def getAll (headers : HeaderMap) (name : String) : List HeaderValue :=
  (headers.values.get name).getD []

def remove (headers : HeaderMap) (name : String) : HeaderMap := ⟨headers.values.erase name⟩

end HeaderMap

def AUTHORIZATION : String := "authorization"
def PROXY_AUTHORIZATION : String := "proxy-authorization"
def COOKIE : String := "cookie"

/-- What a guard reads of a request. -/
structure RequestMetadata where
  headers : HeaderMap
  method : String
  uri : String
  remoteAddr : Option String

end Mads
