/-
# `Karu.Request` — `src/request.hpp`

What a backend is given and what it hands on: credentials, an error with a
status, and a request that is ready to be sent.  Of the HTTP options only the
one a backend decides about is here.
-/
import Karu.Runtime.Transfer

namespace Karu

open Base

/-- `RequestError`. -/
structure RequestError where
  status : Status := .errCredentials
  message : Text := []
deriving DecidableEq, Repr

/-- `ProviderCredentials`. -/
structure ProviderCredentials where
  accessKeyId : Text := []
  secretAccessKey : Text := []
  sessionToken : Text := []
  bearerToken : Text := []
  sasToken : Text := []
  accountName : Text := []
  region : Text := []
  cachePrefix : Text := []
  expiresAt : Int := 0
deriving DecidableEq, Repr

/-- `Header`. -/
abbrev Header := Text × Text

/-- `PreparedRequest`, as a backend leaves it. -/
structure PreparedRequest where
  url : Text
  headers : List Header := []
  followRedirects : Bool := true
  routingRegion : Text := []
deriving DecidableEq, Repr

end Karu
