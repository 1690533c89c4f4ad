/-
Http.ApiError -- one public error contract

Every failure is answered with an `ErrorEnvelope`.  The message of an internal error
says nothing about its cause.
-/
import TypstMcp.Auth.Token
import TypstMcp.Store.Basic

namespace TypstMcp.Http

open TypstMcp.Theory
open TypstMcp.Store (Kind StoreError)

set_option autoImplicit false

/-! ## Responses -/

/-- Stable machine-readable failure categories. -/
inductive ErrorCode
  | badRequest
  | unauthorized
  | forbidden
  | providerUnavailable
  | unknownTemplate
  | notFound
  | expired
  | payloadTooLarge
  | invalidPath
  | invalidBundle
  | invalidData
  | compileFailed
  | timeout
  | overloaded
  | quotaExceeded
  | internal
  deriving DecidableEq, Repr

structure ErrorEnvelope where
  ok : Bool := false
  error : ErrorCode
  message : String
  deriving DecidableEq, Repr

inductive Body
  | json (envelope : ErrorEnvelope)
  | bytes (bytes : Bytes)
  deriving DecidableEq, Repr

structure Response where
  status : Nat
  headers : List (String × String)
  body : Body
  deriving DecidableEq, Repr

/-- A classified public error plus transport-only HTTP metadata. -/
structure ApiError where
  status : Nat
  envelope : ErrorEnvelope
  challenge : Option String := none

/-! ## Refused credentials -/

/-- How a request failed to authenticate. -/
inductive AuthError
  | missing
  | malformed
  | rejected
  | unavailable
  | providerUnavailable
  deriving DecidableEq, Repr

namespace AuthError

def message : AuthError → String
  | missing => "this endpoint requires an Authorization: Bearer credential"
  | malformed => "the Authorization header must be `Bearer <credential>`"
  | rejected => "the credential was not accepted"
  | unavailable => "this endpoint is not configured on this server"
  | providerUnavailable =>
      "the identity provider could not be reached; this is a server-side " ++
        "problem, so retry rather than re-authenticating"

def status : AuthError → Nat
  | providerUnavailable => 503
  | _ => 401

end AuthError

/-! ## The errors there are -/

/-- `{:?}` of a kind. -/
def kindDebug : Kind → String
  | .output => "Output"
  | .asset => "Asset"
  | .template => "Template"

namespace ApiError

def new (status : Nat) (error : ErrorCode) (message : String) : ApiError :=
  { status, envelope := { error, message } }

def notFound (message : String) : ApiError := new 404 .notFound message

def expired (message : String) : ApiError := new 410 .expired message

def auth (error : AuthError) (challenge : String) : ApiError :=
  { status := error.status
    envelope := {
      error := if error = .providerUnavailable then .providerUnavailable else .unauthorized
      message := error.message }
    challenge := if error.status = 401 then some challenge else none }

def internal : ApiError := new 500 .internal "the server could not complete this request"

/-- `debug` is `{:?}` of a string. -/
def ofStore (debug : String → String) : StoreError → ApiError
  | .expired kind id => expired (kindDebug kind ++ " " ++ debug id ++ " has expired; create it again")
  | .notFound kind id => notFound (kindDebug kind ++ " " ++ debug id ++ " was not found")
  | .badId kind id => notFound (debug id ++ " is not a valid " ++ kindDebug kind ++ " id")
  | .tenantFull size limit =>
      new 507 .quotaExceeded ("storing " ++ toString size ++ " bytes would exceed the " ++
        toString limit ++ " byte limit for this tenant")
  | .tenantEntriesFull limit =>
      new 507 .quotaExceeded ("storing another entry would exceed the " ++ toString limit ++
        " entry limit for this tenant")
  | .io _ _ => internal

/-- `HeaderValue::from_str` takes visible ASCII, spaces and tabs. -/
def headerValue (text : String) : Option String :=
  if text.toList.all fun c => (32 ≤ c.toNat ∧ c.toNat < 127) ∨ c = '\t' then some text else none

def intoResponse (error : ApiError) : Response where
  status := error.status
  headers := [("content-type", "application/json")] ++
    match error.challenge.bind headerValue with
    | some challenge => [("www-authenticate", challenge)]
    | none => []
  body := .json error.envelope

end ApiError

end TypstMcp.Http
