import XiaomiProxy.Http

/-!
# Errors

`AppError` of `error.rs`, the conversions `?` applies on the way to it, and what a client is
told of it.
-/

namespace XiaomiProxy

inductive AppError where
  | unauthorized
  | rateLimited
  | badRequest (message : String)
  | downstream (message : String)
  | noKeysAvailable
  | internal (message : String)
  deriving DecidableEq, Repr

namespace AppError

/-- The text of an error. -/
def message : AppError → String
  | .unauthorized => "Unauthorized: invalid API key"
  | .rateLimited => "Rate limit exceeded"
  | .badRequest message => "Bad request: " ++ message
  | .downstream message => "Downstream error: " ++ message
  | .noKeysAvailable => "No available downstream keys"
  | .internal message => "Internal error: " ++ message

/-- The status `into_response` gives to an error. -/
def status : AppError → StatusCode
  | .unauthorized => .UNAUTHORIZED
  | .rateLimited => .TOO_MANY_REQUESTS
  | .badRequest _ => .BAD_REQUEST
  | .downstream _ => .BAD_GATEWAY
  | .noKeysAvailable => .SERVICE_UNAVAILABLE
  | .internal _ => .INTERNAL_SERVER_ERROR

/-- The type `into_response` gives to an error. -/
def errorType : AppError → String
  | .unauthorized => "authentication_error"
  | .rateLimited => "rate_limit_error"
  | .badRequest _ => "invalid_request_error"
  | .downstream _ => "downstream_error"
  | .noKeysAvailable => "service_unavailable"
  | .internal _ => "internal_error"

/-- `From<reqwest::Error>`. -/
def ofReqwest (e : ReqwestError) : AppError := .downstream e.text

/-- `From<String>`, which the errors of the database methods go through. -/
def ofString (e : String) : AppError := .internal e

end AppError

end XiaomiProxy
