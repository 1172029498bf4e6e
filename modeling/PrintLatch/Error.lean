/-
  PrintLatch.Error

  `AppError` (`src/error.rs`): why a request is refused, and the status, code
  and message of the response it becomes.
-/

namespace PrintLatch

/-- `AppError`. -/
inductive AppError where
  | badRequest (message : String)
  | unauthorized
  | forbidden
  | conflict (message : String)
  | notFound (message : String)
  | payloadTooLarge (message : String)
  | internal
  deriving DecidableEq, Repr

namespace AppError

/-- The HTTP status of `into_response`. -/
def status : AppError → Nat
  | .badRequest _ => 400
  | .unauthorized => 401
  | .forbidden => 403
  | .conflict _ => 409
  | .notFound _ => 404
  | .payloadTooLarge _ => 413
  | .internal => 500

/-- The field `error.code` of the body. -/
def code : AppError → String
  | .badRequest _ => "bad_request"
  | .unauthorized => "unauthorized"
  | .forbidden => "forbidden"
  | .conflict _ => "conflict"
  | .notFound _ => "not_found"
  | .payloadTooLarge _ => "payload_too_large"
  | .internal => "internal_error"

/-- The field `error.message` of the body. -/
def message : AppError → String
  | .badRequest message => message
  | .unauthorized => "authentication failed"
  | .forbidden => "this client is not allowed to make the request"
  | .conflict message => message
  | .notFound message => message
  | .payloadTooLarge message => message
  | .internal => "internal error"

end AppError

end PrintLatch
