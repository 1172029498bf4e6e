/-
  PrintLatch.Auth.Origin

  `normalize_origin` (`src/auth.rs`).  The `url` crate is the parameter `parse`;
  `Url` holds what its accessors return.
-/

import Mathlib.Init

namespace PrintLatch

/-- What the accessors of a parsed `Url` return. -/
structure Url where
  scheme : String
  username : String
  password : Option String
  /-- `host_str`. -/
  host : Option String
  /-- `port`: no value for the scheme's default port. -/
  port : Option Nat
  path : String
  query : Option String
  fragment : Option String
  deriving DecidableEq, Repr

/-- The hosts `normalize_origin` takes for loopback. -/
def isLoopback (host : String) : Bool :=
  host = "localhost" ∨ host = "127.0.0.1" ∨ host = "::1"

/-- `normalize_origin`: scheme, host and port, or why the value is refused. -/
def normalizeOrigin (parse : String → Option Url) (value : String) : Except String String :=
  match parse value with
  | none => .error "origin must be an absolute URL"
  | some parsed =>
      if parsed.username ≠ "" ∨ parsed.password.isSome ∨ parsed.query.isSome ∨
          parsed.fragment.isSome ∨ parsed.path ≠ "/" then
        .error "origin must contain only scheme, host, and optional port"
      else
        match parsed.host with
        | none => .error "origin must include a host"
        | some host =>
            if parsed.scheme ≠ "https" ∧ ¬ (parsed.scheme = "http" ∧ isLoopback host) then
              .error "browser origins must use HTTPS, except localhost development origins"
            else
              match parsed.port with
              | none => .ok s!"{parsed.scheme}://{host}"
              | some port => .ok s!"{parsed.scheme}://{host}:{port}"

end PrintLatch
