import Mathlib.Tactic

/-!
# Shared error types

Failure classes of an upstream attempt, and the errors that the proxy answers with. An error's
headers, status override and body override are left out: only `preserve_anthropic_error` sets them,
for the client of an Anthropic upstream, and it leaves the fields here as they are.
-/

namespace Kinetix.Types

/-- The class of a failed upstream attempt. -/
inductive FailureKind
  | rateLimit
  | quotaExhausted
  | authError
  | targetError
  | serverError
  | connectionError
  | timeout
  | badRequest
  deriving DecidableEq, Repr

namespace FailureKind

/-- Whether another candidate may be attempted before client commit. -/
def isRetryable (kind : FailureKind) : Bool :=
  kind != .badRequest

end FailureKind

/-- A classified upstream failure. -/
structure UpstreamFailure where
  kind : FailureKind
  status : Option Nat
  retryAfterSecs : Option Nat
  message : String
  quotaResetAt : Option Int
  deriving DecidableEq

/-- The kinds of error that a client can receive. -/
inductive ErrorKind
  | badRequest
  | unauthorized
  | forbidden
  | notFound
  | rateLimited
  | budgetExceeded
  | unsupported
  | upstream
  | allTargetsUnavailable
  | internal
  | serviceUnavailable
  deriving DecidableEq, Repr

/-- An error answer of the proxy. -/
structure ProxyError where
  kind : ErrorKind
  message : String
  retryAfterSecs : Option Nat
  deriving DecidableEq, Repr

namespace ProxyError

/-- `ProxyError::bad_request`. -/
def badRequest (msg : String) : ProxyError := ⟨.badRequest, msg, none⟩

/-- `ProxyError::unauthorized`. -/
def unauthorized (msg : String) : ProxyError := ⟨.unauthorized, msg, none⟩

/-- `ProxyError::not_found`. -/
def notFound (msg : String) : ProxyError := ⟨.notFound, msg, none⟩

/-- `ProxyError::unsupported`. -/
def unsupported (msg : String) : ProxyError := ⟨.unsupported, msg, none⟩

/-- `ProxyError::upstream`. -/
def upstream (msg : String) : ProxyError := ⟨.upstream, msg, none⟩

/-- `ProxyError::all_unavailable`. -/
def allUnavailable (msg : String) (retryAfter : Option Nat) : ProxyError :=
  ⟨.allTargetsUnavailable, msg, retryAfter⟩

/-- `ProxyError::internal`. -/
def internal (msg : String) : ProxyError := ⟨.internal, msg, none⟩

/-- `ProxyError::rate_limited`. -/
def rateLimited (msg : String) (retryAfter : Option Nat) : ProxyError :=
  ⟨.rateLimited, msg, retryAfter⟩

/-- `ProxyError::budget_exceeded`. -/
def budgetExceeded (msg : String) : ProxyError :=
  ⟨.budgetExceeded, msg, none⟩

end ProxyError

end Kinetix.Types
