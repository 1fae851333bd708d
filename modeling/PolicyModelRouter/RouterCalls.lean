import PolicyModelRouter.AwaitingPrograms
import PolicyModelRouter.RoutingCatalog
import PolicyModelRouter.Uuids

/-!
# What the router awaits and what it raises

Every point at which a coroutine of the router gives up control is a call: the
ASGI channel, the rate limiters, the clock and the identifier source, the
availability provider, the stores of runtime control and replay protection, the
policy file and the use case held by the application state.
-/

namespace PolicyModelRouter.RouterCalls
open AwaitingPrograms DecimalArithmetic GovernedVocabularies RoutingCatalog UtcTimestamps Uuids

inductive DenialCode where
  | invalidTime
  | issuerMismatch
  | audienceMismatch
  | issuedInFuture
  | notYetValid
  | expired
  | unknownKey
  | keyRevoked
  | keyNotValidForIssueTime
  | keyVerificationWindowClosed
  | invalidSignature
  | requestCostPrecisionUnsupported
  | requestBindingMismatch
  | agentBindingMismatch
  | governancePolicyMismatch
  | runtimeControlUnavailable
  | killSwitchEngaged
  | runtimeAuthorizationRevoked
  | replayStoreFull
  | replayStoreUnavailable
  | replayDetected
  | selectedModelGroupNotAuthorized
  | selectedModelDataClassNotAuthorized
  | runtimeAuthorizationRequired
  | runtimeAuthorizationUnavailable
  | runtimeAuthorizationNotConfigured
  deriving DecidableEq

def DenialCode.value : DenialCode → String
  | .invalidTime => "invalid_time"
  | .issuerMismatch => "issuer_mismatch"
  | .audienceMismatch => "audience_mismatch"
  | .issuedInFuture => "issued_in_future"
  | .notYetValid => "not_yet_valid"
  | .expired => "expired"
  | .unknownKey => "unknown_key"
  | .keyRevoked => "key_revoked"
  | .keyNotValidForIssueTime => "key_not_valid_for_issue_time"
  | .keyVerificationWindowClosed => "key_verification_window_closed"
  | .invalidSignature => "invalid_signature"
  | .requestCostPrecisionUnsupported => "request_cost_precision_unsupported"
  | .requestBindingMismatch => "request_binding_mismatch"
  | .agentBindingMismatch => "agent_binding_mismatch"
  | .governancePolicyMismatch => "governance_policy_mismatch"
  | .runtimeControlUnavailable => "runtime_control_unavailable"
  | .killSwitchEngaged => "kill_switch_engaged"
  | .runtimeAuthorizationRevoked => "runtime_authorization_revoked"
  | .replayStoreFull => "replay_store_full"
  | .replayStoreUnavailable => "replay_store_unavailable"
  | .replayDetected => "replay_detected"
  | .selectedModelGroupNotAuthorized => "selected_model_group_not_authorized"
  | .selectedModelDataClassNotAuthorized => "selected_model_data_class_not_authorized"
  | .runtimeAuthorizationRequired => "runtime_authorization_required"
  | .runtimeAuthorizationUnavailable => "runtime_authorization_unavailable"
  | .runtimeAuthorizationNotConfigured => "runtime_authorization_not_configured"

/-- A fail-closed denial, and whether verification had completed when it was raised. -/
structure RuntimeAuthorizationError where
  code : DenialCode
  message : String
  authorizationVerified : Bool
  deriving DecidableEq

inductive PyException where
  | runtimeAuthorization (error : RuntimeAuthorizationError)
  | runtimeControlEnforcement (code : DenialCode) (message : String)
  | runtimeControlStore (message : String)
  | incompleteRoutingPolicy (message : String)
  | noViableModelGroup (decision : RejectedDecision)
  | routingPolicyLoad
  | authentication (message : String)
  | rateLimitExceeded (message : String)
  | validation
  | cancelled
  | decimalSignal (signal : Signal)
  | overflow
  | unicodeDecode
  | keyError
  | typeError
  | valueError
  | runtime (message : String)
  | backend
  deriving DecidableEq

def denial (code : DenialCode) (message : String) : PyException :=
  .runtimeAuthorization ⟨code, message, false⟩

/-- The use case held by the application state: a loaded policy and the identity of the
deployment. -/
structure RouteModelUseCase where
  policy : RoutingPolicy
  serviceVersion : String
  environment : String

/-- Effective availability, with nothing for the groups a provider leaves out. -/
abbrev Availability := ModelGroupId → Option Bool

inductive AsgiMessage where
  | request (body : List UInt8) (moreBody : Bool)
  | disconnect
  | other

/-- What a Redis client returns for GET. Text that has no UTF-8 encoding is among the other
objects. -/
inductive GetReply where
  | none
  | bytes (raw : List UInt8)
  | str (raw : String)
  | other
  | raises

/-- What a Redis client returns for SET with NX and EX: whether the key was set, or an
exception that leaves open whether it was. -/
inductive SetReply where
  | set
  | notSet
  | raises
  deriving DecidableEq

inductive ConsumeReply where
  | fresh
  | replayed
  | full
  deriving DecidableEq

inductive PolicyFile where
  | unreadable
  | content (bytes : List UInt8)
  deriving DecidableEq

inductive Tier where
  | perIp
  | perAgent
  deriving DecidableEq

inductive Call where
  | receive
  | allow (tier : Tier) (key : String)
  | activeUseCase
  | utcNow
  | newId
  | uuid4
  | resolve (declared : List (ModelGroupId × Bool))
  | redisGet (key : String)
  | redisSet (key : String) (ttl : ℕ)
  | memoryConsume (authorizationId : UUID) (expiresAt now : Datetime)
  | readPolicyFile
  | swapUseCase (useCase : RouteModelUseCase)

def Reply : Call → Type
  | .receive => AsgiMessage
  | .allow _ _ => Bool
  | .activeUseCase => RouteModelUseCase
  | .utcNow => Datetime
  | .newId => String
  | .uuid4 => UUID
  | .resolve _ => Availability
  | .redisGet _ => GetReply
  | .redisSet _ _ => SetReply
  | .memoryConsume _ _ _ => ConsumeReply
  | .readPolicyFile => PolicyFile
  | .swapUseCase _ => Unit

abbrev Coroutine (α : Type) := Fallible Call Reply PyException α

def ask (call : Call) : Coroutine (Reply call) := perform call

@[simp] theorem returns_ask {call : Call} {es : List (Event Reply)} {r : Reply call} :
    Returns (ask call) es r ↔ es = [⟨call, r⟩] := returns_perform call r

@[simp] theorem not_raises_ask {call : Call} {es : List (Event Reply)} {e : PyException} :
    ¬ Raises (ask call) es e := not_raises_perform call e

@[simp] theorem issues_ask {call other : Call} {es : List (Event Reply)} :
    Issues (ask call).run es other ↔ es = [] ∧ other = call := issues_perform call other

@[simp] theorem outcome_ask (answer : (call : Call) → Reply call) (call : Call) :
    outcome answer (ask call) = .ok (answer call) := rfl

end PolicyModelRouter.RouterCalls
