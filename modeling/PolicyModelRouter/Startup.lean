import PolicyModelRouter.PolicyReload
import PolicyModelRouter.RateLimiterBackends
import PolicyModelRouter.StartupDocuments

/-!
# Starting the service

The service reads its files, assembles its parts and probes its backends before it accepts
a request. Whatever is missing or wrong raises, so that a deployed service either runs with
all of its protection or does not run.
-/

namespace PolicyModelRouter.Startup
open AuthorizationContract AwaitingPrograms Doubles InMemoryRateLimits KeySetDocuments OrderedChecks
open RedisRateLimits ReplayGuards RouterCalls RoutingPolicyLoader RuntimeControl StartupDocuments
open TrustedKeys UuidTexts
open RoutingCatalog hiding RejectedCandidate

inductive AppEnv where
  | development
  | staging
  | production
  | test
  deriving DecidableEq

def AppEnv.value : AppEnv → String
  | .development => "development"
  | .staging => "staging"
  | .production => "production"
  | .test => "test"

def AppEnv.deployed (appEnv : AppEnv) : Bool := appEnv ∈ [.staging, .production]

abbrev Positive := { n : ℕ // 1 ≤ n }

/-- A variable that is set but empty is not set. -/
def blankEnvValueMeansUnset (value : Option String) : Option String := value.filter (· ≠ "")

structure Settings where
  appEnv : AppEnv
  rateLimitMaxRequests : Positive
  rateLimitPerIpMaxRequests : Positive
  rateLimitWindowSeconds : { w : Double // 0 < w.value ∧ w.value ≤ 86400 }
  rateLimitMaxTrackedKeys : Positive
  redisUrl : { url : Option String // blankEnvValueMeansUnset url = url }
  maxRequestBodyBytes : Positive

/-- What is left of an identifier of the trust boundary without white space at its ends. -/
abbrev TrustIdentifier := { s : String // s ≠ "" }

structure RuntimeAuthorizationSettings where
  required : Bool
  issuer : TrustIdentifier
  audience : TrustIdentifier
  trustedKeySetPath : Option String
  agentBindingsJson : String
  expectedPolicyId : TrustIdentifier
  expectedPolicyVersion : TrustIdentifier
  expectedPolicyDigest : String
  expectedControlCatalogId : TrustIdentifier
  expectedControlCatalogVersion : TrustIdentifier
  expectedControlCatalogDigest : String
  clockSkewSeconds : { n : ℕ // n ≤ 60 }
  maxKeySetBytes : { n : ℕ // 1024 ≤ n ∧ n ≤ 2097152 }
  replayKeyPrefix : TrustIdentifier
  replayMaxEntries : { n : ℕ // 1 ≤ n ∧ n ≤ 1000000 }

structure RuntimeControlSettings where
  required : Bool
  redisKeyPrefix : TrustIdentifier
  maxSnapshotBytes : { n : ℕ // 512 ≤ n ∧ n ≤ 65536 }

/-- The environment of the process. Settings that do not validate are missing. -/
structure Environment where
  settings : Option Settings
  runtimeAuthorizationSettings : Option RuntimeAuthorizationSettings
  runtimeControlSettings : Option RuntimeControlSettings
  apiKeys : Option String
  serviceVersion : String

inductive Backend where
  | replayGuard
  | runtimeControl
  | rateLimiter (tier : Tier)
  deriving DecidableEq

/-- What the service does before it has started: it reads two files and probes backends. -/
inductive StartupCall where
  | readPolicyFile
  | readKeySet (path : String)
  | ping (backend : Backend)
  deriving DecidableEq

/-- A probe returns or raises. -/
inductive PingReply where
  | returned
  | raised
  deriving DecidableEq

def StartupReply : StartupCall → Type
  | .readPolicyFile => PolicyFile
  | .readKeySet _ => KeyFile
  | .ping _ => PingReply

abbrev Starting (α : Type) := Fallible StartupCall StartupReply StartupException α

def attempt (call : StartupCall) : Starting (StartupReply call) := perform call

/-- The parser of URLs, which may raise, and the optional Redis package. -/
class RedisLibraries where
  urlparse : String → Option (String × Option String)
  installed : Bool
  fromUrl : String → Bool

structure RedisClient where
  url : String

def refuse (message : String) : StartupException := .runtimeError message

/-- The replay guard, with the client of one in Redis. -/
inductive BuiltReplayGuard where
  | inMemory (maxEntries : ℕ) (positive : 1 ≤ maxEntries)
  | redis (client : RedisClient) (keyPrefix : String) (named : keyPrefix ≠ "")

def BuiltReplayGuard.guard : BuiltReplayGuard → RuntimeAuthorizationReplayGuard
  | .inMemory maxEntries positive => .inMemory maxEntries positive
  | .redis _ keyPrefix named => .redis keyPrefix named

/-- What the verifier is made of, with the names of the agents as they were decoded. -/
structure BuiltVerifier where
  keySet : TrustedRuntimeAuthorizationKeySet
  replayGuard : BuiltReplayGuard
  issuer : TrustIdentifier
  audience : TrustIdentifier
  agentBindings : AgentBindings
  expectedPolicyId : String
  expectedPolicyVersion : String
  expectedPolicyDigest : String
  expectedControlCatalogId : String
  expectedControlCatalogVersion : String
  expectedControlCatalogDigest : String
  runtimeControl : Option (RedisClient × RedisRuntimeControlStore)
  clockSkewSeconds : { n : ℕ // n ≤ 60 }
  someBinding : agentBindings.items ≠ []

def hexDigits : List Char := "0123456789abcdef".toList

def requireDigest (name value : String) : Except StartupException Unit :=
  raiseIf (value.length ≠ 64 ∨ value.toList.any (fun c => decide (c ∉ hexDigits)) = true)
    (refuse (name ++ " must be a lowercase SHA-256 digest"))

section Building

variable [RedisLibraries]

/-- The client of a URL, behind the deferred import of the package. -/
def redisClient (redisUrl missing : String) : Except StartupException RedisClient := do
  raiseIf (RedisLibraries.installed = false) (refuse missing)
  raiseIf (RedisLibraries.fromUrl redisUrl = false) .valueError
  .ok ⟨redisUrl⟩

def buildReplayGuard (appEnv : AppEnv) (redisUrl : Option String) (keyPrefix : TrustIdentifier)
    (maxEntries : { n : ℕ // 1 ≤ n ∧ n ≤ 1000000 }) :
    Except StartupException BuiltReplayGuard :=
  match redisUrl with
  | some url => do
    let client ← redisClient url
      "REDIS_URL is set but redis is not installed; install with `uv sync --extra rate-limit`"
    .ok (.redis client keyPrefix.val keyPrefix.property)
  | none => do
    raiseIf (appEnv.deployed = true)
      (refuse "REDIS_URL is required for distributed runtime authorization replay protection")
    .ok (.inMemory maxEntries.val maxEntries.property.1)

/-- The store of runtime control with the values of the settings. -/
def RuntimeControlSettings.store (settings : RuntimeControlSettings) : RedisRuntimeControlStore :=
  ⟨settings.redisKeyPrefix.val, settings.maxSnapshotBytes.val, settings.maxSnapshotBytes.property⟩

def buildRuntimeControlEnforcer (settings : RuntimeControlSettings) (appEnv : AppEnv)
    (redisUrl : Option String) :
    Except StartupException (Option (RedisClient × RedisRuntimeControlStore)) :=
  if settings.required = false then .ok none
  else
    match redisUrl with
    | none => .error (refuse "REDIS_URL is required for Runtime Control enforcement")
    | some url =>
      match RedisLibraries.urlparse url with
      | none => .error .valueError
      | some (scheme, hostname) => do
        raiseIf (scheme ∉ ["redis", "rediss"] ∨ hostname.getD "" = "")
          (refuse "REDIS_URL must be an absolute redis:// or rediss:// URL")
        raiseIf (appEnv.deployed = true ∧ scheme ≠ "rediss")
          (refuse "REDIS_URL must use rediss:// for deployed Runtime Control")
        let client ← redisClient url
          "Runtime Control requires redis; install with `uv sync --extra rate-limit`"
        .ok (some (client, settings.store))

variable [JsonDecoder] [NumeralTables]

/-- The verifier, once the key set is there. -/
def assembleVerifier (settings : RuntimeAuthorizationSettings) (control : RuntimeControlSettings)
    (appEnv : AppEnv) (redisUrl : Option String) (keySet : TrustedRuntimeAuthorizationKeySet) :
    Except StartupException BuiltVerifier := do
  let bindings ← parseAgentBindings settings.agentBindingsJson
  let replayGuard ← buildReplayGuard appEnv redisUrl settings.replayKeyPrefix settings.replayMaxEntries
  let runtimeControl ← buildRuntimeControlEnforcer control appEnv redisUrl
  if h : bindings.items ≠ [] then
    .ok
      { keySet := keySet
        replayGuard := replayGuard
        issuer := settings.issuer
        audience := settings.audience
        agentBindings := bindings
        expectedPolicyId := settings.expectedPolicyId
        expectedPolicyVersion := settings.expectedPolicyVersion
        expectedPolicyDigest := settings.expectedPolicyDigest
        expectedControlCatalogId := settings.expectedControlCatalogId
        expectedControlCatalogVersion := settings.expectedControlCatalogVersion
        expectedControlCatalogDigest := settings.expectedControlCatalogDigest
        runtimeControl := runtimeControl
        clockSkewSeconds := settings.clockSkewSeconds
        someBinding := h }
  else .error .valueError

variable [BytesDecoder] [KeyLibraries]

def requireModes (settings : RuntimeAuthorizationSettings) (control : RuntimeControlSettings)
    (appEnv : AppEnv) : Except StartupException Unit := do
  raiseIf (appEnv.deployed = true ∧ settings.required = false)
    (refuse "RUNTIME_AUTHORIZATION_REQUIRED must be true in staging and production")
  raiseIf (appEnv.deployed = true ∧ control.required = false)
    (refuse "RUNTIME_CONTROL_REQUIRED must be true in staging and production")
  raiseIf (control.required = true ∧ settings.required = false)
    (refuse "Runtime Control requires signed Runtime Authorization enforcement")

/-- Nothing is built where authorization is disabled. -/
def buildRuntimeAuthorizationVerifier (settings : RuntimeAuthorizationSettings) (appEnv : AppEnv)
    (redisUrl : Option String) (control : RuntimeControlSettings) : Starting (Option BuiltVerifier) := do
  compute (requireModes settings control appEnv)
  match settings.required with
  | false => pure none
  | true =>
    match settings.trustedKeySetPath with
    | none => throw (refuse "RUNTIME_AUTHORIZATION_TRUSTED_KEY_SET_PATH is required")
    | some path => do
      compute (requireDigest "RUNTIME_AUTHORIZATION_EXPECTED_POLICY_DIGEST" settings.expectedPolicyDigest)
      compute (requireDigest "RUNTIME_AUTHORIZATION_EXPECTED_CONTROL_CATALOG_DIGEST"
        settings.expectedControlCatalogDigest)
      let file : KeyFile ← attempt (.readKeySet path)
      let keySet ← compute (loadTrustedKeySet settings.maxKeySetBytes.val file)
      let verifier ← compute (assembleVerifier settings control appEnv redisUrl keySet)
      pure (some verifier)

end Building

def probe (backend : Backend) (e : StartupException) : Starting Unit := do
  match ← attempt (.ping backend) with
  | .returned => pure ()
  | .raised => throw e

/-- What is kept in memory is always reachable. -/
def pingReplayGuard : BuiltReplayGuard → Starting Unit
  | .inMemory _ _ => pure ()
  | .redis _ _ _ => probe .replayGuard
      (.authorization "replay_store_unavailable" "Runtime authorization replay state is unavailable")

def pingRuntimeControl : Option (RedisClient × RedisRuntimeControlStore) → Starting Unit
  | none => pure ()
  | some _ => probe .runtimeControl
      (.authorization "runtime_control_unavailable" "Runtime control state is unavailable")

def pingVerifier : Option BuiltVerifier → Starting Unit
  | none => pure ()
  | some verifier => do
    pingReplayGuard verifier.replayGuard
    pingRuntimeControl verifier.runtimeControl

inductive RateLimiter where
  | inMemory (limiter : InMemoryRateLimiter Double)
  | redis (client : RedisClient) (limiter : RedisRateLimiter)

def buildRateLimiter [RedisLibraries] (settings : Settings) (maxRequests : Positive) :
    Except StartupException RateLimiter :=
  match settings.redisUrl.val with
  | none => .ok (.inMemory ⟨maxRequests.val, settings.rateLimitWindowSeconds.val,
    settings.rateLimitMaxTrackedKeys.val⟩)
  | some url => do
    let client ← redisClient url
      "REDIS_URL is set but the 'redis' package is not installed; install it with `uv sync --extra rate-limit`"
    .ok (.redis client ⟨maxRequests.val, settings.rateLimitWindowSeconds.val,
      settings.rateLimitWindowSeconds.property⟩)

/-- The text of a backend's failure is not repeated: it may hold a password. -/
def pingRateLimiter (tier : Tier) : RateLimiter → Starting Unit
  | .inMemory _ => pure ()
  | .redis _ _ => probe (.rateLimiter tier) (refuse "rate limiter backend is not reachable")

structure Started where
  useCase : RouteModelUseCase
  apiKeys : DocumentFields.Fields
  maxRequestBodyBytes : ℕ
  runtimeAuthorizationRequired : Bool
  runtimeAuthorizationVerifier : Option BuiltVerifier
  rateLimiter : RateLimiter
  ipRateLimiter : RateLimiter
  serviceVersion : String
  environment : String

def orInvalid {α : Type} : Option α → Except StartupException α
  | some settings => .ok settings
  | none => .error .validation

section Lifespan

variable [RedisLibraries] [JsonDecoder] [NumeralTables] [BytesDecoder] [KeyLibraries]
variable [PolicyLibraries] [Cryptography]

/-- Everything before the first request. -/
def lifespan (environment : Environment) : Starting Started := do
  let settings ← compute (orInvalid environment.settings)
  let file : PolicyFile ← attempt .readPolicyFile
  let policy ← compute ((loadRoutingPolicy file).mapError .policy)
  let apiKeys ← compute (requiredApiKeys environment.apiKeys)
  let authorization ← compute (orInvalid environment.runtimeAuthorizationSettings)
  let control ← compute (orInvalid environment.runtimeControlSettings)
  let verifier ← buildRuntimeAuthorizationVerifier authorization settings.appEnv
    settings.redisUrl.val control
  pingVerifier verifier
  let rateLimiter ← compute (buildRateLimiter settings settings.rateLimitMaxRequests)
  let ipRateLimiter ← compute (buildRateLimiter settings settings.rateLimitPerIpMaxRequests)
  pingRateLimiter .perAgent rateLimiter
  pingRateLimiter .perIp ipRateLimiter
  pure
    { useCase := ⟨policy, environment.serviceVersion, settings.appEnv.value⟩
      apiKeys := apiKeys
      maxRequestBodyBytes := settings.maxRequestBodyBytes.val
      runtimeAuthorizationRequired := authorization.required
      runtimeAuthorizationVerifier := verifier
      rateLimiter := rateLimiter
      ipRateLimiter := ipRateLimiter
      serviceVersion := environment.serviceVersion
      environment := settings.appEnv.value }

end Lifespan

end PolicyModelRouter.Startup
