import Mathlib.Tactic.IntervalCases
import PolicyModelRouter.AuthorizedDecisions
import PolicyModelRouter.ServedPolicies
import PolicyModelRouter.Startup

/-!
# What a deployed service has started with

In staging and production a start that returns has read both files, has built every part of
the protection on the shared encrypted backend, and has had every probe answered. What the
service publishes afterwards rests on exactly these parts.
-/

namespace PolicyModelRouter.StartedServices
open AuthorizationContract AuthorizationVerifier AuthorizedDecisions AwaitingPrograms
open GovernedVocabularies HandlerRuns KeySetDocuments OrderedChecks OrderedDicts PythonText ReplayGuards RouteEndpoint
open RouteRuns RouterCalls RoutingCatalog RoutingPolicyLoader RuntimeControl ServedPolicies Startup
open StartupDocuments TrustedKeys UtcTimestamps UuidTexts Uuids VerificationTraces WireContracts
open RuntimeAuthorizationVerifier

section Probes

variable {es : List (Event StartupReply)}

theorem returns_probe {backend : Backend} {e : StartupException} {u : Unit} :
    Returns (probe backend e) es u ↔ es = [⟨.ping backend, PingReply.returned⟩] := by
  unfold probe
  constructor
  · intro h
    obtain ⟨reply, _, rfl, hreply⟩ := returns_perform_bind.mp h
    cases reply with
    | returned =>
      obtain ⟨rfl, -⟩ := (returns_pure _ _).mp hreply
      rfl
    | raised => exact absurd hreply (not_returns_throw _ _)
  · rintro rfl
    exact returns_perform_bind.mpr ⟨PingReply.returned, [], rfl, (returns_pure _ _).mpr ⟨rfl, rfl⟩⟩

private theorem returns_pingVerifier {verifier : BuiltVerifier} {client : RedisClient}
    {keyPrefix : String}
    {named : keyPrefix ≠ ""} {store : RedisClient × RedisRuntimeControlStore}
    (guarded : verifier.replayGuard = .redis client keyPrefix named)
    (controlled : verifier.runtimeControl = some store) {u : Unit} :
    Returns (pingVerifier (some verifier)) es u ↔
      es = [⟨.ping .replayGuard, PingReply.returned⟩, ⟨.ping .runtimeControl, PingReply.returned⟩] := by
  simp only [pingVerifier, guarded, controlled, pingReplayGuard, pingRuntimeControl, returns_bind,
    returns_probe]
  constructor
  · rintro ⟨_, _, _, rfl, rfl, rfl⟩
    rfl
  · rintro rfl
    exact ⟨_, _, (), rfl, rfl, rfl⟩

end Probes

section Building

variable {appEnv : AppEnv} {settings : RuntimeAuthorizationSettings}
variable {control : RuntimeControlSettings}

/-- The settings of a deployed service require both protections. -/
theorem required_of_requireModes (deployed : appEnv.deployed = true)
    (h : requireModes settings control appEnv = .ok ()) :
    settings.required = true ∧ control.required = true := by
  obtain ⟨_, hsettings, h⟩ := bind_eq_ok.mp h
  obtain ⟨_, hcontrol, -⟩ := bind_eq_ok.mp h
  have hsettings := raiseIf_eq_ok.mp hsettings
  have hcontrol := raiseIf_eq_ok.mp hcontrol
  simp only [deployed, true_and, Bool.not_eq_false] at hsettings hcontrol
  exact ⟨hsettings, hcontrol⟩

private theorem mem_hexDigits {c : Char} : c ∈ hexDigits ↔ isHexDigit c = true := by
  constructor
  · have hall : hexDigits.all isHexDigit = true := by decide
    exact List.all_eq_true.mp hall c
  · intro h
    simp only [isHexDigit, Bool.or_eq_true, Bool.and_eq_true, decide_eq_true_eq, Char.le_def,
      UInt32.le_iff_toNat_le] at h
    rw [← Char.ofNat_toNat c]
    change _ ≤ c.toNat ∧ c.toNat ≤ _ ∨ _ ≤ c.toNat ∧ c.toNat ≤ _ at h
    generalize c.toNat = n at h
    rcases h with ⟨hlow, hhigh⟩ | ⟨hlow, hhigh⟩
    · change 48 ≤ n at hlow
      change n ≤ 57 at hhigh
      interval_cases n <;> decide
    · change 97 ≤ n at hlow
      change n ≤ 102 at hhigh
      interval_cases n <;> decide

private theorem isDigest_iff {s : String} :
    isDigest s = true ↔ s.length = 64 ∧ ∀ c ∈ s.toList, isHexDigit c = true := by
  rw [← String.length_toList]
  simp only [isDigest, hasShape, Bool.and_eq_true, decide_eq_true_eq, ← String.length_toList]
  cases s.toList with
  | nil => simp
  | cons c rest =>
    simp only [List.head?_cons, Option.any_some, List.tail_cons, List.all_eq_true, List.forall_mem_cons]
    constructor
    · rintro ⟨⟨⟨hlow, hhigh⟩, hfirst⟩, hrest⟩
      exact ⟨le_antisymm hhigh hlow, hfirst, hrest⟩
    · rintro ⟨hlength, hfirst, hrest⟩
      exact ⟨⟨⟨hlength.ge, hlength.le⟩, hfirst⟩, hrest⟩

/-- The digests a start accepts are those an authorization can carry. -/
theorem requireDigest_eq_ok {name value : String} :
    requireDigest name value = .ok () ↔ isDigest value = true := by
  unfold requireDigest
  rw [raiseIf_eq_ok, isDigest_iff]
  simp only [not_or, not_not, ne_eq, List.any_eq_true, decide_eq_true_eq, not_exists, not_and,
    mem_hexDigits]

variable [RedisLibraries] {redisUrl : Option String}

theorem client_of_redisClient {url missing : String} {client : RedisClient}
    (h : redisClient url missing = .ok client) : client = ⟨url⟩ := by
  obtain ⟨_, -, hrest⟩ := bind_eq_ok.mp h
  obtain ⟨_, -, hclient⟩ := bind_eq_ok.mp hrest
  exact (Except.ok.inj hclient).symm

/-- With a URL the identifiers are consumed in the keyspace behind it. -/
theorem buildReplayGuard_some {url : String} {keyPrefix : TrustIdentifier}
    {maxEntries : { n : ℕ // 1 ≤ n ∧ n ≤ 1000000 }} {replayGuard : BuiltReplayGuard}
    (h : buildReplayGuard appEnv (some url) keyPrefix maxEntries = .ok replayGuard) :
    replayGuard = .redis ⟨url⟩ keyPrefix.val keyPrefix.property := by
  obtain ⟨client, hclient, h⟩ := bind_eq_ok.mp h
  obtain rfl := client_of_redisClient hclient
  exact (Except.ok.inj h).symm

/-- The URL names a host, which is reached over an encrypted connection. -/
def Encrypted (url : String) : Prop :=
  ∃ hostname, RedisLibraries.urlparse url = some ("rediss", some hostname) ∧ hostname ≠ ""

private theorem buildRuntimeControlEnforcer_deployed (deployed : appEnv.deployed = true)
    (required : control.required = true)
    {built : Option (RedisClient × RedisRuntimeControlStore)}
    (h : buildRuntimeControlEnforcer control appEnv redisUrl = .ok built) :
    ∃ url, redisUrl = some url ∧ built = some (⟨url⟩, control.store) ∧ Encrypted url := by
  unfold buildRuntimeControlEnforcer at h
  rw [if_neg (by simp [required])] at h
  cases redisUrl with
  | none => cases h
  | some url =>
    simp only at h
    split at h
    · cases h
    · rename_i scheme hostname hparsed
      obtain ⟨_, habsolute, hrest⟩ := bind_eq_ok.mp h
      obtain ⟨_, hencrypted, hrest⟩ := bind_eq_ok.mp hrest
      obtain ⟨client, hclient, hbuilt⟩ := bind_eq_ok.mp hrest
      obtain rfl := client_of_redisClient hclient
      have habsolute := (not_or.mp (raiseIf_eq_ok.mp habsolute)).2
      have hencrypted := raiseIf_eq_ok.mp hencrypted
      simp only [deployed, true_and, ne_eq, not_not] at hencrypted
      refine ⟨url, rfl, (Except.ok.inj hbuilt).symm, hostname.getD "", ?_, habsolute⟩
      rw [hparsed, hencrypted]
      cases hostname with
      | none => exact absurd rfl habsolute
      | some hostname => rfl

variable [JsonDecoder] [NumeralTables]

/-- The parts of a verifier are those the settings name. -/
structure Assembled (settings : RuntimeAuthorizationSettings) (control : RuntimeControlSettings)
    (url : String) (verifier : BuiltVerifier) : Prop where
  bindings : parseAgentBindings settings.agentBindingsJson = .ok verifier.agentBindings
  replayGuard : verifier.replayGuard =
    .redis ⟨url⟩ settings.replayKeyPrefix.val settings.replayKeyPrefix.property
  runtimeControl : verifier.runtimeControl = some (⟨url⟩, control.store)
  issuer : verifier.issuer = settings.issuer
  audience : verifier.audience = settings.audience
  policyDigest : verifier.expectedPolicyDigest = settings.expectedPolicyDigest
  controlCatalogDigest : verifier.expectedControlCatalogDigest = settings.expectedControlCatalogDigest
  encrypted : Encrypted url

private theorem assembled_of_assembleVerifier (deployed : appEnv.deployed = true)
    (required : control.required = true) {keySet : TrustedRuntimeAuthorizationKeySet}
    {verifier : BuiltVerifier}
    (h : assembleVerifier settings control appEnv redisUrl keySet = .ok verifier) :
    verifier.keySet = keySet ∧ ∃ url, redisUrl = some url ∧ Assembled settings control url verifier := by
  unfold assembleVerifier at h
  obtain ⟨bindings, hbindings, hrest⟩ := bind_eq_ok.mp h
  obtain ⟨replayGuard, hguard, hrest⟩ := bind_eq_ok.mp hrest
  obtain ⟨store, hstore, hbuilt⟩ := bind_eq_ok.mp hrest
  obtain ⟨url, rfl, rfl, hencrypted⟩ := buildRuntimeControlEnforcer_deployed deployed required hstore
  obtain rfl := buildReplayGuard_some hguard
  split at hbuilt
  · cases hbuilt
    exact ⟨rfl, url, rfl, hbindings, rfl, rfl, rfl, rfl, rfl, rfl, hencrypted⟩
  · cases hbuilt

end Building

section Starts

/-- With a URL the limit is counted on the shared backend. -/
theorem buildRateLimiter_some [RedisLibraries] {settings : Settings} {maxRequests : Positive} {url : String}
    {limiter : RateLimiter} (configured : settings.redisUrl.val = some url)
    (h : buildRateLimiter settings maxRequests = .ok limiter) :
    limiter = .redis ⟨url⟩ ⟨maxRequests.val, settings.rateLimitWindowSeconds.val,
      settings.rateLimitWindowSeconds.property⟩ := by
  unfold buildRateLimiter at h
  rw [configured] at h
  obtain ⟨client, hclient, h⟩ := bind_eq_ok.mp h
  obtain rfl := client_of_redisClient hclient
  exact (Except.ok.inj h).symm

private theorem orInvalid_eq_ok {α : Type} {settings : Option α} {a : α} :
    orInvalid settings = .ok a ↔ settings = some a := by
  cases settings <;> simp [orInvalid]

variable [RedisLibraries] [JsonDecoder] [NumeralTables] [BytesDecoder] [KeyLibraries]
variable {es : List (Event StartupReply)}

/-- A deployed verifier is assembled after the key set was read. -/
theorem returns_buildRuntimeAuthorizationVerifier {appEnv : AppEnv} {redisUrl : Option String}
    {settings : RuntimeAuthorizationSettings} {control : RuntimeControlSettings}
    {built : Option BuiltVerifier} (deployed : appEnv.deployed = true)
    (h : Returns (buildRuntimeAuthorizationVerifier settings appEnv redisUrl control) es built) :
    settings.required = true ∧ isDigest settings.expectedPolicyDigest = true ∧
      isDigest settings.expectedControlCatalogDigest = true ∧
      ∃ path file url verifier, settings.trustedKeySetPath = some path ∧
        es = [⟨.readKeySet path, file⟩] ∧ redisUrl = some url ∧ built = some verifier ∧
        loadTrustedKeySet settings.maxKeySetBytes.val file = .ok verifier.keySet ∧
        Assembled settings control url verifier := by
  unfold buildRuntimeAuthorizationVerifier at h
  obtain ⟨_, hmodes, hbuild⟩ := returns_compute_bind.mp h
  obtain ⟨hrequired, hcontrol⟩ := required_of_requireModes deployed hmodes
  rw [hrequired] at hbuild
  simp only at hbuild
  split at hbuild
  · exact absurd hbuild (not_returns_throw _ _)
  · rename_i path hpath
    obtain ⟨_, hpolicy, hrest⟩ := returns_compute_bind.mp hbuild
    obtain ⟨_, hcatalog, hrest⟩ := returns_compute_bind.mp hrest
    obtain ⟨file, _, rfl, hloading⟩ := returns_perform_bind.mp hrest
    obtain ⟨keySet, hload, hassembling⟩ := returns_compute_bind.mp hloading
    obtain ⟨verifier, hassemble, hpure⟩ := returns_compute_bind.mp hassembling
    obtain ⟨rfl, rfl⟩ := (returns_pure _ _).mp hpure
    obtain ⟨rfl, url, hurl, hassembled⟩ := assembled_of_assembleVerifier deployed hcontrol hassemble
    exact ⟨hrequired, requireDigest_eq_ok.mp hpolicy, requireDigest_eq_ok.mp hcatalog, path, file,
      url, verifier, hpath, rfl, hurl, rfl, hload, hassembled⟩

variable [PolicyLibraries] [Cryptography]

/-- Everything a deployed service has started with. -/
structure Protected (environment : Environment) (settings : Settings)
    (authorization : RuntimeAuthorizationSettings) (control : RuntimeControlSettings) (url : String)
    (verifier : BuiltVerifier) (es : List (Event StartupReply)) (s : Started) : Prop where
  authorizing : environment.runtimeAuthorizationSettings = some authorization
  controlling : environment.runtimeControlSettings = some control
  located : settings.redisUrl.val = some url
  calls : ∃ policyFile path keyFile, authorization.trustedKeySetPath = some path ∧
    es = [⟨.readPolicyFile, policyFile⟩, ⟨.readKeySet path, keyFile⟩,
      ⟨.ping .replayGuard, PingReply.returned⟩, ⟨.ping .runtimeControl, PingReply.returned⟩,
      ⟨.ping (.rateLimiter .perAgent), PingReply.returned⟩,
      ⟨.ping (.rateLimiter .perIp), PingReply.returned⟩] ∧
    loadRoutingPolicy policyFile = .ok s.useCase.policy ∧
    loadTrustedKeySet authorization.maxKeySetBytes.val keyFile = .ok verifier.keySet
  apiKeys : requiredApiKeys environment.apiKeys = .ok s.apiKeys
  required : s.runtimeAuthorizationRequired = true
  verified : s.runtimeAuthorizationVerifier = some verifier
  assembled : Assembled authorization control url verifier
  digests : isDigest verifier.expectedPolicyDigest = true ∧
    isDigest verifier.expectedControlCatalogDigest = true
  shared : (∃ limiter, s.rateLimiter = .redis ⟨url⟩ limiter) ∧
    ∃ limiter, s.ipRateLimiter = .redis ⟨url⟩ limiter

/-- A start in a deployed environment either raises or has everything. -/
theorem protected_of_lifespan {environment : Environment} {settings : Settings} {s : Started}
    (configured : environment.settings = some settings) (deployed : settings.appEnv.deployed = true)
    (h : Returns (lifespan environment) es s) :
    ∃ authorization control url verifier,
      Protected environment settings authorization control url verifier es s := by
  unfold lifespan at h
  rw [configured] at h
  obtain ⟨_, hsettings, h₁⟩ := returns_compute_bind.mp h
  obtain rfl := Except.ok.inj hsettings
  obtain ⟨file, _, rfl, h₂⟩ := returns_perform_bind.mp h₁
  obtain ⟨policy, hpolicy, h₃⟩ := returns_compute_bind.mp h₂
  obtain ⟨keys, hkeys, h₄⟩ := returns_compute_bind.mp h₃
  obtain ⟨authorization, hauthorization, h₅⟩ := returns_compute_bind.mp h₄
  obtain ⟨control, hcontrol, h₆⟩ := returns_compute_bind.mp h₅
  obtain ⟨_, _, built, rfl, hbuilt, h₇⟩ := returns_bind.mp h₆
  obtain ⟨hrequired, hpolicyDigest, hcatalogDigest, path, keyFile, url, verifier, hpath, rfl, hurl,
    rfl, hload, hassembled⟩ := returns_buildRuntimeAuthorizationVerifier deployed hbuilt
  obtain ⟨_, _, _, rfl, hpings, h₈⟩ := returns_bind.mp h₇
  obtain rfl := (returns_pingVerifier hassembled.replayGuard hassembled.runtimeControl).mp hpings
  obtain ⟨rateLimiter, hlimiter, h₉⟩ := returns_compute_bind.mp h₈
  obtain rfl := buildRateLimiter_some hurl hlimiter
  obtain ⟨ipRateLimiter, hipLimiter, h₁₀⟩ := returns_compute_bind.mp h₉
  obtain rfl := buildRateLimiter_some hurl hipLimiter
  obtain ⟨_, _, _, rfl, hping, h₁₁⟩ := returns_bind.mp h₁₀
  obtain rfl := returns_probe.mp hping
  obtain ⟨_, _, _, rfl, hipPing, hpure⟩ := returns_bind.mp h₁₁
  obtain rfl := returns_probe.mp hipPing
  obtain ⟨rfl, rfl⟩ := (returns_pure _ _).mp hpure
  exact ⟨authorization, control, url, verifier, orInvalid_eq_ok.mp hauthorization,
    orInvalid_eq_ok.mp hcontrol, hurl, ⟨file, path, keyFile, hpath, rfl, mapError_eq_ok.mp hpolicy,
      hload⟩, hkeys, hrequired, rfl, hassembled, ⟨hassembled.policyDigest ▸ hpolicyDigest,
      hassembled.controlCatalogDigest ▸ hcatalogDigest⟩, ⟨_, rfl⟩, ⟨_, rfl⟩⟩

end Starts

section Trust

variable [Cryptography]

/-- What the offline checks have established about an envelope. -/
structure Trusts (verifier : RuntimeAuthorizationVerifier) (envelope : SignedRuntimeAuthorization)
    (agentName : String) : Prop where
  issuer : envelope.claims.issuer.val = verifier.issuer
  audience : verifier.audience ∈ envelope.claims.audience.map Subtype.val
  signed : ∃ key ∈ verifier.keySet.keys, key.kid = points envelope.protected_.kid ∧
    key.status ≠ .revoked ∧ signatureVerifies envelope key = true
  bound : verifier.agentBindings.lookup agentName = some envelope.claims.subject.agentId
  policyDigest : envelope.claims.policy.policyDigest.val = verifier.expectedPolicyDigest

omit [Cryptography] in
private theorem trusted_of_verifyIdentityAndTime {verifier : RuntimeAuthorizationVerifier}
    {claims : RuntimeAuthorizationClaims} {now : Datetime}
    (h : verifier.verifyIdentityAndTime claims now = .ok ()) :
    claims.issuer.val = verifier.issuer ∧ verifier.audience ∈ claims.audience.map Subtype.val := by
  obtain ⟨_, hissuer, hrest⟩ := bind_eq_ok.mp h
  obtain ⟨_, haudience, -⟩ := bind_eq_ok.mp hrest
  exact ⟨not_not.mp (raiseIf_eq_ok.mp hissuer), not_not.mp (raiseIf_eq_ok.mp haudience)⟩

omit [Cryptography] in
private theorem active_of_requireKey {verifier : RuntimeAuthorizationVerifier}
    {envelope : SignedRuntimeAuthorization} {now : Datetime} {key : TrustedRuntimeAuthorizationKey}
    (h : verifier.requireKey envelope now = .ok key) : key.status ≠ .revoked := by
  have hresolved := VerificationSpecification.resolve_of_requireKey h
  unfold requireKey at h
  simp only [hresolved] at h
  obtain ⟨_, hstatus, -⟩ := bind_eq_ok.mp h
  exact raiseIf_eq_ok.mp hstatus

private theorem trusts_of_verifyOffline {verifier : RuntimeAuthorizationVerifier}
    {envelope : SignedRuntimeAuthorization} {request : RouteRequest} {now : ClockReading}
    (h : verifier.verifyOffline envelope request now = .ok ()) :
    Trusts verifier envelope request.agentName := by
  obtain ⟨_, -, hrest⟩ := bind_eq_ok.mp h
  obtain ⟨_, htime, hrest⟩ := bind_eq_ok.mp hrest
  obtain ⟨key, hkey, hrest⟩ := bind_eq_ok.mp hrest
  obtain ⟨_, hsignature, hrest⟩ := bind_eq_ok.mp hrest
  obtain ⟨_, -, hrest⟩ := bind_eq_ok.mp hrest
  obtain ⟨_, hbinding, hprovenance⟩ := bind_eq_ok.mp hrest
  have hresolved := VerificationSpecification.resolve_of_requireKey hkey
  have hstatus := active_of_requireKey hkey
  have hprovenance := raiseIf_eq_ok.mp hprovenance
  obtain ⟨hissuer, haudience⟩ := trusted_of_verifyIdentityAndTime htime
  simp only [ne_eq, not_or, not_not] at hprovenance
  unfold TrustedRuntimeAuthorizationKeySet.resolve at hresolved
  have hkid : key.kid = points envelope.protected_.kid := by
    simpa using List.find?_some hresolved
  have hverifies : signatureVerifies envelope key = true := by
    simpa using raiseIf_eq_ok.mp hsignature
  exact
    { issuer := hissuer
      audience := haudience
      signed := ⟨key, List.mem_of_find?_eq_some hresolved, hkid, hstatus, hverifies⟩
      bound := not_not.mp (raiseIf_eq_ok.mp hbinding)
      policyDigest := hprovenance.2.2.1 }

end Trust

section Decisions

/-- The verifier that was built, under the names that are texts. -/
structure Represents (built : BuiltVerifier) (verifier : RuntimeAuthorizationVerifier) : Prop where
  keySet : verifier.keySet = built.keySet
  replayGuard : verifier.replayGuard = built.replayGuard.guard
  issuer : verifier.issuer = built.issuer.val
  audience : verifier.audience = built.audience.val
  agentBindings : ∀ name, verifier.agentBindings.lookup name = built.agentBindings.get? (points name)
  expectedPolicyId : verifier.expectedPolicyId = built.expectedPolicyId
  expectedPolicyVersion : verifier.expectedPolicyVersion = built.expectedPolicyVersion
  expectedPolicyDigest : verifier.expectedPolicyDigest = built.expectedPolicyDigest
  expectedControlCatalogId : verifier.expectedControlCatalogId = built.expectedControlCatalogId
  expectedControlCatalogVersion :
    verifier.expectedControlCatalogVersion = built.expectedControlCatalogVersion
  expectedControlCatalogDigest :
    verifier.expectedControlCatalogDigest = built.expectedControlCatalogDigest
  runtimeControl : verifier.runtimeControl = built.runtimeControl.map Prod.snd
  clockSkewSeconds : verifier.clockSkewSeconds = built.clockSkewSeconds.val

/-- The application holds what the start has left. -/
structure Holds (app : Application) (s : Started) : Prop where
  apiKeys : ∀ name key, app.apiKeys.lookup name = some key ↔
    (points name, PyValue.str (points key)) ∈ s.apiKeys
  maxRequestBodyBytes : app.maxRequestBodyBytes = s.maxRequestBodyBytes
  required : app.runtimeAuthorizationRequired = s.runtimeAuthorizationRequired
  verifier : Option.Rel Represents s.runtimeAuthorizationVerifier app.runtimeAuthorizationVerifier
  serviceVersion : app.serviceVersion.val = s.serviceVersion
  environment : app.environment.val = s.environment

variable [RedisLibraries] [JsonDecoder] [NumeralTables] [BytesDecoder] [KeyLibraries]
variable [PolicyLibraries] [Cryptography] [UnicodeTables] [BodyParser]

/-- Why a decision may leave a deployed service: the agent presented its key, and the
envelope names the configured parties, carries a signature of a trusted key and was let through
by runtime control before it was consumed in the shared keyspace. -/
structure Accounted (authorization : RuntimeAuthorizationSettings) (control : RuntimeControlSettings)
    (keySet : TrustedRuntimeAuthorizationKeySet) (apiKeys : DocumentFields.Fields)
    (bindings : AgentBindings) (scope : RouteScope) (es : List (Event Reply))
    (body : RouteRequestEnvelope) (envelope : SignedRuntimeAuthorization) : Prop where
  present : body.authorization = some envelope
  authenticated : ∃ key, scope.header "x-api-key" = some key ∧ key ≠ "" ∧
    (points body.request.agentName.val, PyValue.str (points key)) ∈ apiKeys
  issuer : envelope.claims.issuer.val = authorization.issuer.val
  audience : authorization.audience.val ∈ envelope.claims.audience.map Subtype.val
  policyDigest : envelope.claims.policy.policyDigest.val = authorization.expectedPolicyDigest
  signed : ∃ key ∈ keySet.keys, key.kid = points envelope.protected_.kid ∧
    key.status ≠ .revoked ∧ signatureVerifies envelope key = true
  bound : bindings.get? (points body.request.agentName.val) = some envelope.claims.subject.agentId
  allowed : ∃ reply snapshot ttl,
    [⟨.redisGet (control.redisKeyPrefix.val ++ envelope.claims.subject.agentId.str), reply⟩,
      ⟨.redisSet (authorization.replayKeyPrefix.val ++ envelope.claims.authorizationId.str) ttl,
        SetReply.set⟩] <:+: es ∧
    interpretReply control.store envelope.claims.subject.agentId.str reply =
      .ok (some snapshot) ∧
    Permits envelope.claims snapshot

omit [UnicodeTables] [BodyParser] in
/-- The store calls of a verification that passed on a deployed service. -/
theorem accounted_of_verify {environment : Environment} {settings : Settings}
    {authorization : RuntimeAuthorizationSettings} {control : RuntimeControlSettings} {url : String}
    {built : BuiltVerifier} {boot : List (Event StartupReply)} {s : Started} {scope : RouteScope}
    {es calls : List (Event Reply)} {body : RouteRequestEnvelope}
    {verifier : RuntimeAuthorizationVerifier} {envelope : SignedRuntimeAuthorization}
    {now : Datetime} {verified : VerifiedRuntimeAuthorization} {key : String}
    (guarded : Protected environment settings authorization control url built boot s)
    (represents : Represents built verifier) (present : body.authorization = some envelope)
    (presented : scope.header "x-api-key" = some key)
    (known : (points body.request.agentName.val, PyValue.str (points key)) ∈ s.apiKeys)
    (returned : Returns (verifier.verify envelope (toDomainRequest body.request) (.utc now)) calls
      verified)
    (part : calls <:+: es) :
    Accounted authorization control built.keySet s.apiKeys built.agentBindings scope es body
      envelope := by
  obtain ⟨hoffline, ⟨read, hallowed, rfl⟩, -⟩ := returns_verify.mp returned
  have htrusts := trusts_of_verifyOffline hoffline
  have hassembled := guarded.assembled
  obtain ⟨-, -, -, -, -, hpairs⟩ := requiredApiKeys_eq_ok.mp guarded.apiKeys
  obtain ⟨-, text, htext, hsome⟩ := isKeyPair_iff.mp (hpairs _ known)
  unfold Allowed at hallowed
  rw [represents.runtimeControl, hassembled.runtimeControl] at hallowed
  obtain ⟨reply, snapshot, rfl, hread, hpermits⟩ := hallowed
  rw [represents.replayGuard, hassembled.replayGuard] at part
  exact
    { present := present
      authenticated := ⟨key, presented, by rintro rfl; exact hsome (PyValue.str.inj htext).symm, known⟩
      issuer := by rw [htrusts.issuer, represents.issuer, hassembled.issuer]
      audience := by
        rw [← hassembled.audience, ← represents.audience]
        exact htrusts.audience
      policyDigest := by
        rw [htrusts.policyDigest, represents.expectedPolicyDigest, hassembled.policyDigest]
      signed := represents.keySet ▸ htrusts.signed
      bound := (represents.agentBindings _).symm.trans htrusts.bound
      allowed := ⟨reply, snapshot, _, part, hread, hpermits⟩ }

theorem deployed_decision_accounted {environment : Environment} {settings : Settings}
    {boot : List (Event StartupReply)} {s : Started} {app : Application} {scope : RouteScope}
    {es : List (Event Reply)} {decision : ModelRouteDecision}
    (configured : environment.settings = some settings) (deployed : settings.appEnv.deployed = true)
    (started : Returns (lifespan environment) boot s) (holds : Holds app s)
    (h : Completes (postRoute app scope) es (.decision decision)) :
    ∃ authorization control url verifier body envelope,
      Protected environment settings authorization control url verifier boot s ∧
        Accounted authorization control verifier.keySet s.apiKeys verifier.agentBindings scope es
          body envelope := by
  obtain ⟨authorization, control, url, built, hprotected⟩ :=
    protected_of_lifespan configured deployed started
  obtain ⟨before, handled, useCase, body, correlationId, rfl, -, hreturned⟩ := returned_of_decision h
  obtain ⟨admitted, routed, verified, selected, rfl, hadmitted, -⟩ := returns_route hreturned
  obtain ⟨rest, rfl, hkey, hauthorized⟩ := returns_admitRequest hadmitted
  cases hauthorized with
  | notRequired disabled absent =>
    rw [holds.required, hprotected.required] at disabled
    cases disabled
  | @verified verifier envelope now calls verified required accepted =>
    refine ⟨authorization, control, url, built, body, envelope, hprotected, ?_⟩
    obtain ⟨key, hfound, hpresented⟩ := authenticate_eq_ok hkey
    have hverifier := holds.verifier
    rw [hprotected.verified, required.configured] at hverifier
    cases hverifier with
    | some represents =>
      apply accounted_of_verify hprotected represents required.present hpresented
        ((holds.apiKeys _ _).mp hfound) accepted
      exact ⟨before ++ [⟨agentLimit scope body, true⟩, ⟨.utcNow, now⟩], routed, by simp⟩

end Decisions

namespace Deployed

open CanonicalJson (Json)
open AuthorizedDecisions.Deployed (bodyBytes request route parser isDecision exists_decision)
open KeySetDocuments.Deployed (documentOf entryOf keyLibraries)
open RoutingPolicyLoader.Deployed (baseline libraries load_policyFile policyFile policyOf)
open RoutingSpecification (ports)
open RoutingSpecification.Deployed (noon useCase)
open StartupDocuments.Deployed (asciiNumerals)
open VerificationSpecification.Deployed (afterNoon claims controlStore digest document envelope
  genuine key snapshotText verifier widest_skew)

def keySetDocument : PyValue := documentOf [entryOf key.kid .active]

/-- The same document as it stands in the file. -/
def keySetJson : Json :=
  .obj [("schema_version", .str "1.0"), ("generation", .int 1),
    ("keys", .arr [.obj [("kid", .str (String.ofList (key.kid.map Char.ofNat))),
      ("status", .str "active"), ("not_before", .str "2026-01-01T12:00:00Z"),
      ("verify_until", .str "2026-01-01T12:15:00Z"),
      ("jwk", .obj [("kty", .str "OKP"), ("crv", .str "Ed25519"),
        ("x", .str (String.ofList (List.replicate 43 'A')))])]])]

def keySetBytes : List UInt8 := keySetJson.render.map fun c => c.toNat.toUInt8

@[reducible] def bytesDecoder : BytesDecoder :=
  ⟨fun raw => if raw = keySetBytes then .ok keySetDocument else .error .jsonDecodeError⟩

@[reducible] def redis : RedisLibraries where
  urlparse url := if url = "rediss://cache" then some ("rediss", some "cache") else none
  installed := true
  fromUrl _ := true

def apiKeysText : String := "\x7b\x22analyst\x22: \x22analyst-key\x22\x7d"

def apiKeys : DocumentFields.Fields := [(points "analyst", .str (points "analyst-key"))]

def bindingsText : String :=
  "\x7b\x22analyst\x22: \x2200000000-0000-0000-0000-000000000002\x22\x7d"

def bindings : AgentBindings := ⟨[(points "analyst", claims.subject.agentId)], by decide⟩

@[reducible] def decoder : JsonDecoder :=
  ⟨fun raw =>
    if raw = apiKeysText then .ok (.dict apiKeys)
    else if raw = bindingsText then
      .ok (.dict [(points "analyst", .str (points "00000000-0000-0000-0000-000000000002"))])
    else if raw = snapshotText then .ok document
    else .error .jsonDecodeError⟩

theorem replay_given : "replay:" ≠ "" := by decide

private theorem control_given : "control:" ≠ "" := by decide

private theorem version_given : "1.0.0" ≠ "" := by decide

private theorem maxSnapshotBytes_inRange : 512 ≤ 4096 ∧ 4096 ≤ 65536 := by decide

private theorem isEvidenceIdentifier_production :
    ViolationContract.isEvidenceIdentifier "production" = true := by decide

private theorem minute_inRange : 0 < (Doubles.Double.nearest 60).value ∧
    (Doubles.Double.nearest 60).value ≤ 86400 := by
  decide +kernel

def settings : Settings :=
  { appEnv := .production
    rateLimitMaxRequests := ⟨60, by decide⟩
    rateLimitPerIpMaxRequests := ⟨600, by decide⟩
    rateLimitWindowSeconds := ⟨.nearest 60, minute_inRange⟩
    rateLimitMaxTrackedKeys := ⟨100000, by decide⟩
    redisUrl := ⟨some "rediss://cache", by decide⟩
    maxRequestBodyBytes := ⟨max 1 bodyBytes.length, le_max_left _ _⟩ }

def authorization : RuntimeAuthorizationSettings :=
  { required := true
    issuer := ⟨"verifiable-ai-governance:production", by decide⟩
    audience := ⟨"policy-model-router", by decide⟩
    trustedKeySetPath := some "keys.json"
    agentBindingsJson := bindingsText
    expectedPolicyId := ⟨"baseline-governance-policy", by decide⟩
    expectedPolicyVersion := ⟨"1.0.0", version_given⟩
    expectedPolicyDigest := digest
    expectedControlCatalogId := ⟨"verifiable-ai-governance-baseline", by decide⟩
    expectedControlCatalogVersion := ⟨"1.0.0", version_given⟩
    expectedControlCatalogDigest := digest
    clockSkewSeconds := ⟨60, by decide⟩
    maxKeySetBytes := ⟨262144, by decide⟩
    replayKeyPrefix := ⟨"replay:", replay_given⟩
    replayMaxEntries := ⟨10000, by decide⟩ }

def control : RuntimeControlSettings :=
  { required := true
    redisKeyPrefix := ⟨"control:", control_given⟩
    maxSnapshotBytes := ⟨4096, maxSnapshotBytes_inRange⟩ }

def environment : Environment :=
  { settings := some settings
    runtimeAuthorizationSettings := some authorization
    runtimeControlSettings := some control
    apiKeys := some apiKeysText
    serviceVersion := "1.0.0" }

def built : BuiltVerifier :=
  { keySet := ⟨1, [key]⟩
    replayGuard := .redis ⟨"rediss://cache"⟩ "replay:" replay_given
    issuer := authorization.issuer
    audience := authorization.audience
    agentBindings := bindings
    expectedPolicyId := authorization.expectedPolicyId
    expectedPolicyVersion := authorization.expectedPolicyVersion
    expectedPolicyDigest := authorization.expectedPolicyDigest
    expectedControlCatalogId := authorization.expectedControlCatalogId
    expectedControlCatalogVersion := authorization.expectedControlCatalogVersion
    expectedControlCatalogDigest := authorization.expectedControlCatalogDigest
    runtimeControl := some (⟨"rediss://cache"⟩, controlStore)
    clockSkewSeconds := authorization.clockSkewSeconds
    someBinding := by simp [bindings] }

def limiter (maxRequests : Positive) : RateLimiter :=
  .redis ⟨"rediss://cache"⟩ ⟨maxRequests.val, settings.rateLimitWindowSeconds.val,
    settings.rateLimitWindowSeconds.property⟩

def started : Started :=
  { useCase := ⟨@policyOf genuine baseline, "1.0.0", "production"⟩
    apiKeys := apiKeys
    maxRequestBodyBytes := settings.maxRequestBodyBytes.val
    runtimeAuthorizationRequired := true
    runtimeAuthorizationVerifier := some built
    rateLimiter := limiter settings.rateLimitMaxRequests
    ipRateLimiter := limiter settings.rateLimitPerIpMaxRequests
    serviceVersion := "1.0.0"
    environment := "production" }

def boot : List (Event StartupReply) :=
  [⟨.readPolicyFile, policyFile baseline⟩, ⟨.readKeySet "keys.json", KeyFile.content keySetBytes⟩,
    ⟨.ping .replayGuard, PingReply.returned⟩, ⟨.ping .runtimeControl, PingReply.returned⟩,
    ⟨.ping (.rateLimiter .perAgent), PingReply.returned⟩,
    ⟨.ping (.rateLimiter .perIp), PingReply.returned⟩]

private theorem load_keySetBytes : @loadTrustedKeySet bytesDecoder keyLibraries 262144
    (.content keySetBytes) =
    .ok ⟨1, [key]⟩ := by
  have hsize : ¬ 262144 < keySetBytes.length := by decide +kernel
  have hdecode : bytesDecoder.loads keySetBytes = .ok keySetDocument := if_pos rfl
  have hparse : (@parseKeySet keyLibraries keySetDocument).mapError keySetException = .ok ⟨1, [key]⟩ :=
    rfl
  generalize keySetBytes = raw at hsize hdecode
  unfold loadTrustedKeySet
  simp only [raiseIf, if_neg hsize, hdecode, hparse]
  rfl

private theorem builds : Returns
    (@buildRuntimeAuthorizationVerifier redis decoder asciiNumerals bytesDecoder
      keyLibraries authorization settings.appEnv settings.redisUrl.val control)
    [⟨.readKeySet "keys.json", KeyFile.content keySetBytes⟩] (some built) := by
  refine returns_compute_bind.mpr ⟨(), rfl, ?_⟩
  refine returns_compute_bind.mpr ⟨(), requireDigest_eq_ok.mpr digest.property, ?_⟩
  refine returns_compute_bind.mpr ⟨(), requireDigest_eq_ok.mpr digest.property, ?_⟩
  refine returns_perform_bind.mpr ⟨KeyFile.content keySetBytes, [], rfl, ?_⟩
  refine returns_compute_bind.mpr ⟨⟨1, [key]⟩, load_keySetBytes, ?_⟩
  refine returns_compute_bind.mpr ⟨built, rfl, ?_⟩
  exact (returns_pure _ _).mpr ⟨rfl, rfl⟩

theorem starts : Returns (@lifespan redis decoder asciiNumerals bytesDecoder keyLibraries libraries
    genuine environment) boot started := by
  refine returns_compute_bind.mpr ⟨settings, rfl, ?_⟩
  refine returns_perform_bind.mpr ⟨policyFile baseline, _, rfl, ?_⟩
  refine returns_compute_bind.mpr
    ⟨@policyOf genuine baseline, mapError_eq_ok.mpr (@load_policyFile genuine baseline (.inl rfl)), ?_⟩
  refine returns_compute_bind.mpr ⟨apiKeys, rfl, ?_⟩
  refine returns_compute_bind.mpr ⟨authorization, rfl, ?_⟩
  refine returns_compute_bind.mpr ⟨control, rfl, ?_⟩
  refine returns_bind.mpr ⟨_, _, some built, rfl, builds, ?_⟩
  refine returns_bind.mpr ⟨_, _, (), rfl, (returns_pingVerifier rfl rfl).mpr rfl, ?_⟩
  refine returns_compute_bind.mpr ⟨limiter settings.rateLimitMaxRequests, rfl, ?_⟩
  refine returns_compute_bind.mpr ⟨limiter settings.rateLimitPerIpMaxRequests, rfl, ?_⟩
  refine returns_bind.mpr ⟨_, _, (), rfl, returns_probe.mpr rfl, ?_⟩
  refine returns_bind.mpr ⟨_, _, (), rfl, returns_probe.mpr rfl, ?_⟩
  exact (returns_pure _ _).mpr ⟨rfl, rfl⟩

def running : RuntimeAuthorizationVerifier :=
  verifier (.redis "replay:" replay_given) (some controlStore) 60 widest_skew

def application : Application :=
  { apiKeys := AList.singleton "analyst" "analyst-key"
    maxRequestBodyBytes := max 1 bodyBytes.length
    runtimeAuthorizationRequired := true
    runtimeAuthorizationVerifier := some running
    serviceVersion := AuthorizedDecisions.Deployed.application.serviceVersion
    environment := ⟨"production", isEvidenceIdentifier_production⟩ }

theorem represents : Represents built running where
  keySet := rfl
  replayGuard := rfl
  issuer := rfl
  audience := rfl
  agentBindings name := by
    by_cases hname : name = "analyst"
    · subst hname
      rfl
    · have hmissing : name ∉ running.agentBindings := by
        simpa [running, verifier, AList.mem_keys] using hname
      have hunbound : points name ∉ built.agentBindings.keys := by
        simpa [built, bindings, OrderedDict.keys] using fun h => hname (points_inj h)
      rw [AList.lookup_eq_none.mpr hmissing, OrderedDict.get?_eq_none.mpr hunbound]
  expectedPolicyId := rfl
  expectedPolicyVersion := rfl
  expectedPolicyDigest := rfl
  expectedControlCatalogId := rfl
  expectedControlCatalogVersion := rfl
  expectedControlCatalogDigest := rfl
  runtimeControl := rfl
  clockSkewSeconds := rfl

theorem holds : Holds application started where
  apiKeys name key := by
    constructor
    · intro h
      by_cases hname : name = "analyst"
      · subst hname
        cases h
        exact List.mem_singleton_self _
      · have hmissing : name ∉ application.apiKeys := by
          simpa [application, AList.mem_keys] using hname
        rw [AList.lookup_eq_none.mpr hmissing] at h
        cases h
    · intro h
      obtain ⟨hname, hkey⟩ := Prod.mk.inj (List.mem_singleton.mp h)
      rw [points_inj hname, points_inj (PyValue.str.inj hkey)]
      rfl
  maxRequestBodyBytes := rfl
  required := rfl
  verifier := .some represents
  serviceVersion := rfl
  environment := rfl

def answer : (call : Call) → Reply call
  | .utcNow => afterNoon 1
  | .redisGet _ => .str snapshotText
  | call => ports useCase (fun _ => some true) "id-1" noon call

def handler : Async Call Reply (Except PyException (@Response genuine)) :=
  (@respond asciiTables genuine application (@RouteEndpoint.route asciiTables genuine decoder
    application route useCase (.authorized ⟨request, envelope⟩) "corr-1")).run

theorem handler_decides : ∃ es decision,
    Completes handler es (.ok (@Response.decision genuine decision)) := by
  have hdecides : @isDecision genuine (handler.run (fun call s => (answer call, s)) ()).1 = true := by
    decide +kernel
  have hcompletes := completes_run (fun call s => (answer call, s)) handler ()
  obtain ⟨decision, hresult⟩ := @exists_decision genuine _ hdecides
  rw [hresult] at hcompletes
  exact ⟨_, decision, hcompletes⟩

theorem deployed_decision_accounted_deployed :
    ∃ es authorization control url verifier body sent,
      @Protected redis decoder asciiNumerals bytesDecoder keyLibraries libraries genuine environment
        settings authorization control url verifier boot started ∧
      @Accounted decoder genuine authorization control verifier.keySet started.apiKeys
        verifier.agentBindings route es body sent := by
  obtain ⟨es, decision, hhandler⟩ := handler_decides
  have hcompletes := @completes_of_respond asciiTables genuine decoder parser application route es
    "corr-1" bodyBytes _ useCase _ ((returns_pure _ _).mpr ⟨rfl, rfl⟩) rfl (by decide)
    (le_max_right _ _) (if_pos rfl) hhandler
  exact ⟨_, @deployed_decision_accounted redis decoder asciiNumerals bytesDecoder keyLibraries libraries
    genuine asciiTables parser _ _ _ _ _ _ _ _ rfl rfl starts holds hcompletes⟩

end Deployed

end PolicyModelRouter.StartedServices
