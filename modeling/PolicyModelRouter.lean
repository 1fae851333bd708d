import PolicyModelRouter.AwaitingPrograms
import PolicyModelRouter.InterleavedPrograms
import PolicyModelRouter.DigitStrings
import PolicyModelRouter.NumeralOrder
import PolicyModelRouter.CanonicalJson
import PolicyModelRouter.DecimalArithmetic
import PolicyModelRouter.DecimalRounding
import PolicyModelRouter.PythonText
import PolicyModelRouter.UtcTimestamps
import PolicyModelRouter.Uuids
import PolicyModelRouter.Base64Text
import PolicyModelRouter.GovernedVocabularies
import PolicyModelRouter.RoutingCatalog
import PolicyModelRouter.CostEstimates
import PolicyModelRouter.EliminatoryConstraints
import PolicyModelRouter.RouterCalls
import PolicyModelRouter.ModelRouting
import PolicyModelRouter.RoutingSpecification
import PolicyModelRouter.OrderedChecks
import PolicyModelRouter.RoutingRuns
import PolicyModelRouter.AuthorizationContract
import PolicyModelRouter.WireContracts
import PolicyModelRouter.RoutingPolicyLoader
import PolicyModelRouter.ViolationContract
import PolicyModelRouter.ViolationEvidence
import PolicyModelRouter.TrustedKeys
import PolicyModelRouter.RuntimeControl
import PolicyModelRouter.ReplayGuards
import PolicyModelRouter.AuthorizationVerifier
import PolicyModelRouter.RouteEndpoint
import PolicyModelRouter.VerificationTraces
import PolicyModelRouter.RouteRuns
import PolicyModelRouter.HandlerRuns
import PolicyModelRouter.VerificationSpecification
import PolicyModelRouter.ReplicatedSingleUse
import PolicyModelRouter.SequentialSingleUse
import PolicyModelRouter.RoutingVariations
import PolicyModelRouter.AuthorizedDecisions
import PolicyModelRouter.ServedPolicies
import PolicyModelRouter.RelaxedRequests
import PolicyModelRouter.AgentAuthentication
import PolicyModelRouter.BodyAdmission
import PolicyModelRouter.RateLimitKeys
import PolicyModelRouter.DenialRuns
import PolicyModelRouter.DenialEvidence
import PolicyModelRouter.StoreFrames
import PolicyModelRouter.SnapshotPayloads
import PolicyModelRouter.KillSwitchRuns
import PolicyModelRouter.PolicyReload
import PolicyModelRouter.RouterServer
import PolicyModelRouter.ReloadRaces
import PolicyModelRouter.DecidingPolicies
import PolicyModelRouter.OrderedDicts
import PolicyModelRouter.FixedWindows
import PolicyModelRouter.InMemoryRateLimits
import PolicyModelRouter.RedisRateLimits
import PolicyModelRouter.RateLimiterBackends
import PolicyModelRouter.RuntimeControlVerdicts
import PolicyModelRouter.Base64Encodings
import PolicyModelRouter.UnpaddedEncodings
import PolicyModelRouter.KeySetDocuments
import PolicyModelRouter.CanonicalClaims
import PolicyModelRouter.SignedBudgets
import PolicyModelRouter.ExactCeilings
import PolicyModelRouter.DeclaredLengths
import PolicyModelRouter.MemoryGuardRuns
import PolicyModelRouter.IdentifierGrammars
import PolicyModelRouter.AnnotatedPrograms
import PolicyModelRouter.ObservedRequests
import PolicyModelRouter.RequestRecords
import PolicyModelRouter.RecordedVerdicts
import PolicyModelRouter.RecordingSystems
import PolicyModelRouter.ObservedServer
import PolicyModelRouter.UuidTexts
import PolicyModelRouter.StartupDocuments
import PolicyModelRouter.Startup
import PolicyModelRouter.StartedServices
import PolicyModelRouter.ReplayGuardBackends
import PolicyModelRouter.ThrottledServer
import PolicyModelRouter.InternalErrors
import PolicyModelRouter.SharedRateLimits
