import PolicyModelRouter.AuthorizationContract
import PolicyModelRouter.RouterCalls

/-!
# Runtime violation evidence

The evidence event of a denial as validation leaves it. Validation strips white
space from every text before it checks the length, so the constraint of a text
field is about the stripped text.
-/

namespace PolicyModelRouter.ViolationContract
open AuthorizationContract CanonicalJson DigitStrings GovernedVocabularies PythonText RouterCalls
open UtcTimestamps Uuids

def isEvidenceIdentifier (s : String) : Bool := isStripped 1 200 s

def isEvidenceCode (s : String) : Bool :=
  hasShape isIdentifierEdge (fun c => isIdentifierEdge c || c == '_') 1 100 s

def isEvidenceModelGroup (s : String) : Bool :=
  hasShape isIdentifierEdge isIdentifierChar 1 100 s

abbrev EvidenceIdentifier := { s : String // isEvidenceIdentifier s = true }

abbrev EvidenceCode := { s : String // isEvidenceCode s = true }

abbrev EvidenceModelGroup := { s : String // isEvidenceModelGroup s = true }

def validated (p : String → Bool) (s : String) : Except PyException { s : String // p s = true } :=
  if h : p (strip s) = true then .ok ⟨strip s, h⟩ else .error .validation

def validatedOption (p : String → Bool) :
    Option String → Except PyException (Option { s : String // p s = true })
  | none => .ok none
  | some s => (validated p s).map some

inductive RuntimeViolationCategory where
  | authorization
  | replay
  | requestBinding
  | governanceProvenance
  | modelScope
  deriving DecidableEq

def RuntimeViolationCategory.value : RuntimeViolationCategory → String
  | .authorization => "authorization"
  | .replay => "replay"
  | .requestBinding => "request_binding"
  | .governanceProvenance => "governance_provenance"
  | .modelScope => "model_scope"

/-- How far the supplied authorization passed the trust boundary. -/
inductive RuntimeViolationAuthorizationState where
  | absent
  | present
  | verified
  deriving DecidableEq

def RuntimeViolationAuthorizationState.value : RuntimeViolationAuthorizationState → String
  | .absent => "absent"
  | .present => "present"
  | .verified => "verified"

@[ext] structure RuntimeViolationRequestContext where
  workflowId : EvidenceIdentifier
  taskId : EvidenceIdentifier
  agentName : EvidenceIdentifier
  workload : EvidenceIdentifier
  deriving DecidableEq

@[ext] structure RuntimeViolationAuthorizationContext where
  state : RuntimeViolationAuthorizationState
  authorizationId : Option UUID
  keyId : Option EvidenceIdentifier
  signingDigest : Option Digest
  scopeDigest : Option Digest
  absentCarriesNone : state = .absent →
    authorizationId = none ∧ keyId = none ∧ signingDigest = none ∧ scopeDigest = none
  presentCarriesAll : state ≠ .absent →
    authorizationId ≠ none ∧ keyId ≠ none ∧ signingDigest ≠ none ∧ scopeDigest ≠ none

/-- The category, the trust state and the selected group of an event fit together. -/
structure ConsistentSemantics (category : RuntimeViolationCategory)
    (state : RuntimeViolationAuthorizationState) (group : Option EvidenceModelGroup) : Prop where
  envelopeRequired : category ≠ .authorization → state ≠ .absent
  scopeVerified : category = .modelScope → state = .verified ∧ group ≠ none
  groupOnlyForScope : category ≠ .modelScope → group = none

instance (category : RuntimeViolationCategory) (state : RuntimeViolationAuthorizationState)
    (group : Option EvidenceModelGroup) : Decidable (ConsistentSemantics category state group) :=
  decidable_of_iff ((category ≠ .authorization → state ≠ .absent) ∧
    (category = .modelScope → state = .verified ∧ group ≠ none) ∧
    (category ≠ .modelScope → group = none))
    ⟨fun h => ⟨h.1, h.2.1, h.2.2⟩,
      fun h => ⟨h.envelopeRequired, h.scopeVerified, h.groupOnlyForScope⟩⟩

/-- Schema version, source service and enforcement action are fixed by the contract. -/
@[ext] structure RuntimeViolationEvent where
  eventId : UUID
  occurredAt : Datetime
  serviceVersion : EvidenceIdentifier
  environment : EvidenceIdentifier
  correlationId : EvidenceIdentifier
  category : RuntimeViolationCategory
  code : EvidenceCode
  request : RuntimeViolationRequestContext
  authorization : RuntimeViolationAuthorizationContext
  selectedModelGroup : Option EvidenceModelGroup
  semantics : ConsistentSemantics category authorization.state selectedModelGroup

def RuntimeViolationRequestContext.toJson (context : RuntimeViolationRequestContext) : Json :=
  .obj [("workflow_id", .str context.workflowId), ("task_id", .str context.taskId),
    ("agent_name", .str context.agentName), ("workload", .str context.workload)]

def orNull {α : Type} (encode : α → String) (x : Option α) : Json :=
  (x.map fun a => .str (encode a)).getD .null

def RuntimeViolationAuthorizationContext.toJson (context : RuntimeViolationAuthorizationContext) :
    Json :=
  .obj [("state", .str context.state.value),
    ("authorization_id", orNull UUID.str context.authorizationId),
    ("key_id", orNull Subtype.val context.keyId),
    ("signing_digest", orNull Subtype.val context.signingDigest),
    ("scope_digest", orNull Subtype.val context.scopeDigest)]

namespace RuntimeViolationEvent

def toJson (event : RuntimeViolationEvent) : Json :=
  .obj [("schema_version", .str "1.0"), ("event_id", .str event.eventId.str),
    ("occurred_at", .str (isoformat event.occurredAt)),
    ("source_service", .str "policy-model-router"), ("service_version", .str event.serviceVersion),
    ("environment", .str event.environment), ("correlation_id", .str event.correlationId),
    ("category", .str event.category.value), ("code", .str event.code),
    ("enforcement_action", .str "blocked"), ("request", event.request.toJson),
    ("authorization", event.authorization.toJson),
    ("selected_model_group", orNull Subtype.val event.selectedModelGroup)]

def canonicalBytes (event : RuntimeViolationEvent) : ByteArray := canonicalJsonBytes event.toJson

def digest [Cryptography] (event : RuntimeViolationEvent) : String := sha256Hex event.canonicalBytes

end RuntimeViolationEvent

/-- An event with the digest of its canonical bytes. -/
structure RuntimeViolationEnvelope [Cryptography] where
  event : RuntimeViolationEvent
  eventDigest : Digest
  matching : event.digest = eventDigest

theorem RuntimeViolationCategory.value_inj {a b : RuntimeViolationCategory}
    (h : a.value = b.value) : a = b := by
  cases a <;> cases b <;> first | rfl | exact absurd h (by decide)

theorem RuntimeViolationAuthorizationState.value_inj {a b : RuntimeViolationAuthorizationState}
    (h : a.value = b.value) : a = b := by
  cases a <;> cases b <;> first | rfl | exact absurd h (by decide)

theorem faithful_orNull {α : Type} {encode : α → String}
    (h : ∀ {a b}, encode a = encode b → a = b) : Faithful (orNull encode) :=
  Faithful.option (Faithful.str h) (by simp)

theorem faithful_optionalText {p : String → Prop} :
    Faithful (orNull fun s : { s : String // p s } => s.val) :=
  faithful_orNull Subtype.ext

private theorem faithful_requestContext : Faithful RuntimeViolationRequestContext.toJson := by
  refine Faithful.obj ["workflow_id", "task_id", "agent_name", "workload"] (by decide)
    (fun _ => rfl) (by simp) ?_
  intro a b h
  simp only [List.forall₂_cons, same_str] at h
  obtain ⟨h₁, h₂, h₃, h₄, -⟩ := h
  exact RuntimeViolationRequestContext.ext (Subtype.ext h₁) (Subtype.ext h₂) (Subtype.ext h₃)
    (Subtype.ext h₄)

private theorem faithful_authorizationContext :
    Faithful RuntimeViolationAuthorizationContext.toJson := by
  refine Faithful.obj ["state", "authorization_id", "key_id", "signing_digest", "scope_digest"]
    (by decide) (fun _ => rfl) ?_ ?_
  · intro context
    simp only [List.forall_mem_cons, wellFormed_str, (faithful_orNull str_inj).wellFormed,
      faithful_optionalText.wellFormed, true_and]
    simp
  · intro a b h
    simp only [List.forall₂_cons, same_str] at h
    obtain ⟨h₁, h₂, h₃, h₄, h₅, -⟩ := h
    exact RuntimeViolationAuthorizationContext.ext
      (RuntimeViolationAuthorizationState.value_inj h₁) ((faithful_orNull str_inj).determines h₂)
      (faithful_optionalText.determines h₃) (faithful_optionalText.determines h₄)
      (faithful_optionalText.determines h₅)

private theorem faithful_event : Faithful RuntimeViolationEvent.toJson := by
  refine Faithful.obj ["schema_version", "event_id", "occurred_at", "source_service",
    "service_version", "environment", "correlation_id", "category", "code", "enforcement_action",
    "request", "authorization", "selected_model_group"] (by decide) (fun _ => rfl) ?_ ?_
  · intro event
    simp only [List.forall_mem_cons, wellFormed_str, faithful_requestContext.wellFormed,
      faithful_authorizationContext.wellFormed, faithful_optionalText.wellFormed, true_and]
    simp
  · intro a b h
    simp only [List.forall₂_cons, same_str, str_eq_str_iff] at h
    obtain ⟨-, h₁, h₂, -, h₃, h₄, h₅, h₆, h₇, -, h₈, h₉, h₁₀, -⟩ := h
    exact RuntimeViolationEvent.ext h₁ (isoformat_inj h₂) (Subtype.ext h₃) (Subtype.ext h₄)
      (Subtype.ext h₅) (RuntimeViolationCategory.value_inj h₆) (Subtype.ext h₇)
      (faithful_requestContext.determines h₈) (faithful_authorizationContext.determines h₉)
      (faithful_optionalText.determines h₁₀)

private theorem canonicalBytes_eq_iff {a b : RuntimeViolationEvent} :
    a.canonicalBytes = b.canonicalBytes ↔ a = b :=
  canonicalJsonBytes_eq_iff.trans faithful_event.canonicalText_eq_iff

/-- Canonical bytes are unambiguous: signed bytes for the signed records, evidence bytes for
events, and in general for values up to the order their fields were inserted in. -/
theorem canonical_bytes_unambiguous :
    (∀ envelope other : SignedRuntimeAuthorization,
      envelope.signingBytes = other.signingBytes ↔
        envelope.protected_ = other.protected_ ∧ envelope.claims = other.claims) ∧
    (∀ event other : RuntimeViolationEvent,
      event.canonicalBytes = other.canonicalBytes ↔ event = other) ∧
    (∀ value other : { value : Json // value.WellFormed },
      canonicalJsonBytes value.val = canonicalJsonBytes other.val ↔ value.val.Same other.val) ∧
    ∀ fields fields' : List (String × Json), (Json.obj fields).WellFormed → fields.Perm fields' →
      canonicalJsonBytes (.obj fields) = canonicalJsonBytes (.obj fields') := by
  refine ⟨?_, ?_, ?_, ?_⟩
  · intro envelope other
    rw [signingBytes_eq_iff, signedPart, signedPart, Prod.mk.injEq]
  · intro event other
    exact canonicalBytes_eq_iff
  · intro value other
    rw [canonicalJsonBytes_eq_iff, canonicalText_eq_iff value.property other.property]
  · intro fields fields' hfields hperm
    exact canonicalJsonBytes_eq_iff.mpr (canonicalText_eq_of_perm hfields hperm)

/-- Two insertion orders of one object. -/
theorem canonical_bytes_unambiguous_swapped :
    canonicalJsonBytes (.obj [("b", .int 1), ("a", .null)]) =
      canonicalJsonBytes (.obj [("a", .null), ("b", .int 1)]) :=
  canonical_bytes_unambiguous.2.2.2 _ _ ⟨by decide, trivial, trivial, trivial⟩ (List.Perm.swap _ _ _)

end PolicyModelRouter.ViolationContract
