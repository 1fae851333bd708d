import PolicyModelRouter.AuthorizedDecisions
import PolicyModelRouter.DenialRuns
import PolicyModelRouter.StrippedTexts

/-!
# The evidence of a denial

The evidence of a denial is built from the state the handler left. It states no more trust
than the cause of the denial gives, and it repeats the denied request where stripping
changes nothing.
-/

namespace PolicyModelRouter.DenialEvidence
open AuthorizationContract AuthorizationVerifier AwaitingPrograms DenialRuns DigitStrings
open GovernedVocabularies HandlerRuns OrderedChecks PythonText RouteEndpoint RouteRuns RouterCalls
open RoutingCatalog RuntimeControl StrippedTexts TrustedKeys UtcTimestamps Uuids VerificationTraces
open ViolationContract ViolationEvidence WireContracts

theorem validated_eq_ok {p : String → Bool} {s : String} {t : { s : String // p s = true }} :
    validated p s = .ok t ↔ t.val = strip s := by
  unfold validated
  split
  · rename_i h
    constructor
    · rintro ⟨⟩
      rfl
    · intro ht
      exact congrArg Except.ok (Subtype.ext ht.symm)
  · rename_i h
    constructor
    · rintro ⟨⟩
    · intro ht
      exact absurd (ht ▸ t.property) h

theorem validatedOption_eq_ok {p : String → Bool} {s : Option String}
    {t : Option { s : String // p s = true }} :
    validatedOption p s = .ok t ↔ t.map Subtype.val = s.map strip := by
  cases s with
  | none => cases t <;> simp [validatedOption]
  | some s =>
    cases t with
    | none => cases h : validated p s <;> simp [validatedOption, h, Except.map]
    | some t =>
      simp only [validatedOption, Option.map_some, Option.some.injEq, ← validated_eq_ok]
      cases h : validated p s <;> simp [Except.map]

section Records

variable [Cryptography]

structure Records (code : DenialCode) (request : RouteRequest)
    (authorization : Option SignedRuntimeAuthorization) (verified : Bool) (correlationId : String)
    (selectedModelGroup : Option String) (event : RuntimeViolationEvent) : Prop where
  workflowId : event.request.workflowId.val = strip request.workflowId
  taskId : event.request.taskId.val = strip request.taskId
  agentName : event.request.agentName.val = strip request.agentName
  workload : event.request.workload.val = strip request.workload.value
  authorization : authorizationContext authorization verified = .ok event.authorization
  correlationId : event.correlationId.val = strip correlationId
  category : event.category = violationCategory code
  group : event.selectedModelGroup.map Subtype.val = selectedModelGroup.map strip

private theorem records_of_build {code : DenialCode} {request : RouteRequest}
    {authorization : Option SignedRuntimeAuthorization} {verified : Bool}
    {correlationId serviceVersion environment : String} {selectedModelGroup : Option String}
    {es : List (Event Reply)} {violation : RuntimeViolationEnvelope}
    (h : Returns (buildRuntimeViolation code request authorization verified correlationId
      serviceVersion environment selectedModelGroup) es violation) :
    Records code request authorization verified correlationId selectedModelGroup violation.event := by
  unfold buildRuntimeViolation at h
  obtain ⟨_, _, occurredAt, -, -, h₁⟩ := returns_bind.mp h
  obtain ⟨_, _, context, -, hcontext, h₂⟩ := returns_bind.mp h₁
  obtain ⟨_, _, eventId, -, -, h₃⟩ := returns_bind.mp h₂
  obtain ⟨_, _, event, -, hevent, hfrom⟩ := returns_bind.mp h₃
  have hcontext := ((returns_compute _ _).mp hcontext).2
  have hevent := ((returns_compute _ _).mp hevent).2
  have hfrom := ((returns_compute _ _).mp hfrom).2
  unfold fromEvent at hfrom
  obtain ⟨_, -, hsame⟩ := bind_eq_ok.mp hfrom
  split at hsame
  swap
  · cases hsame
  cases hsame
  unfold violationEvent at hevent
  obtain ⟨fields, hrequest, hevent⟩ := bind_eq_ok.mp hevent
  obtain ⟨_, -, hevent⟩ := bind_eq_ok.mp hevent
  obtain ⟨_, -, hevent⟩ := bind_eq_ok.mp hevent
  obtain ⟨correlation, hcorrelation, hevent⟩ := bind_eq_ok.mp hevent
  obtain ⟨_, -, hevent⟩ := bind_eq_ok.mp hevent
  obtain ⟨group, hgroup, hevent⟩ := bind_eq_ok.mp hevent
  split at hevent
  swap
  · cases hevent
  cases hevent
  unfold requestContext at hrequest
  obtain ⟨workflowId, hworkflowId, hrequest⟩ := bind_eq_ok.mp hrequest
  obtain ⟨taskId, htaskId, hrequest⟩ := bind_eq_ok.mp hrequest
  obtain ⟨agentName, hagentName, hrequest⟩ := bind_eq_ok.mp hrequest
  obtain ⟨workload, hworkload, hrequest⟩ := bind_eq_ok.mp hrequest
  cases hrequest
  exact ⟨validated_eq_ok.mp hworkflowId, validated_eq_ok.mp htaskId, validated_eq_ok.mp hagentName,
    validated_eq_ok.mp hworkload, hcontext, validated_eq_ok.mp hcorrelation, rfl,
    validatedOption_eq_ok.mp hgroup⟩

theorem state_of_authorizationContext {authorization : Option SignedRuntimeAuthorization}
    {verified : Bool} {context : RuntimeViolationAuthorizationContext}
    (h : authorizationContext authorization verified = .ok context) :
    context.state =
      if authorization.isNone then .absent else if verified then .verified else .present := by
  cases authorization with
  | none =>
    cases h
    rfl
  | some envelope =>
    unfold authorizationContext at h
    obtain ⟨_, -, h⟩ := bind_eq_ok.mp h
    obtain ⟨_, -, h⟩ := bind_eq_ok.mp h
    obtain ⟨_, -, h⟩ := bind_eq_ok.mp h
    cases h
    rfl

end Records

section Trust

variable [UnicodeTables] [Cryptography] [JsonDecoder]
variable {app : Application} {es : List (Event Reply)}

omit [JsonDecoder] in
/-- Evidence is the answer to a denial, built from the state the handler left. -/
theorem records_of_completes {failure : PyException × RequestState} {code : DenialCode}
    {violation : RuntimeViolationEnvelope}
    (h : Completes (handleException app failure).run es (.ok (.violation code violation))) :
    ∃ error, failure.1 = .runtimeAuthorization error ∧ error.code = code ∧
      Records code failure.2.routeRequest failure.2.authorization
        (failure.2.authorizationVerified || error.authorizationVerified) failure.2.correlationId
        failure.2.selectedModelGroup violation.event := by
  unfold handleException at h
  split at h
  · obtain ⟨_, _, _, -, -, hpure⟩ := returns_bind.mp h
    cases ((returns_pure _ _).mp hpure).2
  · cases ((returns_pure _ _).mp h).2
  · cases ((returns_pure _ _).mp h).2
  · cases ((returns_pure _ _).mp h).2
  · rename_i error state
    obtain ⟨_, _, built, -, hbuilt, hpure⟩ := returns_bind.mp h
    cases ((returns_pure _ _).mp hpure).2
    exact ⟨error, rfl, rfl, records_of_build hbuilt⟩
  · exact absurd h (not_returns_throw _ _)

/-- What the evidence of a denial may state. -/
structure TrustStated (app : Application) (useCase : RouteModelUseCase) (body : RouteRequestEnvelope)
    (es : List (Event Reply)) (code : DenialCode) (event : RuntimeViolationEvent) : Prop where
  verified : event.authorization.state = .verified → Trusted app body es
  absent : event.authorization.state = .absent ↔ body.authorization = none
  group : event.selectedModelGroup.isSome = true ↔ code ∈ modelScopeCodes
  selected : ∀ group ∈ event.selectedModelGroup, event.authorization.state = .verified ∧
    ∃ routed decision, routed <:+: es ∧ Returns (routing useCase body) routed decision ∧
      group.val = decision.selectedModelGroup.value

variable {useCase : RouteModelUseCase} {body : RouteRequestEnvelope} {correlationId : String}

omit [JsonDecoder] in
theorem TrustStated.mono {es' : List (Event Reply)} {code : DenialCode}
    {event : RuntimeViolationEvent} (h : TrustStated app useCase body es code event)
    (part : es <:+: es') : TrustStated app useCase body es' code event := by
  refine ⟨fun hverified => (h.verified hverified).mono part.subset, h.absent, h.group, ?_⟩
  intro group hgroup
  obtain ⟨hverified, routed, decision, hrouted, hselected⟩ := h.selected group hgroup
  exact ⟨hverified, routed, decision, hrouted.trans part, hselected⟩

omit [JsonDecoder] in
theorem trustStated_withoutGroup {code : DenialCode} {request : RouteRequest} {verified : Bool}
    {event : RuntimeViolationEvent}
    (records : Records code request body.authorization verified correlationId none event)
    (trusted : verified = true → Trusted app body es) (outside : code ∉ modelScopeCodes) :
    TrustStated app useCase body es code event := by
  have hstate := state_of_authorizationContext records.authorization
  have hgroup : event.selectedModelGroup = none := Option.map_eq_none_iff.mp records.group
  refine ⟨?_, ?_, by simp [hgroup, outside], by simp [hgroup]⟩
  · intro hverified
    cases verified with
    | true => exact trusted rfl
    | false =>
      rw [hstate, if_neg (by simp : ¬ false = true)] at hverified
      split_ifs at hverified
  · rw [hstate]
    cases body.authorization <;> cases verified <;> simp

omit [JsonDecoder] in
private theorem trustStated_of_cause [JsonDecoder] {error : RuntimeAuthorizationError}
    {state : RequestState}
    {event : RuntimeViolationEvent}
    (h : Cause app useCase body correlationId es error state)
    (records : Records error.code state.routeRequest state.authorization
      (state.authorizationVerified || error.authorizationVerified) state.correlationId
      state.selectedModelGroup event) :
    TrustStated app useCase body es error.code event := by
  cases h with
  | mode own =>
    exact trustStated_withoutGroup records (by simp [initialState])
      ((by decide : ∀ code ∈ modeCodes, code ∉ modelScopeCodes) _ own)
  | unverified present own =>
    exact trustStated_withoutGroup records (by simp [initialState])
      ((by decide : ∀ code ∈ offlineCodes ++ replayCodes, code ∉ modelScopeCodes) _ own)
  | control trusted own =>
    exact trustStated_withoutGroup records (fun _ => trusted)
      ((by decide : ∀ code ∈ controlCodes, code ∉ modelScopeCodes) _ own)
  | @scope routed code message decision verified trusted own some_ part selected =>
    obtain ⟨pair, rfl⟩ := Option.isSome_iff_exists.mp some_
    have hstate := state_of_authorizationContext records.authorization
    have hpresent : body.authorization.isNone = false :=
      Option.isNone_eq_false_iff.mpr (Option.isSome_iff_ne_none.mpr trusted.present)
    have hverified : event.authorization.state = .verified := by
      simpa [selectedState, verifiedState, initialState, hpresent] using hstate
    have hgroup : event.selectedModelGroup.map Subtype.val =
        some decision.selectedModelGroup.value := by
      rw [records.group]
      exact congrArg some (strip_of_isPolicyIdentifier decision.selectedModelGroup.identifier)
    obtain ⟨group, hsome, hvalue⟩ := Option.map_eq_some_iff.mp hgroup
    refine ⟨fun _ => trusted, ?_, ?_, ?_⟩
    · simp [hverified, trusted.present]
    · simp [hsome, own]
    · intro other hother
      rw [hsome] at hother
      obtain rfl := Option.some.inj hother
      exact ⟨hverified, routed, decision, part, selected, hvalue⟩

variable [BodyParser] {scope : RouteScope}

/-- The evidence of a denial never states more trust than the verification gave. -/
theorem evidence_never_overstates {code : DenialCode} {violation : RuntimeViolationEnvelope}
    (h : Completes (postRoute app scope) es (.violation code violation)) :
    ∃ body useCase, BodyParser.parse scope.headers (received es) = .admitted body ∧
      ⟨.activeUseCase, useCase⟩ ∈ es ∧ TrustStated app useCase body es code violation.event := by
  generalize hresponse : Response.violation code violation = response at h
  cases ended_of_completes h with
  | inFront front unhandled => exact absurd hresponse.symm (unhandled.ne_violation code violation)
  | decided reaches returned => cases hresponse
  | @raised before handled after useCase body correlationId failure r reaches raised answered =>
    have hr : r = .ok (.violation code violation) := by
      cases r with
      | ok response => exact congrArg Except.ok hresponse.symm
      | error e =>
        exact absurd hresponse.symm (Unhandled.ne_violation (.inr (.inr ⟨e, rfl⟩)) code violation)
    subst hr
    obtain ⟨error, herror, rfl, hrecords⟩ := records_of_completes answered
    obtain ⟨e, state⟩ := failure
    subst herror
    have htrust := trustStated_of_cause (cause_of_raises raised) hrecords
    have hinside : received handled = [] :=
      received_inside (Completes.each_call raised Inside fun _ _ h => inside_of_issues h)
    have hafter : received after = [] := by
      refine received_eq_nil fun e he => ?_
      rcases answered.each_call (fun c => c = .utcNow ∨ c = .uuid4)
        (fun _ _ h => issues_handleException h) e he with hcall | hcall <;> simp [hcall]
    refine ⟨body, useCase, ?_, ?_, htrust.mono ⟨before, after, by simp⟩⟩
    · rw [received_append, received_append, hinside, hafter, List.append_nil, List.append_nil]
      exact reaches.parsed
    · exact List.mem_append_left _ ((reaches.resolved useCase).mpr rfl)

end Trust

private theorem isDigest_sha256Hex [Cryptography] (bytes : ByteArray) : isDigest
    (sha256Hex bytes) = true := by
  have hhex : ∀ c ∈ (sha256Hex bytes).toList, isHexDigit c = true := by
    intro c hc
    simp only [sha256Hex, String.toList_ofList, List.mem_flatMap] at hc
    obtain ⟨b, -, hc⟩ := hc
    obtain ⟨d, hd, rfl⟩ := mem_padded (by decide) hc
    exact (by decide : ∀ d < 16, isHexDigit (Nat.digitChar d) = true) d hd
  have hlength : (sha256Hex bytes).length = 64 := by
    simp [sha256Hex]
  simp only [isDigest, hasShape, hlength, Bool.and_eq_true, decide_eq_true_eq]
  refine ⟨⟨⟨le_refl _, le_refl _⟩, ?_⟩, ?_⟩
  · cases hs : (sha256Hex bytes).toList with
    | nil =>
      rw [← String.length_toList, hs] at hlength
      cases hlength
    | cons c cs => simpa using hhex c (by simp [hs])
  · exact List.all_eq_true.mpr fun c hc => hhex c (List.mem_of_mem_tail hc)

theorem isEvidenceIdentifier_strip {s : String} (visible : strip s ≠ "") (short : s.length ≤ 200) :
    isEvidenceIdentifier (strip s) = true := by
  have hpos : 1 ≤ (strip s).length := by
    rw [Nat.one_le_iff_ne_zero, ne_eq, String.length_eq_zero_iff]
    exact visible
  simp only [isEvidenceIdentifier, isStripped, Bool.and_eq_true, decide_eq_true_eq]
  exact ⟨⟨strip_strip s, hpos⟩, (length_strip_le s).trans short⟩

theorem strip_ne_empty {s : String} (unpadded : strip s = s) (some_ : 1 ≤ s.length) :
    strip s ≠ "" := by
  intro h
  rw [← unpadded, h] at some_
  exact absurd some_ (by decide)

/-- An identifier of the policy is an identifier of the evidence unless it is too long. -/
theorem isEvidenceModelGroup_strip {s : String} (h : isPolicyIdentifier s = true) :
    isEvidenceModelGroup (strip s) = true ↔ s.length ≤ 100 := by
  obtain ⟨hpos, -⟩ := length_of_isPolicyIdentifier h
  rw [strip_of_isPolicyIdentifier h]
  apply (hasShape_iff_of_isPolicyIdentifier h (fun _ => id) fun _ => id).trans
  exact and_iff_right hpos

theorem exists_validated {p : String → Bool} {s : String} (h : p (strip s) = true) :
    ∃ t, validated p s = .ok t :=
  ⟨⟨strip s, h⟩, validated_eq_ok.mpr rfl⟩

section Repetition

variable [UnicodeTables] [Cryptography]

omit [UnicodeTables] in
private theorem exists_authorizationContext (authorization : Option SignedRuntimeAuthorization)
    (verified : Bool) : ∃ context, authorizationContext authorization verified = .ok context := by
  cases authorization with
  | none => exact ⟨_, rfl⟩
  | some envelope =>
    obtain ⟨keyId, hkeyId⟩ := exists_validated (p := isEvidenceIdentifier)
      (s := envelope.protected_.kid) (isEvidenceIdentifier_strip
        (strip_ne_empty (strip_of_isIdentifier envelope.protected_.kid.property)
          (length_of_hasShape envelope.protected_.kid.property).1)
        (length_of_hasShape envelope.protected_.kid.property).2)
    have hdigest := isDigest_sha256Hex envelope.signingBytes
    obtain ⟨signingDigest, hsigning⟩ := exists_validated (p := isDigest)
      (s := envelope.signingDigest) ((strip_of_isDigest hdigest).symm ▸ hdigest)
    have hscope := envelope.claims.scopeDigest.property
    obtain ⟨scopeDigest, hscopeDigest⟩ := exists_validated (p := isDigest)
      (s := envelope.claims.scopeDigest) ((strip_of_isDigest hscope).symm ▸ hscope)
    unfold authorizationContext
    exact ⟨_, bind_eq_ok.mpr ⟨keyId, hkeyId, bind_eq_ok.mpr ⟨signingDigest, hsigning,
      bind_eq_ok.mpr ⟨scopeDigest, hscopeDigest, rfl⟩⟩⟩⟩

variable {app : Application} {useCase : RouteModelUseCase} {body : RouteRequestEnvelope}
variable {correlationId : String} {es : List (Event Reply)} {error : RuntimeAuthorizationError}
variable {state : RequestState}

theorem consistent_of_cause [JsonDecoder] {context : RuntimeViolationAuthorizationContext}
    {group : Option EvidenceModelGroup} (h : Cause app useCase body correlationId es error state)
    (hcontext : authorizationContext state.authorization
      (state.authorizationVerified || error.authorizationVerified) = .ok context)
    (hgroup : group.map Subtype.val = state.selectedModelGroup.map strip) :
    ConsistentSemantics (violationCategory error.code) context.state group := by
  have hstate := state_of_authorizationContext hcontext
  cases h with
  | mode own =>
    have hcategory := (by decide : ∀ code ∈ modeCodes, violationCategory code = .authorization) _ own
    have hnone : group = none := Option.map_eq_none_iff.mp hgroup
    simp only [hcategory, hnone]
    exact ⟨by simp, by simp, by simp⟩
  | unverified present own =>
    have hcategory := (by decide : ∀ code ∈ offlineCodes ++ replayCodes,
      violationCategory code ≠ .modelScope) _ own
    have hnone : group = none := Option.map_eq_none_iff.mp hgroup
    refine ⟨fun _ => ?_, fun h => absurd h hcategory, fun _ => hnone⟩
    rw [hstate, if_neg (by simpa [initialState, ← Option.ne_none_iff_isSome] using present)]
    split <;> simp
  | control trusted own =>
    have hcategory := (by decide : ∀ code ∈ controlCodes,
      violationCategory code ≠ .modelScope) _ own
    have hnone : group = none := Option.map_eq_none_iff.mp hgroup
    refine ⟨fun _ => ?_, fun h => absurd h hcategory, fun _ => hnone⟩
    rw [hstate, if_neg (by simpa [initialState] using trusted.present)]
    split <;> simp
  | @scope routed code message decision verified trusted own some_ part selected =>
    have hcategory := (by decide : ∀ code ∈ modelScopeCodes,
      violationCategory code = .modelScope) _ own
    have hverified : context.state = .verified := by
      rw [hstate, if_neg (by simpa [selectedState, verifiedState, initialState] using trusted.present)]
      simp [selectedState, verifiedState, some_]
    have hsome : group ≠ none := by
      rintro rfl
      obtain ⟨pair, rfl⟩ := Option.isSome_iff_exists.mp some_
      cases hgroup
    exact ⟨by simp [hverified], fun _ => ⟨hverified, hsome⟩, fun h => absurd hcategory h⟩

/-- The texts the evidence repeats are visible, and the selected group is short enough. -/
structure Visible (request : RouteRequest) (correlationId : String)
    (selectedModelGroup : Option String) : Prop where
  workflowId : isEvidenceIdentifier (strip request.workflowId) = true
  taskId : isEvidenceIdentifier (strip request.taskId) = true
  agentName : isEvidenceIdentifier (strip request.agentName) = true
  correlationId : isEvidenceIdentifier (strip correlationId) = true
  group : ∀ group ∈ selectedModelGroup, isEvidenceModelGroup (strip group) = true

omit [UnicodeTables] [Cryptography] in
private theorem exists_requestContext {request : RouteRequest} {selected : Option String}
    (visible : Visible request correlationId selected) :
    ∃ context, requestContext request = .ok context := by
  obtain ⟨workflowId, hworkflowId⟩ := exists_validated visible.workflowId
  obtain ⟨taskId, htaskId⟩ := exists_validated visible.taskId
  obtain ⟨agentName, hagentName⟩ := exists_validated visible.agentName
  obtain ⟨hpos, hshort⟩ := length_of_isPolicyIdentifier request.workload.identifier
  obtain ⟨workload, hworkload⟩ := exists_validated (p := isEvidenceIdentifier)
    (s := request.workload.value) (isEvidenceIdentifier_strip
      (strip_ne_empty (strip_of_isPolicyIdentifier request.workload.identifier) hpos)
      (hshort.trans (by decide)))
  unfold requestContext
  exact ⟨_, bind_eq_ok.mpr ⟨workflowId, hworkflowId, bind_eq_ok.mpr ⟨taskId, htaskId,
    bind_eq_ok.mpr ⟨agentName, hagentName, bind_eq_ok.mpr ⟨workload, hworkload, rfl⟩⟩⟩⟩⟩

omit [UnicodeTables] [Cryptography] in
private theorem strip_of_isEvidenceCode {s : String} (h : isEvidenceCode s = true) : strip s = s := by
  apply strip_eq_self_of_isGraphic
  intro c hc
  rcases of_hasShape h hc with hedge | hrest
  · exact isGraphic_of_isIdentifierEdge hedge
  · simp only [Bool.or_eq_true, beq_iff_eq] at hrest
    rcases hrest with hedge | rfl
    · exact isGraphic_of_isIdentifierEdge hedge
    · decide

omit [UnicodeTables] [Cryptography] in
private theorem isEvidenceCode_value (code : DenialCode) : isEvidenceCode
    (strip code.value) = true := by
  have hcode : isEvidenceCode code.value = true := by cases code <;> decide +kernel
  rw [strip_of_isEvidenceCode hcode]
  exact hcode

omit [UnicodeTables] [Cryptography] in
private theorem exists_validatedOption {selected : Option String}
    (visible : ∀ group ∈ selected, isEvidenceModelGroup (strip group) = true) :
    ∃ group, validatedOption isEvidenceModelGroup selected = .ok group := by
  cases selected with
  | none => exact ⟨none, rfl⟩
  | some value =>
    exact ⟨some ⟨strip value, visible value rfl⟩, validatedOption_eq_ok.mpr rfl⟩

omit [UnicodeTables] [Cryptography] in
private theorem exists_deploymentIdentifier (identifier : EvidenceIdentifier) :
    ∃ t, validated isEvidenceIdentifier identifier.val = .ok t := by
  apply exists_validated
  have hidentifier := identifier.property
  simp only [isEvidenceIdentifier, isStripped, Bool.and_eq_true, decide_eq_true_eq] at hidentifier
  rw [hidentifier.1.1]
  exact identifier.property

omit [UnicodeTables] [Cryptography] in
private theorem exists_violationEvent {code : DenialCode} {request : RouteRequest}
    {context : RuntimeViolationAuthorizationContext} {selected : Option String}
    (serviceVersion environment : EvidenceIdentifier) (eventId : UUID) (occurredAt : Datetime)
    (visible : Visible request correlationId selected)
    (consistent : ∀ group : Option EvidenceModelGroup, group.map Subtype.val = selected.map strip →
      ConsistentSemantics (violationCategory code) context.state group) :
    ∃ event, violationEvent code request context correlationId serviceVersion environment selected
      eventId occurredAt = .ok event := by
  obtain ⟨fields, hfields⟩ := exists_requestContext visible
  obtain ⟨version, hversion⟩ := exists_deploymentIdentifier serviceVersion
  obtain ⟨deployment, hdeployment⟩ := exists_deploymentIdentifier environment
  obtain ⟨correlation, hcorrelation⟩ := exists_validated visible.correlationId
  obtain ⟨evidenceCode, hcode⟩ := exists_validated (isEvidenceCode_value code)
  obtain ⟨group, hgroup⟩ := exists_validatedOption visible.group
  unfold violationEvent
  exact ⟨_, bind_eq_ok.mpr ⟨fields, hfields, bind_eq_ok.mpr ⟨version, hversion,
    bind_eq_ok.mpr ⟨deployment, hdeployment, bind_eq_ok.mpr ⟨correlation, hcorrelation,
      bind_eq_ok.mpr ⟨evidenceCode, hcode, bind_eq_ok.mpr ⟨group, hgroup,
        dif_pos (consistent group (validatedOption_eq_ok.mp hgroup))⟩⟩⟩⟩⟩⟩⟩

omit [UnicodeTables] in
private theorem exists_fromEvent (event : RuntimeViolationEvent) :
    ∃ violation, fromEvent event = .ok violation := by
  have hdigest : isDigest event.digest = true := isDigest_sha256Hex event.canonicalBytes
  have hstrip := strip_of_isDigest hdigest
  obtain ⟨eventDigest, hvalid⟩ := exists_validated (p := isDigest) (s := event.digest)
    (hstrip.symm ▸ hdigest)
  have hsame : event.digest = eventDigest := ((validated_eq_ok.mp hvalid).trans hstrip).symm
  unfold fromEvent
  exact ⟨⟨event, eventDigest, hsame⟩, bind_eq_ok.mpr ⟨eventDigest, hvalid, dif_pos hsame⟩⟩

/-- The event repeats the denied request and the selected group as they are. -/
structure Verbatim (request : ModelRouteRequest) (selectedModelGroup : Option String)
    (event : RuntimeViolationEvent) : Prop where
  workflowId : event.request.workflowId.val = request.workflowId.val
  taskId : event.request.taskId.val = request.taskId.val
  agentName : event.request.agentName.val = request.agentName.val
  workload : event.request.workload.val = request.workload.value
  group : event.selectedModelGroup.map Subtype.val = selectedModelGroup

/-- The denial is answered by evidence that repeats it, whatever the clock and the
identifier source answer. -/
def Faithful (app : Application) (request : ModelRouteRequest) (error : RuntimeAuthorizationError)
    (state : RequestState) : Prop :=
  ∀ es r, Completes (handleException app (.runtimeAuthorization error, state)).run es r →
    ∃ violation, r = .ok (.violation error.code violation) ∧
      Verbatim request state.selectedModelGroup violation.event

/-- Nothing to strip from the identifiers of the request, something visible in the
correlation identifier, and a selected group that fits the evidence. -/
structure Unpadded (request : ModelRouteRequest) (correlationId : String)
    (selectedModelGroup : Option String) : Prop where
  workflowId : strip request.workflowId = request.workflowId
  taskId : strip request.taskId = request.taskId
  agentName : strip request.agentName = request.agentName
  correlationId : strip correlationId ≠ ""
  group : ∀ group ∈ selectedModelGroup, group.length ≤ 100

end Repetition

section Faithfulness

variable [UnicodeTables] [Cryptography] [JsonDecoder]
variable {app : Application} {scope : RouteScope} {useCase : RouteModelUseCase}
variable {body : RouteRequestEnvelope} {correlationId : String} {es : List (Event Reply)}
variable {error : RuntimeAuthorizationError} {state : RequestState}

structure Left (body : RouteRequestEnvelope) (correlationId : String) (state : RequestState) : Prop
    where
  request : state.routeRequest = toDomainRequest body.request
  correlation : state.correlationId = correlationId
  group : ∀ group ∈ state.selectedModelGroup, isPolicyIdentifier group = true

omit [JsonDecoder] in
theorem left_of_cause [JsonDecoder] (h : Cause app useCase body correlationId es error state) :
    Left body correlationId state := by
  cases h with
  | mode own => exact ⟨rfl, rfl, by simp [initialState]⟩
  | unverified present own => exact ⟨rfl, rfl, by simp [initialState]⟩
  | control trusted own => exact ⟨rfl, rfl, by simp [initialState]⟩
  | @scope routed code message decision verified trusted own some_ part selected =>
    refine ⟨rfl, rfl, ?_⟩
    intro group hgroup
    obtain ⟨pair, rfl⟩ := Option.isSome_iff_exists.mp some_
    obtain rfl := Option.some.inj hgroup
    exact decision.selectedModelGroup.identifier

omit [UnicodeTables] [Cryptography] [JsonDecoder] in
private theorem visible_of_unpadded (bound : Bound scope correlationId)
    (left : Left body correlationId state)
    (unpadded : Unpadded body.request correlationId state.selectedModelGroup) :
    Visible state.routeRequest state.correlationId state.selectedModelGroup := by
  have hidentifier : ∀ s : BoundedIdentifier, strip s.val = s.val →
      isEvidenceIdentifier (strip s.val) = true := fun s hs =>
    isEvidenceIdentifier_strip (strip_ne_empty hs s.property.1) s.property.2
  have hshort : correlationId.length ≤ 200 := by
    cases bound with
    | caller sent some_ bounded => exact bounded
    | fresh id => exact (length_str id).trans_le (by decide)
  rw [left.request, left.correlation]
  refine ⟨hidentifier _ unpadded.workflowId, hidentifier _ unpadded.taskId,
    hidentifier _ unpadded.agentName, isEvidenceIdentifier_strip unpadded.correlationId hshort, ?_⟩
  intro group hgroup
  exact (isEvidenceModelGroup_strip (left.group group hgroup)).mpr (unpadded.group group hgroup)

theorem not_raises_build (h : Cause app useCase body correlationId es error state)
    (visible : Visible state.routeRequest state.correlationId state.selectedModelGroup)
    {after : List (Event Reply)} {e : PyException} :
    ¬ Raises (buildRuntimeViolation error.code state.routeRequest state.authorization
      (state.authorizationVerified || error.authorizationVerified) state.correlationId
      app.serviceVersion app.environment state.selectedModelGroup) after e := by
  intro hraises
  obtain ⟨context, hcontext⟩ := exists_authorizationContext state.authorization
    (state.authorizationVerified || error.authorizationVerified)
  unfold buildRuntimeViolation at hraises
  rcases raises_bind.mp hraises with hask | ⟨_, _, occurredAt, -, -, h₁⟩
  · exact not_raises_ask hask
  rcases raises_bind.mp h₁ with herror | ⟨_, _, built, -, hbuilt, h₂⟩
  · cases hcontext.symm.trans ((raises_compute _ _).mp herror).2
  obtain rfl := Except.ok.inj (hcontext.symm.trans ((returns_compute _ _).mp hbuilt).2)
  rcases raises_bind.mp h₂ with hask | ⟨_, _, eventId, -, -, h₃⟩
  · exact not_raises_ask hask
  have hconsistent : ∀ group : Option EvidenceModelGroup,
      group.map Subtype.val = state.selectedModelGroup.map strip →
      ConsistentSemantics (violationCategory error.code) context.state group := fun group hgroup =>
    consistent_of_cause h hcontext hgroup
  obtain ⟨event, hevent⟩ := exists_violationEvent app.serviceVersion app.environment eventId
    occurredAt visible hconsistent
  rcases raises_bind.mp h₃ with herror | ⟨_, _, built, -, hbuilt, h₄⟩
  · cases hevent.symm.trans ((raises_compute _ _).mp herror).2
  obtain ⟨violation, hviolation⟩ := exists_fromEvent built
  cases hviolation.symm.trans ((raises_compute _ _).mp h₄).2

private theorem faithful_of_unpadded (bound : Bound scope correlationId)
    (h : Cause app useCase body correlationId es error state)
    (unpadded : Unpadded body.request correlationId state.selectedModelGroup) :
    Faithful app body.request error state := by
  intro after r hanswer
  have hleft := left_of_cause h
  have hvisible := visible_of_unpadded bound hleft unpadded
  change Completes (handleRuntimeAuthorizationError app state error).run after r at hanswer
  rcases completes_run_bind.mp hanswer with ⟨e, -, hraises⟩ | ⟨_, _, violation, -, hbuilt, hpure⟩
  · exact absurd hraises (not_raises_build h hvisible)
  obtain ⟨-, rfl⟩ := (completes_run_pure _ _).mp hpure
  have hrecords := records_of_build hbuilt
  rw [hleft.request] at hrecords
  refine ⟨violation, rfl, hrecords.workflowId.trans unpadded.workflowId,
    hrecords.taskId.trans unpadded.taskId, hrecords.agentName.trans unpadded.agentName,
    hrecords.workload.trans (strip_of_isPolicyIdentifier body.request.workload.identifier), ?_⟩
  rw [hrecords.group]
  cases hselected : state.selectedModelGroup with
  | none => rfl
  | some group => exact congrArg some (strip_of_isPolicyIdentifier (hleft.group group hselected))

private theorem unpadded_of_faithful (h : Cause app useCase body correlationId es error state)
    (faithful : Faithful app body.request error state) :
    Unpadded body.request correlationId state.selectedModelGroup := by
  have hleft := left_of_cause h
  -- some answers of the clock and the identifier source
  have hcompletes := completes_run (fun call s => (RoutingSpecification.ports useCase
    (fun _ => none) "" ⟨0, by decide⟩ call, s)) (handleException app
      (.runtimeAuthorization error, state)).run ()
  obtain ⟨violation, hviolation, hverbatim⟩ := faithful _ _ hcompletes
  rw [hviolation] at hcompletes
  obtain ⟨_, -, -, hrecords⟩ := records_of_completes hcompletes
  rw [hleft.request, hleft.correlation] at hrecords
  refine ⟨hrecords.workflowId.symm.trans hverbatim.workflowId,
    hrecords.taskId.symm.trans hverbatim.taskId,
    hrecords.agentName.symm.trans hverbatim.agentName, ?_, ?_⟩
  · intro hempty
    have hidentifier := violation.event.correlationId.property
    rw [hrecords.correlationId, hempty] at hidentifier
    exact absurd hidentifier (by decide)
  · intro group hgroup
    have hvalue := hverbatim.group
    rw [Option.mem_def.mp hgroup] at hvalue
    obtain ⟨value, -, rfl⟩ := Option.map_eq_some_iff.mp hvalue
    exact (length_of_hasShape value.property).2

/-- Evidence is faithful exactly when stripping changes nothing and the group fits. -/
theorem evidence_faithful_iff (bound : Bound scope correlationId)
    (h : Raises (RouteEndpoint.route app scope useCase body correlationId) es
      (.runtimeAuthorization error, state)) :
    Faithful app body.request error state ↔
      Unpadded body.request correlationId state.selectedModelGroup :=
  ⟨unpadded_of_faithful (cause_of_raises h), faithful_of_unpadded bound (cause_of_raises h)⟩

end Faithfulness

namespace Deployed

open AuthorizedDecisions.Deployed
open VerificationSpecification.Deployed (genuine decoder)

def withoutProjection : (call : Call) → Reply call
  | .redisGet _ => .none
  | call => answer call

def refused : Except PyException (@Response genuine) × List (Event Reply) × Unit :=
  handler.run (fun call s => (withoutProjection call, s)) ()

def isViolation [Cryptography] : Except PyException Response → Bool
  | .ok (.violation _ _) => true
  | _ => false

private theorem exists_violation [Cryptography] {result : Except PyException Response}
    (h : isViolation result = true) : ∃ code violation, result = .ok (.violation code violation) := by
  unfold isViolation at h
  split at h
  · exact ⟨_, _, rfl⟩
  · cases h

private theorem handler_refuses : ∃ es code violation,
    Completes handler es (.ok (@Response.violation genuine code violation)) := by
  have hrefuses : @isViolation genuine refused.1 = true := by decide +kernel
  have hcompletes : Completes handler refused.2.1 refused.1 := completes_of_run rfl
  obtain ⟨code, violation, hresult⟩ := @exists_violation genuine _ hrefuses
  rw [hresult] at hcompletes
  exact ⟨_, code, violation, hcompletes⟩

theorem evidence_never_overstates_deployed : ∃ es body useCase code event,
    @BodyParser.parse parser route.headers (received es) = .admitted body ∧
      ⟨.activeUseCase, useCase⟩ ∈ es ∧
      @TrustStated asciiTables genuine application useCase body es code event := by
  obtain ⟨es, code, violation, hhandler⟩ := handler_refuses
  obtain ⟨body, useCase, hparsed, hresolved, htrust⟩ :=
    @evidence_never_overstates asciiTables genuine decoder _ _ parser _ _ _
      (postRoute_completes hhandler)
  exact ⟨_, body, useCase, code, @RuntimeViolationEnvelope.event genuine violation, hparsed,
    hresolved, htrust⟩

theorem handler_denies (request : ModelRouteRequest) (agent : request.agentName.val = "analyst") :
    Raises (@RouteEndpoint.route asciiTables genuine decoder application route
      RoutingSpecification.Deployed.useCase (.plain request) "corr-1")
      [⟨agentLimit route (.plain request), true⟩]
      (denial .runtimeAuthorizationRequired "Signed Governance runtime authorization is required",
        initialState (.plain request) "corr-1") := by
  refine raises_bind.mpr (.inl ((raises_mapError _ _ _).mpr ⟨_, rfl, ?_⟩))
  refine raises_bind.mpr (.inr ⟨_, [], true, rfl, returns_ask.mpr rfl, ?_⟩)
  refine raises_bind.mpr (.inr ⟨[], [], (), rfl, (returns_compute _ _).mpr ⟨rfl, rfl⟩, ?_⟩)
  refine raises_bind.mpr (.inr ⟨[], [], (), rfl, (returns_compute _ _).mpr ⟨rfl, ?_⟩, ?_⟩)
  · change @authenticate asciiTables _ request.agentName.val _ = _
    rw [agent]
    decide
  · exact (raises_throw _ _).mpr ⟨rfl, rfl⟩

theorem bound : Bound route "corr-1" := .caller (by decide) (by decide) (by decide)

theorem evidence_faithful_iff_deployed : ∃ error state,
    @Faithful asciiTables genuine application request error state ↔
      Unpadded request "corr-1" state.selectedModelGroup :=
  ⟨_, _, @evidence_faithful_iff asciiTables genuine decoder _ _ _ (.plain request) _ _ _ _ bound
    (handler_denies request rfl)⟩

def padded : ModelRouteRequest := { request with workflowId := ⟨" wf-1", by decide⟩ }

theorem padded_workflow_altered : ¬ ∀ [UnicodeTables] [Cryptography] [JsonDecoder]
    (app : Application) (scope : RouteScope) (useCase : RouteModelUseCase)
    (body : RouteRequestEnvelope) (correlationId : String) (es : List (Event Reply))
    (error : RuntimeAuthorizationError) (state : RequestState),
    useCase.policy.ReferentialIntegrity → Bound scope correlationId →
    Raises (RouteEndpoint.route app scope useCase body correlationId) es
      (.runtimeAuthorization error, state) → Faithful app body.request error state := by
  intro h
  have hraises := handler_denies padded rfl
  have hfaithful := @h asciiTables genuine decoder _ _ _ _ _ _ _ _
    RoutingSpecification.Deployed.integrity bound hraises
  have hunpadded := @unpadded_of_faithful asciiTables genuine decoder _ _ _ _ _ _ _
    (@cause_of_raises asciiTables genuine decoder _ _ _ _ _ _ _ _ hraises) hfaithful
  exact absurd hunpadded.workflowId (by decide)

end Deployed

end PolicyModelRouter.DenialEvidence
