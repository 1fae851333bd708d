import PolicyModelRouter.AuthorizedDecisions

/-!
# Authentication of an agent

The presented key is compared with the key configured for the claimed agent. The comparison
in constant time is defined on ASCII text only, and it is made for configured agents only;
outside ASCII its exception tells the two apart.
-/

namespace PolicyModelRouter.AgentAuthentication
open AuthorizationContract AuthorizedDecisions AwaitingPrograms HandlerRuns OrderedChecks PythonText
open RouteEndpoint RouteRuns RouterCalls RuntimeControl TrustedKeys WireContracts

abbrev ApiKeys := AList fun _ : String => String

/-- The presented key is the one configured for the agent. -/
def Presents (xApiKey : Option String) (agentName : String) (apiKeys : ApiKeys) : Prop :=
  ∃ key, apiKeys.lookup agentName = some key ∧ xApiKey = some key

/-- Whenever two texts are compared, both are ASCII. -/
def Comparable (xApiKey : Option String) (agentName : String) (apiKeys : ApiKeys) : Prop :=
  ∀ configured presented, apiKeys.lookup agentName = some configured → xApiKey = some presented →
    isAsciiText presented = true ∧ isAsciiText configured = true

section Authenticate

variable [UnicodeTables] {xApiKey : Option String} {agentName : String} {apiKeys : ApiKeys}

/-- Authentication accepts the configured key and refuses everything else in one way. -/
structure Exact (xApiKey : Option String) (agentName : String) (apiKeys : ApiKeys) : Prop where
  accepts : authenticate xApiKey agentName apiKeys = .ok () ↔ Presents xApiKey agentName apiKeys
  refuses : ¬ Presents xApiKey agentName apiKeys → ∃ message,
    authenticate xApiKey agentName apiKeys = .error (.authentication message)

theorem authenticate_of_unknown (unknown : apiKeys.lookup agentName = none) : ∃ message,
    authenticate xApiKey agentName apiKeys = .error (.authentication message) := by
  unfold authenticate
  simp only [unknown]
  exact ⟨_, rfl⟩

private theorem authenticate_of_absent : ∃ message,
    authenticate none agentName apiKeys = .error (.authentication message) := by
  unfold authenticate
  cases apiKeys.lookup agentName <;> exact ⟨_, rfl⟩

private theorem authenticate_of_ascii {configured presented : String}
    (known : apiKeys.lookup agentName = some configured) (ascii : isAsciiText presented = true)
    (ascii' : isAsciiText configured = true) :
    ∃ message, authenticate (some presented) agentName apiKeys =
      raiseIf (presented ≠ configured) (.authentication message) := by
  unfold authenticate
  simp only [known, ascii, ascii', Bool.and_self, if_true]
  exact ⟨_, rfl⟩

theorem authenticate_of_not_comparable (h : ¬ Comparable xApiKey agentName apiKeys) :
    authenticate xApiKey agentName apiKeys = .error .typeError := by
  simp only [Comparable, not_forall] at h
  obtain ⟨configured, presented, hknown, rfl, hascii⟩ := h
  unfold authenticate
  simp only [hknown]
  rw [if_neg]
  simpa only [Bool.and_eq_true] using hascii

private theorem authenticate_of_comparable (h : Comparable xApiKey agentName apiKeys)
    (other : ¬ Presents xApiKey agentName apiKeys) : ∃ message,
      authenticate xApiKey agentName apiKeys = .error (.authentication message) := by
  cases hknown : apiKeys.lookup agentName with
  | none => exact authenticate_of_unknown hknown
  | some configured =>
    cases xApiKey with
    | none => exact authenticate_of_absent
    | some presented =>
      obtain ⟨hpresented, hconfigured⟩ := h configured presented hknown rfl
      obtain ⟨message, hcompare⟩ := authenticate_of_ascii hknown hpresented hconfigured
      have hne : presented ≠ configured := fun hsame => other ⟨configured, hknown, by rw [hsame]⟩
      exact ⟨message, hcompare.trans (if_pos hne)⟩

theorem exact_iff : Exact xApiKey agentName apiKeys ↔ Comparable xApiKey agentName apiKeys := by
  constructor
  · intro h
    by_contra hcomparable
    have herror := authenticate_of_not_comparable hcomparable
    by_cases hpresents : Presents xApiKey agentName apiKeys
    · rw [h.accepts.mpr hpresents] at herror
      cases herror
    · obtain ⟨message, hrefused⟩ := h.refuses hpresents
      rw [hrefused] at herror
      cases herror
  · intro h
    refine ⟨⟨authenticate_eq_ok, ?_⟩, authenticate_of_comparable h⟩
    rintro ⟨key, hknown, rfl⟩
    obtain ⟨hpresented, hconfigured⟩ := h key key hknown rfl
    obtain ⟨message, hcompare⟩ := authenticate_of_ascii hknown hpresented hconfigured
    rw [hcompare]
    exact raiseIf_eq_ok.mpr (by simp)

end Authenticate

section Responses

variable [UnicodeTables] [Cryptography] [JsonDecoder]
variable {app : Application} {scope : RouteScope} {body : RouteRequestEnvelope}

/-- A run of the handler with its exception handlers, for a request the limit per agent let
through. -/
structure Answered (app : Application) (scope : RouteScope) (body : RouteRequestEnvelope)
    (response : Response) : Prop where
  run : ∃ useCase correlationId rest r, response = ending r ∧
    Completes (respond app (RouteEndpoint.route app scope useCase body correlationId)).run
      (⟨agentLimit scope body, true⟩ :: rest) r

/-- Behind the limit, a request that is not authenticated is answered for the exception of
authentication. -/
theorem answers_of_unauthenticated {response : Response} {e : PyException}
    (h : Answered app scope body response)
    (mismatch : authenticate (scope.header "x-api-key") body.request.agentName app.apiKeys =
      .error e) : RouteRuns.Answers response e := by
  obtain ⟨useCase, correlationId, rest, r, rfl, hrun⟩ := h.run
  have hrejected : ¬ Authenticated app scope body := fun hkey => by
    rw [Authenticated, mismatch] at hkey
    cases hkey
  rcases completes_run_recover.mp hrun with ⟨response, -, hreturns⟩ |
    ⟨handled, after, failure, hsplit, hraises, hanswer⟩
  · obtain ⟨_, _, _, -, hroute, -⟩ := returns_bind.mp hreturns
    obtain ⟨_, _, _, _, -, hadmitted, -⟩ := returns_route hroute
    obtain ⟨_, -, hkey, -⟩ := returns_admitRequest hadmitted
    exact absurd hkey hrejected
  · rcases raises_bind.mp hraises with hraises | ⟨_, _, _, -, -, hpure⟩
    swap
    · exact absurd hpure (not_raises_pure _ _)
    have hpassed : ∀ {admitted verified}, ¬ Returns (admitRequest app scope body) admitted verified := by
      intro admitted verified hadmitted
      obtain ⟨_, -, hkey, -⟩ := returns_admitRequest hadmitted
      exact hrejected hkey
    cases failed_of_raises hraises with
    | unrouted passed failed => exact absurd passed hpassed
    | outOfScope passed selected outside => exact absurd passed hpassed
    | unpublished passed selected within invalid => exact absurd passed hpassed
    | refused refused =>
      cases refused with
      | limited => cases hsplit
      | unauthorized authenticated unauthorized => exact absurd authenticated hrejected
      | unauthenticated mismatch' =>
        rw [mismatch] at mismatch'
        cases mismatch'
        exact answers_of_completes hanswer

/-- Authentication is exact where its comparison is defined, and only there a configured agent
answers another's key as an unknown agent does. -/
theorem authentication_exact_iff :
    (∀ agentName, Exact (scope.header "x-api-key") agentName app.apiKeys ↔
      Comparable (scope.header "x-api-key") agentName app.apiKeys) ∧
    ∀ (configured unknown : RouteRequestEnvelope) (response response' : Response),
      app.apiKeys.lookup unknown.request.agentName.val = none →
      ¬ Presents (scope.header "x-api-key") configured.request.agentName app.apiKeys →
      Answered app scope configured response → Answered app scope unknown response' →
      (response = response' ↔
        Comparable (scope.header "x-api-key") configured.request.agentName app.apiKeys) := by
  refine ⟨fun agentName => exact_iff, ?_⟩
  intro configured unknown response response' hunknown hother hanswered hanswered'
  obtain ⟨message, hrefused⟩ :=
    @authenticate_of_unknown _ (scope.header "x-api-key") _ _ hunknown
  have hunauthorized := answers_of_unauthenticated hanswered' hrefused
  constructor
  · rintro rfl
    by_contra hcomparable
    have hescaped : Escaped response :=
      answers_of_unauthenticated hanswered (authenticate_of_not_comparable hcomparable)
    rw [show response = _ from hunauthorized] at hescaped
    rcases hescaped.eq_or with h | h <;> cases h
  · intro hcomparable
    obtain ⟨message', hrefused'⟩ := authenticate_of_comparable hcomparable hother
    have hunauthorized' := answers_of_unauthenticated hanswered hrefused'
    exact Eq.trans hunauthorized' (Eq.symm hunauthorized)

private theorem raises_of_unauthenticated {e : PyException}
    (mismatch : authenticate (scope.header "x-api-key") body.request.agentName app.apiKeys =
      .error e) : Raises (admitRequest app scope body) [⟨agentLimit scope body, true⟩] e := by
  refine raises_bind.mpr (.inr ⟨_, [], true, rfl, returns_ask.mpr rfl, ?_⟩)
  refine raises_bind.mpr (.inr ⟨[], [], (), rfl, (returns_compute _ _).mpr ⟨rfl, rfl⟩, ?_⟩)
  exact raises_bind.mpr (.inl ((raises_compute _ _).mpr ⟨rfl, mismatch⟩))

theorem exists_answered (useCase : RouteModelUseCase) (correlationId : String) {e : PyException}
    {after : List (Event Reply)} {r : Except PyException Response}
    (mismatch : authenticate (scope.header "x-api-key") body.request.agentName app.apiKeys =
      .error e)
    (handled : Completes (handleException app (e, initialState body correlationId)).run after r) :
    Answered app scope body (ending r) := by
  refine ⟨useCase, correlationId, after, r, rfl, ?_⟩
  refine completes_run_recover.mpr (.inr ⟨[⟨agentLimit scope body, true⟩], after, _, rfl, ?_, handled⟩)
  refine raises_bind.mpr (.inl (raises_bind.mpr (.inl ?_)))
  exact (raises_mapError _ _ _).mpr ⟨e, rfl, raises_of_unauthenticated mismatch⟩

end Responses

namespace Deployed

open AuthorizedDecisions.Deployed
open RoutingSpecification.Deployed (useCase)
open VerificationSpecification.Deployed (genuine decoder)

/-- A table as startup admits it: not empty, and without an empty agent or key. -/
structure Admitted (apiKeys : ApiKeys) : Prop where
  some_ : apiKeys.entries ≠ []
  filled : ∀ entry ∈ apiKeys.entries, entry.1 ≠ "" ∧ entry.2 ≠ ""

/-- The presented key is one byte, which Latin-1 decodes outside ASCII. -/
def accented : RouteScope :=
  { headers := [(ascii "x-api-key", [0xe9])], clientHost := none, patience := 1 }

def plain (agentName : String) (bounded : 1 ≤ agentName.length ∧ agentName.length ≤ 200) :
    RouteRequestEnvelope :=
  .plain { request with agentName := ⟨agentName, bounded⟩ }

private theorem analyst_bounded : 1 ≤ "analyst".length ∧ "analyst".length ≤ 200 := by decide

def analyst : RouteRequestEnvelope := plain "analyst" analyst_bounded

def stranger : RouteRequestEnvelope := plain "stranger" (by decide)

private theorem not_comparable : ¬ Comparable
    (accented.header "x-api-key") "analyst" application.apiKeys := by
  intro h
  have hascii := h "analyst-key" (latin1 [0xe9]) (by decide) (by decide)
  exact absurd hascii.1 (by decide)

private theorem not_presents :
    ¬ Presents (accented.header "x-api-key") "analyst" application.apiKeys := by
  rintro ⟨key, hknown, hsent⟩
  obtain rfl : "analyst-key" = key := Option.some.inj ((by decide : _ = some "analyst-key").symm.trans hknown)
  exact absurd hsent (by decide)

theorem analyst_answered : @Answered asciiTables genuine decoder application accented analyst
    (@Response.internalServerError genuine) :=
  @exists_answered asciiTables genuine decoder _ _ _ useCase "corr-1" _ _ _
    (@authenticate_of_not_comparable asciiTables _ _ _ not_comparable)
    ((completes_run_throw _ _).mpr ⟨rfl, rfl⟩)

theorem stranger_answered : ∃ response : @Response genuine,
    response ≠ @Response.internalServerError genuine ∧
    @Answered asciiTables genuine decoder application accented stranger response := by
  obtain ⟨message, hrefused⟩ := @authenticate_of_unknown asciiTables (accented.header "x-api-key")
    "stranger" application.apiKeys (by decide)
  exact ⟨_, by simp [ending], @exists_answered asciiTables genuine decoder _ _ stranger useCase "corr-1" _ _ _
    hrefused ((completes_run_pure _ _).mpr ⟨rfl, rfl⟩)⟩

theorem authentication_exact_iff_deployed : ∃ response : @Response genuine,
    (@Response.internalServerError genuine = response ↔
      Comparable (accented.header "x-api-key") "analyst" application.apiKeys) := by
  obtain ⟨response, -, hanswered⟩ := stranger_answered
  exact ⟨response, (@authentication_exact_iff asciiTables genuine decoder application accented).2
    analyst stranger _ _ (by decide) not_presents analyst_answered hanswered⟩

/-- A key outside ASCII is not refused, and tells a configured agent from an unknown one. -/
theorem configured_agent_revealed :
    (¬ ∀ [UnicodeTables] (scope : RouteScope) (agentName : String) (apiKeys : ApiKeys),
      Admitted apiKeys → Exact (scope.header "x-api-key") agentName apiKeys) ∧
    ¬ ∀ [UnicodeTables] [Cryptography] [JsonDecoder] (app : Application) (scope : RouteScope)
      (configured unknown : RouteRequestEnvelope) (response response' : Response),
      Admitted app.apiKeys → app.apiKeys.lookup configured.request.agentName.val ≠ none →
      app.apiKeys.lookup unknown.request.agentName.val = none →
      ¬ Presents (scope.header "x-api-key") configured.request.agentName app.apiKeys →
      Answered app scope configured response → Answered app scope unknown response' →
      response = response' := by
  have hadmitted : Admitted application.apiKeys := ⟨by decide, by decide⟩
  constructor
  · intro h
    exact not_comparable ((@exact_iff asciiTables _ _ _).mp (@h asciiTables accented "analyst" _ hadmitted))
  · intro h
    obtain ⟨response, hne, hanswered⟩ := stranger_answered
    exact hne (@h asciiTables genuine decoder application accented analyst stranger _ _ hadmitted
      (by decide) (by decide) not_presents analyst_answered hanswered).symm

end Deployed

end PolicyModelRouter.AgentAuthentication
