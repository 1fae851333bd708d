import PolicyModelRouter.AuthorizationVerifier

/-!
# The calls of one verification

A verification whose checks without a store all pass reads the projection of runtime
control at most once, and consumes the identifier at most once, after the read.
-/

namespace PolicyModelRouter.VerificationTraces
open AuthorizationContract AuthorizationVerifier AwaitingPrograms OrderedChecks ReplayGuards
open RouterCalls RoutingCatalog RuntimeControl TrustedKeys UtcTimestamps Uuids
open RuntimeAuthorizationVerifier

def consumption (replayGuard : RuntimeAuthorizationReplayGuard) (authorizationId : UUID)
    (expiresAt now : Datetime) : Call :=
  match replayGuard with
  | .inMemory _ _ => .memoryConsume authorizationId expiresAt now
  | .redis keyPrefix _ => .redisSet (keyPrefix ++ authorizationId.str) (timeToLive expiresAt now)

def consumed (replayGuard : RuntimeAuthorizationReplayGuard) (authorizationId : UUID)
    (expiresAt now : Datetime) : Event Reply :=
  match replayGuard with
  | .inMemory _ _ => ⟨.memoryConsume authorizationId expiresAt now, ConsumeReply.fresh⟩
  | .redis keyPrefix _ =>
    ⟨.redisSet (keyPrefix ++ authorizationId.str) (timeToLive expiresAt now), SetReply.set⟩

/-- The code under which an answered consumption is denied. -/
def refusal : Event Reply → Option DenialCode
  | ⟨.memoryConsume _ _ _, reply⟩ =>
    match reply with
    | ConsumeReply.fresh => none
    | ConsumeReply.replayed => some .replayDetected
    | ConsumeReply.full => some .replayStoreFull
  | ⟨.redisSet _ _, reply⟩ =>
    match reply with
    | SetReply.set => none
    | SetReply.notSet => some .replayDetected
    | SetReply.raises => some .replayStoreUnavailable
  | _ => none

theorem consumed_fst (replayGuard : RuntimeAuthorizationReplayGuard) (authorizationId : UUID)
    (expiresAt now : Datetime) :
    (consumed replayGuard authorizationId expiresAt now).1 =
      consumption replayGuard authorizationId expiresAt now := by
  cases replayGuard <;> rfl

section Verifier

variable {verifier : RuntimeAuthorizationVerifier} {claims : RuntimeAuthorizationClaims}
variable {now : Datetime} {es : List (Event Reply)}

private theorem returns_consumeAuthorization {u : Unit} :
    Returns (verifier.consumeAuthorization claims now) es u ↔
      es = [consumed verifier.replayGuard claims.authorizationId claims.expiresAt now] := by
  unfold consumeAuthorization RuntimeAuthorizationReplayGuard.consume consumed
  simp only [returns_bind, returns_mapError, returns_compute]
  cases verifier.replayGuard with
  | inMemory maxEntries positive =>
    simp only [returns_bind, returns_ask]
    constructor
    · rintro ⟨_, _, fresh, rfl, ⟨_, _, reply, rfl, rfl, hreply⟩, rfl, hfresh⟩
      cases reply <;> simp_all [raiseIf]
    · rintro rfl
      exact ⟨_, [], true, (List.append_nil _).symm,
        ⟨_, [], .fresh, (List.append_nil _).symm, rfl, by simp⟩, rfl, rfl⟩
  | redis keyPrefix named =>
    simp only [returns_bind, returns_ask]
    constructor
    · rintro ⟨_, _, fresh, rfl, ⟨_, _, reply, rfl, rfl, hreply⟩, rfl, hfresh⟩
      cases reply <;> simp_all [raiseIf]
    · rintro rfl
      exact ⟨_, [], true, (List.append_nil _).symm,
        ⟨_, [], .set, (List.append_nil _).symm, rfl, by simp⟩, rfl, rfl⟩

private theorem issues_consumeAuthorization {c : Call} :
    Issues (verifier.consumeAuthorization claims now).run es c ↔
      es = [] ∧ c = consumption verifier.replayGuard claims.authorizationId claims.expiresAt now := by
  unfold consumeAuthorization RuntimeAuthorizationReplayGuard.consume consumption
  simp only [issues_bind, issues_mapError, not_issues_compute, and_false, exists_false, or_false]
  cases verifier.replayGuard with
  | inMemory maxEntries positive =>
    simp only [issues_bind, issues_ask]
    apply or_iff_left
    rintro ⟨_, _, reply, -, -, h⟩
    cases reply <;> exact not_issues_done _ _ _ h
  | redis keyPrefix named =>
    simp only [issues_bind, issues_ask]
    apply or_iff_left
    rintro ⟨_, _, reply, -, -, h⟩
    cases reply <;> exact not_issues_done _ _ _ h

/-- A consumption that is denied was made, and its answer decides the code. -/
theorem raises_consumeAuthorization {e : PyException}
    (h : Raises (verifier.consumeAuthorization claims now) es e) :
    ∃ reply code message,
      es = [⟨consumption verifier.replayGuard claims.authorizationId claims.expiresAt now, reply⟩] ∧
        refusal ⟨consumption verifier.replayGuard claims.authorizationId claims.expiresAt now,
          reply⟩ = some code ∧ e = denial code message := by
  unfold consumeAuthorization RuntimeAuthorizationReplayGuard.consume at h
  unfold consumption
  simp only [raises_bind, raises_mapError, returns_mapError, raises_compute] at h
  cases hguard : verifier.replayGuard with
  | inMemory maxEntries positive =>
    simp only [hguard, raises_bind, returns_bind, returns_ask, not_raises_ask, false_or] at h
    rcases h with ⟨_, rfl, _, _, reply, rfl, rfl, h⟩ |
      ⟨_, _, fresh, rfl, ⟨_, _, reply, rfl, rfl, h⟩, rfl, hfresh⟩
    · cases reply with
      | fresh => simp at h
      | replayed => simp at h
      | full =>
        obtain ⟨rfl, rfl⟩ := (raises_throw _ _).mp h
        exact ⟨ConsumeReply.full, _, _, rfl, rfl, rfl⟩
    · cases reply with
      | fresh => simp_all [raiseIf]
      | full => simp at h
      | replayed =>
        obtain ⟨rfl, rfl⟩ := (returns_pure _ _).mp h
        exact ⟨ConsumeReply.replayed, _, _, rfl, rfl, (Except.error.inj hfresh).symm⟩
  | redis keyPrefix named =>
    simp only [hguard, raises_bind, returns_bind, returns_ask, not_raises_ask, false_or] at h
    rcases h with ⟨_, rfl, _, _, reply, rfl, rfl, h⟩ |
      ⟨_, _, fresh, rfl, ⟨_, _, reply, rfl, rfl, h⟩, rfl, hfresh⟩
    · cases reply with
      | set => simp at h
      | notSet => simp at h
      | raises =>
        obtain ⟨rfl, rfl⟩ := (raises_throw _ _).mp h
        exact ⟨SetReply.raises, _, _, rfl, rfl, rfl⟩
    · cases reply with
      | set => simp_all [raiseIf]
      | raises => simp at h
      | notSet =>
        obtain ⟨rfl, rfl⟩ := (returns_pure _ _).mp h
        exact ⟨SetReply.notSet, _, _, rfl, rfl, (Except.error.inj hfresh).symm⟩

end Verifier

/-- A snapshot lets the signed agent through. -/
structure Permits (claims : RuntimeAuthorizationClaims) (snapshot : RuntimeControlSnapshot) :
    Prop where
  inactive : snapshot.state = .inactive
  floor : snapshot.revokedThroughAgentVersion < claims.subject.agentVersion.val

def controlKey (store : RedisRuntimeControlStore) (claims : RuntimeAuthorizationClaims) : String :=
  store.keyPrefix ++ claims.subject.agentId.str

/-- The calls of runtime control when it lets the signed agent through. -/
def Allowed [JsonDecoder] (verifier : RuntimeAuthorizationVerifier)
    (claims : RuntimeAuthorizationClaims) (es : List (Event Reply)) : Prop :=
  match verifier.runtimeControl with
  | none => es = []
  | some store => ∃ reply snapshot, es = [⟨.redisGet (controlKey store claims), reply⟩] ∧
      interpretReply store claims.subject.agentId.str reply = .ok (some snapshot) ∧
      Permits claims snapshot

def controlCodes : List DenialCode :=
  [.runtimeControlUnavailable, .killSwitchEngaged, .runtimeAuthorizationRevoked]

theorem permit_eq_ok {agentVersion : ℤ} {read : Option RuntimeControlSnapshot}
    {snapshot : RuntimeControlSnapshot} :
    permit agentVersion read = .ok snapshot ↔
      read = some snapshot ∧ snapshot.state = .inactive ∧
        snapshot.revokedThroughAgentVersion < agentVersion := by
  cases read with
  | none => simp [permit]
  | some found =>
    simp only [permit, raiseIf]
    by_cases hactive : found.state = .active
    · rw [if_pos hactive]
      constructor
      · rintro ⟨⟩
      · rintro ⟨h, hinactive, -⟩
        rw [Option.some.inj h, hinactive] at hactive
        cases hactive
    · rw [if_neg hactive]
      have hinactive : found.state = .inactive := by
        cases h : found.state with
        | inactive => rfl
        | active => exact absurd h hactive
      by_cases hrevoked : agentVersion ≤ found.revokedThroughAgentVersion
      · rw [if_pos hrevoked]
        constructor
        · rintro ⟨⟩
        · rintro ⟨h, -, hfloor⟩
          rw [Option.some.inj h] at hrevoked
          omega
      · rw [if_neg hrevoked]
        constructor
        · rintro ⟨⟩
          exact ⟨rfl, hinactive, by omega⟩
        · rintro ⟨h, -, -⟩
          rw [Option.some.inj h]
          rfl

section Control

variable [JsonDecoder] {verifier : RuntimeAuthorizationVerifier}
variable {claims : RuntimeAuthorizationClaims} {es : List (Event Reply)}

private theorem returns_read {store : RedisRuntimeControlStore} {agentId : UUID}
    {read : Option RuntimeControlSnapshot} :
    Returns (store.read agentId.str) es read ↔ ∃ reply,
      es = [⟨.redisGet (store.keyPrefix ++ agentId.str), reply⟩] ∧
        interpretReply store agentId.str reply = .ok read := by
  unfold RedisRuntimeControlStore.read
  simp only [returns_bind, returns_compute, returns_ask, raiseIf, str_ne_empty, if_false]
  constructor
  · rintro ⟨_, _, _, rfl, ⟨rfl, -⟩, _, _, reply, rfl, rfl, rfl, h⟩
    exact ⟨reply, rfl, h⟩
  · rintro ⟨reply, rfl, h⟩
    exact ⟨[], _, (), rfl, ⟨rfl, trivial⟩, _, [], reply, (List.append_nil _).symm, rfl, rfl, h⟩

theorem returns_enforceRuntimeControl {u : Unit} :
    Returns (verifier.enforceRuntimeControl claims) es u ↔ Allowed verifier claims es := by
  unfold enforceRuntimeControl Allowed
  cases verifier.runtimeControl with
  | none => simp
  | some store =>
    simp only [returns_bind, returns_mapError, enforce, returns_read, returns_compute,
      permit_eq_ok, returns_pure]
    constructor
    · rintro ⟨_, _, snapshot, rfl, ⟨_, _, _, rfl, ⟨reply, rfl, hread⟩, rfl, rfl, h₁, h₂⟩, rfl, -⟩
      exact ⟨reply, snapshot, rfl, hread, h₁, h₂⟩
    · rintro ⟨reply, snapshot, rfl, hread, h₁, h₂⟩
      exact ⟨_, [], snapshot, (List.append_nil _).symm, ⟨_, [], some snapshot,
        (List.append_nil _).symm, ⟨reply, rfl, hread⟩, rfl, rfl, h₁, h₂⟩, rfl, trivial⟩

private theorem issues_enforceRuntimeControl {c : Call} :
    Issues (verifier.enforceRuntimeControl claims).run es c ↔
      es = [] ∧ ∃ store, verifier.runtimeControl = some store ∧
        c = .redisGet (controlKey store claims) := by
  unfold enforceRuntimeControl
  cases verifier.runtimeControl with
  | none =>
    constructor
    · exact fun h => absurd h (not_issues_pure _ _)
    · rintro ⟨-, _, ⟨⟩, -⟩
  | some store =>
    simp only [issues_bind, issues_mapError, enforce, RedisRuntimeControlStore.read,
      not_issues_compute, not_issues_pure, issues_ask, returns_compute, raiseIf, str_ne_empty,
      if_false, and_false, exists_false, or_false, false_or]
    constructor
    · rintro ⟨_, _, _, rfl, ⟨rfl, -⟩, rfl, rfl⟩
      exact ⟨rfl, store, rfl, rfl⟩
    · rintro ⟨rfl, _, ⟨⟩, rfl⟩
      exact ⟨[], [], (), rfl, ⟨rfl, trivial⟩, rfl, rfl⟩

/-- Every exception of runtime control follows the one read, and is one of its denials. -/
theorem raises_enforceRuntimeControl {e : PyException}
    (h : Raises (verifier.enforceRuntimeControl claims) es e) :
    ∃ store reply code message, verifier.runtimeControl = some store ∧
      es = [⟨.redisGet (controlKey store claims), reply⟩] ∧ code ∈ controlCodes ∧
        e = .runtimeAuthorization ⟨code, message, true⟩ := by
  unfold enforceRuntimeControl at h
  cases hcontrol : verifier.runtimeControl with
  | none => simp [hcontrol] at h
  | some store =>
    simp only [hcontrol, raises_bind, raises_mapError, returns_mapError, enforce, returns_read,
      raises_compute, not_raises_pure, and_false, exists_false, or_false] at h
    obtain ⟨e', rfl, h⟩ := h
    rcases h with ⟨e'', rfl, h⟩ | ⟨_, _, read, rfl, ⟨reply, rfl, hread⟩, rfl, hpermit⟩
    · unfold RedisRuntimeControlStore.read at h
      simp only [raises_bind, raises_compute, returns_compute, returns_ask, not_raises_ask,
        raiseIf, str_ne_empty, if_false, false_or, reduceCtorEq, and_false] at h
      obtain ⟨_, _, _, rfl, ⟨rfl, -⟩, _, _, reply, rfl, rfl, rfl, -⟩ := h
      exact ⟨store, reply, .runtimeControlUnavailable, _, rfl, rfl, by simp [controlCodes], rfl⟩
    · refine ⟨store, reply, ?_⟩
      cases read with
      | none =>
        cases hpermit
        exact ⟨.runtimeControlUnavailable, _, rfl, rfl, by simp [controlCodes], rfl⟩
      | some snapshot =>
        by_cases hactive : snapshot.state = .active
        · simp only [permit, raiseIf, if_pos hactive] at hpermit
          cases hpermit
          exact ⟨.killSwitchEngaged, _, rfl, rfl, by simp [controlCodes], rfl⟩
        · by_cases hrevoked :
              (claims.subject.agentVersion.val : ℤ) ≤ snapshot.revokedThroughAgentVersion
          · simp only [permit, raiseIf, if_neg hactive, if_pos hrevoked] at hpermit
            cases hpermit
            exact ⟨.runtimeAuthorizationRevoked, _, rfl, rfl, by simp [controlCodes], rfl⟩
          · simp only [permit, raiseIf, if_neg hactive, if_neg hrevoked] at hpermit
            cases hpermit

end Control

/-- Verification passes under a UTC clock only. -/
theorem utc_of_verifyOffline [Cryptography] {verifier : RuntimeAuthorizationVerifier}
    {envelope : SignedRuntimeAuthorization} {request : RouteRequest} {now : ClockReading}
    (h : verifier.verifyOffline envelope request now = .ok ()) : now = .utc now.wall := by
  obtain ⟨wall, utcoffset⟩ := now
  obtain ⟨_, hutc, -⟩ := bind_eq_ok.mp h
  have hzero := raiseIf_eq_ok.mp hutc
  simp only [ne_eq, not_not] at hzero
  rw [hzero]
  rfl

/-- The checks without a store pass only from the issue on and before the expiry, widened by the
clock skew. -/
theorem inTime_of_verifyOffline [Cryptography] {verifier : RuntimeAuthorizationVerifier}
    {envelope : SignedRuntimeAuthorization} {request : RouteRequest} {now : Datetime}
    (h : verifier.verifyOffline envelope request (.utc now) = .ok ()) :
    envelope.claims.issuedAt.micros ≤ now.micros + verifier.clockSkewSeconds * microsPerSecond ∧
      now.micros <
        envelope.claims.expiresAt.micros + verifier.clockSkewSeconds * microsPerSecond := by
  change (verifier.verifyIdentityAndTime envelope.claims now).bind _ = .ok () at h
  obtain ⟨_, htime, -⟩ := bind_eq_ok.mp h
  obtain ⟨_, -, htime⟩ := bind_eq_ok.mp htime
  obtain ⟨_, -, htime⟩ := bind_eq_ok.mp htime
  obtain ⟨latest, hlatest, htime⟩ := bind_eq_ok.mp htime
  obtain ⟨_, hissued, htime⟩ := bind_eq_ok.mp htime
  obtain ⟨_, -, htime⟩ := bind_eq_ok.mp htime
  obtain ⟨earliest, hearliest, htime⟩ := bind_eq_ok.mp htime
  have hplus := Datetime.plusSeconds_eq_some.mp (orOverflow_eq_ok.mp hlatest)
  have hminus := Datetime.minusSeconds_eq_some.mp (orOverflow_eq_ok.mp hearliest)
  have hissued := raiseIf_eq_ok.mp hissued
  have hlive := raiseIf_eq_ok.mp htime
  rw [Datetime.lt_def] at hissued
  rw [Datetime.le_def] at hlive
  omega

section Verification

variable [Cryptography] [JsonDecoder] {verifier : RuntimeAuthorizationVerifier}
variable {envelope : SignedRuntimeAuthorization} {request : RouteRequest} {now : ClockReading}
variable {es : List (Event Reply)}

/-- The runs that return: every offline check passed, runtime control let the agent
through, and the identifier was fresh. -/
theorem returns_verify {verified : VerifiedRuntimeAuthorization} :
    Returns (verifier.verify envelope request now) es verified ↔
      verifier.verifyOffline envelope request now = .ok () ∧
        (∃ control, Allowed verifier envelope.claims control ∧
          es = control ++ [consumed verifier.replayGuard envelope.claims.authorizationId
            envelope.claims.expiresAt now.wall]) ∧
        verified = ⟨envelope, now, verifier.keySet.generation⟩ := by
  unfold verify
  simp only [returns_bind, returns_compute, returns_enforceRuntimeControl,
    returns_consumeAuthorization, returns_pure]
  constructor
  · rintro ⟨_, _, _, rfl, ⟨rfl, hoffline⟩, control, _, _, rfl, hcontrol, _, _, _, rfl, rfl, rfl, rfl⟩
    exact ⟨hoffline, ⟨control, hcontrol, by simp⟩, rfl⟩
  · rintro ⟨hoffline, ⟨control, hcontrol, rfl⟩, rfl⟩
    exact ⟨[], _, (), rfl, ⟨rfl, hoffline⟩, control, _, (), rfl, hcontrol, _, [], (),
      (List.append_nil _).symm, rfl, rfl, rfl⟩

/-- The calls of a verification: the read of runtime control, and after it the
consumption. -/
theorem issues_verify {c : Call} :
    Issues (verifier.verify envelope request now).run es c ↔
      verifier.verifyOffline envelope request now = .ok () ∧
        ((es = [] ∧ ∃ store, verifier.runtimeControl = some store ∧
            c = .redisGet (controlKey store envelope.claims)) ∨
          (Allowed verifier envelope.claims es ∧
            c = consumption verifier.replayGuard envelope.claims.authorizationId
              envelope.claims.expiresAt now.wall)) := by
  unfold verify
  simp only [issues_bind, not_issues_compute, not_issues_pure, returns_compute, false_or,
    returns_enforceRuntimeControl, issues_enforceRuntimeControl, issues_consumeAuthorization,
    and_false, exists_false, or_false]
  constructor
  · rintro ⟨_, _, _, rfl, ⟨rfl, hoffline⟩, h⟩
    rcases h with ⟨rfl, hstore⟩ | ⟨control, _, _, rfl, hcontrol, rfl, rfl⟩
    · exact ⟨hoffline, .inl ⟨rfl, hstore⟩⟩
    · exact ⟨hoffline, .inr ⟨by simpa using hcontrol, rfl⟩⟩
  · rintro ⟨hoffline, ⟨rfl, hstore⟩ | ⟨hcontrol, rfl⟩⟩
    · exact ⟨[], [], (), rfl, ⟨rfl, hoffline⟩, .inl ⟨rfl, hstore⟩⟩
    · exact ⟨[], es, (), rfl, ⟨rfl, hoffline⟩, .inr ⟨es, [], (), (List.append_nil _).symm,
        hcontrol, rfl, rfl⟩⟩

/-- The runs that raise, by the step that raised. -/
inductive Denied (verifier : RuntimeAuthorizationVerifier) (envelope : SignedRuntimeAuthorization)
    (request : RouteRequest) (now : ClockReading) : List (Event Reply) → PyException → Prop where
  | offline {e : PyException} (check : verifier.verifyOffline envelope request now = .error e) :
      Denied verifier envelope request now [] e
  | control {store : RedisRuntimeControlStore}
      {reply : Reply (.redisGet (controlKey store envelope.claims))} {code : DenialCode}
      {message : String} (checked : verifier.verifyOffline envelope request now = .ok ())
      (configured : verifier.runtimeControl = some store) (own : code ∈ controlCodes) :
      Denied verifier envelope request now [⟨.redisGet (controlKey store envelope.claims), reply⟩]
        (.runtimeAuthorization ⟨code, message, true⟩)
  | replay {control : List (Event Reply)} {code : DenialCode} {message : String}
      {reply : Reply (consumption verifier.replayGuard envelope.claims.authorizationId
        envelope.claims.expiresAt now.wall)}
      (checked : verifier.verifyOffline envelope request now = .ok ())
      (allowed : Allowed verifier envelope.claims control)
      (refused : refusal ⟨_, reply⟩ = some code) :
      Denied verifier envelope request now (control ++ [⟨_, reply⟩]) (denial code message)

theorem denied_of_raises {e : PyException}
    (h : Raises (verifier.verify envelope request now) es e) :
    Denied verifier envelope request now es e := by
  unfold verify at h
  simp only [raises_bind, raises_compute, returns_compute, returns_enforceRuntimeControl,
    not_raises_pure, and_false, exists_false, or_false] at h
  rcases h with ⟨rfl, hoffline⟩ | ⟨_, _, _, rfl, ⟨rfl, hoffline⟩, h⟩
  · exact .offline hoffline
  · rcases h with hcontrol | ⟨control, _, _, rfl, hcontrol, hconsume⟩
    · obtain ⟨store, reply, code, message, hstore, rfl, hcode, rfl⟩ :=
        raises_enforceRuntimeControl hcontrol
      exact .control hoffline hstore hcode
    · obtain ⟨reply, code, message, rfl, hrefused, rfl⟩ := raises_consumeAuthorization hconsume
      exact .replay hoffline hcontrol hrefused

end Verification

end PolicyModelRouter.VerificationTraces
