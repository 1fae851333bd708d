import PolicyModelRouter.DenialEvidence
import PolicyModelRouter.ReplicatedSingleUse

/-!
# What a denied request does to the stores

A request reads the control projection only after every check without a store has passed,
and consumes an identifier only after that read allowed it. A request denied before the
consumption leaves the consumed identifiers as they were.
-/

namespace PolicyModelRouter.StoreFrames
open AuthorizationContract AuthorizationVerifier AwaitingPrograms DenialRuns HandlerRuns
open PythonText ReplayGuards RouteEndpoint RouteRuns RouterCalls RuntimeControl TrustedKeys
open UtcTimestamps Uuids VerificationTraces ViolationEvidence WireContracts

/-- The keyspace of Redis, and the entries of the guard in memory. -/
structure Stores where
  keyspace : ReplicatedSingleUse.Keyspace
  entries : Entries

/-- The identifiers still held as consumed at an instant: keys in Redis, and entries in
memory. -/
def Stores.unexpired (s : Stores) (t : Datetime) : Set (String ⊕ UUID) :=
  fun identifier => match identifier with
    | .inl key => t.micros < s.keyspace.deadline key
    | .inr authorizationId => ∃ expiresAt, (authorizationId, expiresAt) ∈ s.entries ∧ t < expiresAt

def consumes : Call → Bool
  | .redisSet _ _ => true
  | .memoryConsume _ _ _ => true
  | _ => false

def reads : Call → Bool
  | .redisGet _ => true
  | _ => false

/-- How the stores answer; time passes with every call. Redis is the keyspace of the
replicas, and every other answer leaves the stores alone. -/
inductive Touch (maxEntries : ℕ) : Stores → (call : Call) → Reply call → Stores → Prop where
  | redis {s : Stores} {key : String} {ttl : ℕ} {reply : SetReply}
      {keyspace : ReplicatedSingleUse.Keyspace} (clock : Datetime)
      (served : ReplicatedSingleUse.Serve s.keyspace (.redisSet key ttl) reply keyspace) :
      Touch maxEntries s (.redisSet key ttl) reply ⟨{ keyspace with clock := clock }, s.entries⟩
  | memory (s : Stores) (authorizationId : UUID) (expiresAt now clock : Datetime) :
      Touch maxEntries s (.memoryConsume authorizationId expiresAt now)
        (consumeInMemory maxEntries s.entries authorizationId expiresAt now).1
        ⟨{ s.keyspace with clock := clock },
          (consumeInMemory maxEntries s.entries authorizationId expiresAt now).2⟩
  | elsewhere (s : Stores) {c : Call} (reply : Reply c) (clock : Datetime)
      (other : consumes c = false) :
      Touch maxEntries s c reply ⟨{ s.keyspace with clock := clock }, s.entries⟩

section Touch

variable {maxEntries : ℕ} {s s' : Stores} {es : List (Event Reply)}

/-- Calls that consume nothing leave the consumed identifiers alone. -/
theorem unexpired_of_touch {c : Call} {r : Reply c} (h : Touch maxEntries s c r s')
    (other : consumes c = false) (t : Datetime) : s'.unexpired t = s.unexpired t := by
  cases h with
  | redis clock served => cases other
  | memory authorizationId expiresAt now clock => cases other
  | elsewhere reply clock other => rfl

/-- The frame rule for the consumed identifiers. -/
theorem unexpired_of_served (h : Served (Touch maxEntries) s es s')
    (unspent : ∀ e ∈ es, consumes e.1 = false) (t : Datetime) :
    s'.unexpired t = s.unexpired t :=
  h.invariant (fun present => present.unexpired t = s.unexpired t)
    (fun _ _ _ he htouch hsame => (unexpired_of_touch htouch (unspent _ he) t).trans hsame) rfl

def instantOf : Call → Datetime
  | .memoryConsume _ _ now => now
  | _ => ⟨0, by decide⟩

/-- A consumption that is refused, by an answer that leaves nothing open, adds nothing and
drops nothing that is still unexpired. -/
theorem unexpired_of_refused {c : Call} {r : Reply c} {code : DenialCode}
    (h : Touch maxEntries s c r s') (refused : refusal ⟨c, r⟩ = some code)
    (decided : code ≠ .replayStoreUnavailable) {t : Datetime} (later : instantOf c ≤ t) :
    s'.unexpired t = s.unexpired t := by
  cases h with
  | elsewhere reply clock other => rfl
  | redis clock served =>
    cases served with
    | set => cases refused
    | notSet => rfl
    | unexecuted => exact absurd (Option.some.inj refused).symm decided
    | unacknowledged => exact absurd (Option.some.inj refused).symm decided
  | memory authorizationId expiresAt now clock =>
    rcases consumeInMemory_cases maxEntries s.entries authorizationId expiresAt now with
      ⟨-, hfresh⟩ | ⟨reply, -, hrefused⟩
    · rw [hfresh] at refused
      cases refused
    · funext identifier
      cases identifier with
      | inl key => rfl
      | inr other =>
        simp only [Stores.unexpired, hrefused, mem_live, eq_iff_iff]
        constructor
        · rintro ⟨expiresAt, ⟨hmem, -⟩, hlive⟩
          exact ⟨expiresAt, hmem, hlive⟩
        · rintro ⟨expiresAt, hmem, hlive⟩
          exact ⟨expiresAt, ⟨hmem, Datetime.lt_def.mpr (lt_of_le_of_lt (Datetime.le_def.mp later)
            (Datetime.lt_def.mp hlive))⟩, hlive⟩

end Touch

section Order

variable [UnicodeTables] [Cryptography] [JsonDecoder] [BodyParser]
variable {app : Application} {scope : RouteScope} {es : List (Event Reply)}

omit [UnicodeTables] [Cryptography] [JsonDecoder] [BodyParser] in
theorem touchesStore_eq (c : Call) : touchesStore c = (reads c || consumes c) := by
  cases c <;> rfl

/-- At most one read, and after it at most one consumption. -/
def ReadThenConsume (es : List (Event Reply)) : Prop :=
  ∃ read consumed, storeEvents es = read ++ consumed ∧ read.length ≤ 1 ∧ consumed.length ≤ 1 ∧
    (∀ e ∈ read, reads e.1 = true) ∧ ∀ e ∈ consumed, consumes e.1 = true

omit [UnicodeTables] [Cryptography] [BodyParser] in
theorem length_of_allowed {verifier : RuntimeAuthorizationVerifier}
    {claims : RuntimeAuthorizationClaims} (h : Allowed verifier claims es) :
    es.length ≤ 1 ∧ ∀ e ∈ es, reads e.1 = true := by
  unfold Allowed at h
  split at h
  · simp [h]
  · obtain ⟨reply, snapshot, rfl, -⟩ := h
    simp [reads]

omit [UnicodeTables] [Cryptography] [JsonDecoder] [BodyParser] in
theorem consumes_consumption (replayGuard : RuntimeAuthorizationReplayGuard) (authorizationId : UUID)
    (expiresAt now : Datetime) :
    consumes (consumption replayGuard authorizationId expiresAt now) = true := by
  cases replayGuard <;> rfl

theorem readThenConsume_of_issues
    (h : ∀ before e after, es = before ++ e :: after → Issues (postRoute app scope) before e.1) :
    ReadThenConsume es := by
  induction es using List.reverseRecOn with
  | nil => exact ⟨[], [], rfl, by simp, by simp, by simp, by simp⟩
  | append_singleton init e ih =>
    have hinit : ReadThenConsume init := ih fun before d after hsplit =>
      h before d (after ++ [e]) (by rw [hsplit]; simp)
    have hissued : Issues (postRoute app scope) init e.1 := h init e [] rfl
    cases htouches : touchesStore e.1 with
    | false =>
      have hsame : storeEvents (init ++ [e]) = storeEvents init := by
        have hnone : storeEvents [e] = [] := storeEvents_eq_nil (by simpa using htouches)
        rw [storeEvents_append, hnone, List.append_nil]
      simpa only [ReadThenConsume, hsame] using hinit
    | true =>
      have hlast : storeEvents (init ++ [e]) = storeEvents init ++ [e] := by
        have hall : storeEvents [e] = [e] := storeEvents_eq_self (by simpa using htouches)
        rw [storeEvents_append, hall]
      obtain ⟨c, reply⟩ := e
      cases storeCall_of_issues hissued htouches with
      | read checked first configured =>
        refine ⟨[⟨_, reply⟩], [], ?_, by simp, by simp, by simp [reads], by simp⟩
        rw [hlast, first]
        rfl
      | @consume body verifier envelope now checked allowed =>
        obtain ⟨hlength, hreads⟩ := length_of_allowed allowed
        refine ⟨storeEvents init, [⟨_, reply⟩], hlast, hlength, by simp, hreads, ?_⟩
        rintro e' he'
        rw [List.mem_singleton.mp he']
        exact consumes_consumption _ _ _ _

/-- The responses that spend no authority: the errors in front of the authorization, and the
denials of every step but the replay guard and the check of the selected group. -/
def isHarmless : Response → Bool
  | .error statusCode _ _ => statusCode ∈ [400, 401, 413, 422, 429]
  | .unparsableBody => true
  | .violation code _ => code ∉ replayCodes ++ modelScopeCodes
  | _ => false

omit [UnicodeTables] [JsonDecoder] [BodyParser] in
private theorem not_isHarmless_of_escaped {response : Response} (h : Escaped response) :
    isHarmless response = false := by
  rcases h.eq_or with rfl | rfl <;> rfl

/-- The exceptions with a harmless answer. -/
inductive Sparing : PyException → Prop where
  | authentication (message : String) : Sparing (.authentication message)
  | rateLimitExceeded (message : String) : Sparing (.rateLimitExceeded message)
  | denial (error : RuntimeAuthorizationError)
      (other : error.code ∉ replayCodes ++ modelScopeCodes) : Sparing (.runtimeAuthorization error)

omit [JsonDecoder] [BodyParser] in
private theorem sparing_of_answers {response : Response} {e : PyException}
    (h : RouteRuns.Answers response e)
    (harmless : isHarmless response = true) : Sparing e := by
  have hescaped : ¬ Escaped response := fun hescaped => by
    rw [not_isHarmless_of_escaped hescaped] at harmless
    cases harmless
  cases e with
  | authentication message => exact .authentication message
  | rateLimitExceeded message => exact .rateLimitExceeded message
  | runtimeAuthorization error =>
    rcases h with h | ⟨envelope, rfl⟩
    · exact absurd h hescaped
    · exact .denial error (by simpa [isHarmless] using harmless)
  | noViableModelGroup decision =>
    rcases h with h | ⟨rejection, rfl⟩
    · exact absurd h hescaped
    · cases harmless
  | incompleteRoutingPolicy message =>
    rw [h] at harmless
    cases harmless
  | _ => exact absurd h hescaped

omit [UnicodeTables] [BodyParser] in
/-- A verification denied outside the replay guard consumed nothing. -/
theorem unspent_of_denied {verifier : RuntimeAuthorizationVerifier}
    {envelope : SignedRuntimeAuthorization} {request : RoutingCatalog.RouteRequest}
    {now : ClockReading} {e : PyException} (h : Denied verifier envelope request now es e)
    (sparing : Sparing e) : ∀ e ∈ es, consumes e.1 = false := by
  cases h with
  | offline check => simp
  | control checked configured own => simp [consumes]
  | replay checked allowed refused =>
    cases sparing with
    | denial error other => exact absurd (List.mem_append_left _ (code_of_refusal refused)) other

omit [BodyParser] in
/-- A handler that ends in a sparing exception consumed nothing. -/
theorem unspent_of_failed {useCase : RouteModelUseCase} {body : RouteRequestEnvelope}
    {correlationId : String} {failure : PyException × RequestState}
    (h : Failed app scope useCase body correlationId es failure) (sparing : Sparing failure.1) :
    ∀ e ∈ es, consumes e.1 = false := by
  cases h with
  | refused refused =>
    cases refused with
    | limited => simp [agentLimit, consumes]
    | unauthenticated mismatch => simp [agentLimit, consumes]
    | unauthorized authenticated unauthorized =>
      refine List.forall_mem_cons.mpr ⟨rfl, ?_⟩
      cases unauthorized with
      | mode own => simp
      | denied required denied =>
        exact List.forall_mem_cons.mpr ⟨rfl, unspent_of_denied denied sparing⟩
  | unrouted passed failed =>
    cases raises_route failed <;> cases sparing
  | @outOfScope _ _ verified _ _ passed selected outside =>
    cases verified with
    | none => cases outside
    | some verified =>
      obtain ⟨code, message, hcode, rfl⟩ := code_of_requireSelectedModel outside
      cases sparing with
      | denial error other => exact absurd (List.mem_append_right _ hcode) other
  | unpublished passed selected within invalid =>
    obtain rfl := onlyErrors_fromDomainDecision _ invalid
    cases sparing

omit [UnicodeTables] [Cryptography] [JsonDecoder] [BodyParser] in
private theorem unspent_of_storeless {c : Call} (h : touchesStore c = false) : consumes c = false := by
  rw [touchesStore_eq, Bool.or_eq_false_iff] at h
  exact h.2

/-- A request that ends harmless consumed nothing. -/
theorem unspent_of_harmless {response : Response} (h : Completes (postRoute app scope) es response)
    (harmless : isHarmless response = true) : ∀ e ∈ es, consumes e.1 = false := by
  cases ended_of_completes h with
  | inFront front unhandled => exact fun e he => unspent_of_storeless (front e he).storeless
  | decided reaches returned => cases harmless
  | raised reaches raised answered =>
    have hsparing := sparing_of_answers (answers_of_completes answered) harmless
    intro e he
    rcases List.mem_append.mp he with he | he
    · exact unspent_of_storeless (reaches.front e he).storeless
    · rcases List.mem_append.mp he with he | he
      · exact unspent_of_failed (failed_of_raises raised) hsparing e he
      · have hown : e.1 = .utcNow ∨ e.1 = .uuid4 :=
          answered.each_call (fun c => c = .utcNow ∨ c = .uuid4)
            (fun _ _ hissued => issues_handleException hissued) e he
        rcases hown with hown | hown <;> rw [hown] <;> rfl

/-- What one request, finished or not, has done to the stores. -/
structure Framed (app : Application) (scope : RouteScope) (s : Stores) (es : List (Event Reply))
    (s' : Stores) (rest : Async Call Reply Response) : Prop where
  unspent : ∀ response, rest = .done response → isHarmless response = true →
    ∀ t, s'.unexpired t = s.unexpired t
  readChecked : ∀ before key reply after, es = before ++ ⟨.redisGet key, reply⟩ :: after →
    storeEvents before = [] ∧ ∃ body verifier envelope now,
      Checked app scope before body verifier envelope now
  consumeAllowed : ∀ before e after, es = before ++ e :: after → consumes e.1 = true →
    ∃ body verifier envelope now, Checked app scope before body verifier envelope now ∧
      Allowed verifier envelope.claims (storeEvents before)
  once : ReadThenConsume es
  refusedUnspent : ∀ e ∈ es, ∀ code, refusal e = some code → code ≠ .replayStoreUnavailable →
    ∀ t, instantOf e.1 ≤ t → s'.unexpired t = s.unexpired t

omit [UnicodeTables] [Cryptography] [JsonDecoder] [BodyParser] in
private theorem consumes_of_refusal {e : Event Reply} {code : DenialCode} (h : refusal e = some code) :
    consumes e.1 = true := by
  obtain ⟨c, r⟩ := e
  cases c <;> first | rfl | cases h

omit [UnicodeTables] [Cryptography] [JsonDecoder] [BodyParser] in
theorem not_reads_of_consumes {c : Call} (h : consumes c = true) : reads c = false := by
  cases c <;> first | rfl | cases h

omit [UnicodeTables] [Cryptography] [JsonDecoder] [BodyParser] in
/-- A run has no second consumption. -/
theorem ReadThenConsume.eq_of_consumes (h : ReadThenConsume es) {e d : Event Reply} (he : e ∈ es)
    (hd : d ∈ es) (hconsumes : consumes e.1 = true) (hconsumes' : consumes d.1 = true) : d = e := by
  obtain ⟨read, consumed, hstore, -, hone, hreads, -⟩ := h
  have hmem : ∀ f ∈ es, consumes f.1 = true → f ∈ consumed := by
    intro f hf hconsumes
    have hevent : f ∈ storeEvents es :=
      List.mem_filter.mpr ⟨hf, by rw [touchesStore_eq, hconsumes, Bool.or_true]⟩
    rw [hstore] at hevent
    refine (List.mem_append.mp hevent).resolve_left fun hread => ?_
    exact absurd (hreads f hread) (by simp [not_reads_of_consumes hconsumes])
  cases consumed with
  | nil => exact absurd (hmem e he hconsumes) List.not_mem_nil
  | cons f rest =>
    obtain rfl := List.length_eq_zero_iff.mp (Nat.le_zero.mp (Nat.le_of_succ_le_succ hone))
    rw [List.mem_singleton.mp (hmem e he hconsumes), List.mem_singleton.mp (hmem d hd hconsumes')]

theorem stores_framed {maxEntries : ℕ} {s s' : Stores} {rest : Async Call Reply Response}
    (run : Advances (postRoute app scope) es rest) (served : Served (Touch maxEntries) s es s') :
    Framed app scope s es s' rest := by
  have honce : ReadThenConsume es :=
    readThenConsume_of_issues fun _ _ _ hsplit => run.issues_of_eq_append hsplit
  refine ⟨?_, ?_, ?_, honce, ?_⟩
  · rintro response rfl hharmless t
    exact unexpired_of_served served (unspent_of_harmless run.completes hharmless) t
  · intro before key reply after hsplit
    have hissued : Issues (postRoute app scope) before (.redisGet key) :=
      run.issues_of_eq_append hsplit
    generalize hcall : Call.redisGet key = c at hissued
    cases storeCall_of_issues hissued (hcall ▸ rfl) with
    | read checked first configured => exact ⟨first, _, _, _, _, checked⟩
    | consume checked allowed =>
      have hconsumes : consumes (.redisGet key) = true := hcall ▸ consumes_consumption _ _ _ _
      cases hconsumes
  · intro before e after hsplit hconsumes
    have htouches : touchesStore e.1 = true := by rw [touchesStore_eq, hconsumes, Bool.or_true]
    obtain ⟨c, reply⟩ := e
    cases storeCall_of_issues (run.issues_of_eq_append hsplit) htouches with
    | read checked first configured => cases hconsumes
    | consume checked allowed => exact ⟨_, _, _, _, checked, allowed⟩
  · intro e he code hrefused hdecided t hlater
    refine served.invariant (fun present => present.unexpired t = s.unexpired t) ?_ rfl
    intro present d present' hd htouch hsame
    refine Eq.trans ?_ hsame
    cases hconsumes : consumes d.1 with
    | false => exact unexpired_of_touch htouch hconsumes t
    | true =>
      obtain rfl := honce.eq_of_consumes he hd (consumes_of_refusal hrefused) hconsumes
      exact unexpired_of_refused htouch hrefused hdecided hlater

end Order

namespace Deployed

open AuthorizedDecisions.Deployed DenialEvidence.Deployed
open VerificationSpecification.Deployed (genuine decoder)

def untouched : Stores := ⟨ReplicatedSingleUse.Deployed.unused, []⟩

private theorem served_of_unspent {maxEntries : ℕ} {es : List (Event Reply)} (s : Stores)
    (h : ∀ e ∈ es, consumes e.1 = false) : Served (Touch maxEntries) s es s := by
  induction es with
  | nil => exact .nil s
  | cons e es ih =>
    have hhead : Touch maxEntries s e.1 e.2 s := .elsewhere s e.2 s.keyspace.clock (h e List.mem_cons_self)
    exact .cons hhead (ih fun d hd => h d (List.mem_cons_of_mem _ hd))

private theorem handler_spares : ∃ es response, Completes handler es (.ok response) ∧
    @isHarmless genuine response = true := by
  have hspares : (refused.1.toOption.map (@isHarmless genuine)) = some true := by decide +kernel
  have hcompletes : Completes handler refused.2.1 refused.1 := completes_of_run rfl
  generalize refused.1 = result at hspares hcompletes
  cases result with
  | error e => cases hspares
  | ok response => exact ⟨_, response, hcompletes, Option.some.inj hspares⟩

theorem stores_framed_deployed : ∃ es response, @isHarmless genuine response = true ∧
    @Framed genuine decoder parser application route untouched es untouched
      (.done response) := by
  obtain ⟨es, response, hhandler, hharmless⟩ := handler_spares
  have hcompletes := postRoute_completes hhandler
  have hunspent := @unspent_of_harmless asciiTables genuine decoder parser _ _ _ _ hcompletes hharmless
  exact ⟨_, response, hharmless, @stores_framed asciiTables genuine decoder parser _ _ _ 10 _ _ _
    hcompletes.advances (served_of_unspent untouched hunspent)⟩

end Deployed

end PolicyModelRouter.StoreFrames
