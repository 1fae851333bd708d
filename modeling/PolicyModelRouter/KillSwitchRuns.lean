import PolicyModelRouter.SnapshotPayloads
import PolicyModelRouter.StoreFrames

/-!
# The kill switch under every interleaving

Governance publishes the state of the kill switch and the revocation floor of every
agent, and changes, removes or corrupts what the router finds of it at any time. Any
number of requests is in flight at once, in replicas that share the projection.
-/

namespace PolicyModelRouter.KillSwitchRuns
open AuthorizationContract AuthorizationVerifier AwaitingPrograms HandlerRuns InterleavedPrograms
open PythonText RouteEndpoint RouteRuns RouterCalls RuntimeControl SnapshotPayloads StoreFrames
open TrustedKeys UtcTimestamps Uuids VerificationTraces WireContracts

/-- What Governance last published for an agent. -/
structure Directive where
  state : RuntimeControlState
  revokedThroughAgentVersion : ℤ

section Projection

variable [JsonDecoder]

/-- The payload under every key, and what was last published for every agent. A payload that
is a snapshot for an agent says what was published; one that is missing, corrupt or out of
reach says nothing. -/
structure Projection (store : RedisRuntimeControlStore) where
  payload : String → GetReply
  published : UUID → Directive
  agrees : ∀ (agentId : UUID) (snapshot : RuntimeControlSnapshot),
    WellFormed store agentId.str (payload (store.keyPrefix ++ agentId.str)) snapshot →
      published agentId = ⟨snapshot.state, snapshot.revokedThroughAgentVersion⟩

variable {store : RedisRuntimeControlStore}

def Projection.floor (s : Projection store) (agentId : UUID) : ℤ :=
  (s.published agentId).revokedThroughAgentVersion

/-- Governance does anything but lower a floor. -/
def Rises (s s' : Projection store) : Prop := ∀ agentId, s.floor agentId ≤ s'.floor agentId

theorem Rises.refl (s : Projection store) : Rises s s := fun _ => le_rfl

theorem Rises.trans (s t u : Projection store) (h : Rises s t) (h' : Rises t u) : Rises s u :=
  fun agentId => (h agentId).trans (h' agentId)

/-- The payloads may become any others, as long as no snapshot among them lowers a floor. -/
theorem exists_rises (s : Projection store) (next : String → GetReply)
    (floors : ∀ (agentId : UUID) (snapshot : RuntimeControlSnapshot),
      WellFormed store agentId.str (next (store.keyPrefix ++ agentId.str)) snapshot →
        s.floor agentId ≤ snapshot.revokedThroughAgentVersion) :
    ∃ s' : Projection store, s'.payload = next ∧ Rises s s' := by
  classical
  have hagent : ∀ agentId : UUID, ∃ directive : Directive,
      s.floor agentId ≤ directive.revokedThroughAgentVersion ∧ ∀ snapshot : RuntimeControlSnapshot,
        WellFormed store agentId.str (next (store.keyPrefix ++ agentId.str)) snapshot →
          directive = ⟨snapshot.state, snapshot.revokedThroughAgentVersion⟩ := by
    intro agentId
    by_cases h : ∃ snapshot, WellFormed store agentId.str
        (next (store.keyPrefix ++ agentId.str)) snapshot
    · obtain ⟨snapshot, hsnapshot⟩ := h
      refine ⟨⟨snapshot.state, snapshot.revokedThroughAgentVersion⟩, floors _ _ hsnapshot, ?_⟩
      intro other hother
      rw [hsnapshot.unique hother]
    · exact ⟨s.published agentId, le_rfl, fun snapshot hsnapshot => absurd ⟨snapshot, hsnapshot⟩ h⟩
  choose published hfloor hagrees using hagent
  exact ⟨⟨next, published, hagrees⟩, rfl, hfloor⟩

/-- The router only reads the projection. -/
def Answering (s : Projection store) : (call : Call) → Reply call → Projection store → Prop
  | .redisGet key, reply, s' => reply = s.payload key ∧ s' = s
  | _, _, s' => s' = s

private theorem eq_of_answering {s s' : Projection store} {c : Call} {r : Reply c}
    (h : Answering s c r s') : s' = s := by
  cases c with
  | redisGet key => exact h.2
  | _ => exact h

private theorem rises_of_answering (s : Projection store) (c : Call) (r : Reply c)
    (s' : Projection store)
    (h : Answering s c r s') : Rises s s' := by
  rw [eq_of_answering h]
  exact .refl s

end Projection

/-- A router that requires an authorization and verifies it under runtime control. -/
structure Replica (store : RedisRuntimeControlStore) where
  app : Application
  verifier : RuntimeAuthorizationVerifier
  required : app.runtimeAuthorizationRequired = true
  configured : app.runtimeAuthorizationVerifier = some verifier
  controlled : verifier.runtimeControl = some store

structure Submission (store : RedisRuntimeControlStore) where
  replica : Replica store
  scope : RouteScope

section Fleet

variable [UnicodeTables] [Cryptography] [JsonDecoder] [BodyParser]
variable {store : RedisRuntimeControlStore}

/-- All the requests in flight, over one projection. Everything else they are answered may be
anything. -/
def fleet (store : RedisRuntimeControlStore) :
    System (Projection store) (Submission store) Call Reply Response where
  program submission := postRoute submission.replica.app submission.scope
  admits _ _ := True
  surroundings := Rises
  serve := Answering

def Presents (p : Process (fleet store)) (envelope : SignedRuntimeAuthorization) : Prop :=
  ∃ body, BodyParser.parse p.tag.scope.headers (received (p.log.map Prod.snd)) = .admitted body ∧
    body.authorization = some envelope

def Routed (p : Process (fleet store)) : Prop :=
  (∃ declared, p.Calls (.resolve declared)) ∨ ∃ decision, p.Finished (.decision decision)

def Consumed (p : Process (fleet store)) : Prop := ∃ c, consumes c = true ∧ p.Calls c

/-- The one read of runtime control the request made, at the moment it was answered. -/
structure Cleared (p : Process (fleet store)) (envelope : SignedRuntimeAuthorization)
    (stamp : Projection store) (snapshot : RuntimeControlSnapshot) : Prop where
  presents : Presents p envelope
  verified : ∃ request now,
    p.tag.replica.verifier.verifyOffline envelope request (.utc now) = .ok ()
  own : p.log.filter (fun x => reads x.2.1) =
    [(stamp, ⟨.redisGet (controlKey store envelope.claims),
      stamp.payload (controlKey store envelope.claims)⟩)]
  wellFormed : WellFormed store envelope.claims.subject.agentId.str
    (stamp.payload (controlKey store envelope.claims)) snapshot
  permits : Permits envelope.claims snapshot

/-- What holds of the requests of a pool, seen from an earlier state of it. -/
structure Contained (mid pool : Pool (fleet store)) : Prop where
  fresh : ∀ p ∈ pool.processes, Routed p ∨ Consumed p →
    ∃ envelope stamp snapshot, Cleared p envelope stamp snapshot
  engaged : ∀ p ∈ pool.processes, ∀ (stamp : Projection store) (agentId : UUID) (reply : GetReply),
    (stamp, (⟨.redisGet (store.keyPrefix ++ agentId.str), reply⟩ : Event Reply)) ∈ p.log →
    (stamp.published agentId).state = .active → ¬ Routed p ∧ ¬ Consumed p
  revoked : ∀ (i : ℕ) (p : Process (fleet store)) (envelope : SignedRuntimeAuthorization),
    pool.processes[i]? = some p → Presents p envelope →
    (envelope.claims.subject.agentVersion.val : ℤ) ≤
      mid.shared.floor envelope.claims.subject.agentId →
    (∀ q, mid.processes[i]? = some q → ∀ x ∈ q.log, reads x.2.1 = false) →
      ¬ Routed p ∧ ¬ Consumed p

variable {app : Application} {scope : RouteScope} {es : List (Event Reply)}

/-- The calls a request makes only once its authorization was let through. -/
inductive Proceeds : Call → Prop where
  | consume {c : Call} (consumes : consumes c = true) : Proceeds c
  | resolve (declared : List (GovernedVocabularies.ModelGroupId × Bool)) :
      Proceeds (.resolve declared)

/-- The request passed its checks, and its read of runtime control let it through. -/
structure Passed (app : Application) (scope : RouteScope) (es : List (Event Reply))
    (body : RouteRequestEnvelope) (verifier : RuntimeAuthorizationVerifier)
    (envelope : SignedRuntimeAuthorization) (now : Datetime) : Prop where
  checked : Checked app scope es body verifier envelope now
  allowed : Allowed verifier envelope.claims (es.filter fun e => reads e.1)

omit [UnicodeTables] [Cryptography] [JsonDecoder] [BodyParser] in
private theorem filter_reads_storeEvents (es : List (Event Reply)) :
    (storeEvents es).filter (fun e => reads e.1) = es.filter fun e => reads e.1 := by
  rw [storeEvents, List.filter_filter]
  refine List.filter_congr fun e _ => ?_
  rw [touchesStore_eq]
  cases reads e.1 <;> simp

omit [UnicodeTables] [Cryptography] [BodyParser] in
private theorem filter_reads_allowed {verifier : RuntimeAuthorizationVerifier}
    {claims : RuntimeAuthorizationClaims} (h : Allowed verifier claims es) :
    es.filter (fun e => reads e.1) = es :=
  List.filter_eq_self.mpr (length_of_allowed h).2

omit [UnicodeTables] [Cryptography] [JsonDecoder] [BodyParser] in
private theorem filter_reads_storeless (h : ∀ e ∈ es, touchesStore e.1 = false) :
    es.filter (fun e => reads e.1) = [] := by
  refine List.filter_eq_nil_iff.mpr fun e he => ?_
  have hnone := h e he
  rw [touchesStore_eq, Bool.or_eq_false_iff] at hnone
  simp [hnone.1]

/-- The availability is asked for by routing, after the request was admitted. -/
theorem admitted_of_resolve {declared : List (GovernedVocabularies.ModelGroupId × Bool)}
    (h : Issues (postRoute app scope) es (.resolve declared)) :
    ∃ before admitted routed useCase body correlationId verified,
      es = before ++ (admitted ++ routed) ∧ Reaches scope before useCase body correlationId ∧
      Returns (admitRequest app scope body) admitted verified ∧
      Issues (routing useCase body).run routed (.resolve declared) ∧
      received (admitted ++ routed) = [] := by
  rcases issues_postRoute h with ⟨houter, -⟩ | hresolve | hown |
    ⟨before, handled, useCase, body, correlationId, rfl, reaches, issued⟩
  · cases houter
  · cases hresolve
  · rcases hown with hown | hown <;> cases hown
  have hquiet := received_inside (issued.each_call Inside fun _ _ h => inside_of_issues h)
  rcases issues_handler issued with hadmit | ⟨admitted, routed, verified, rfl, hadmitted, hrouting⟩
  · rcases issues_admitRequest hadmit with hlimit | ⟨_, -, -, hauthorize⟩
    · cases hlimit
    rcases issues_authorize hauthorize with hclock | ⟨verifier, envelope, now, _, -, -, hverify⟩
    · cases hclock
    rcases (issues_verify.mp hverify).2 with ⟨-, _, -, hread⟩ | ⟨-, hconsume⟩
    · cases hread
    · have hconsumes : consumes (.resolve declared) = true :=
        hconsume ▸ consumes_consumption _ _ _ _
      cases hconsumes
  · exact ⟨before, admitted, routed, useCase, body, correlationId, verified, rfl, reaches, hadmitted,
      hrouting, hquiet⟩

/-- A request that consumes or is routed passed its read before. -/
theorem passed_of_issues {c : Call} (required : app.runtimeAuthorizationRequired = true)
    (h : Issues (postRoute app scope) es c) (proceeds : Proceeds c) :
    ∃ body verifier envelope now, Passed app scope es body verifier envelope now := by
  cases proceeds with
  | consume hconsumes =>
    have htouches : touchesStore c = true := by rw [touchesStore_eq, hconsumes, Bool.or_true]
    cases storeCall_of_issues h htouches with
    | read checked first configured => cases hconsumes
    | consume checked allowed =>
      refine ⟨_, _, _, _, checked, ?_⟩
      rw [← filter_reads_storeEvents, filter_reads_allowed allowed]
      exact allowed
  | resolve declared =>
    obtain ⟨before, admitted, routed, useCase, body, correlationId, verified, rfl, reaches, hadmitted,
      hrouting, hquiet⟩ := admitted_of_resolve h
    obtain ⟨rest, rfl, -, hauthorized⟩ := returns_admitRequest hadmitted
    cases hauthorized with
    | notRequired disabled absent =>
      rw [required] at disabled
      cases disabled
    | @verified verifier envelope now calls verified hrequired returned =>
      obtain ⟨hoffline, ⟨control, hallowed, rfl⟩, -⟩ := returns_verify.mp returned
      refine ⟨body, verifier, envelope, now, ⟨?_, hrequired, by simp, hoffline⟩, ?_⟩
      · rw [received_append, hquiet, List.append_nil]
        exact reaches.parsed
      · have hfront := filter_reads_storeless fun e he => (reaches.front e he).storeless
        have hrouted := filter_reads_storeless
          (hrouting.each_call (touchesStore · = false) fun _ _ h => (issues_route h).storeless)
        have hspent : reads (consumed verifier.replayGuard envelope.claims.authorizationId
            envelope.claims.expiresAt (ClockReading.utc now).wall).1 = false := by
          rw [consumed_fst]
          exact not_reads_of_consumes (consumes_consumption _ _ _ _)
        have hlimit : reads (agentLimit scope body) = false := rfl
        have hclock : reads .utcNow = false := rfl
        simp only [List.filter_append, List.filter_cons, List.filter_nil, hfront, hrouted,
          filter_reads_allowed hallowed, hspent, hlimit, hclock, Bool.false_eq_true, if_false,
          List.nil_append, List.append_nil]
        exact hallowed

omit [UnicodeTables] [Cryptography] [JsonDecoder] [BodyParser] in
private theorem length_reads_le_one (h : ReadThenConsume es) :
    (es.filter fun e => reads e.1).length ≤ 1 := by
  obtain ⟨read, consumed, hstore, hone, -, hreads, hconsumes⟩ := h
  rw [← filter_reads_storeEvents, hstore, List.filter_append, List.filter_eq_self.mpr hreads]
  have hnone : consumed.filter (fun e => reads e.1) = [] := by
    refine List.filter_eq_nil_iff.mpr fun e he => ?_
    simp [not_reads_of_consumes (hconsumes e he)]
  rw [hnone, List.append_nil]
  exact hone

/-- What a request passed, it has passed along the whole of its run. -/
theorem Passed.extend {after : List (Event Reply)} {rest : Async Call Reply Response}
    {body : RouteRequestEnvelope} {verifier : RuntimeAuthorizationVerifier}
    {envelope : SignedRuntimeAuthorization} {now : Datetime} {store : RedisRuntimeControlStore}
    (h : Passed app scope es body verifier envelope now)
    (run : Advances (postRoute app scope) (es ++ after) rest)
    (controlled : verifier.runtimeControl = some store) :
    Passed app scope (es ++ after) body verifier envelope now := by
  have hreceive : received after = [] := by
    refine received_eq_nil fun e he hcall => ?_
    obtain ⟨first, last, rfl⟩ := List.append_of_mem he
    have hissued : Issues (postRoute app scope) (es ++ first) e.1 :=
      run.issues_of_eq_append (List.append_assoc ..).symm
    rw [hcall] at hissued
    cases outer_of_receive hissued _ (List.mem_append_left _ h.checked.clock)
  have hone := length_reads_le_one
    (readThenConsume_of_issues fun _ _ _ hsplit => run.issues_of_eq_append hsplit)
  have hread : (es.filter fun e => reads e.1).length = 1 := by
    have hallowed := h.allowed
    simp only [Allowed, controlled] at hallowed
    obtain ⟨reply, snapshot, hread, -⟩ := hallowed
    rw [hread]
    rfl
  have hnone : (after.filter fun e => reads e.1) = [] := by
    rw [List.filter_append, List.length_append, hread] at hone
    exact List.length_eq_zero_iff.mp (by omega)
  refine ⟨⟨?_, h.checked.required, List.mem_append_left _ h.checked.clock, h.checked.offline⟩, ?_⟩
  · rw [received_append, hreceive, List.append_nil]
    exact h.checked.parsed
  · rw [List.filter_append, hnone, List.append_nil]
    exact h.allowed

/-- A decision is published after routing asked which groups are available. -/
theorem resolved_of_decision {decision : ModelRouteDecision}
    (h : Completes (postRoute app scope) es (.decision decision)) :
    ∃ declared answer, ⟨.resolve declared, answer⟩ ∈ es := by
  obtain ⟨_, _, _, _, _, rfl, -, returned⟩ := returned_of_decision h
  obtain ⟨admitted, routed, verified, selected, rfl, -, hrouted, -, -⟩ := returns_route returned
  have hcases := RoutingRuns.routed_of_completes hrouted
  generalize hr : (Except.ok selected : Except PyException _) = r at hcases
  cases hcases with
  | unmapped missing => cases hr
  | undeclared mapped missing fast => cases hr
  | raised evaluates => cases hr
  | rejected evaluates failed => cases hr
  | @selected answer rule listed =>
    refine ⟨listed.map fun c => (c.1, c.2.available), answer, ?_⟩
    simp [RoutingRuns.question]

section Pools

variable {p : Process (fleet store)}

private theorem calls_of_routed (h : Routed p) : ∃ declared, p.Calls (.resolve declared) := by
  rcases h with h | ⟨decision, hfinished⟩
  · exact h
  · obtain ⟨declared, answer, hmem⟩ := resolved_of_decision hfinished.completes
    obtain ⟨⟨stamp, e⟩, hlog, rfl⟩ := List.mem_map.mp hmem
    exact ⟨declared, Process.calls_of_mem hlog⟩

private theorem passed_of_calls {c : Call} (h : p.Calls c) (proceeds : Proceeds c) :
    ∃ body envelope now, Passed p.tag.replica.app p.tag.scope (p.log.map Prod.snd) body
      p.tag.replica.verifier envelope now := by
  obtain ⟨before, after, hlog, hissued⟩ := h
  obtain ⟨body, verifier, envelope, now, hpassed⟩ :=
    passed_of_issues p.tag.replica.required hissued proceeds
  obtain rfl : p.tag.replica.verifier = verifier :=
    Option.some.inj (p.tag.replica.configured.symm.trans hpassed.checked.required.configured)
  have hadvances : Advances (postRoute p.tag.replica.app p.tag.scope) (p.log.map Prod.snd) p.rest :=
    p.advances
  rw [hlog, List.map_append] at hadvances ⊢
  exact ⟨body, envelope, now, hpassed.extend hadvances p.tag.replica.controlled⟩

/-- A read gets the payload as it is. -/
def Faithful (s : Projection store) (e : Event Reply) : Prop :=
  ∀ key reply, e = ⟨.redisGet key, reply⟩ → reply = s.payload key

theorem faithful_of_step {a b : Pool (fleet store)} {l : Label (Submission store) Reply}
    (h : Step (fleet store) a l b) (held : ∀ p ∈ a.processes, ∀ x ∈ p.log, Faithful x.1 x.2) :
    ∀ p ∈ b.processes, ∀ x ∈ p.log, Faithful x.1 x.2 := by
  refine each_answer h (fun _ s e _ => Faithful s e) held (fun _ _ _ _ h => h)
    (fun _ _ _ _ _ _ h => h) ?_
  rintro i p c k r - - - hanswer key reply ⟨⟩
  exact hanswer.1

theorem faithful_of_run {s : Projection store} {ls : List (Label (Submission store) Reply)}
    {pool : Pool (fleet store)} (h : Run (Step (fleet store)) (Pool.start (fleet store) s) ls pool) :
    ∀ p ∈ pool.processes, ∀ x ∈ p.log, Faithful x.1 x.2 :=
  h.invariant (fun pool => ∀ p ∈ pool.processes, ∀ x ∈ p.log, Faithful x.1 x.2)
    (by simp [Pool.start]) fun _ _ _ held step => faithful_of_step step held

theorem exists_cleared (faithful : ∀ x ∈ p.log, Faithful x.1 x.2) (h : Routed p ∨ Consumed p) :
    ∃ envelope stamp snapshot, Cleared p envelope stamp snapshot := by
  obtain ⟨c, hcalls, hproceeds⟩ : ∃ c, p.Calls c ∧ Proceeds c := by
    rcases h with hrouted | ⟨c, hconsumes, hcalls⟩
    · obtain ⟨declared, hcalls⟩ := calls_of_routed hrouted
      exact ⟨_, hcalls, .resolve declared⟩
    · exact ⟨c, hcalls, .consume hconsumes⟩
  obtain ⟨body, envelope, now, hchecked, hallowed⟩ := passed_of_calls hcalls hproceeds
  simp only [Allowed, p.tag.replica.controlled, List.filter_map] at hallowed
  obtain ⟨reply, snapshot, hread, hreply, hpermits⟩ := hallowed
  obtain ⟨⟨stamp, e⟩, hown, he⟩ := List.map_eq_singleton_iff.mp hread
  obtain rfl : e = ⟨.redisGet (controlKey store envelope.claims), reply⟩ := he
  have hmem : (stamp, (⟨.redisGet (controlKey store envelope.claims), reply⟩ : Event Reply)) ∈ p.log :=
    List.mem_of_mem_filter (hown ▸ List.mem_singleton_self _)
  obtain rfl : reply = stamp.payload (controlKey store envelope.claims) := faithful _ hmem _ reply rfl
  exact ⟨envelope, stamp, snapshot, ⟨body, hchecked.parsed, hchecked.required.present⟩,
    ⟨_, now, hchecked.offline⟩, hown, wellFormed_iff.mp hreply, hpermits⟩

namespace Cleared

variable {envelope : SignedRuntimeAuthorization} {stamp : Projection store}
variable {snapshot : RuntimeControlSnapshot}

private theorem published_eq (h : Cleared p envelope stamp snapshot) :
    stamp.published envelope.claims.subject.agentId =
      ⟨snapshot.state, snapshot.revokedThroughAgentVersion⟩ :=
  stamp.agrees _ _ h.wellFormed

theorem eq_of_read (h : Cleared p envelope stamp snapshot) {x : Projection store × Event Reply}
    (hx : x ∈ p.log) (read : reads x.2.1 = true) :
    x = (stamp, ⟨.redisGet (controlKey store envelope.claims),
      stamp.payload (controlKey store envelope.claims)⟩) := by
  have hmem : x ∈ p.log.filter (fun x => reads x.2.1) := List.mem_filter.mpr ⟨hx, read⟩
  rw [h.own] at hmem
  exact List.mem_singleton.mp hmem

private theorem mem_log (h : Cleared p envelope stamp snapshot) :
    (stamp, (⟨.redisGet (controlKey store envelope.claims),
      stamp.payload (controlKey store envelope.claims)⟩ : Event Reply)) ∈ p.log :=
  List.mem_of_mem_filter (h.own ▸ List.mem_singleton_self _)

theorem eq_of_presents (h : Cleared p envelope stamp snapshot) {other : SignedRuntimeAuthorization}
    (presents : Presents p other) : other = envelope := by
  obtain ⟨body, hparsed, henvelope⟩ := h.presents
  obtain ⟨body', hparsed', hother⟩ := presents
  rw [hparsed] at hparsed'
  cases hparsed'
  exact Option.some.inj (hother.symm.trans henvelope)

end Cleared

/-- In every interleaving, a request is routed or consumes its authorization only where its
own read found the switch released and the floor below the signed version. -/
theorem kill_switch_contains {s : Projection store} {ls ls' : List (Label (Submission store) Reply)}
    {mid pool : Pool (fleet store)}
    (before : Run (Step (fleet store)) (Pool.start (fleet store) s) ls mid)
    (after : Run (Step (fleet store)) mid ls' pool) : Contained mid pool := by
  have hfaithful := faithful_of_run (before.trans after)
  have hcleared : ∀ p ∈ pool.processes, Routed p ∨ Consumed p →
      ∃ envelope stamp snapshot, Cleared p envelope stamp snapshot :=
    fun p hp h => exists_cleared (hfaithful p hp) h
  refine ⟨hcleared, ?_, ?_⟩
  · intro p hp stamp agentId reply hread hactive
    rw [← not_or]
    intro h
    obtain ⟨envelope, stamp', snapshot, hclear⟩ := hcleared p hp h
    have hown := hclear.eq_of_read hread rfl
    obtain rfl : stamp = stamp' := congrArg Prod.fst hown
    have hkey : store.keyPrefix ++ agentId.str = controlKey store envelope.claims :=
      Call.redisGet.inj (congrArg (fun x => x.2.1) hown)
    obtain rfl := str_inj (String.append_right_inj _ |>.mp hkey)
    rw [hclear.published_eq, hclear.permits.inactive] at hactive
    cases hactive
  · intro i p envelope hp hpresents hfloor hunread
    have hmem := List.mem_of_getElem? hp
    rw [← not_or]
    intro h
    obtain ⟨other, stamp, snapshot, hclear⟩ := hcleared p hmem h
    obtain rfl := hclear.eq_of_presents hpresents
    obtain ⟨-, hsince⟩ := answered_since after Rises Rises.refl Rises.trans (fun _ _ move => move)
      rises_of_answering
    rcases hsince i p hp _ hclear.mem_log with ⟨q, hq, hold⟩ | hrises
    · exact absurd (hunread q hq _ hold) (by simp [reads])
    · have hstamp := hfloor.trans (hrises envelope.claims.subject.agentId)
      rw [Projection.floor, hclear.published_eq] at hstamp
      exact absurd hclear.permits.floor (not_lt.mpr hstamp)

theorem run_submission {submission : Submission store} {response : Response} {s : Projection store}
    (completes : Completes (postRoute submission.replica.app submission.scope) es response)
    (faithful : ∀ e ∈ es, Faithful s e) (ps : List (Process (fleet store))) :
    ∃ ls p, Run (Step (fleet store)) ⟨s, ps⟩ ls ⟨s, ps ++ [p]⟩ ∧ p.tag = submission ∧
      p.Finished response := by
  have hanswer : ∀ e ∈ es, Answering s e.1 e.2 s := by
    rintro ⟨c, r⟩ he
    cases c with
    | redisGet key => exact ⟨faithful _ he key r rfl, rfl⟩
    | _ => rfl
  have hamid : Amid (fleet store) s (es.map fun e => (s, e)) s := by
    clear completes faithful
    induction es with
    | nil => exact .nil s
    | cons e rest ih =>
      exact .answer (hanswer e List.mem_cons_self)
        (ih fun d hd => hanswer d (List.mem_cons_of_mem _ hd))
  have hlog : (es.map fun e => (s, e)).map Prod.snd = es := by simp
  obtain ⟨ls, p, hrun, htag, -, hfinished⟩ := run_alone hamid ps trivial (hlog.symm ▸ completes)
  exact ⟨ls, p, hrun, htag, hfinished⟩

end Pools

end Fleet

namespace Deployed

open AuthorizedDecisions.Deployed
open VerificationSpecification.Deployed

def replica : Replica controlStore :=
  ⟨application, verifier inMemory (some controlStore) 60 widest_skew, rfl, rfl, rfl⟩

def submission : Submission controlStore := ⟨replica, route⟩

def absent : @Projection decoder controlStore :=
  @Projection.mk decoder controlStore (fun _ => .none) (fun _ => ⟨.inactive, 0⟩) (by
    rintro agentId snapshot ⟨text, fields, htext, -⟩
    cases htext)

theorem exists_released : ∃ s : @Projection decoder controlStore,
    @Projection.payload decoder controlStore s = (fun _ => .str snapshotText) ∧
      @Rises decoder controlStore absent s := by
  refine @exists_rises decoder controlStore absent _ ?_
  rintro agentId snapshot ⟨text, fields, -, -, -, hdescribes⟩
  exact hdescribes.revoked.2

/-- The request is routed while the projection is there; afterwards the projection is lost. -/
theorem kill_switch_contains_deployed : ∃ ls ls' mid pool p decision,
    Run (Step (@fleet asciiTables genuine decoder parser controlStore)) (Pool.start _ absent) ls mid ∧
      Run (Step (@fleet asciiTables genuine decoder parser controlStore)) mid ls' pool ∧
      p ∈ pool.processes ∧ p.Finished (@Response.decision genuine decision) ∧
      @Contained asciiTables genuine decoder parser controlStore mid pool := by
  obtain ⟨s, hpayload, hrises⟩ := exists_released
  obtain ⟨lost, -, hlost⟩ := @exists_rises decoder controlStore s (fun _ => .none) (by
    rintro agentId snapshot ⟨text, fields, htext, -⟩
    cases htext)
  obtain ⟨es, decision, hhandler, hfixed⟩ := handler_decides
  have hcompletes := postRoute_completes hhandler
  have hfaithful : ∀ e ∈ front ++ es, @Faithful decoder controlStore s e := by
    rintro e he key reply rfl
    rw [hpayload]
    rcases List.mem_append.mp he with he | he
    · simp only [front, List.mem_cons, List.not_mem_nil, or_false] at he
      rcases he with he | he | he <;> cases he
    · exact hfixed _ he
  obtain ⟨ls, p, hrun, -, hfinished⟩ :=
    @run_submission asciiTables genuine decoder parser controlStore _ submission _ s hcompletes
      hfaithful []
  have hbefore := Run.cons (Step.surroundings hrises) hrun
  have hafter : Run (Step (@fleet asciiTables genuine decoder parser controlStore)) ⟨s, [] ++ [p]⟩
      [.surroundings] ⟨lost, [] ++ [p]⟩ :=
    .snoc (.nil _) (.surroundings hlost)
  exact ⟨_, _, _, _, p, decision, hbefore, hafter, by simp, hfinished,
    @kill_switch_contains asciiTables genuine decoder parser controlStore _ _ _ _ _ hbefore hafter⟩

end Deployed

end PolicyModelRouter.KillSwitchRuns
