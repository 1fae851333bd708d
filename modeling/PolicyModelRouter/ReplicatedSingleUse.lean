import PolicyModelRouter.InterleavedPrograms
import PolicyModelRouter.VerificationSpecification
import PolicyModelRouter.VerificationTraces

/-!
# Single use across replicas

Any number of replicas verifies against one Redis keyspace under one clock. The key
of an identifier disappears some time after SET was executed, while the expiry check
reads the instant captured before; in between a verification waits for runtime
control as long as it takes.
-/

namespace PolicyModelRouter.ReplicatedSingleUse
open AuthorizationContract AuthorizationVerifier AwaitingPrograms InterleavedPrograms OrderedChecks
open ReplayGuards RouterCalls RoutingCatalog RuntimeControl TrustedKeys UtcTimestamps
open VerificationTraces

/-- The shared clock, and the instant in microseconds at which each key disappears; a key
that is absent has disappeared already. -/
structure Keyspace where
  clock : Datetime
  deadline : String → ℕ

def Keyspace.store (s : Keyspace) (key : String) (ttl : ℕ) : Keyspace :=
  { s with deadline := Function.update s.deadline key (s.clock.micros + ttl * microsPerSecond) }

@[simp] theorem Keyspace.store_deadline (s : Keyspace) (key : String) (ttl : ℕ) :
    (s.store key ttl).deadline key = s.clock.micros + ttl * microsPerSecond := by
  simp [store]

/-- SET with NX and EX is atomic; an exception leaves open whether it was executed. The
projection of runtime control answers anything. -/
inductive Serve : Keyspace → (call : Call) → Reply call → Keyspace → Prop where
  | utcNow (s : Keyspace) : Serve s .utcNow s.clock s
  | redisGet (s : Keyspace) (key : String) (reply : GetReply) : Serve s (.redisGet key) reply s
  | set {s : Keyspace} {key : String} (ttl : ℕ) (absent : s.deadline key ≤ s.clock.micros) :
      Serve s (.redisSet key ttl) SetReply.set (s.store key ttl)
  | notSet {s : Keyspace} {key : String} (ttl : ℕ) (present : s.clock.micros < s.deadline key) :
      Serve s (.redisSet key ttl) SetReply.notSet s
  | unexecuted (s : Keyspace) (key : String) (ttl : ℕ) :
      Serve s (.redisSet key ttl) SetReply.raises s
  | unacknowledged {s : Keyspace} {key : String} (ttl : ℕ)
      (absent : s.deadline key ≤ s.clock.micros) :
      Serve s (.redisSet key ttl) SetReply.raises (s.store key ttl)

/-- Neither the clock nor a deadline ever goes back. -/
structure Later (s s' : Keyspace) : Prop where
  clock : s.clock ≤ s'.clock
  deadline : ∀ key, s.deadline key ≤ s'.deadline key

theorem Later.refl (s : Keyspace) : Later s s := ⟨le_refl s.clock.micros, fun _ => le_rfl⟩

theorem Later.trans (s t u : Keyspace) (h : Later s t) (h' : Later t u) : Later s u :=
  ⟨le_trans (Datetime.le_def.mp h.clock) (Datetime.le_def.mp h'.clock),
    fun key => le_trans (h.deadline key) (h'.deadline key)⟩

theorem Later.store {s : Keyspace} {key : String} (ttl : ℕ)
    (absent : s.deadline key ≤ s.clock.micros) : Later s (s.store key ttl) := by
  refine ⟨le_refl s.clock.micros, fun other => ?_⟩
  by_cases hkey : other = key
  · rw [hkey, Keyspace.store_deadline]
    exact le_trans absent (Nat.le_add_right _ _)
  · simp [Keyspace.store, Function.update_of_ne hkey]

theorem later_of_serve (s : Keyspace) (c : Call) (r : Reply c) (s' : Keyspace)
    (h : Serve s c r s') : Later s s' := by
  cases h with
  | utcNow => exact .refl s
  | redisGet => exact .refl s
  | set ttl absent => exact .store ttl absent
  | notSet => exact .refl s
  | unexecuted => exact .refl s
  | unacknowledged ttl absent => exact .store ttl absent

/-- A verifier without clock skew whose replay guard uses the shared keyspace. -/
structure Replica (keyPrefix : String) where
  verifier : RuntimeAuthorizationVerifier
  named : keyPrefix ≠ ""
  guarded : verifier.replayGuard = .redis keyPrefix named
  unskewed : verifier.clockSkewSeconds = 0

structure Verification (keyPrefix : String) where
  replica : Replica keyPrefix
  envelope : SignedRuntimeAuthorization
  request : RouteRequest

structure Traced {keyPrefix : String} (tag : Verification keyPrefix) (stamp : Keyspace) (e : Event Reply)
    (present : Keyspace) : Prop where
  clockRead : ∀ now, e = ⟨.utcNow, now⟩ → now = stamp.clock
  kept : ∀ key ttl, e = ⟨.redisSet key ttl, SetReply.set⟩ →
    stamp.clock.micros + ttl * microsPerSecond ≤ present.deadline key
  timely : ∀ key ttl, e = ⟨.redisSet key ttl, SetReply.set⟩ →
    stamp.clock < tag.envelope.claims.expiresAt

theorem Traced.later {keyPrefix : String} {tag : Verification keyPrefix} {stamp : Keyspace} {e : Event Reply}
    {s s' : Keyspace} (h : Traced tag stamp e s) (later : Later s s') :
    Traced tag stamp e s' :=
  ⟨h.clockRead, fun key ttl he => le_trans (h.kept key ttl he) (later.deadline key), h.timely⟩

/-- The wait for the clock to be read is over before verification starts. -/
def Verification.program [Cryptography] [JsonDecoder] {keyPrefix : String}
    (v : Verification keyPrefix) : Coroutine VerifiedRuntimeAuthorization := do
  let now ← ask .utcNow
  v.replica.verifier.verify v.envelope v.request (.utc now)

/-- All the verifications in flight, over one keyspace. -/
def replicas [Cryptography] [JsonDecoder] (keyPrefix : String) :
    System Keyspace (Verification keyPrefix) Call Reply
      (Except PyException VerifiedRuntimeAuthorization) where
  program v := v.program.run
  admits _ _ := True
  surroundings s s' := s.clock ≤ s'.clock ∧ s'.deadline = s.deadline
  serve := Serve

section Runs

variable [Cryptography] [JsonDecoder] {keyPrefix : String}

def Accepted (p : Process (replicas keyPrefix)) : Prop := ∃ verified, p.Finished (.ok verified)

def SingleUse (pool : Pool (replicas keyPrefix)) : Prop :=
  ∀ (i j : ℕ) (p q : Process (replicas keyPrefix)), i ≠ j → pool.processes[i]? = some p →
    pool.processes[j]? = some q → p.tag.envelope = q.tag.envelope → Accepted p → ¬ Accepted q

/-- A SET the step executes is executed strictly before the envelope expires. -/
def Timely (a : Pool (replicas keyPrefix)) (l : Label (Verification keyPrefix) Reply) : Prop :=
  ∀ (i : ℕ) (key : String) (ttl : ℕ) (reply : Reply (.redisSet key ttl))
    (p : Process (replicas keyPrefix)), l = .serve i ⟨.redisSet key ttl, reply⟩ →
    a.processes[i]? = some p → a.shared.clock < p.tag.envelope.claims.expiresAt

def TimelyStep (a : Pool (replicas keyPrefix)) (l : Label (Verification keyPrefix) Reply)
    (b : Pool (replicas keyPrefix)) : Prop :=
  Step (replicas keyPrefix) a l b ∧ Timely a l

theorem later_of_move (s s' : Keyspace)
    (h : (replicas keyPrefix).surroundings s s') : Later s s' :=
  ⟨h.1, fun key => by rw [h.2]⟩

private theorem traced_step {a b : Pool (replicas keyPrefix)} {l : Label (Verification keyPrefix) Reply}
    (h : TimelyStep a l b)
    (held : ∀ p ∈ a.processes, ∀ x ∈ p.log, Traced p.tag x.1 x.2 a.shared) :
    ∀ p ∈ b.processes, ∀ x ∈ p.log, Traced p.tag x.1 x.2 b.shared := by
  obtain ⟨hstep, htimely⟩ := h
  refine each_answer hstep Traced held ?_ ?_ ?_
  · exact fun tag s e move h => h.later (later_of_move _ _ move)
  · exact fun tag s e c r answer h => h.later (later_of_serve _ _ _ _ answer)
  · intro i p c k r hl hp hrest answer
    constructor
    · rintro now ⟨⟩
      generalize b.shared = after at answer
      cases answer
      rfl
    · rintro key ttl ⟨⟩
      generalize b.shared = after at answer
      cases answer
      exact (Keyspace.store_deadline _ _ _).ge
    · rintro key ttl ⟨⟩
      exact htimely i key ttl _ p hl hp

/-- Two successful SETs of one key are apart by the life of the earlier one. -/
def Apart (p q : Process (replicas keyPrefix)) : Prop :=
  ∀ s s' key ttl ttl', (s, ⟨.redisSet key ttl, SetReply.set⟩) ∈ p.log →
    (s', ⟨.redisSet key ttl', SetReply.set⟩) ∈ q.log →
    s.clock.micros + ttl * microsPerSecond ≤ s'.clock.micros ∨
      s'.clock.micros + ttl' * microsPerSecond ≤ s.clock.micros

private theorem apart_step {a b : Pool (replicas keyPrefix)} {l : Label (Verification keyPrefix) Reply}
    (h : Step (replicas keyPrefix) a l b)
    (traced : ∀ p ∈ a.processes, ∀ x ∈ p.log, Traced p.tag x.1 x.2 a.shared)
    (held : ∀ (i j : ℕ) (p q : Process (replicas keyPrefix)), i ≠ j →
      a.processes[i]? = some p → a.processes[j]? = some q → Apart p q) :
    ∀ (i j : ℕ) (p q : Process (replicas keyPrefix)), i ≠ j →
      b.processes[i]? = some p → b.processes[j]? = some q → Apart p q := by
  refine each_pair h Apart ?_ held ?_ ?_
  · exact fun p q h s s' key ttl ttl' hs hs' => (h s' s key ttl' ttl hs' hs).symm
  · intro tag p hp s s' key ttl ttl' hs
    simp at hs
  · intro p q c k r suspended answer hq hpq s s' key ttl ttl' hs hs'
    rcases List.mem_append.mp hs with hs | hs
    · exact hpq s s' key ttl ttl' hs hs'
    · cases List.mem_singleton.mp hs
      generalize b.shared = after at answer
      cases answer with
      | set _ absent => exact .inr (le_trans ((traced q hq _ hs').kept key ttl' rfl) absent)

/-- An accepted verification read the clock in the lifetime and ends with its SET. -/
theorem log_of_accepted {p : Process (replicas keyPrefix)} (h : Accepted p) :
    ∃ now control, p.tag.envelope.claims.issuedAt ≤ now ∧ now < p.tag.envelope.claims.expiresAt ∧
      p.log.map Prod.snd = ⟨.utcNow, now⟩ :: control ++
        [⟨.redisSet (keyPrefix ++ p.tag.envelope.claims.authorizationId.str)
          (timeToLive p.tag.envelope.claims.expiresAt now), SetReply.set⟩] := by
  obtain ⟨verified, hfinished⟩ := h
  have hcompletes : Returns p.tag.program (p.log.map Prod.snd) verified := hfinished.completes
  simp only [Verification.program, returns_bind, returns_ask, returns_verify] at hcompletes
  obtain ⟨_, _, now, hlog, rfl, hoffline, ⟨control, -, rfl⟩, -⟩ := hcompletes
  obtain ⟨hissued, hlive⟩ := inTime_of_verifyOffline hoffline
  rw [p.tag.replica.unskewed] at hissued hlive
  refine ⟨now, control, Datetime.le_def.mpr (by simpa using hissued),
    Datetime.lt_def.mpr (by simpa using hlive), ?_⟩
  rw [hlog, p.tag.replica.guarded]
  rfl

/-- The SET of an accepted verification was executed before the expiry, and its key lives
at least until then. -/
theorem set_of_accepted {p : Process (replicas keyPrefix)} {present : Keyspace} (h : Accepted p)
    (traced : ∀ x ∈ p.log, Traced p.tag x.1 x.2 present) (ordered : p.Ordered Later present) :
    ∃ stamp ttl, (stamp, ⟨.redisSet (keyPrefix ++ p.tag.envelope.claims.authorizationId.str) ttl,
        SetReply.set⟩) ∈ p.log ∧
      stamp.clock < p.tag.envelope.claims.expiresAt ∧
      p.tag.envelope.claims.expiresAt.micros ≤ stamp.clock.micros + ttl * microsPerSecond := by
  obtain ⟨now, control, hissued, hnow, hlog⟩ := log_of_accepted h
  obtain ⟨init, last, hsplit, hinit, hlast⟩ := List.map_eq_append_iff.mp hlog
  obtain ⟨⟨first, e⟩, rest, rfl, he, -⟩ := List.map_eq_cons_iff.mp hinit
  obtain ⟨⟨stamp, e'⟩, rfl, he'⟩ := List.map_eq_singleton_iff.mp hlast
  simp only at he he'
  subst he he'
  have hread : (first, (⟨.utcNow, now⟩ : Event Reply)) ∈ p.log := by
    rw [hsplit]
    simp
  have hfirst : now = first.clock := (traced _ hread).clockRead now rfl
  have hset : (stamp, ⟨.redisSet (keyPrefix ++ p.tag.envelope.claims.authorizationId.str)
      (timeToLive p.tag.envelope.claims.expiresAt now), SetReply.set⟩) ∈ p.log := by
    rw [hsplit]
    simp
  have hstamps := ordered.stamps
  rw [hsplit] at hstamps
  have hlater : Later first stamp :=
    (List.pairwise_append.mp hstamps).2.2 (first, ⟨.utcNow, now⟩) List.mem_cons_self _
      List.mem_cons_self
  refine ⟨stamp, _, hset, (traced _ hset).timely _ _ rfl, ?_⟩
  have hshort := p.tag.envelope.claims.shortLived
  have hlife := expiresAt_le_timeToLive hnow (by
    rw [Datetime.le_def] at hissued
    simp only [maxLifetime, microsPerSecond] at hshort ⊢
    omega)
  have hclock : now.micros ≤ stamp.clock.micros := by
    rw [hfirst]
    exact hlater.clock
  omega

theorem single_use_of_timely {start : Keyspace} {ls : List (Label (Verification keyPrefix) Reply)}
    {pool : Pool (replicas keyPrefix)}
    (run : Run TimelyStep (Pool.start (replicas keyPrefix) start) ls pool) : SingleUse pool := by
  have htraced := run.invariant
    (fun pool => ∀ p ∈ pool.processes, ∀ x ∈ p.log, Traced p.tag x.1 x.2 pool.shared)
    (by simp [Pool.start]) (fun _ _ _ held hstep => traced_step hstep held)
  have hapart := run.invariant
    (fun pool => (∀ p ∈ pool.processes, ∀ x ∈ p.log, Traced p.tag x.1 x.2 pool.shared) ∧
      ∀ (i j : ℕ) (p q : Process (replicas keyPrefix)), i ≠ j →
        pool.processes[i]? = some p → pool.processes[j]? = some q → Apart p q)
    (by simp [Pool.start])
    (fun _ _ _ held hstep => ⟨traced_step hstep held.1, apart_step hstep.1 held.1 held.2⟩)
  have hordered := ordered_of_run (run.mono fun _ _ _ hstep => hstep.1) Later Later.trans
    later_of_move later_of_serve
  intro i j p q hne hp hq hsame haccepted haccepted'
  have hp' := List.mem_of_getElem? hp
  have hq' := List.mem_of_getElem? hq
  obtain ⟨s, ttl, hset, htimely, hlife⟩ :=
    set_of_accepted haccepted (htraced p hp') (hordered p hp')
  obtain ⟨s', ttl', hset', htimely', hlife'⟩ :=
    set_of_accepted haccepted' (htraced q hq') (hordered q hq')
  rw [← hsame] at hset' htimely' hlife'
  rw [Datetime.lt_def] at htimely htimely'
  rcases hapart.2 i j p q hne hp hq s s' _ ttl ttl' hset hset' with h | h
  · omega
  · omega

def Verification.consumption (v : Verification keyPrefix) (now : Datetime) : Call :=
  .redisSet (keyPrefix ++ v.envelope.claims.authorizationId.str)
    (timeToLive v.envelope.claims.expiresAt now)

theorem attempted_alone (ps : List (Process (replicas keyPrefix))) (v : Verification keyPrefix)
    {s after : Keyspace} {now later : Datetime} (hread : s.clock ≤ now) (hset : now ≤ later)
    {store : RedisRuntimeControlStore} {reply : GetReply} {setReply : Reply (v.consumption now)}
    {result : Except PyException VerifiedRuntimeAuthorization}
    (answered : Serve ⟨later, s.deadline⟩ (v.consumption now) setReply after)
    (completes : Completes v.program.run [⟨.utcNow, now⟩,
      ⟨.redisGet (controlKey store v.envelope.claims), reply⟩, ⟨v.consumption now, setReply⟩] result) :
    ∃ ls p, Run (Step (replicas keyPrefix)) ⟨s, ps⟩ ls ⟨after, ps ++ [p]⟩ ∧ p.tag = v ∧
      p.Finished result := by
  let atRead : Keyspace := ⟨now, s.deadline⟩
  let atSet : Keyspace := ⟨later, s.deadline⟩
  have hserved : Amid (replicas keyPrefix) s
      [(atRead, ⟨.utcNow, now⟩), (atRead, ⟨.redisGet (controlKey store v.envelope.claims), reply⟩),
        (atSet, ⟨v.consumption now, setReply⟩)] after := by
    refine .move (show (replicas keyPrefix).surroundings s atRead from ⟨hread, rfl⟩) (.answer (Serve.utcNow atRead) ?_)
    refine .answer (Serve.redisGet atRead _ reply) ?_
    exact .move (show (replicas keyPrefix).surroundings atRead atSet from ⟨hset, rfl⟩)
      (.answer answered (.nil _))
  obtain ⟨ls, p, hrun, htag, -, hfinished⟩ :=
    run_alone hserved ps (show (replicas keyPrefix).admits s v from trivial) completes
  exact ⟨ls, p, hrun, htag, hfinished⟩

section Attempts

variable {v : Verification keyPrefix} {s : Keyspace} {now later : Datetime}
variable {store : RedisRuntimeControlStore} {reply : GetReply}

theorem accepted_alone (ps : List (Process (replicas keyPrefix))) (hread : s.clock ≤ now)
    (hset : now ≤ later)
    (checked : v.replica.verifier.verifyOffline v.envelope v.request (.utc now) = .ok ())
    (allowed : Allowed v.replica.verifier v.envelope.claims
      [⟨.redisGet (controlKey store v.envelope.claims), reply⟩])
    (absent : s.deadline (keyPrefix ++ v.envelope.claims.authorizationId.str) ≤ later.micros) :
    ∃ ls p, Run (Step (replicas keyPrefix)) ⟨s, ps⟩ ls
      ⟨Keyspace.store ⟨later, s.deadline⟩ (keyPrefix ++ v.envelope.claims.authorizationId.str)
        (timeToLive v.envelope.claims.expiresAt now), ps ++ [p]⟩ ∧ p.tag = v ∧ Accepted p := by
  have hverified := returns_verify.mpr ⟨checked, ⟨_, allowed, rfl⟩, rfl⟩
  rw [v.replica.guarded] at hverified
  have hcompletes : Completes v.program.run _ _ :=
    returns_bind.mpr ⟨[⟨.utcNow, now⟩], _, now, rfl, returns_ask.mpr rfl, hverified⟩
  obtain ⟨ls, p, hrun, htag, hfinished⟩ :=
    attempted_alone ps v hread hset (Serve.set _ absent) hcompletes
  exact ⟨ls, p, hrun, htag, _, hfinished⟩

theorem replayed_alone (ps : List (Process (replicas keyPrefix))) (hread : s.clock ≤ now)
    (hset : now ≤ later)
    (checked : v.replica.verifier.verifyOffline v.envelope v.request (.utc now) = .ok ())
    (allowed : Allowed v.replica.verifier v.envelope.claims
      [⟨.redisGet (controlKey store v.envelope.claims), reply⟩])
    (present : later.micros < s.deadline (keyPrefix ++ v.envelope.claims.authorizationId.str)) :
    ∃ ls p, Run (Step (replicas keyPrefix)) ⟨s, ps⟩ ls ⟨⟨later, s.deadline⟩, ps ++ [p]⟩ ∧ p.tag = v ∧
      p.Finished (.error (denial .replayDetected
        "Runtime authorization identifier was already consumed")) := by
  have hconsume : Raises (v.replica.verifier.consumeAuthorization v.envelope.claims now)
      [⟨v.consumption now, SetReply.notSet⟩] (denial .replayDetected
        "Runtime authorization identifier was already consumed") := by
    unfold RuntimeAuthorizationVerifier.consumeAuthorization
    rw [v.replica.guarded]
    exact .await (.done _)
  have hverify : Raises (v.replica.verifier.verify v.envelope v.request (.utc now)) _ _ :=
    raises_bind.mpr (.inr ⟨[], _, (), rfl, (returns_compute _ _).mpr ⟨rfl, checked⟩,
      raises_bind.mpr (.inr ⟨_, _, (), rfl, returns_enforceRuntimeControl.mpr allowed,
        raises_bind.mpr (.inl hconsume)⟩)⟩)
  have hcompletes : Completes v.program.run _ _ :=
    raises_bind.mpr (.inr ⟨[⟨.utcNow, now⟩], _, now, rfl, returns_ask.mpr rfl, hverify⟩)
  exact attempted_alone ps v hread hset (Serve.notSet _ present) hcompletes

end Attempts

/-- A run that ends before every envelope expires was timely. -/
theorem timely_of_end {start : Keyspace} {ls : List (Label (Verification keyPrefix) Reply)}
    {pool : Pool (replicas keyPrefix)}
    (run : Run (Step (replicas keyPrefix)) (Pool.start (replicas keyPrefix) start) ls pool)
    (ending : ∀ p ∈ pool.processes, pool.shared.clock < p.tag.envelope.claims.expiresAt) :
    Run TimelyStep (Pool.start (replicas keyPrefix) start) ls pool := by
  refine run.refine_of_end
    (fun pool => ∀ p ∈ pool.processes, pool.shared.clock < p.tag.envelope.claims.expiresAt)
    ending ?_
  intro a l b hstep hb
  have hlater : Later a.shared b.shared :=
    shared_invariant hstep (Later a.shared)
      (fun _ _ move h => h.trans _ _ _ (later_of_move _ _ move))
      (fun _ _ _ _ answer h => h.trans _ _ _ (later_of_serve _ _ _ _ answer)) (.refl _)
  have ha : ∀ p ∈ a.processes, a.shared.clock < p.tag.envelope.claims.expiresAt := by
    intro p hp
    obtain ⟨q, hq, htag⟩ := exists_same_tag hstep hp
    rw [← htag]
    exact lt_of_le_of_lt (Datetime.le_def.mp hlater.clock) (Datetime.lt_def.mp (hb q hq))
  exact ⟨ha, hstep, fun i key ttl reply p _ hp => ha p (List.mem_of_getElem? hp)⟩

end Runs

namespace Deployed

open VerificationSpecification.Deployed
open RoutingSpecification.Deployed (request)

def replica : Replica "replay:" where
  verifier := verifier (.redis "replay:" (by decide)) (some controlStore) 0 (by decide)
  named := by decide
  guarded := rfl
  unskewed := rfl

def verification : Verification "replay:" := ⟨replica, envelope, request⟩

def unused : Keyspace := ⟨afterNoon 0, fun _ => 0⟩

theorem permits : Permits claims snapshot := ⟨rfl, by decide⟩

private theorem checked_at_issue :
    @RuntimeAuthorizationVerifier.verifyOffline genuine replica.verifier envelope request
      (.utc (afterNoon 0)) = .ok () := by
  decide +kernel

private theorem checked_before_expiry :
    @RuntimeAuthorizationVerifier.verifyOffline genuine replica.verifier envelope request
      (.utc (afterNoon 298)) = .ok () := by
  decide +kernel

private theorem checked_late :
    @RuntimeAuthorizationVerifier.verifyOffline genuine replica.verifier envelope request
      (.utc (afterNoon 299)) = .ok () := by
  decide +kernel

def used : Keyspace :=
  unused.store ("replay:" ++ claims.authorizationId.str)
    (timeToLive claims.expiresAt (afterNoon 0))

theorem allowed_by_snapshot : @Allowed decoder replica.verifier claims
    [⟨.redisGet (controlKey controlStore claims), (.str snapshotText : GetReply)⟩] :=
  ⟨.str snapshotText, snapshot, rfl, interpretReply_snapshotText, permits⟩

theorem accepted_at_issue :
    ∃ ls p, Run (Step (@replicas genuine decoder "replay:"))
      (Pool.start (@replicas genuine decoder "replay:") unused) ls ⟨used, [p]⟩ ∧
      p.tag = verification ∧ @Accepted genuine decoder "replay:" p :=
  @accepted_alone genuine decoder "replay:" verification unused (afterNoon 0) (afterNoon 0) controlStore
    (.str snapshotText) [] (by decide) (by decide) checked_at_issue allowed_by_snapshot (by decide)

/-- A second verification of the envelope executes its SET in the last second, and is refused. -/
theorem single_use_of_timely_deployed : ∃ ls p q,
    Run (@TimelyStep genuine decoder "replay:")
      (Pool.start (@replicas genuine decoder "replay:") unused) ls
      ⟨⟨afterNoon 299, used.deadline⟩, [p, q]⟩ ∧
      p.tag.envelope = q.tag.envelope ∧ @Accepted genuine decoder "replay:" p ∧
      q.Finished (.error (denial .replayDetected
        "Runtime authorization identifier was already consumed")) ∧
      ¬ @Accepted genuine decoder "replay:" q := by
  obtain ⟨ls, p, hrun, htag, haccepted⟩ := accepted_at_issue
  obtain ⟨ls', q, hrun', htag', hrefused⟩ :=
    @replayed_alone genuine decoder "replay:" verification used (afterNoon 298) (afterNoon 299)
      controlStore (.str snapshotText) [p] (by decide) (by decide) checked_before_expiry
      allowed_by_snapshot (by decide +kernel)
  have hlive : afterNoon 299 < verification.envelope.claims.expiresAt := by decide
  have htimely := @timely_of_end genuine decoder "replay:" _ _ _ (hrun.trans hrun') (by
    intro r hr
    rcases List.mem_append.mp hr with hr | hr
    · rw [List.mem_singleton.mp hr, htag]
      exact hlive
    · rw [List.mem_singleton.mp hr, htag']
      exact hlive)
  exact ⟨_, p, q, htimely, by rw [htag, htag'], haccepted, hrefused,
    @single_use_of_timely genuine decoder "replay:" _ _ _ htimely 0 1 p q (by decide) rfl rfl
      (by rw [htag, htag']) haccepted⟩

/-- A verification that waits past the expiry consumes the identifier again. -/
theorem consumed_again : ¬ ∀ [Cryptography] [JsonDecoder] (keyPrefix : String) (start : Keyspace)
    (ls : List (Label (Verification keyPrefix) Reply)) (pool : Pool (replicas keyPrefix)),
    Run (Step (replicas keyPrefix)) (Pool.start (replicas keyPrefix) start) ls pool →
      SingleUse pool := by
  intro h
  obtain ⟨ls, p, hrun, htag, haccepted⟩ := accepted_at_issue
  obtain ⟨ls', q, hrun', htag', haccepted'⟩ :=
    @accepted_alone genuine decoder "replay:" verification used (afterNoon 299) (afterNoon 301)
      controlStore (.str snapshotText) [p] (by decide) (by decide) checked_late allowed_by_snapshot
      (by decide +kernel)
  exact @h genuine decoder "replay:" _ _ _ (hrun.trans hrun') 0 1 p q (by decide) rfl rfl
    (by rw [htag, htag']) haccepted haccepted'

end Deployed

end PolicyModelRouter.ReplicatedSingleUse
