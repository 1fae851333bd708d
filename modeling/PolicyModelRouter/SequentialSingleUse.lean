import PolicyModelRouter.VerificationSpecification
import PolicyModelRouter.VerificationTraces

/-!
# Single use in one process

A verifier over the guard in memory answers one call after another. The guard forgets
an identifier at its expiry; verification accepts until the expiry widened by the
clock skew.
-/

namespace PolicyModelRouter.SequentialSingleUse
open AuthorizationContract AuthorizationVerifier AwaitingPrograms OrderedChecks ReplayGuards
open RouterCalls RoutingCatalog RuntimeControl TrustedKeys UtcTimestamps Uuids VerificationTraces

/-- A verifier over the guard in memory, without runtime control. -/
structure LocalVerifier where
  verifier : RuntimeAuthorizationVerifier
  maxEntries : ℕ
  positive : 1 ≤ maxEntries
  guarded : verifier.replayGuard = .inMemory maxEntries positive
  uncontrolled : verifier.runtimeControl = none

structure Attempt where
  envelope : SignedRuntimeAuthorization
  request : RouteRequest
  now : ClockReading

/-- The instant a reading denotes, in microseconds; a naive one is taken as it stands. -/
def instant (now : ClockReading) : ℤ := now.wall.micros - now.utcoffset.getD 0

private theorem instant_utc (now : Datetime) : instant (.utc now) = now.micros := by
  simp [instant, ClockReading.utc]

private theorem instant_of_eq_utc {now : ClockReading} (h : now = .utc now.wall) :
    instant now = now.wall.micros := by
  rw [h]
  exact instant_utc _

/-- The guard's entries answer its call; other calls are answered elsewhere. -/
def answer (maxEntries : ℕ) (elsewhere : (call : Call) → Reply call) :
    (call : Call) → Entries → Reply call × Entries
  | .memoryConsume authorizationId expiresAt now, entries =>
    consumeInMemory maxEntries entries authorizationId expiresAt now
  | call, entries => (elsewhere call, entries)

/-- A call of the guard alone is answered by its critical section. -/
theorem consume_of_served {maxEntries : ℕ} {elsewhere : (call : Call) → Reply call}
    {entries left : Entries} {authorizationId : UUID} {expiresAt now : Datetime}
    {reply : ConsumeReply}
    (h : Served (Answers (answer maxEntries elsewhere)) entries
      [⟨.memoryConsume authorizationId expiresAt now, reply⟩] left) :
    consumeInMemory maxEntries entries authorizationId expiresAt now = (reply, left) := by
  cases h with
  | cons head tail =>
    cases tail
    exact head

/-- Until its expiry, an accepted identifier is among the entries. -/
def Remembers (entries : Entries) (time : ℤ) (a : Attempt) : Prop :=
  time < a.envelope.claims.expiresAt.micros →
    (a.envelope.claims.authorizationId, a.envelope.claims.expiresAt) ∈ entries

theorem Remembers.later {entries : Entries} {time time' : ℤ} {a : Attempt}
    (h : Remembers entries time a) (later : time ≤ time') : Remembers entries time' a :=
  fun hlive => h (lt_of_le_of_lt later hlive)

private theorem remembers_consumed {entries : Entries} {now : Datetime} {a : Attempt} (maxEntries : ℕ)
    (authorizationId : UUID) (expiresAt : Datetime) (h : Remembers entries now.micros a) :
    Remembers (consumeInMemory maxEntries entries authorizationId expiresAt now).2 now.micros a := by
  intro hlive
  have hkept : (a.envelope.claims.authorizationId, a.envelope.claims.expiresAt) ∈
      live entries now := mem_live.mpr ⟨h hlive, Datetime.lt_def.mpr (by exact_mod_cast hlive)⟩
  rcases consumeInMemory_cases maxEntries entries authorizationId expiresAt now with
    ⟨-, hfresh⟩ | ⟨reply, -, hrefused⟩
  · rw [hfresh]
    exact List.mem_append_left _ hkept
  · rwa [hrefused]

section Sessions

variable [Cryptography] [JsonDecoder]

def LocalVerifier.attempt (v : LocalVerifier) (elsewhere : (call : Call) → Reply call)
    (entries : Entries) (a : Attempt) :
    Except PyException VerifiedRuntimeAuthorization × Entries :=
  let ended := (v.verifier.verify a.envelope a.request a.now).run.run
    (answer v.maxEntries elsewhere) entries
  (ended.1, ended.2.2)

def LocalVerifier.session (v : LocalVerifier) (elsewhere : (call : Call) → Reply call) :
    Entries → List Attempt → List (Attempt × Except PyException VerifiedRuntimeAuthorization)
  | _, [] => []
  | entries, a :: rest =>
    (a, (v.attempt elsewhere entries a).1) :: v.session elsewhere (v.attempt elsewhere entries a).2 rest

def Accepted (outcome : Attempt × Except PyException VerifiedRuntimeAuthorization) : Prop :=
  ∃ verified, outcome.2 = .ok verified

/-- The same protected header and the same claims. -/
structure SameEnvelope (a b : Attempt) : Prop where
  protected_ : a.envelope.protected_ = b.envelope.protected_
  claims : a.envelope.claims = b.envelope.claims

/-- No envelope is accepted twice. -/
def SingleUse (outcomes : List (Attempt × Except PyException VerifiedRuntimeAuthorization)) : Prop :=
  outcomes.Pairwise fun a b => SameEnvelope a.1 b.1 → Accepted a → ¬ Accepted b

def NonDecreasing (attempts : List Attempt) : Prop :=
  attempts.Pairwise fun a b => instant a.now ≤ instant b.now

/-- The call falls between the expiry and the end of the grace period after it. -/
def InGrace (v : LocalVerifier) (a : Attempt) : Prop :=
  (a.envelope.claims.expiresAt.micros : ℤ) ≤ instant a.now ∧
    instant a.now <
      a.envelope.claims.expiresAt.micros + v.verifier.clockSkewSeconds * microsPerSecond

/-- What one call does to the entries: it consumes nothing and is not accepted, or it is
decided by the guard. -/
theorem attempt_cases (v : LocalVerifier) (elsewhere : (call : Call) → Reply call)
    (entries : Entries) (a : Attempt) :
    ((v.attempt elsewhere entries a).2 = entries ∧
      ¬ Accepted (a, (v.attempt elsewhere entries a).1)) ∨
    ∃ now : Datetime, instant a.now = now.micros ∧
      now.micros <
        a.envelope.claims.expiresAt.micros + v.verifier.clockSkewSeconds * microsPerSecond ∧
      (v.attempt elsewhere entries a).2 = (consumeInMemory v.maxEntries entries
        a.envelope.claims.authorizationId a.envelope.claims.expiresAt now).2 ∧
      (Accepted (a, (v.attempt elsewhere entries a).1) → (consumeInMemory v.maxEntries entries
        a.envelope.claims.authorizationId a.envelope.claims.expiresAt now).1 = .fresh) := by
  rcases hrun : (v.verifier.verify a.envelope a.request a.now).run.run
    (answer v.maxEntries elsewhere) entries with ⟨result, es, entries'⟩
  obtain ⟨hcompletes, hserved⟩ := (run_eq_iff _ _ _ _ _).mp hrun
  have hattempt : v.attempt elsewhere entries a = (result, entries') := by
    simp only [LocalVerifier.attempt, hrun]
  rw [hattempt]
  cases result with
  | ok verified =>
    obtain ⟨hoffline, ⟨control, hallowed, rfl⟩, -⟩ := returns_verify.mp hcompletes
    rw [Allowed, v.uncontrolled] at hallowed
    subst hallowed
    rw [v.guarded] at hserved
    have hutc := utc_of_verifyOffline hoffline
    have hinstant := instant_of_eq_utc hutc
    have hconsume := consume_of_served hserved
    rw [hutc] at hoffline
    refine .inr ⟨a.now.wall, hinstant, (inTime_of_verifyOffline hoffline).2, ?_⟩
    rw [hconsume]
    exact ⟨rfl, fun _ => rfl⟩
  | error e =>
    have hnot : ¬ Accepted (a, (Except.error e : Except PyException VerifiedRuntimeAuthorization)) := by
      rintro ⟨_, ⟨⟩⟩
    cases denied_of_raises hcompletes with
    | offline check =>
      cases hserved
      exact .inl ⟨rfl, hnot⟩
    | control checked configured own =>
      rw [v.uncontrolled] at configured
      cases configured
    | @replay control code message reply checked allowed refused =>
      rw [Allowed, v.uncontrolled] at allowed
      subst allowed
      have hutc := utc_of_verifyOffline checked
      simp only [List.nil_append] at hserved
      clear hrun hcompletes
      revert hserved reply
      rw [v.guarded]
      intro reply refused hserved
      have hinstant := instant_of_eq_utc hutc
      have hconsume := consume_of_served hserved
      rw [hutc] at checked
      refine .inr ⟨a.now.wall, hinstant, (inTime_of_verifyOffline checked).2, ?_⟩
      rw [hconsume]
      exact ⟨rfl, fun h => absurd h hnot⟩

theorem remembers_attempt {v : LocalVerifier} {elsewhere : (call : Call) → Reply call}
    {entries : Entries} {a b : Attempt} (h : Remembers entries (instant b.now) a) :
    Remembers (v.attempt elsewhere entries b).2 (instant b.now) a := by
  rcases attempt_cases v elsewhere entries b with ⟨hsame, -⟩ | ⟨now, hnow, -, hentries, -⟩
  · rwa [hsame]
  · rw [hentries, hnow]
    rw [hnow] at h
    exact remembers_consumed _ _ _ h

theorem remembers_accepted {v : LocalVerifier} {elsewhere : (call : Call) → Reply call}
    {entries : Entries} {a : Attempt}
    (accepted : Accepted (a, (v.attempt elsewhere entries a).1)) :
    Remembers (v.attempt elsewhere entries a).2 (instant a.now) a := by
  rcases attempt_cases v elsewhere entries a with ⟨-, hrejected⟩ | ⟨now, -, -, hentries, hfresh⟩
  · exact absurd accepted hrejected
  · intro _
    rw [hentries]
    rcases consumeInMemory_cases v.maxEntries entries a.envelope.claims.authorizationId
      a.envelope.claims.expiresAt now with ⟨-, hadded⟩ | ⟨reply, hreply, hrefused⟩
    · rw [hadded]
      exact List.mem_append_right _ (List.mem_singleton.mpr rfl)
    · rw [hrefused] at hfresh
      exact absurd (hfresh accepted) hreply

theorem rejected_of_remembers {v : LocalVerifier} {elsewhere : (call : Call) → Reply call}
    {entries : Entries} {a b : Attempt} (same : SameEnvelope a b)
    (h : Remembers entries (instant b.now) a) (outside : ¬ InGrace v b) :
    ¬ Accepted (b, (v.attempt elsewhere entries b).1) := by
  intro haccepted
  rcases attempt_cases v elsewhere entries b with ⟨-, hrejected⟩ | ⟨now, hnow, hlt, -, hfresh⟩
  · exact hrejected haccepted
  · have hlive : instant b.now < b.envelope.claims.expiresAt.micros := by
      by_contra hexpired
      exact outside ⟨not_lt.mp hexpired, by rw [hnow]; exact_mod_cast hlt⟩
    have hentry := h (by rw [same.claims]; exact hlive)
    rw [same.claims] at hentry
    rw [hnow] at hlive
    rcases consumeInMemory_cases v.maxEntries entries b.envelope.claims.authorizationId
      b.envelope.claims.expiresAt now with ⟨hnew, -⟩ | ⟨reply, hreply, hrefused⟩
    · exact hnew (List.mem_map.mpr
        ⟨_, mem_live.mpr ⟨hentry, Datetime.lt_def.mpr (by exact_mod_cast hlive)⟩, rfl⟩)
    · rw [hrefused] at hfresh
      exact hreply (hfresh haccepted)

/-- After an accepted call, the rest of a session rejects its envelope. -/
theorem rejected_in_rest {v : LocalVerifier} {elsewhere : (call : Call) → Reply call}
    {a : Attempt} {rest : List Attempt} {entries : Entries} {time : ℤ}
    (sorted : NonDecreasing rest) (later : ∀ b ∈ rest, time ≤ instant b.now)
    (outside : ∀ b ∈ rest, ¬ InGrace v b) (h : Remembers entries time a) :
    ∀ outcome ∈ v.session elsewhere entries rest, SameEnvelope a outcome.1 → ¬ Accepted outcome := by
  induction rest generalizing entries time with
  | nil => simp [LocalVerifier.session]
  | cons b rest ih =>
    obtain ⟨hfirst, hsorted⟩ := List.pairwise_cons.mp sorted
    have hb : Remembers entries (instant b.now) a := h.later (later b List.mem_cons_self)
    intro outcome houtcome hsame
    rcases List.mem_cons.mp houtcome with rfl | houtcome
    · exact rejected_of_remembers hsame hb (outside b List.mem_cons_self)
    · exact ih hsorted hfirst (fun c hc => outside c (List.mem_cons_of_mem _ hc))
        (remembers_attempt hb) outcome houtcome hsame

theorem single_use_outside_grace (v : LocalVerifier) (elsewhere : (call : Call) → Reply call)
    (entries : Entries) (attempts : List Attempt) (sorted : NonDecreasing attempts)
    (outside : ∀ a ∈ attempts, ¬ InGrace v a) :
    SingleUse (v.session elsewhere entries attempts) := by
  induction attempts generalizing entries with
  | nil => exact .nil
  | cons a rest ih =>
    obtain ⟨hfirst, hsorted⟩ := List.pairwise_cons.mp sorted
    have houtside : ∀ b ∈ rest, ¬ InGrace v b := fun b hb => outside b (List.mem_cons_of_mem _ hb)
    refine List.pairwise_cons.mpr ⟨?_, ih _ hsorted houtside⟩
    intro outcome houtcome hsame haccepted
    exact rejected_in_rest hsorted hfirst houtside (remembers_accepted haccepted) outcome houtcome
      hsame

end Sessions

namespace Deployed

open VerificationSpecification.Deployed
open RoutingSpecification.Deployed (request useCase noon)

def localVerifier : LocalVerifier where
  verifier := verifier inMemory none 60 widest_skew
  maxEntries := 10000
  positive := capacity_pos
  guarded := rfl
  uncontrolled := rfl

def attemptAfter (seconds : Fin 1000) : Attempt := ⟨envelope, request, .utc (afterNoon seconds)⟩

def elsewhere : (call : Call) → Reply call :=
  RoutingSpecification.ports useCase (fun _ => some true) "id-1" noon

def twoCalls (first second : Fin 1000) :
    List (Attempt × Except PyException VerifiedRuntimeAuthorization) :=
  @LocalVerifier.session genuine undecodable localVerifier elsewhere []
    [attemptAfter first, attemptAfter second]

private theorem accepted_of_isOk {outcome : Attempt × Except PyException VerifiedRuntimeAuthorization}
    (h : outcome.2.isOk = true) : Accepted outcome := by
  obtain ⟨a, result⟩ := outcome
  cases result with
  | ok verified => exact ⟨verified, rfl⟩
  | error e => cases h

theorem single_use_outside_grace_deployed :
    SingleUse (twoCalls 0 299) :=
  @single_use_outside_grace genuine undecodable localVerifier elsewhere []
    [attemptAfter 0, attemptAfter 299] (by simp [NonDecreasing]; decide) (by simp [InGrace]; decide)

/-- At the expiry the guard has forgotten the identifier, and the skew still admits it. -/
theorem accepted_again_in_grace : ¬ ∀ [Cryptography] [JsonDecoder] (v : LocalVerifier)
    (elsewhere : (call : Call) → Reply call) (attempts : List Attempt),
    NonDecreasing attempts → SingleUse (v.session elsewhere [] attempts) := by
  intro h
  have hsingle : SingleUse (twoCalls 0 300) :=
    @h genuine undecodable localVerifier elsewhere [attemptAfter 0, attemptAfter 300]
      (by simp [NonDecreasing]; decide)
  have haccepted : ∀ outcome ∈ twoCalls 0 300, outcome.2.isOk = true := by decide +kernel
  obtain ⟨hfirst, -⟩ := List.pairwise_cons.mp hsingle
  exact hfirst _ List.mem_cons_self ⟨rfl, rfl⟩
    (accepted_of_isOk (haccepted _ List.mem_cons_self))
    (accepted_of_isOk (haccepted _ (List.mem_cons_of_mem _ List.mem_cons_self)))

end Deployed

end PolicyModelRouter.SequentialSingleUse
