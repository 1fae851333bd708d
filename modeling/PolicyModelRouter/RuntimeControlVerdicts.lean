import PolicyModelRouter.SnapshotPayloads
import PolicyModelRouter.VerificationTraces

/-!
# The verdicts of runtime control

What the enforcer answers to every reply of the store. It opens for a well-formed snapshot
of an inactive switch whose floor is below the version, and each denial says which part of
this failed.
-/

namespace PolicyModelRouter.RuntimeControlVerdicts
open AwaitingPrograms OrderedChecks Uuids RouterCalls RuntimeControl SnapshotPayloads
open VerificationTraces

variable [JsonDecoder] {store : RedisRuntimeControlStore} {agentId : UUID} {agentVersion : ℤ}
variable {reply : GetReply} {outcome : Except PyException RuntimeControlSnapshot}

def DeniesWith (outcome : Except PyException RuntimeControlSnapshot)
    (code : DenialCode) : Prop :=
  ∃ message, outcome = .error (.runtimeControlEnforcement code message)

/-- The answer to a reply is the one the payload calls for. -/
structure Judges (store : RedisRuntimeControlStore) (agentId : UUID) (agentVersion : ℤ)
    (reply : GetReply) (outcome : Except PyException RuntimeControlSnapshot) : Prop where
  opens : ∀ snapshot, outcome = .ok snapshot ↔
    WellFormed store agentId.str reply snapshot ∧ snapshot.state = .inactive ∧
      snapshot.revokedThroughAgentVersion < agentVersion
  denies : ∀ e, outcome = .error e → ∃ code, DeniesWith outcome code
  killSwitch : DeniesWith outcome .killSwitchEngaged ↔
    ∃ snapshot, WellFormed store agentId.str reply snapshot ∧ snapshot.state = .active
  revoked : DeniesWith outcome .runtimeAuthorizationRevoked ↔
    ∃ snapshot, WellFormed store agentId.str reply snapshot ∧ snapshot.state = .inactive ∧
      agentVersion ≤ snapshot.revokedThroughAgentVersion
  unavailable : DeniesWith outcome .runtimeControlUnavailable ↔
    ∀ snapshot, ¬ WellFormed store agentId.str reply snapshot

def judge (store : RedisRuntimeControlStore) (agentId : UUID) (agentVersion : ℤ)
    (reply : GetReply) : Except PyException RuntimeControlSnapshot :=
  (interpretReply store agentId.str reply).mapError (fun _ => unavailable) >>= permit agentVersion

/-- Enforcing reads the store once and judges its reply. -/
theorem run_enforce : (enforce store agentId.str agentVersion).run =
    .await (.redisGet (store.keyPrefix ++ agentId.str))
      fun reply => .done (judge store agentId agentVersion reply) := by
  have hagent : raiseIf (agentId.str = "")
      (PyException.runtimeControlStore "Runtime-control agent identifier is empty") = .ok () :=
    if_neg (str_ne_empty agentId)
  unfold enforce RedisRuntimeControlStore.read
  rw [hagent]
  refine congrArg (Async.await _) (funext fun reply => ?_)
  simp only [judge, Async.bind, ExceptT.bindCont, compute, ExceptT.mk]
  cases interpretReply store agentId.str reply <;> rfl

omit [JsonDecoder] in
private theorem permit_active {snapshot : RuntimeControlSnapshot} (h : snapshot.state = .active) :
    permit agentVersion (some snapshot) = .error (.runtimeControlEnforcement .killSwitchEngaged
      "Governance runtime kill switch is engaged") := by
  simp only [permit, raiseIf, if_pos h]
  rfl

omit [JsonDecoder] in
private theorem permit_revoked {snapshot : RuntimeControlSnapshot} (h : snapshot.state = .inactive)
    (floor : agentVersion ≤ snapshot.revokedThroughAgentVersion) :
    permit agentVersion (some snapshot) = .error (.runtimeControlEnforcement
      .runtimeAuthorizationRevoked
      "Runtime authorization predates the current Governance revocation floor") := by
  have hstate : ¬ snapshot.state = .active := by simp [h]
  simp only [permit, raiseIf, if_neg hstate, if_pos floor]
  rfl

/-- A reply without a well-formed snapshot leaves the state unavailable. -/
theorem judge_of_not_wellFormed (h : ∀ snapshot, ¬ WellFormed store agentId.str reply snapshot) :
    judge store agentId agentVersion reply = .error unavailable := by
  unfold judge
  cases hread : interpretReply store agentId.str reply with
  | error e => rfl
  | ok read =>
    cases read with
    | none => rfl
    | some snapshot => exact absurd (wellFormed_iff.mp hread) (h snapshot)

private theorem judge_of_wellFormed {snapshot : RuntimeControlSnapshot}
    (h : WellFormed store agentId.str reply snapshot) :
    judge store agentId agentVersion reply = permit agentVersion (some snapshot) := by
  rw [judge, wellFormed_iff.mpr h]
  rfl

private theorem exists_wellFormed_iff {snapshot : RuntimeControlSnapshot}
    {P : RuntimeControlSnapshot → Prop}
    (h : WellFormed store agentId.str reply snapshot) :
    (∃ other, WellFormed store agentId.str reply other ∧ P other) ↔ P snapshot := by
  constructor
  · rintro ⟨other, hother, hP⟩
    rwa [h.unique hother]
  · exact fun hP => ⟨snapshot, h, hP⟩

private theorem judges_judge : Judges store agentId agentVersion reply
    (judge store agentId agentVersion reply) := by
  by_cases hformed : ∃ snapshot, WellFormed store agentId.str reply snapshot
  · obtain ⟨snapshot, hsnapshot⟩ := hformed
    have hsome : ¬ ∀ other, ¬ WellFormed store agentId.str reply other := fun h => h _ hsnapshot
    have hother : ∀ other, WellFormed store agentId.str reply other → snapshot = other :=
      fun other => hsnapshot.unique
    have hexists : ∀ P : RuntimeControlSnapshot → Prop,
        (∃ other, WellFormed store agentId.str reply other ∧ P other) ↔ P snapshot :=
      fun P => exists_wellFormed_iff hsnapshot
    rw [judge_of_wellFormed hsnapshot]
    cases hstate : snapshot.state with
    | active =>
      rw [permit_active hstate]
      refine ⟨fun other => ?_, ?_, ?_, ?_, ?_⟩
      · simp only [reduceCtorEq, false_iff]
        rintro ⟨hformed, hinactive, -⟩
        rw [hother other hformed, hinactive] at hstate
        cases hstate
      · simp [DeniesWith]
      · simp [DeniesWith, hexists, hstate]
      · simp [DeniesWith, hexists, hstate]
      · simp only [hsome, iff_false]
        simp [DeniesWith]
    | inactive =>
      by_cases hfloor : agentVersion ≤ snapshot.revokedThroughAgentVersion
      · rw [permit_revoked hstate hfloor]
        refine ⟨fun other => ?_, ?_, ?_, ?_, ?_⟩
        · simp only [reduceCtorEq, false_iff]
          rintro ⟨hformed, -, habove⟩
          rw [hother other hformed] at hfloor
          omega
        · simp [DeniesWith]
        · simp [DeniesWith, hexists, hstate]
        · simp [DeniesWith, hexists, hstate, hfloor]
        · simp only [hsome, iff_false]
          simp [DeniesWith]
      · rw [permit_eq_ok.mpr ⟨rfl, hstate, not_le.mp hfloor⟩]
        refine ⟨fun other => ?_, ?_, ?_, ?_, ?_⟩
        · constructor
          · rintro ⟨⟩
            exact ⟨hsnapshot, hstate, not_le.mp hfloor⟩
          · rintro ⟨hformed, -, -⟩
            rw [hother other hformed]
        · simp
        · simp [DeniesWith, hexists, hstate]
        · simp [DeniesWith, hexists, hstate, hfloor]
        · simp only [hsome, iff_false]
          simp [DeniesWith]
  · have hnone : ∀ snapshot, ¬ WellFormed store agentId.str reply snapshot := not_exists.mp hformed
    rw [judge_of_not_wellFormed hnone]
    constructor <;> simp [DeniesWith, unavailable, hnone]

/-- Every reply is judged, and enforcing does nothing else. -/
theorem enforce_judges (store : RedisRuntimeControlStore) (agentId : UUID) (agentVersion : ℤ) :
    (∀ reply, ∃ outcome, Completes (enforce store agentId.str agentVersion).run
        [⟨.redisGet (store.keyPrefix ++ agentId.str), reply⟩] outcome) ∧
      ∀ es outcome, Completes (enforce store agentId.str agentVersion).run es outcome →
        ∃ reply, es = [⟨.redisGet (store.keyPrefix ++ agentId.str), reply⟩] ∧
          Judges store agentId agentVersion reply outcome := by
  rw [run_enforce]
  constructor
  · exact fun reply => ⟨_, .await (.done _)⟩
  · intro es outcome h
    obtain ⟨reply, rest, rfl, hdone⟩ := completes_await_iff.mp h
    obtain ⟨rfl, rfl⟩ := (completes_done_iff ..).mp hdone
    exact ⟨reply, rfl, judges_judge⟩

end PolicyModelRouter.RuntimeControlVerdicts
