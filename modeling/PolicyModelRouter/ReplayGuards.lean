import PolicyModelRouter.Doubles
import PolicyModelRouter.RouterCalls

/-!
# Replay guards

The guard in memory keeps identifiers with their expiry and drops the expired ones
on every call. The guard on Redis sets a key that disappears by itself.
-/

namespace PolicyModelRouter.ReplayGuards
open AwaitingPrograms Doubles RouterCalls UtcTimestamps Uuids

abbrev Entries := List (UUID × Datetime)

def live (entries : Entries) (now : Datetime) : Entries := entries.filter fun entry => now < entry.2

def consumeInMemory (maxEntries : ℕ) (entries : Entries) (authorizationId : UUID)
    (expiresAt now : Datetime) : ConsumeReply × Entries :=
  if authorizationId ∈ (live entries now).map Prod.fst then (.replayed, live entries now)
  else if maxEntries ≤ (live entries now).length then (.full, live entries now)
  else (.fresh, live entries now ++ [(authorizationId, expiresAt)])

theorem mem_live {entries : Entries} {now : Datetime} {entry : UUID × Datetime} :
    entry ∈ live entries now ↔ entry ∈ entries ∧ now < entry.2 := by
  simp [live]

/-- A live entry has the identifier, or there is no room for it, or it is added. -/
theorem consumeInMemory_spec (maxEntries : ℕ) (entries : Entries) (authorizationId : UUID)
    (expiresAt now : Datetime) :
    (authorizationId ∈ (live entries now).map Prod.fst ∧
      consumeInMemory maxEntries entries authorizationId expiresAt now =
        (.replayed, live entries now)) ∨
    (authorizationId ∉ (live entries now).map Prod.fst ∧ maxEntries ≤ (live entries now).length ∧
      consumeInMemory maxEntries entries authorizationId expiresAt now =
        (.full, live entries now)) ∨
    (authorizationId ∉ (live entries now).map Prod.fst ∧ (live entries now).length < maxEntries ∧
      consumeInMemory maxEntries entries authorizationId expiresAt now =
        (.fresh, live entries now ++ [(authorizationId, expiresAt)])) := by
  unfold consumeInMemory
  by_cases hknown : authorizationId ∈ (live entries now).map Prod.fst
  · exact .inl ⟨hknown, if_pos hknown⟩
  rw [if_neg hknown]
  by_cases hfull : maxEntries ≤ (live entries now).length
  · exact .inr (.inl ⟨hknown, hfull, if_pos hfull⟩)
  · exact .inr (.inr ⟨hknown, Nat.not_le.mp hfull, if_neg hfull⟩)

/-- An identifier is added when no live entry has it; otherwise nothing is. -/
theorem consumeInMemory_cases (maxEntries : ℕ) (entries : Entries) (authorizationId : UUID)
    (expiresAt now : Datetime) :
    (authorizationId ∉ (live entries now).map Prod.fst ∧
      consumeInMemory maxEntries entries authorizationId expiresAt now =
        (.fresh, live entries now ++ [(authorizationId, expiresAt)])) ∨
    ∃ reply, reply ≠ .fresh ∧ consumeInMemory maxEntries entries authorizationId expiresAt now =
      (reply, live entries now) := by
  rcases consumeInMemory_spec maxEntries entries authorizationId expiresAt now with
    ⟨-, hreplayed⟩ | ⟨-, -, hfull⟩ | ⟨hnew, -, hfresh⟩
  · exact .inr ⟨.replayed, by simp, hreplayed⟩
  · exact .inr ⟨.full, by simp, hfull⟩
  · exact .inl ⟨hnew, hfresh⟩

/-- The seconds between two instants, as a float. -/
def totalSeconds (expiresAt now : Datetime) : Double :=
  .nearest (((expiresAt.micros : ℚ) - now.micros) / microsPerSecond)

/-- The time to live of a key: the rest of the lifetime in whole seconds, at least one. -/
def timeToLive (expiresAt now : Datetime) : ℕ := max 1 ⌈(totalSeconds expiresAt now).value⌉.toNat

/-- Within a century no microsecond of a lifetime is rounded away. -/
theorem expiresAt_le_timeToLive {expiresAt now : Datetime} (h : now < expiresAt)
    (short : expiresAt.micros ≤ now.micros + 2 ^ 32 * microsPerSecond) :
    expiresAt.micros ≤ now.micros + timeToLive expiresAt now * microsPerSecond := by
  have hlt := Datetime.lt_def.mp h
  by_contra hover
  have hbelow : (now.micros : ℚ) + timeToLive expiresAt now * 1000000 + 1 ≤ expiresAt.micros := by
    exact_mod_cast not_le.mp hover
  have habove : (expiresAt.micros : ℚ) ≤ now.micros + 2 ^ 32 * 1000000 := by exact_mod_cast short
  have hpositive : (now.micros : ℚ) < expiresAt.micros := by exact_mod_cast hlt
  have hrounded : (totalSeconds expiresAt now).value ≤ timeToLive expiresAt now := by
    calc (totalSeconds expiresAt now).value
        ≤ ⌈(totalSeconds expiresAt now).value⌉ := Int.le_ceil _
      _ ≤ (⌈(totalSeconds expiresAt now).value⌉.toNat : ℚ) := by exact_mod_cast Int.self_le_toNat _
      _ ≤ timeToLive expiresAt now := by exact_mod_cast le_max_right _ _
  have herror := Double.abs_nearest_sub_le (((expiresAt.micros : ℚ) - now.micros) / microsPerSecond)
  have hseconds : (microsPerSecond : ℚ) = 1000000 := by norm_num [microsPerSecond]
  rw [hseconds, abs_of_nonneg (by linarith : (0 : ℚ) ≤ (expiresAt.micros - now.micros) / 1000000)] at herror
  rw [totalSeconds, hseconds] at hrounded
  have := (abs_le.mp herror).1
  linarith

inductive RuntimeAuthorizationReplayGuard where
  | inMemory (maxEntries : ℕ) (positive : 1 ≤ maxEntries)
  | redis (keyPrefix : String) (named : keyPrefix ≠ "")

def RuntimeAuthorizationReplayGuard.consume (authorizationId : UUID) (expiresAt now : Datetime) :
    RuntimeAuthorizationReplayGuard → Coroutine Bool
  | .inMemory _ _ => do
    match ← ask (.memoryConsume authorizationId expiresAt now) with
    | .fresh => pure true
    | .replayed => pure false
    | .full => throw (denial .replayStoreFull "Runtime authorization replay store is at capacity")
  | .redis keyPrefix _ => do
    match ← ask (.redisSet (keyPrefix ++ authorizationId.str) (timeToLive expiresAt now)) with
    | .set => pure true
    | .notSet => pure false
    | .raises => throw (denial .replayStoreUnavailable
        "Runtime authorization replay state is unavailable")

end PolicyModelRouter.ReplayGuards
