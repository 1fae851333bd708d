import Mathlib.Data.Finset.Card
import PolicyModelRouter.MemoryGuardRuns
import PolicyModelRouter.ReplicatedSingleUse

/-!
# The two replay guards

The guard in memory and the one in Redis are implementations of one growing set of used
identifiers. The first drops what has expired and has room for so many, the second lets a key
live for whole seconds; live authorizations see neither.
-/

namespace PolicyModelRouter.ReplayGuardBackends
open AwaitingPrograms MemoryGuardRuns ReplayGuards RouterCalls UtcTimestamps Uuids
open ReplicatedSingleUse (Keyspace)

section Sequences

variable {σ τ κ ρ : Type}

def answers (step : σ → κ → ρ × σ) : σ → List κ → List ρ
  | _, [] => []
  | s, call :: rest => (step s call).1 :: answers step (step s call).2 rest

/-- Related components answer alike when every call is answered alike and leaves them related
for the calls still to come. -/
theorem answers_eq {step : σ → κ → ρ × σ} {step' : τ → κ → ρ × τ} (Related : σ → τ → List κ → Prop)
    (h : ∀ s t call rest, Related s t (call :: rest) →
      (step s call).1 = (step' t call).1 ∧ Related (step s call).2 (step' t call).2 rest)
    {s : σ} {t : τ} {calls : List κ} (related : Related s t calls) :
    answers step s calls = answers step' t calls := by
  induction calls generalizing s t with
  | nil => rfl
  | cons call rest ih =>
    obtain ⟨hanswer, hrelated⟩ := h s t call rest related
    rw [answers, answers, hanswer, ih hrelated]

end Sequences

/-- A call of `consume`, and the instant at which Redis executes its SET: later than the one that
was captured for the call. -/
structure Execution extends Consumption where
  executedAt : Datetime

/-- The identifiers of the calls so far. -/
def used (past : List Execution) : List UUID := past.map fun c => c.authorizationId

/-- The first use of an identifier is admitted, and no other. -/
def useOnce (past : List Execution) (c : Execution) : Except PyException Bool × List Execution :=
  (.ok (c.authorizationId ∉ used past), past ++ [c])

theorem mem_used_concat {past : List Execution} {c : Execution} {id : UUID} :
    id ∈ used (past ++ [c]) ↔ id ∈ used past ∨ id = c.authorizationId := by
  simp [used]

def unexpired (past : List Execution) (now : Datetime) : Finset UUID :=
  (used (past.filter fun c => now < c.expiresAt)).toFinset

private theorem mem_unexpired {past : List Execution} {now : Datetime} {id : UUID} :
    id ∈ unexpired past now ↔ ∃ c ∈ past, now < c.expiresAt ∧ c.authorizationId = id := by
  simp [unexpired, used, and_assoc]

structure RedisGuard where
  keyPrefix : String
  named : keyPrefix ≠ ""

/-- SET with NX and EX, executed at once; other calls are answered elsewhere. -/
def setNx (elsewhere : (call : Call) → Reply call) : (call : Call) → Keyspace → Reply call × Keyspace
  | .redisSet key ttl, s =>
    if s.deadline key ≤ s.clock.micros then (.set, s.store key ttl) else (.notSet, s)
  | call, s => (elsewhere call, s)

def RedisGuard.key (guard : RedisGuard) (id : UUID) : String := guard.keyPrefix ++ id.str

/-- One call of `consume`, and the keyspace it leaves. Its time to live is counted from the instant
captured for the call, and the key lives from the execution on. -/
def RedisGuard.consume (guard : RedisGuard) (elsewhere : (call : Call) → Reply call) (s : Keyspace)
    (c : Execution) : Except PyException Bool × Keyspace :=
  let coroutine := RuntimeAuthorizationReplayGuard.consume c.authorizationId c.expiresAt c.now
    (.redis guard.keyPrefix guard.named)
  let ended := coroutine.run.run (setNx elsewhere) { s with clock := c.executedAt }
  (ended.1, ended.2.2)

section Redis

variable {guard : RedisGuard} {elsewhere : (call : Call) → Reply call} {s : Keyspace}
variable {c : Execution}

private theorem key_inj {id other : UUID} (h : guard.key id = guard.key other) : id = other :=
  str_inj ((String.append_right_inj _).mp h)

theorem redisConsume_eq {reply : SetReply} {after : Keyspace} {fresh : Bool}
    (h : setNx elsewhere (.redisSet (guard.key c.authorizationId) (timeToLive c.expiresAt c.now))
      { s with clock := c.executedAt } = (reply, after))
    (returned : (reply = .set ∧ fresh = true) ∨ (reply = .notSet ∧ fresh = false)) :
    guard.consume elsewhere s c = (.ok fresh, after) := by
  have hcompletes : Completes (RuntimeAuthorizationReplayGuard.consume c.authorizationId c.expiresAt
      c.now (.redis guard.keyPrefix guard.named)).run
      [⟨.redisSet (guard.key c.authorizationId) (timeToLive c.expiresAt c.now), reply⟩]
      (.ok fresh) := by
    rcases returned with ⟨rfl, rfl⟩ | ⟨rfl, rfl⟩
    · exact .await (.done _)
    · exact .await (.done _)
  have hserved : Served (Answers (setNx elsewhere)) { s with clock := c.executedAt }
      [⟨.redisSet (guard.key c.authorizationId) (timeToLive c.expiresAt c.now), reply⟩] after :=
    .cons h (.nil _)
  have hrun := (run_eq_iff _ _ _ _ _).mpr ⟨hcompletes, hserved⟩
  simp only [RedisGuard.consume, hrun]

private theorem consume_absent (h : s.deadline (guard.key c.authorizationId) ≤ c.executedAt.micros) :
    guard.consume elsewhere s c = (.ok true, Keyspace.store { s with clock := c.executedAt }
      (guard.key c.authorizationId) (timeToLive c.expiresAt c.now)) :=
  redisConsume_eq (if_pos h) (.inl ⟨rfl, rfl⟩)

private theorem consume_present (h : c.executedAt.micros < s.deadline (guard.key c.authorizationId)) :
    guard.consume elsewhere s c = (.ok false, { s with clock := c.executedAt }) :=
  redisConsume_eq (if_neg (Nat.not_le.mpr h)) (.inr ⟨rfl, rfl⟩)

end Redis

/-- What is asked of the calls: the clock does not go back, every authorization has one expiry, at
most a century ahead, and its SET is executed before it has reached it. -/
structure LiveCalls (calls : List Execution) : Prop where
  sorted : calls.Pairwise fun c d => c.now ≤ d.now
  executed : ∀ c ∈ calls, c.now ≤ c.executedAt
  live : ∀ c ∈ calls, c.executedAt < c.expiresAt
  fixed : ∀ c ∈ calls, ∀ d ∈ calls, c.authorizationId = d.authorizationId → c.expiresAt = d.expiresAt
  short : ∀ c ∈ calls, c.expiresAt.micros ≤ c.now.micros + 2 ^ 32 * microsPerSecond

/-- Every new identifier finds room besides those that have not expired. -/
def Room (maxEntries : ℕ) (calls : List Execution) : Prop :=
  ∀ past c rest, calls = past ++ c :: rest → c.authorizationId ∉ used past →
    (unexpired past c.now).card < maxEntries

section Guards

variable {calls past rest : List Execution} {c : Execution}

theorem LiveCalls.captured (h : LiveCalls calls) (hc : c ∈ calls) : c.now < c.expiresAt :=
  lt_of_le_of_lt (Datetime.le_def.mp (h.executed c hc)) (Datetime.lt_def.mp (h.live c hc))

theorem LiveCalls.later (h : LiveCalls calls) (split : past ++ c :: rest = calls) {d : Execution}
    (hd : d ∈ rest) : c.now ≤ d.now ∧
      (d.authorizationId = c.authorizationId → d.executedAt < c.expiresAt) := by
  subst split
  obtain ⟨-, hsorted, -⟩ := List.pairwise_append.mp h.sorted
  have hc : c ∈ past ++ c :: rest := List.mem_append_right _ List.mem_cons_self
  have hd' : d ∈ past ++ c :: rest := List.mem_append_right _ (List.mem_cons_of_mem _ hd)
  refine ⟨(List.pairwise_cons.mp hsorted).1 d hd, fun hsame => ?_⟩
  rw [h.fixed c hc d hd' hsame.symm]
  exact h.live d hd'

/-- The guard in Redis holds the keys of the used identifiers, as far as live calls can tell. -/
structure HoldsUsed (guard : RedisGuard) (calls : List Execution) (s : Keyspace)
    (past rest : List Execution) : Prop where
  split : past ++ rest = calls
  held : ∀ d ∈ rest, d.executedAt.micros < s.deadline (guard.key d.authorizationId) ↔
    d.authorizationId ∈ used past

theorem HoldsUsed.step {guard : RedisGuard} {elsewhere : (call : Call) → Reply call} {s : Keyspace}
    (live : LiveCalls calls) (h : HoldsUsed guard calls s past (c :: rest)) :
    (guard.consume elsewhere s c).1 = (useOnce past c).1 ∧
      HoldsUsed guard calls (guard.consume elsewhere s c).2 (useOnce past c).2 rest := by
  have hsplit : (past ++ [c]) ++ rest = calls := by simp [← h.split]
  have hmem : c ∈ calls := by simp [← h.split]
  by_cases hused : c.authorizationId ∈ used past
  · have hpresent := (h.held c List.mem_cons_self).mpr hused
    rw [consume_present hpresent]
    refine ⟨by simp [useOnce, hused], hsplit, fun d hd => ?_⟩
    rw [show (useOnce past c).2 = past ++ [c] from rfl, mem_used_concat,
      ← h.held d (List.mem_cons_of_mem _ hd)]
    constructor
    · exact .inl
    · rintro (hheld | hsame)
      · exact hheld
      · exact (h.held d (List.mem_cons_of_mem _ hd)).mpr (hsame ▸ hused)
  · have habsent := Nat.not_lt.mp ((h.held c List.mem_cons_self).not.mpr hused)
    rw [consume_absent habsent]
    refine ⟨by simp [useOnce, hused], hsplit, fun d hd => ?_⟩
    rw [show (useOnce past c).2 = past ++ [c] from rfl, mem_used_concat,
      ← h.held d (List.mem_cons_of_mem _ hd)]
    obtain ⟨hlater, hunexpired⟩ := live.later h.split hd
    by_cases hsame : d.authorizationId = c.authorizationId
    · rw [hsame, Keyspace.store_deadline]
      have hend := expiresAt_le_timeToLive (live.captured hmem) (live.short c hmem)
      have hexecuted := Datetime.le_def.mp (live.executed c hmem)
      have hbefore := Datetime.lt_def.mp (hunexpired hsame)
      simp only [or_true, iff_true]
      omega
    · have hother : guard.key d.authorizationId ≠ guard.key c.authorizationId :=
        fun hkey => hsame (key_inj hkey)
      simp [Keyspace.store, Function.update_of_ne hother, hsame]

/-- The guard in memory holds entries of the used identifiers, as far as live calls can tell. -/
structure KeepsUsed (calls : List Execution) (entries : Entries) (past rest : List Execution) :
    Prop where
  split : past ++ rest = calls
  known : ∀ d ∈ rest, Known entries d.toConsumption ↔ d.authorizationId ∈ used past
  distinct : (entries.map Prod.fst).Nodup
  recorded : ∀ entry ∈ entries, ∃ d ∈ past, entry = (d.authorizationId, d.expiresAt)

private theorem card_unexpired_of_full {entries : Entries} (h : KeepsUsed calls entries past rest)
    (now : Datetime) :
    (live entries now).length ≤ (unexpired past now).card := by
  have hdistinct : ((live entries now).map Prod.fst).Nodup :=
    h.distinct.sublist (List.filter_sublist.map _)
  rw [← List.length_map Prod.fst, ← List.toFinset_card_of_nodup hdistinct]
  refine Finset.card_le_card fun id hid => ?_
  obtain ⟨entry, hentry, rfl⟩ := List.mem_map.mp (List.mem_toFinset.mp hid)
  obtain ⟨hmem, hlive⟩ := mem_live.mp hentry
  obtain ⟨d, hd, rfl⟩ := h.recorded entry hmem
  exact mem_unexpired.mpr ⟨d, hd, hlive, rfl⟩

private theorem known_iff {entries : Entries} {d : Consumption} :
    Known entries d ↔ ∃ entry ∈ entries, d.now < entry.2 ∧ entry.1 = d.authorizationId := by
  simp only [Known, List.mem_map, mem_live, and_assoc]

/-- What has expired at a call is not known to a later one. -/
theorem known_live {entries : Entries} {now : Datetime} {d : Consumption} (later : now ≤ d.now) :
    Known (live entries now) d ↔ Known entries d := by
  simp only [known_iff, mem_live]
  constructor
  · rintro ⟨entry, ⟨hmem, -⟩, hlive, hsame⟩
    exact ⟨entry, hmem, hlive, hsame⟩
  · rintro ⟨entry, hmem, hlive, hsame⟩
    exact ⟨entry, ⟨hmem, Nat.lt_of_le_of_lt later hlive⟩, hlive, hsame⟩

private theorem known_concat {entries : Entries} {entry : UUID × Datetime} {d : Consumption} :
    Known (entries ++ [entry]) d ↔ Known entries d ∨ (d.now < entry.2 ∧ entry.1 = d.authorizationId) := by
  simp only [known_iff, List.mem_append, List.mem_singleton, or_and_right, exists_or, exists_eq_left]

theorem KeepsUsed.step {guard : MemoryGuard} {elsewhere : (call : Call) → Reply call}
    {entries : Entries} (live : LiveCalls calls) (room : Room guard.maxEntries calls)
    (h : KeepsUsed calls entries past (c :: rest)) :
    (guard.consume elsewhere entries c.toConsumption).1 = (useOnce past c).1 ∧
      KeepsUsed calls (guard.consume elsewhere entries c.toConsumption).2 (useOnce past c).2 rest := by
  have hknown := h.known c List.mem_cons_self
  have hsplit : (past ++ [c]) ++ rest = calls := by simp [← h.split]
  have hrecorded : ∀ entry ∈ ReplayGuards.live entries c.now, ∃ d ∈ past ++ [c],
      entry = (d.authorizationId, d.expiresAt) := by
    intro entry hentry
    obtain ⟨d, hd, hentry⟩ := h.recorded entry (mem_live.mp hentry).1
    exact ⟨d, List.mem_append_left _ hd, hentry⟩
  have hdistinct : ((ReplayGuards.live entries c.now).map Prod.fst).Nodup :=
    h.distinct.sublist (List.filter_sublist.map _)
  have hlater : ∀ d ∈ rest, Known (ReplayGuards.live entries c.now) d.toConsumption ↔
      d.authorizationId ∈ used past :=
    fun d hd => (known_live (live.later h.split hd).1).trans (h.known d (List.mem_cons_of_mem _ hd))
  generalize hended : guard.consume elsewhere entries c.toConsumption = ended
  have hconsumed := consumed guard elsewhere entries c.toConsumption
  rw [hended] at hconsumed
  cases hconsumed with
  | fresh new room =>
    have hnew := hknown.not.mp new
    refine ⟨by simp [useOnce, hnew], hsplit, fun d hd => ?_, ?_, ?_⟩
    · rw [show (useOnce past c).2 = past ++ [c] from rfl, mem_used_concat, known_concat, hlater d hd]
      apply or_congr_right
      constructor
      · exact fun hadded => hadded.2.symm
      · intro hsame
        have hd' : d ∈ calls := h.split ▸ List.mem_append_right _ (List.mem_cons_of_mem _ hd)
        have hc : c ∈ calls := h.split ▸ List.mem_append_right _ List.mem_cons_self
        have hcaptured := live.captured hd'
        rw [live.fixed d hd' c hc hsame] at hcaptured
        exact ⟨hcaptured, hsame.symm⟩
    · rw [List.map_append, List.map_singleton, ← List.concat_eq_append]
      exact hdistinct.concat new
    · intro entry hentry
      rcases List.mem_append.mp hentry with hentry | hentry
      · exact hrecorded entry hentry
      · exact ⟨c, List.mem_append_right _ (List.mem_singleton_self c), List.mem_singleton.mp hentry⟩
  | replayed known =>
    have hused := hknown.mp known
    refine ⟨by simp [useOnce, hused], hsplit, fun d hd => ?_, hdistinct, hrecorded⟩
    rw [show (useOnce past c).2 = past ++ [c] from rfl, mem_used_concat, hlater d hd]
    constructor
    · exact .inl
    · rintro (hheld | hsame)
      · exact hheld
      · exact hsame ▸ hused
  | full new full =>
    have hcard := card_unexpired_of_full h c.now
    have hroom := room past c rest h.split.symm (hknown.not.mp new)
    omega

end Guards

theorem room_of_used {maxEntries : ℕ} {calls : List Execution}
    (h : (used calls).toFinset.card ≤ maxEntries) : Room maxEntries calls := by
  rintro past c rest rfl hnew
  have hsubset : unexpired past c.now ⊆ (used past).toFinset := by
    intro id hid
    obtain ⟨d, hd, -, rfl⟩ := mem_unexpired.mp hid
    exact List.mem_toFinset.mpr (List.mem_map_of_mem hd)
  have hinsert : insert c.authorizationId (used past).toFinset ⊆ (used (past ++ c :: rest)).toFinset := by
    intro id hid
    simp only [used, Finset.mem_insert, List.mem_toFinset, List.map_append, List.map_cons,
      List.mem_append, List.mem_cons] at hid ⊢
    tauto
  have hcard := Finset.card_le_card hinsert
  rw [Finset.card_insert_of_notMem (by simpa using hnew)] at hcard
  have := Finset.card_le_card hsubset
  omega

namespace Deployed
open RoutingSpecification.Deployed (noon)
open VerificationSpecification.Deployed (afterNoon)

def twoEntries : MemoryGuard := ⟨2, by decide⟩

def shared : RedisGuard := ⟨"replay:", ReplicatedSingleUse.Deployed.replica.named⟩

/-- An identifier, its replay in the last second, and another identifier whose SET waits. -/
def threeCalls : List Execution :=
  [⟨⟨⟨1⟩, afterNoon 300, noon⟩, afterNoon 1⟩, ⟨⟨⟨1⟩, afterNoon 300, afterNoon 298⟩, afterNoon 299⟩,
    ⟨⟨⟨2⟩, afterNoon 900, afterNoon 299⟩, afterNoon 301⟩]

private theorem live_threeCalls : LiveCalls threeCalls where
  sorted := by simp [threeCalls]; decide
  executed := by
    simp only [threeCalls, List.forall_mem_cons, List.not_mem_nil, false_implies, implies_true]
    decide
  live := by
    simp only [threeCalls, List.forall_mem_cons, List.not_mem_nil, false_implies, implies_true]
    decide
  fixed := by simp [threeCalls]
  short := by
    simp only [threeCalls, List.forall_mem_cons, List.not_mem_nil, false_implies, implies_true]
    decide

end Deployed

end PolicyModelRouter.ReplayGuardBackends
