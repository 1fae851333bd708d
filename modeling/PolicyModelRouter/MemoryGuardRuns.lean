import Mathlib.Data.List.Induction
import PolicyModelRouter.SequentialSingleUse

/-!
# Runs of the guard in memory

One guard takes calls in any number, with expiries in any order and clocks that do not go
back. Every call drops what has expired, and nothing else is ever dropped.
-/

namespace PolicyModelRouter.MemoryGuardRuns
open AwaitingPrograms ReplayGuards RouterCalls UtcTimestamps Uuids
open SequentialSingleUse (answer)

/-- A guard in memory. Its capacity is checked when it is made. -/
structure MemoryGuard where
  maxEntries : ℕ
  positive : 1 ≤ maxEntries

structure Consumption where
  authorizationId : UUID
  expiresAt : Datetime
  now : Datetime

def storeFull : PyException :=
  denial .replayStoreFull "Runtime authorization replay store is at capacity"

variable (guard : MemoryGuard) (elsewhere : (call : Call) → Reply call)

def MemoryGuard.consume (entries : Entries) (c : Consumption) :
    Except PyException Bool × Entries :=
  let coroutine := RuntimeAuthorizationReplayGuard.consume c.authorizationId c.expiresAt c.now
    (.inMemory guard.maxEntries guard.positive)
  let ended := coroutine.run.run (answer guard.maxEntries elsewhere) entries
  (ended.1, ended.2.2)

def MemoryGuard.consumeAll (entries : Entries) (calls : List Consumption) : Entries :=
  calls.foldl (fun entries c => (guard.consume elsewhere entries c).2) entries

abbrev MemoryGuard.after (calls : List Consumption) : Entries := guard.consumeAll elsewhere [] calls

def MemoryGuard.result (calls : List Consumption) (c : Consumption) : Except PyException Bool :=
  (guard.consume elsewhere (guard.after elsewhere calls) c).1

/-- An unexpired entry has the identifier of the call. -/
def Known (entries : Entries) (c : Consumption) : Prop :=
  c.authorizationId ∈ (live entries c.now).map Prod.fst

/-- The ways a call ends, with the entries it leaves. -/
inductive Consumed (maxEntries : ℕ) (entries : Entries) (c : Consumption) :
    Except PyException Bool × Entries → Prop where
  | fresh (new : ¬ Known entries c) (room : (live entries c.now).length < maxEntries) :
      Consumed maxEntries entries c
        (.ok true, live entries c.now ++ [(c.authorizationId, c.expiresAt)])
  | replayed (known : Known entries c) :
      Consumed maxEntries entries c (.ok false, live entries c.now)
  | full (new : ¬ Known entries c) (full : maxEntries ≤ (live entries c.now).length) :
      Consumed maxEntries entries c (.error storeFull, live entries c.now)

variable {guard elsewhere} {entries : Entries} {c : Consumption}

def returned : ConsumeReply → Except PyException Bool
  | .fresh => .ok true
  | .replayed => .ok false
  | .full => .error storeFull

theorem consume_eq {reply : ConsumeReply} {left : Entries}
    (h : consumeInMemory guard.maxEntries entries c.authorizationId c.expiresAt c.now =
      (reply, left)) : guard.consume elsewhere entries c = (returned reply, left) := by
  have hcompletes : Completes (RuntimeAuthorizationReplayGuard.consume c.authorizationId c.expiresAt
      c.now (.inMemory guard.maxEntries guard.positive)).run
      [⟨.memoryConsume c.authorizationId c.expiresAt c.now, reply⟩] (returned reply) := by
    cases reply <;> exact .await (.done _)
  have hserved : Served (Answers (answer guard.maxEntries elsewhere)) entries
      [⟨.memoryConsume c.authorizationId c.expiresAt c.now, reply⟩] left := .cons h (.nil _)
  have hrun := (run_eq_iff _ _ _ _ _).mpr ⟨hcompletes, hserved⟩
  simp only [MemoryGuard.consume, hrun]

theorem consumed (guard : MemoryGuard) (elsewhere : (call : Call) → Reply call) (entries : Entries)
    (c : Consumption) : Consumed guard.maxEntries entries c (guard.consume elsewhere entries c) := by
  rcases consumeInMemory_spec guard.maxEntries entries c.authorizationId c.expiresAt c.now with
    ⟨hknown, hreply⟩ | ⟨hnew, hfull, hreply⟩ | ⟨hnew, hroom, hreply⟩
  · rw [consume_eq hreply]
    exact .replayed hknown
  · rw [consume_eq hreply]
    exact .full hnew hfull
  · rw [consume_eq hreply]
    exact .fresh hnew hroom

/-- No more entries than the capacity, and no identifier stored twice. -/
structure WellFormed (maxEntries : ℕ) (entries : Entries) : Prop where
  bounded : entries.length ≤ maxEntries
  distinct : (entries.map Prod.fst).Nodup

theorem WellFormed.live {maxEntries : ℕ} (h : WellFormed maxEntries entries) (now : Datetime) :
    WellFormed maxEntries (live entries now) where
  bounded := (List.length_filter_le _ _).trans h.bounded
  distinct := h.distinct.sublist (List.filter_sublist.map _)

section Outcomes

variable {maxEntries : ℕ} {outcome : Except PyException Bool × Entries}
variable (ended : Consumed maxEntries entries c outcome)

include ended

theorem Consumed.wellFormed (h : WellFormed maxEntries entries) :
    WellFormed maxEntries outcome.2 := by
  have hlive := h.live c.now
  cases ended with
  | fresh new room =>
    constructor
    · rw [List.length_append, List.length_singleton]
      exact room
    · rw [List.map_append, List.map_singleton, ← List.concat_eq_append]
      exact hlive.distinct.concat new
  | replayed known => exact hlive
  | full new full => exact hlive

theorem Consumed.mem {entry : UUID × Datetime} (h : entry ∈ entries) (unexpired : c.now < entry.2) :
    entry ∈ outcome.2 := by
  have hlive : entry ∈ live entries c.now := mem_live.mpr ⟨h, unexpired⟩
  cases ended with
  | fresh new room => exact List.mem_append_left _ hlive
  | replayed known => exact hlive
  | full new full => exact hlive

/-- A call that does not return true only drops what has expired. -/
theorem Consumed.eq_live (h : outcome.1 ≠ .ok true) : outcome.2 = live entries c.now := by
  cases ended with
  | fresh new room => exact absurd rfl h
  | replayed known => rfl
  | full new full => rfl

theorem Consumed.stored (h : outcome.1 = .ok true) :
    (c.authorizationId, c.expiresAt) ∈ outcome.2 := by
  cases ended with
  | fresh new room => exact List.mem_append_right _ (List.mem_singleton.mpr rfl)
  | replayed known => cases h
  | full new full => cases h

theorem Consumed.mem_or_new {entry : UUID × Datetime} (h : entry ∈ outcome.2) :
    entry ∈ entries ∨ outcome.1 = .ok true ∧ entry = (c.authorizationId, c.expiresAt) := by
  cases ended with
  | fresh new room =>
    rcases List.mem_append.mp h with hlive | hnew
    · exact .inl (mem_live.mp hlive).1
    · exact .inr ⟨rfl, List.mem_singleton.mp hnew⟩
  | replayed known => exact .inl (mem_live.mp h).1
  | full new full => exact .inl (mem_live.mp h).1

theorem Consumed.of_known (h : Known entries c) : outcome.1 = .ok false := by
  cases ended with
  | fresh new room => exact absurd h new
  | replayed known => rfl
  | full new full => exact absurd h new

theorem Consumed.full_iff (h : WellFormed maxEntries entries) :
    outcome.1 = .error storeFull ↔
      ¬ Known entries c ∧ (live entries c.now).length = maxEntries := by
  have hbounded := (h.live c.now).bounded
  cases ended with
  | fresh new room => exact iff_of_false nofun fun hfull => absurd hfull.2 (by omega)
  | replayed known => exact iff_of_false nofun fun hfull => hfull.1 known
  | full new full => exact iff_of_true rfl ⟨new, by omega⟩

end Outcomes

private theorem live_live (entries : Entries) (now : Datetime) :
    live (live entries now) now = live entries now := by
  simp [live]

theorem consumeAll_append (entries : Entries) (before calls : List Consumption) :
    guard.consumeAll elsewhere entries (before ++ calls) =
      guard.consumeAll elsewhere (guard.consumeAll elsewhere entries before) calls := by
  simp [MemoryGuard.consumeAll]

theorem after_concat (before : List Consumption) (c : Consumption) :
    guard.after elsewhere (before ++ [c]) =
      (guard.consume elsewhere (guard.after elsewhere before) c).2 :=
  consumeAll_append [] before [c]

private theorem wellFormed_consumeAll {calls : List Consumption}
    (h : WellFormed guard.maxEntries entries) :
    WellFormed guard.maxEntries (guard.consumeAll elsewhere entries calls) := by
  induction calls generalizing entries with
  | nil => exact h
  | cons c calls ih => exact ih ((consumed guard elsewhere entries c).wellFormed h)

theorem wellFormed_after (calls : List Consumption) :
    WellFormed guard.maxEntries (guard.after elsewhere calls) :=
  wellFormed_consumeAll ⟨Nat.zero_le _, List.nodup_nil⟩

private theorem mem_consumeAll {calls : List Consumption} {entry : UUID × Datetime}
    (h : entry ∈ entries)
    (unexpired : ∀ c ∈ calls, c.now < entry.2) :
    entry ∈ guard.consumeAll elsewhere entries calls := by
  induction calls generalizing entries with
  | nil => exact h
  | cons c calls ih =>
    exact ih ((consumed guard elsewhere entries c).mem h (unexpired c List.mem_cons_self))
      fun d hd => unexpired d (List.mem_cons_of_mem _ hd)

def Accepts (guard : MemoryGuard) (elsewhere : (call : Call) → Reply call)
    (before : List Consumption) (c : Consumption) (entry : UUID × Datetime) : Prop :=
  guard.result elsewhere before c = .ok true ∧ entry = (c.authorizationId, c.expiresAt)

private theorem mem_after_of_accepts {before between : List Consumption} {entry : UUID × Datetime}
    (h : Accepts guard elsewhere before c entry) (unexpired : ∀ d ∈ between, d.now < entry.2) :
    entry ∈ guard.after elsewhere (before ++ c :: between) := by
  obtain ⟨hfresh, rfl⟩ := h
  have hstored : (c.authorizationId, c.expiresAt) ∈ guard.after elsewhere (before ++ [c]) := by
    rw [after_concat]
    exact (consumed guard elsewhere _ c).stored hfresh
  rw [List.append_cons, MemoryGuard.after, consumeAll_append]
  exact mem_consumeAll hstored unexpired

/-- Every entry was put there by a call that returned true. -/
theorem accepts_of_mem_after {calls : List Consumption} {entry : UUID × Datetime}
    (h : entry ∈ guard.after elsewhere calls) :
    ∃ before c, before ++ [c] <+: calls ∧ Accepts guard elsewhere before c entry := by
  induction calls using List.reverseRecOn with
  | nil => cases h
  | append_singleton calls c ih =>
    rw [after_concat] at h
    rcases (consumed guard elsewhere _ c).mem_or_new h with hbefore | ⟨hfresh, rfl⟩
    · obtain ⟨before, d, hprefix, haccepts⟩ := ih hbefore
      exact ⟨before, d, hprefix.trans (List.prefix_append _ _), haccepts⟩
    · exact ⟨calls, c, List.prefix_rfl, hfresh, rfl⟩

/-- The unexpired entries are those of the calls that returned true. -/
theorem mem_after_iff {calls : List Consumption} {entry : UUID × Datetime} {now : Datetime}
    (later : ∀ c ∈ calls, c.now ≤ now) (unexpired : now < entry.2) :
    entry ∈ guard.after elsewhere calls ↔
      ∃ before c, before ++ [c] <+: calls ∧ Accepts guard elsewhere before c entry := by
  constructor
  · exact accepts_of_mem_after
  · rintro ⟨before, c, ⟨between, rfl⟩, haccepts⟩
    rw [← List.append_cons] at later ⊢
    apply mem_after_of_accepts haccepts
    intro d hd
    have hlater := later d (List.mem_append_right _ (List.mem_cons_of_mem _ hd))
    exact Nat.lt_of_le_of_lt hlater unexpired

def NonDecreasing (calls : List Consumption) : Prop := calls.Pairwise fun a b => a.now ≤ b.now

/-- What is unexpired at a call was unexpired at every call before it. -/
theorem unexpired_before {before calls : List Consumption} {d : Consumption} {expiry : Datetime}
    (sorted : NonDecreasing calls) (prefix_ : before ++ [d] <+: calls) (unexpired : d.now < expiry) :
    ∀ c ∈ before, c.now < expiry := by
  intro c hc
  obtain ⟨-, -, hle⟩ := List.pairwise_append.mp (sorted.sublist prefix_.sublist)
  exact Nat.lt_of_le_of_lt (hle c hc d (List.mem_singleton.mpr rfl)) unexpired

/-- The guard forgets no identifier before its expiry and holds no more than it has room for. -/
structure NeverForgets (guard : MemoryGuard) (elsewhere : (call : Call) → Reply call)
    (calls : List Consumption) : Prop where
  singleUse : ∀ before c between d, before ++ c :: between ++ [d] <+: calls →
    guard.result elsewhere before c = .ok true → d.authorizationId = c.authorizationId →
    d.now < c.expiresAt → guard.result elsewhere (before ++ c :: between) d = .ok false
  bounded : ∀ before, before <+: calls →
    (guard.after elsewhere before).length ≤ guard.maxEntries
  distinct : ∀ before, before <+: calls → ((guard.after elsewhere before).map Prod.fst).Nodup
  kept : ∀ before between d entry, before ++ between ++ [d] <+: calls →
    entry ∈ guard.after elsewhere before → d.now < entry.2 →
    entry ∈ guard.after elsewhere (before ++ between ++ [d])
  unchanged : ∀ before c, before ++ [c] <+: calls → guard.result elsewhere before c ≠ .ok true →
    live (guard.after elsewhere (before ++ [c])) c.now = live (guard.after elsewhere before) c.now
  full : ∀ before c, before ++ [c] <+: calls →
    (guard.result elsewhere before c = .error storeFull ↔
      ¬ Known (guard.after elsewhere before) c ∧
        (live (guard.after elsewhere before) c.now).length = guard.maxEntries)

theorem never_forgets (guard : MemoryGuard) (elsewhere : (call : Call) → Reply call)
    (calls : List Consumption) (sorted : NonDecreasing calls) :
    NeverForgets guard elsewhere calls where
  singleUse before c between d hprefix hfresh hsame hunexpired := by
    have hearlier := unexpired_before sorted hprefix hunexpired
    have hkept : (c.authorizationId, c.expiresAt) ∈
        guard.after elsewhere (before ++ c :: between) := by
      apply mem_after_of_accepts ⟨hfresh, rfl⟩
      intro e he
      exact hearlier e (List.mem_append_right _ (List.mem_cons_of_mem _ he))
    apply (consumed guard elsewhere _ d).of_known
    rw [Known, hsame]
    exact List.mem_map_of_mem (f := Prod.fst) (mem_live.mpr ⟨hkept, hunexpired⟩)
  bounded before _ := (wellFormed_after before).bounded
  distinct before _ := (wellFormed_after before).distinct
  kept before between d entry hprefix hentry hunexpired := by
    have hearlier := unexpired_before sorted hprefix hunexpired
    rw [List.append_assoc, MemoryGuard.after, consumeAll_append]
    apply mem_consumeAll hentry
    intro e he
    rcases List.mem_append.mp he with he | he
    · exact hearlier e (List.mem_append_right _ he)
    · rw [List.mem_singleton.mp he]
      exact hunexpired
  unchanged before c _ hresult := by
    rw [after_concat, (consumed guard elsewhere _ c).eq_live hresult, live_live]
  full before c _ := (consumed guard elsewhere _ c).full_iff (wellFormed_after before)

namespace Deployed
open RoutingSpecification.Deployed (noon)
open VerificationSpecification.Deployed (afterNoon)

def smallGuard : MemoryGuard := ⟨1, le_rfl⟩

/-- An identifier, its replay, a second one while there is no room, and the first one again
at its expiry. -/
def fourCalls : List Consumption :=
  [⟨⟨1⟩, afterNoon 300, noon⟩, ⟨⟨1⟩, afterNoon 300, afterNoon 299⟩,
    ⟨⟨2⟩, afterNoon 900, afterNoon 299⟩, ⟨⟨1⟩, afterNoon 600, afterNoon 300⟩]

def results (calls : List Consumption) : List (Except PyException Bool) :=
  calls.mapIdx fun n c => smallGuard.result SequentialSingleUse.Deployed.elsewhere (calls.take n) c

theorem never_forgets_four_calls :
    NeverForgets smallGuard SequentialSingleUse.Deployed.elsewhere fourCalls ∧
      results fourCalls = [.ok true, .ok false, .error storeFull, .ok true] := by
  refine ⟨never_forgets smallGuard SequentialSingleUse.Deployed.elsewhere fourCalls ?_,
    by decide +kernel⟩
  simp only [NonDecreasing, fourCalls, List.pairwise_cons]
  decide

end Deployed

end PolicyModelRouter.MemoryGuardRuns
