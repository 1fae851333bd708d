import Mathlib.Algebra.Order.Ring.Int
import PolicyModelRouter.FixedWindows
import PolicyModelRouter.OrderedDicts

/-!
# The rate limiter in memory

A fixed window for every key, and a bound on the keys held at once: the key touched least
recently is evicted first. The limiter compares differences of clock readings, which may be
rounded; what it enforces over spans of time is stated for exact differences.
-/

namespace PolicyModelRouter.InMemoryRateLimits
open FixedWindows OrderedDicts

variable {κ τ : Type} [DecidableEq κ]

structure InMemoryRateLimiter (τ : Type) where
  maxRequests : ℕ
  windowSeconds : τ
  maxTrackedKeys : ℕ

/-- One call of the limiter, and what its time source reads there. -/
structure Call (κ τ : Type) where
  key : κ
  now : τ

abbrev Windows (κ τ : Type) := OrderedDict κ (Window τ)

/-- A call with its answer, and the window held for its key right after it. -/
structure Answered (κ τ : Type) where
  call : Call κ τ
  allowed : Bool
  window : Option (Window τ)

section Limiter

variable [Sub τ] [LinearOrder τ]

namespace InMemoryRateLimiter

variable (limiter : InMemoryRateLimiter τ)

def count (windows : Windows κ τ) (call : Call κ τ) : Window τ :=
  let current := (windows.get? call.key).getD ⟨call.now, 0⟩
  let current :=
    if limiter.windowSeconds ≤ call.now - current.start then ⟨call.now, 0⟩ else current
  ⟨current.start, current.hits + 1⟩

def track (windows : Windows κ τ) (call : Call κ τ) : Windows κ τ :=
  (windows.setItem call.key (limiter.count windows call)).moveToEnd call.key

def evict (windows : Windows κ τ) : Windows κ τ :=
  if limiter.maxTrackedKeys < windows.length then windows.popFirst else windows

def allow (windows : Windows κ τ) (call : Call κ τ) : Bool × Windows κ τ :=
  (decide ((limiter.count windows call).hits ≤ limiter.maxRequests),
    limiter.evict (limiter.track windows call))

/-- The limiter without a bound on its keys. -/
def allowUnbounded (windows : Windows κ τ) (call : Call κ τ) : Bool × Windows κ τ :=
  (decide ((limiter.count windows call).hits ≤ limiter.maxRequests), limiter.track windows call)

end InMemoryRateLimiter

section Replay

variable (step : Windows κ τ → Call κ τ → Bool × Windows κ τ)

omit [DecidableEq κ] [Sub τ] [LinearOrder τ] in
def after (windows : Windows κ τ) (calls : List (Call κ τ)) : Windows κ τ :=
  calls.foldl (fun windows call => (step windows call).2) windows

def replay : Windows κ τ → List (Call κ τ) → List (Answered κ τ)
  | _, [] => []
  | windows, call :: rest =>
    let answer := step windows call
    ⟨call, answer.1, answer.2.get? call.key⟩ :: replay answer.2 rest

omit [DecidableEq κ] [Sub τ] [LinearOrder τ] in
theorem after_append (windows : Windows κ τ) (first rest : List (Call κ τ)) :
    after step windows (first ++ rest) = after step (after step windows first) rest :=
  List.foldl_append ..

omit [Sub τ] [LinearOrder τ] in
theorem replay_append (windows : Windows κ τ) (first rest : List (Call κ τ)) :
    replay step windows (first ++ rest) =
      replay step windows first ++ replay step (after step windows first) rest := by
  induction first generalizing windows with
  | nil => rfl
  | cons call first ih => simp [replay, after, ih]

omit [Sub τ] [LinearOrder τ] in
private theorem call_mem_of_mem_replay {windows : Windows κ τ} {calls : List (Call κ τ)}
    {answered : Answered κ τ} (h : answered ∈ replay step windows calls) : answered.call ∈ calls := by
  induction calls generalizing windows with
  | nil => cases h
  | cons call rest ih =>
    rcases List.mem_cons.mp h with rfl | h
    · exact List.mem_cons_self
    · exact List.mem_cons_of_mem _ (ih h)

end Replay

def instants (key : κ) (calls : List (Call κ τ)) : List τ :=
  (calls.filter fun call => call.key = key).map Call.now

def Unevicted (limiter : InMemoryRateLimiter τ) (key : κ) (windows : Windows κ τ)
    (span : List (Call κ τ)) : Prop :=
  ∀ first call rest, span = first ++ call :: rest → key ∈ (after limiter.allow windows first).keys →
    key ∈ (after limiter.allow windows (first ++ [call])).keys

section Call

variable {limiter : InMemoryRateLimiter τ} {windows : Windows κ τ} {call : Call κ τ} {key : κ}

theorem count_eq_hit :
    limiter.count windows call = hit limiter.windowSeconds call.now (windows.get? call.key) := by
  unfold InMemoryRateLimiter.count
  cases windows.get? call.key with
  | none => simp [hit]
  | some w =>
    simp only [Option.getD_some, hit]
    split_ifs <;> rfl

theorem get?_track_self : (limiter.track windows call).get? call.key =
    some (limiter.count windows call) := by
  simp [InMemoryRateLimiter.track]

theorem get?_track_of_ne (h : key ≠ call.key) :
    (limiter.track windows call).get? key = windows.get? key := by
  rw [InMemoryRateLimiter.track, OrderedDict.get?_moveToEnd, OrderedDict.get?_setItem_of_ne h]

theorem keys_track : (limiter.track windows call).keys = windows.keys.erase call.key ++ [call.key] :=
  OrderedDict.keys_touched

omit [Sub τ] [LinearOrder τ] in
/-- Eviction leaves the windows it keeps as they were. -/
theorem get?_evict (h : key ∈ (limiter.evict windows).keys) :
    (limiter.evict windows).get? key = windows.get? key := by
  unfold InMemoryRateLimiter.evict at h ⊢
  split_ifs with hfull
  · rw [if_pos hfull, OrderedDict.keys_popFirst] at h
    cases hkeys : windows.keys with
    | nil =>
      rw [hkeys] at h
      cases h
    | cons first rest =>
      rw [hkeys, List.tail_cons] at h
      refine OrderedDict.get?_popFirst hkeys ?_
      rintro rfl
      have hnodup := windows.nodup_keys
      rw [hkeys] at hnodup
      exact (List.nodup_cons.mp hnodup).1 h
  · rfl

private theorem keys_allow (bounded : windows.length ≤ limiter.maxTrackedKeys) :
    (limiter.allow windows call).2.keys =
      lastN limiter.maxTrackedKeys (windows.keys.erase call.key ++ [call.key]) := by
  have hlength : (limiter.track windows call).length ≤ limiter.maxTrackedKeys + 1 := by
    rw [← OrderedDict.length_keys, keys_track, List.length_append, List.length_singleton]
    have herase : (windows.keys.erase call.key).length ≤ windows.keys.length :=
      List.length_erase_le
    rw [OrderedDict.length_keys] at herase
    omega
  simp only [InMemoryRateLimiter.allow, InMemoryRateLimiter.evict]
  have hkeys : (limiter.track windows call).keys = _ := keys_track
  rw [← hkeys]
  split_ifs with hfull
  · rw [OrderedDict.keys_popFirst]
    exact tail_of_length_eq (by rw [OrderedDict.length_keys]; omega)
  · rw [lastN_of_length_le]
    rw [OrderedDict.length_keys]
    omega

theorem mem_keys_allow_self (room : 0 < limiter.maxTrackedKeys) :
    call.key ∈ (limiter.allow windows call).2.keys := by
  simp only [InMemoryRateLimiter.allow, InMemoryRateLimiter.evict]
  split_ifs with hfull
  · rw [OrderedDict.keys_popFirst, keys_track]
    rw [← OrderedDict.length_keys, keys_track, List.length_append, List.length_singleton] at hfull
    cases hkeys : windows.keys.erase call.key with
    | nil =>
      rw [hkeys, List.length_nil] at hfull
      omega
    | cons first rest => simp
  · rw [keys_track]
    simp

theorem get?_allow_self (room : 0 < limiter.maxTrackedKeys) :
    (limiter.allow windows call).2.get? call.key =
      some (hit limiter.windowSeconds call.now (windows.get? call.key)) := by
  rw [← count_eq_hit, ← get?_track_self]
  exact get?_evict (mem_keys_allow_self room)

/-- A call for another key changes nothing for a key it does not evict. -/
theorem get?_allow_of_ne (h : key ≠ call.key)
    (kept : key ∈ windows.keys → key ∈ (limiter.allow windows call).2.keys) :
    (limiter.allow windows call).2.get? key = windows.get? key := by
  by_cases hkey : key ∈ windows.keys
  · exact (get?_evict (kept hkey)).trans (get?_track_of_ne h)
  · have hout : key ∉ (limiter.allow windows call).2.keys := by
      intro hmem
      have htrack : key ∈ (limiter.track windows call).keys := by
        simp only [InMemoryRateLimiter.allow, InMemoryRateLimiter.evict] at hmem
        split_ifs at hmem
        · rw [OrderedDict.keys_popFirst] at hmem
          exact List.mem_of_mem_tail hmem
        · exact hmem
      rw [keys_track] at htrack
      rcases List.mem_append.mp htrack with hold | hnew
      · exact hkey (List.mem_of_mem_erase hold)
      · exact h (List.mem_singleton.mp hnew)
    rw [OrderedDict.get?_eq_none.mpr hkey, OrderedDict.get?_eq_none.mpr hout]

/-- What is held after a call was held before or is the window of the call. -/
theorem get?_allow_cases {w : Window τ} (h : (limiter.allow windows call).2.get? key = some w) :
    (key = call.key ∧ w = hit limiter.windowSeconds call.now (windows.get? call.key)) ∨
      windows.get? key = some w := by
  have hkey : key ∈ (limiter.allow windows call).2.keys := OrderedDict.mem_keys.mpr ⟨w, h⟩
  have htrack : (limiter.track windows call).get? key = some w := (get?_evict hkey).symm.trans h
  by_cases hsame : key = call.key
  · subst hsame
    rw [get?_track_self, count_eq_hit] at htrack
    exact .inl ⟨rfl, (Option.some.inj htrack).symm⟩
  · rw [get?_track_of_ne hsame] at htrack
    exact .inr htrack

end Call

section Key

variable {limiter : InMemoryRateLimiter τ} {windows : Windows κ τ} {key : κ}

theorem Unevicted.append_left {first rest : List (Call κ τ)}
    (h : Unevicted limiter key windows (first ++ rest)) : Unevicted limiter key windows first := by
  intro before call after hsplit
  apply h before call (after ++ rest)
  rw [hsplit, List.append_assoc, List.cons_append]

theorem Unevicted.append_right {first rest : List (Call κ τ)}
    (h : Unevicted limiter key windows (first ++ rest)) :
    Unevicted limiter key (after limiter.allow windows first) rest := by
  intro before call later hsplit
  have hnext := h (first ++ before) call later (by rw [hsplit, List.append_assoc])
  rwa [List.append_assoc, after_append, after_append] at hnext

theorem Unevicted.head {call : Call κ τ} {rest : List (Call κ τ)}
    (h : Unevicted limiter key windows (call :: rest)) (hkey : key ∈ windows.keys) :
    key ∈ (limiter.allow windows call).2.keys := h [] call rest rfl hkey

theorem Unevicted.tail {call : Call κ τ} {rest : List (Call κ τ)}
    (h : Unevicted limiter key windows (call :: rest)) :
    Unevicted limiter key (limiter.allow windows call).2 rest := by
  rw [← List.singleton_append] at h
  exact h.append_right

/-- The calls for a key that no call evicts are answered as by a window of its own. -/
theorem replay_allow (room : 0 < limiter.maxTrackedKeys) {calls : List (Call κ τ)}
    (unevicted : Unevicted limiter key windows calls) :
    (replay limiter.allow windows calls).filter (fun answered => answered.call.key = key) =
      (record limiter.windowSeconds (windows.get? key) (instants key calls)).map fun x =>
        ⟨⟨key, x.1⟩, decide (x.2.hits ≤ limiter.maxRequests), some x.2⟩ := by
  induction calls generalizing windows with
  | nil => rfl
  | cons call rest ih =>
    by_cases hkey : call.key = key
    · subst hkey
      have hself : (limiter.allow windows call).2.get? call.key = _ := get?_allow_self room
      simp only [replay, instants, List.filter_cons, decide_true, if_true, List.map_cons, record]
      rw [ih unevicted.tail, hself, InMemoryRateLimiter.allow, count_eq_hit]
      rfl
    · have hother : (limiter.allow windows call).2.get? key = _ :=
        get?_allow_of_ne (Ne.symm hkey) unevicted.head
      simp only [replay, instants, List.filter_cons, decide_eq_false hkey, Bool.false_eq_true,
        if_false]
      rw [ih unevicted.tail, hother]
      rfl

/-- A selection of the answers for such a key is a selection of its recorded hits. -/
theorem exists_hits (room : 0 < limiter.maxTrackedKeys) {calls : List (Call κ τ)}
    (unevicted : Unevicted limiter key windows calls) (P : Answered κ τ → Prop) [DecidablePred P] :
    ∃ hits : List (τ × Window τ),
      hits.Sublist (record limiter.windowSeconds (windows.get? key) (instants key calls)) ∧
      ((replay limiter.allow windows calls).filter
        fun answered => answered.call.key = key ∧ P answered).length = hits.length ∧
      ∀ x ∈ hits, P ⟨⟨key, x.1⟩, decide (x.2.hits ≤ limiter.maxRequests), some x.2⟩ := by
  have hsplit : ((replay limiter.allow windows calls).filter
      fun answered => answered.call.key = key ∧ P answered) =
      ((replay limiter.allow windows calls).filter
        fun answered => answered.call.key = key).filter fun answered => P answered := by
    rw [List.filter_filter]
    refine List.filter_congr fun answered _ => ?_
    simp [Bool.and_comm]
  refine ⟨(record limiter.windowSeconds (windows.get? key) (instants key calls)).filter fun x =>
    P ⟨⟨key, x.1⟩, decide (x.2.hits ≤ limiter.maxRequests), some x.2⟩, List.filter_sublist, ?_, ?_⟩
  · rw [hsplit, replay_allow room unevicted, List.filter_map, List.length_map]
    rfl
  · intro x hx
    exact of_decide_eq_true (List.mem_filter.mp hx).2

private theorem replay_allowUnbounded {calls : List (Call κ τ)} :
    (replay limiter.allowUnbounded windows calls).filter (fun answered => answered.call.key = key) =
      (record limiter.windowSeconds (windows.get? key) (instants key calls)).map fun x =>
        ⟨⟨key, x.1⟩, decide (x.2.hits ≤ limiter.maxRequests), some x.2⟩ := by
  induction calls generalizing windows with
  | nil => rfl
  | cons call rest ih =>
    by_cases hkey : call.key = key
    · subst hkey
      have hself : (limiter.track windows call).get? call.key = _ := get?_track_self
      rw [count_eq_hit] at hself
      simp only [replay, instants, List.filter_cons, decide_true, if_true, List.map_cons, record,
        InMemoryRateLimiter.allowUnbounded]
      rw [ih, hself, count_eq_hit]
      rfl
    · have hother : (limiter.track windows call).get? key = _ := get?_track_of_ne (Ne.symm hkey)
      simp only [replay, instants, List.filter_cons, decide_eq_false hkey, Bool.false_eq_true,
        if_false, InMemoryRateLimiter.allowUnbounded]
      rw [ih, hother]
      rfl

theorem started_of_after {calls : List (Call κ τ)} {w : Window τ}
    (h : (after limiter.allow (OrderedDict.empty : Windows κ τ) calls).get? key = some w) :
    ∃ call ∈ calls, w.start = call.now := by
  induction calls using List.reverseRecOn generalizing key w with
  | nil => cases h
  | append_singleton calls call ih =>
    rw [after_append] at h
    rcases get?_allow_cases h with ⟨rfl, rfl⟩ | hold
    · rcases hit_cases limiter.windowSeconds call.now
        ((after limiter.allow (OrderedDict.empty : Windows κ τ) calls).get? call.key) with
        ⟨hnew, -⟩ | ⟨w, hw, -, hnext⟩
      · exact ⟨call, by simp, by rw [hnew]⟩
      · obtain ⟨first, hfirst, hstart⟩ := ih hw
        exact ⟨first, List.mem_append_left _ hfirst, by rw [hnext, hstart]⟩
    · obtain ⟨first, hfirst, hstart⟩ := ih hold
      exact ⟨first, List.mem_append_left _ hfirst, hstart⟩

theorem start_of_refused (room : 0 < limiter.maxTrackedKeys) (some_ : 0 < limiter.maxRequests)
    {calls : List (Call κ τ)} {w : Window τ} (unevicted : Unevicted limiter key windows calls)
    (held : windows.get? key = some w)
    (refused : ∀ answered ∈ replay limiter.allow windows calls, answered.call.key = key →
      answered.allowed = false) :
    ∃ w', (after limiter.allow windows calls).get? key = some w' ∧ w'.start = w.start := by
  induction calls generalizing windows w with
  | nil => exact ⟨w, held, rfl⟩
  | cons call rest ih =>
    obtain ⟨hhead, htail⟩ := List.forall_mem_cons.mp refused
    by_cases hkey : call.key = key
    · subst hkey
      have hself : (limiter.allow windows call).2.get? call.key = _ := get?_allow_self room
      have hover := of_decide_eq_false (hhead rfl)
      rw [count_eq_hit, held] at hover
      rw [held] at hself
      rcases hit_cases limiter.windowSeconds call.now (some w) with ⟨hnew, -⟩ | ⟨_, ⟨⟩, -, hnext⟩
      · rw [hnew] at hover
        exact absurd some_ hover
      · rw [hnext] at hself
        obtain ⟨w', hw', hstart⟩ := ih unevicted.tail hself htail
        exact ⟨w', hw', hstart⟩
    · have hother : (limiter.allow windows call).2.get? key = _ :=
        get?_allow_of_ne (Ne.symm hkey) unevicted.head
      exact ih unevicted.tail (hother.trans held) htail

end Key

section Tracking

variable {limiter : InMemoryRateLimiter τ} {key : κ} {calls : List (Call κ τ)}

/-- The keys held are the ones called last, in the order of their last calls. -/
theorem keys_after (room : 0 < limiter.maxTrackedKeys) (calls : List (Call κ τ)) :
    (after limiter.allow (OrderedDict.empty : Windows κ τ) calls).keys =
      lastN limiter.maxTrackedKeys (calls.map Call.key).dedup := by
  induction calls using List.reverseRecOn with
  | nil => simp [after, lastN]
  | append_singleton calls call ih =>
    have hbounded : (after limiter.allow (OrderedDict.empty : Windows κ τ) calls).length ≤
        limiter.maxTrackedKeys := by
      rw [← OrderedDict.length_keys, ih]
      exact length_lastN_le _ _
    rw [after_append]
    have hstep : (limiter.allow (after limiter.allow (OrderedDict.empty : Windows κ τ) calls) call).2.keys = _ :=
      keys_allow hbounded
    rw [ih, lastN_erase_append room (List.nodup_dedup _)] at hstep
    rw [List.map_append, List.map_singleton, dedup_append_singleton]
    exact hstep

/-- A key is held while fewer other keys than there is room for were called after it. -/
theorem mem_keys_after (room : 0 < limiter.maxTrackedKeys) {first last : List κ}
    (split : calls.map Call.key = first ++ key :: last) (later : key ∉ last)
    (few : last.dedup.length < limiter.maxTrackedKeys) :
    key ∈ (after limiter.allow (OrderedDict.empty : Windows κ τ) calls).keys := by
  have hsuffix : key :: last.dedup <:+ (calls.map Call.key).dedup := by
    rw [split, List.dedup_append, List.dedup_cons_of_notMem later]
    exact List.suffix_union_right _ _
  obtain ⟨rest, hrest⟩ := hsuffix
  rw [keys_after room, ← hrest, lastN_append _ _ (Nat.succ_le_of_lt few)]
  exact List.mem_append_right _ List.mem_cons_self

/-- Between two calls for the key in a row, fewer other keys are called than there is room for. -/
def Close (maxTrackedKeys : ℕ) (key : κ) (keys : List κ) : Prop :=
  ∀ first between rest, keys = first ++ key :: (between ++ key :: rest) → key ∉ between →
    between.dedup.length < maxTrackedKeys

/-- A close key is not evicted before its last call. -/
theorem unevicted_of_close (room : 0 < limiter.maxTrackedKeys) {last : Call κ τ}
    (close : Close limiter.maxTrackedKeys last.key ((calls ++ [last]).map Call.key)) :
    Unevicted limiter last.key (OrderedDict.empty : Windows κ τ) (calls ++ [last]) := by
  intro first call rest hsplit hheld
  by_cases hkey : call.key = last.key
  · rw [after_append, ← hkey]
    exact mem_keys_allow_self room
  -- the key was called before, and is called again later
  have hcalled : last.key ∈ first.map Call.key := by
    rw [keys_after room] at hheld
    exact List.mem_dedup.mp (List.mem_of_mem_drop hheld)
  have hagain : last.key ∈ rest.map Call.key := by
    rcases List.eq_nil_or_concat rest with rfl | ⟨init, final, rfl⟩
    · obtain ⟨-, hlast⟩ := List.append_inj' hsplit rfl
      exact absurd (congrArg Call.key (List.cons.inj hlast).1).symm hkey
    · rw [List.concat_eq_append, ← List.cons_append, ← List.append_assoc] at hsplit
      obtain ⟨-, hlast⟩ := List.append_inj' hsplit rfl
      rw [(List.cons.inj hlast).1]
      simp
  obtain ⟨before, _, between, hfirst, rfl, hlater⟩ := exists_last ⟨last.key, hcalled, rfl⟩
  have hbetween : last.key ∉ between := fun h => hlater _ h rfl
  obtain ⟨between', after', hrest, hbetween'⟩ := List.eq_append_cons_of_mem hagain
  have hkeys : (calls ++ [last]).map Call.key =
      before ++ last.key :: ((between ++ call.key :: between') ++ last.key :: after') := by
    rw [hsplit, List.map_append, List.map_cons, hfirst, hrest]
    simp
  have hout : last.key ∉ between ++ call.key :: between' := by
    simp [hbetween, hbetween', Ne.symm hkey]
  have hfew := close _ _ _ hkeys hout
  have hsub : (between ++ [call.key]).dedup.length ≤ (between ++ call.key :: between').dedup.length := by
    apply List.Subperm.length_le
    refine List.subperm_of_subset (List.nodup_dedup _) fun k hk => ?_
    rw [List.mem_dedup] at hk ⊢
    rcases List.mem_append.mp hk with hk | hk
    · exact List.mem_append_left _ hk
    · exact List.mem_append_right _ (List.mem_singleton.mp hk ▸ List.mem_cons_self)
  have hheld' : (first ++ [call]).map Call.key =
      before ++ last.key :: (between ++ [call.key]) := by
    rw [List.map_append, hfirst, List.map_singleton, List.append_assoc, List.cons_append]
  exact mem_keys_after room hheld' (by simp [hbetween, Ne.symm hkey]) (hsub.trans_lt hfew)

/-- Nothing is evicted while there is room for every key that is called. -/
theorem unevicted_of_room (room : 0 < limiter.maxTrackedKeys)
    (fits : (calls.map Call.key).dedup.length ≤ limiter.maxTrackedKeys) :
    Unevicted limiter key (OrderedDict.empty : Windows κ τ) calls := by
  have hkeys : ∀ first rest, calls = first ++ rest →
      (after limiter.allow (OrderedDict.empty : Windows κ τ) first).keys =
        (first.map Call.key).dedup := by
    rintro first rest rfl
    rw [keys_after room, lastN_of_length_le]
    refine le_trans (List.Subperm.length_le ?_) fits
    refine List.subperm_of_subset (List.nodup_dedup _) fun k hk => ?_
    rw [List.map_append]
    exact List.mem_dedup.mpr (List.mem_append_left _ (List.mem_dedup.mp hk))
  intro first call rest hsplit hheld
  rw [hkeys first _ hsplit] at hheld
  rw [hkeys (first ++ [call]) rest (by rw [hsplit]; simp), List.map_append]
  exact List.mem_dedup.mpr (List.mem_append_left _ (List.mem_dedup.mp hheld))

/-- What holds after any number of calls. -/
structure Tracks (limiter : InMemoryRateLimiter τ) (calls : List (Call κ τ)) : Prop where
  size : (after limiter.allow (OrderedDict.empty : Windows κ τ) calls).length ≤
    limiter.maxTrackedKeys
  /-- The keys held are ordered by their last calls. -/
  order : (after limiter.allow (OrderedDict.empty : Windows κ τ) calls).keys =
    lastN limiter.maxTrackedKeys (calls.map Call.key).dedup
  touched : ∀ call ∈ calls.getLast?,
    call.key ∈ (after limiter.allow (OrderedDict.empty : Windows κ τ) calls).keys
  answers : ∀ key, Close limiter.maxTrackedKeys key (calls.map Call.key) →
    (replay limiter.allow (OrderedDict.empty : Windows κ τ) calls).filter
        (fun answered => answered.call.key = key) =
      replay limiter.allowUnbounded OrderedDict.empty (calls.filter fun call => call.key = key)

omit [Sub τ] [LinearOrder τ] in
private theorem replay_of_forall_ne (step : Windows κ τ → Call κ τ → Bool × Windows κ τ)
    {windows : Windows κ τ} (other : ∀ call ∈ calls, call.key ≠ key) :
    (replay step windows calls).filter (fun answered => answered.call.key = key) = [] := by
  refine List.filter_eq_nil_iff.mpr fun answered hanswered => ?_
  simpa using other _ (call_mem_of_mem_replay step hanswered)

/-- The bound on the keys does not change the answers for a key that is called again before
too many others are. -/
theorem tracked_keys_bounded {limiter : InMemoryRateLimiter τ} (room : 1 ≤ limiter.maxTrackedKeys)
    (calls : List (Call κ τ)) : Tracks limiter calls := by
  refine ⟨?_, keys_after room calls, ?_, ?_⟩
  · rw [← OrderedDict.length_keys, keys_after room]
    exact length_lastN_le _ _
  · intro call hcall
    obtain ⟨init, rfl⟩ := List.getLast?_eq_some_iff.mp hcall
    rw [after_append]
    exact mem_keys_allow_self room
  · intro key close
    have hall : ∀ answered ∈ replay limiter.allowUnbounded (OrderedDict.empty : Windows κ τ)
        (calls.filter fun call => call.key = key), answered.call.key = key := fun _ h => by
      simpa using (List.mem_filter.mp (call_mem_of_mem_replay _ h)).2
    rw [← List.filter_eq_self.mpr fun answered h => decide_eq_true (hall answered h),
      replay_allowUnbounded]
    have hinstants : instants key (calls.filter fun call => call.key = key) = instants key calls := by
      simp [instants]
    rw [hinstants]
    -- only the calls up to the last one for the key matter
    by_cases hcalled : ∃ call ∈ calls, call.key = key
    · obtain ⟨init, last, rest, rfl, rfl, hrest⟩ := exists_last hcalled
      have hsplit : init ++ last :: rest = (init ++ [last]) ++ rest := by simp
      have hclose : Close limiter.maxTrackedKeys last.key ((init ++ [last]).map Call.key) := by
        intro first between later hkeys
        apply close first between (later ++ rest.map Call.key)
        rw [hsplit, List.map_append, hkeys]
        simp
      have hinit : instants last.key (init ++ last :: rest) = instants last.key (init ++ [last]) := by
        have hnone : (rest.filter fun call => call.key = last.key) = [] := by
          simpa [List.filter_eq_nil_iff] using hrest
        rw [hsplit, instants, List.filter_append, hnone, List.append_nil]
        rfl
      rw [hinit, hsplit, replay_append, List.filter_append, replay_of_forall_ne _ hrest,
        List.append_nil]
      exact replay_allow room (unevicted_of_close room hclose)
    · have hother : ∀ call ∈ calls, call.key ≠ key := fun call hcall hkey =>
        hcalled ⟨call, hcall, hkey⟩
      have hnone : instants key calls = [] := by
        rw [instants, List.filter_eq_nil_iff.mpr (by simpa using hother), List.map_nil]
      rw [replay_of_forall_ne _ hother, hnone]
      rfl

end Tracking

end Limiter

section Passing

variable [AddCommGroup τ] [LinearOrder τ]

variable {limiter : InMemoryRateLimiter τ} {key : κ} {calls : List (Call κ τ)}

def outcomes (limiter : InMemoryRateLimiter τ) (calls : List (Call κ τ)) : List (Call κ τ × Bool) :=
  (replay limiter.allow OrderedDict.empty calls).map fun answered => (answered.call, answered.allowed)

def passing (key : κ) (interest : τ → Bool) (x : Call κ τ × Bool) : Bool :=
  decide (x.1.key = key) && x.2 && interest x.1.now

theorem outcomes_append_singleton (calls : List (Call κ τ)) (call : Call κ τ) :
    outcomes limiter (calls ++ [call]) = outcomes limiter calls ++
      [(call, (limiter.allow (after limiter.allow OrderedDict.empty calls) call).1)] := by
  simp [outcomes, replay_append, replay]

theorem map_call_outcomes (limiter : InMemoryRateLimiter τ) (calls : List (Call κ τ)) :
    (outcomes limiter calls).map Prod.fst = calls := by
  induction calls using List.reverseRecOn with
  | nil => rfl
  | append_singleton calls call ih => rw [outcomes_append_singleton, List.map_append, ih]; rfl

theorem split_of_mem_outcomes {x : Call κ τ × Bool} (h : x ∈ outcomes limiter calls) :
    ∃ first rest, calls = first ++ x.1 :: rest ∧
      x.2 = (limiter.allow (after limiter.allow OrderedDict.empty first) x.1).1 := by
  induction calls using List.reverseRecOn with
  | nil => cases h
  | append_singleton calls call ih =>
    rw [outcomes_append_singleton] at h
    rcases List.mem_append.mp h with h | h
    · obtain ⟨first, rest, hcalls, hanswer⟩ := ih h
      exact ⟨first, rest ++ [call], by rw [hcalls, List.append_assoc, List.cons_append], hanswer⟩
    · obtain rfl := List.mem_singleton.mp h
      exact ⟨calls, [], rfl, rfl⟩

private theorem outcomes_sublist (first rest : List (Call κ τ)) :
    (outcomes limiter first).Sublist (outcomes limiter (first ++ rest)) := by
  rw [outcomes, outcomes, replay_append, List.map_append]
  exact List.sublist_append_left _ _

variable [IsOrderedAddMonoid τ]

/-- While there is room for every key, one key passes no oftener in a span of some windows than
one window more allows. -/
theorem countP_passing_le (positive : 0 < limiter.windowSeconds)
    (fits : (calls.map Call.key).dedup.length ≤ limiter.maxTrackedKeys)
    (ascending : (calls.map Call.now).Pairwise (· ≤ ·)) (t : τ) (n : ℕ) :
    (outcomes limiter calls).countP (passing key fun now =>
      decide (t ≤ now ∧ now < t + n • limiter.windowSeconds)) ≤ (n + 1) * limiter.maxRequests := by
  rcases Nat.eq_zero_or_pos limiter.maxTrackedKeys with hnone | room
  · rw [hnone, Nat.le_zero, List.length_eq_zero_iff, List.dedup_eq_nil, List.map_eq_nil_iff] at fits
    rw [fits]
    exact Nat.zero_le _
  have hunevicted : Unevicted limiter key OrderedDict.empty calls := unevicted_of_room room fits
  have hinstants : (instants key calls).Sublist (calls.map Call.now) := List.filter_sublist.map _
  have hunstarted : ∀ w, (none : Option (Window τ)) = some w → ∀ t ∈ instants key calls, w.start ≤ t :=
    fun w hw => by cases hw
  obtain ⟨hrecorded, -⟩ := recorded_record positive (ascending.sublist hinstants) hunstarted
  obtain ⟨hits, hsub, hlength, hall⟩ := exists_hits room hunevicted fun answered =>
    answered.allowed = true ∧ t ≤ answered.call.now ∧
      answered.call.now < t + n • limiter.windowSeconds
  have hcount : (outcomes limiter calls).countP (passing key fun now =>
      decide (t ≤ now ∧ now < t + n • limiter.windowSeconds)) = hits.length := by
    rw [← hlength, outcomes, List.countP_map, List.countP_eq_length_filter]
    refine congrArg List.length (List.filter_congr fun answered _ => ?_)
    simp [passing, Bool.and_assoc]
  rw [hcount]
  exact length_le_span positive (hrecorded.sublist hsub)
    (fun x hx => of_decide_eq_true (hall x hx).1) n fun x hx => (hall x hx).2

omit [IsOrderedAddMonoid τ] in
/-- The hits of the window held for a key, up to the quota, all passed since it started. -/
theorem le_countP_passing {w : Window τ} (ascending : (calls.map Call.now).Pairwise (· ≤ ·))
    (held : (after limiter.allow (OrderedDict.empty : Windows κ τ) calls).get? key = some w) :
    min w.hits limiter.maxRequests ≤
      (outcomes limiter calls).countP (passing key fun now => decide (w.start ≤ now)) := by
  induction calls using List.reverseRecOn generalizing w with
  | nil => cases held
  | append_singleton calls call ih =>
    rw [List.map_append, List.pairwise_append] at ascending
    obtain ⟨hcalls, -, hlast⟩ := ascending
    rw [after_append] at held
    rw [outcomes_append_singleton, List.countP_append]
    rcases get?_allow_cases held with ⟨rfl, rfl⟩ | hold
    swap
    · exact (ih hcalls hold).trans (Nat.le_add_right _ _)
    simp only [InMemoryRateLimiter.allow, count_eq_hit, List.countP_singleton, passing, decide_true,
      Bool.true_and, Bool.and_eq_true, decide_eq_true_eq]
    rcases hit_cases limiter.windowSeconds call.now
      ((after limiter.allow (OrderedDict.empty : Windows κ τ) calls).get? call.key) with
      ⟨hnew, -⟩ | ⟨v, hv, -, hnext⟩
    · rw [hnew]
      dsimp only
      rcases Nat.eq_zero_or_pos limiter.maxRequests with hzero | hpos
      · simp [hzero]
      · rw [if_pos ⟨hpos, le_rfl⟩]
        omega
    · obtain ⟨first, hfirst, hstart⟩ := started_of_after hv
      have hstarted : v.start ≤ call.now := by
        rw [hstart]
        exact hlast _ (List.mem_map_of_mem hfirst) _ (by simp)
      have hcounted := ih hcalls hv
      rw [hnext]
      dsimp only
      by_cases hpassed : v.hits + 1 ≤ limiter.maxRequests
      · rw [if_pos ⟨hpassed, hstarted⟩]
        omega
      · omega

/-- A call is refused only when a full quota passed within one window before it. -/
theorem le_countP_of_refused {now : τ} (ascending : (calls.map Call.now).Pairwise (· ≤ ·))
    (refused : (⟨key, now⟩, false) ∈ outcomes limiter calls) :
    limiter.maxRequests ≤ (outcomes limiter calls).countP (passing key fun t =>
      decide (now - limiter.windowSeconds < t ∧ t ≤ now)) := by
  obtain ⟨first, rest, rfl, hanswer⟩ := split_of_mem_outcomes refused
  rw [List.map_append, List.pairwise_append] at ascending
  obtain ⟨hfirst, -, hlast⟩ := ascending
  simp only [InMemoryRateLimiter.allow, count_eq_hit] at hanswer
  have hover := of_decide_eq_false hanswer.symm
  rcases hit_cases limiter.windowSeconds now
    ((after limiter.allow (OrderedDict.empty : Windows κ τ) first).get? key) with
    ⟨hnew, -⟩ | ⟨w, hw, hlt, hnext⟩
  · rw [hnew] at hover
    dsimp only at hover
    omega
  · rw [hnext] at hover
    dsimp only at hover
    have hfull : min w.hits limiter.maxRequests = limiter.maxRequests := by omega
    calc limiter.maxRequests = min w.hits limiter.maxRequests := hfull.symm
      _ ≤ (outcomes limiter first).countP (passing key fun t => decide (w.start ≤ t)) :=
        le_countP_passing hfirst hw
      _ ≤ (outcomes limiter first).countP (passing key fun t =>
          decide (now - limiter.windowSeconds < t ∧ t ≤ now)) := by
        refine List.countP_mono_left fun x hx hpassing => ?_
        simp only [passing, Bool.and_eq_true, decide_eq_true_eq] at hpassing ⊢
        have hcall : x.1 ∈ first := map_call_outcomes limiter first ▸ List.mem_map_of_mem hx
        exact ⟨hpassing.1, (sub_lt_comm.mp hlt).trans_le hpassing.2,
          hlast _ (List.mem_map_of_mem hcall) _ (by simp)⟩
      _ ≤ _ := (outcomes_sublist first _).countP_le

end Passing

section Quota

variable [AddCommGroup τ] [LinearOrder τ]

/-- What holds of the calls for a key along a span of calls. -/
structure Enforces (limiter : InMemoryRateLimiter τ) (key : κ) (before span : List (Call κ τ)) :
    Prop where
  quota : ∀ start, ((replay limiter.allow (after limiter.allow OrderedDict.empty before) span).filter
    fun answered => answered.call.key = key ∧ answered.allowed = true ∧
      answered.window.map Window.start = some start).length ≤ limiter.maxRequests
  double : ∀ t, ((replay limiter.allow (after limiter.allow OrderedDict.empty before) span).filter
    fun answered => answered.call.key = key ∧ answered.allowed = true ∧
      t ≤ answered.call.now ∧ answered.call.now < t + limiter.windowSeconds).length ≤
        2 * limiter.maxRequests
  /-- A call is refused only when a full quota passed within one window before it. -/
  admitted : ∀ now, (⟨key, now⟩, false) ∈ outcomes limiter (before ++ span) →
    limiter.maxRequests ≤ (outcomes limiter (before ++ span)).countP (passing key fun t =>
      decide (now - limiter.windowSeconds < t ∧ t ≤ now))
  reopens : ∀ (first between rest : List (Call κ τ)) (now : τ) (w : Window τ),
    span = first ++ (between ++ ⟨key, now⟩ :: rest) →
    (after limiter.allow OrderedDict.empty (before ++ first)).get? key = some w →
    (∀ answered ∈ replay limiter.allow (after limiter.allow OrderedDict.empty (before ++ first)) between,
      answered.call.key = key → answered.allowed = false) →
    w.start + limiter.windowSeconds ≤ now →
      (limiter.allow (after limiter.allow OrderedDict.empty (before ++ (first ++ between)))
        ⟨key, now⟩).1 = true

/-- The in-memory limiter enforces its quota on every key that a span does not evict. -/
theorem quota_enforced [IsOrderedAddMonoid τ] {limiter : InMemoryRateLimiter τ} {key : κ}
    {before span : List (Call κ τ)}
    (some_ : 0 < limiter.maxRequests) (positive : 0 < limiter.windowSeconds)
    (room : 0 < limiter.maxTrackedKeys)
    (ascending : ((before ++ span).map Call.now).Pairwise (· ≤ ·))
    (unevicted : Unevicted limiter key (after limiter.allow OrderedDict.empty before) span) :
    Enforces limiter key before span := by
  have hcalls := ascending
  have hinstants : (instants key span).Sublist (span.map Call.now) :=
    List.filter_sublist.map _
  rw [List.map_append, List.pairwise_append] at ascending
  obtain ⟨-, hspan, hcross⟩ := ascending
  have hstarted : ∀ w, (after limiter.allow (OrderedDict.empty : Windows κ τ) before).get? key =
      some w → ∀ t ∈ instants key span, w.start ≤ t := by
    intro w hw t ht
    obtain ⟨call, hcall, hstart⟩ := started_of_after hw
    rw [hstart]
    exact hcross _ (List.mem_map_of_mem hcall) _ (hinstants.subset ht)
  obtain ⟨hrecorded, -⟩ := recorded_record positive (hspan.sublist hinstants) hstarted
  refine ⟨?_, ?_, fun now => le_countP_of_refused hcalls, ?_⟩
  · intro start
    obtain ⟨hits, hsub, hlength, hall⟩ := exists_hits room unevicted fun answered =>
      answered.allowed = true ∧ answered.window.map Window.start = some start
    rw [hlength]
    exact length_le_quota positive (hrecorded.sublist hsub)
      (fun x hx => of_decide_eq_true (hall x hx).1) fun x hx => Option.some.inj (hall x hx).2
  · intro t
    obtain ⟨hits, hsub, hlength, hall⟩ := exists_hits room unevicted fun answered =>
      answered.allowed = true ∧ t ≤ answered.call.now ∧
        answered.call.now < t + limiter.windowSeconds
    rw [hlength]
    exact length_le_double positive (hrecorded.sublist hsub)
      (fun x hx => of_decide_eq_true (hall x hx).1) fun x hx => (hall x hx).2
  · rintro first between rest now w rfl held refused helapsed
    rw [after_append] at held refused
    have hbetween := unevicted.append_right.append_left
    obtain ⟨w', hw', hstart⟩ := start_of_refused room some_ hbetween held refused
    rw [after_append, after_append]
    have hnew : hit limiter.windowSeconds now (some w') = ⟨now, 1⟩ := by
      rcases hit_cases limiter.windowSeconds now (some w') with ⟨h, -⟩ | ⟨_, ⟨⟩, hlt, -⟩
      · exact h
      · rw [hstart] at hlt
        exact absurd (le_sub_iff_add_le'.mpr helapsed) (not_le.mpr hlt)
    simp only [InMemoryRateLimiter.allow, count_eq_hit, hw', hnew]
    exact decide_eq_true some_

end Quota

namespace Deployed

def limiter : InMemoryRateLimiter ℤ := ⟨2, 60, 1⟩

def calls : List (Call String ℤ) :=
  [⟨"ip:10.0.0.1", 0⟩, ⟨"ip:10.0.0.1", 1⟩, ⟨"ip:10.0.0.1", 59⟩, ⟨"ip:10.0.0.1", 60⟩]

example : (replay limiter.allow OrderedDict.empty calls).map Answered.allowed =
    [true, true, false, true] := by
  decide

theorem quota_enforced_deployed :
    Enforces limiter "ip:10.0.0.1" [] calls :=
  quota_enforced (by decide) (by decide) (by decide) (by decide)
    (unevicted_of_room (by decide) (by decide))

theorem tracked_keys_bounded_deployed :
    Tracks limiter (calls ++ [⟨"ip:10.0.0.2", 61⟩, ⟨"ip:10.0.0.1", 62⟩]) :=
  tracked_keys_bounded (by decide) _

end Deployed

end PolicyModelRouter.InMemoryRateLimits
