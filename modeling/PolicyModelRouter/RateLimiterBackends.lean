import PolicyModelRouter.RedisRateLimits

/-!
# The two rate limiters

The limiter in memory and the one in Redis are implementations of one fixed window a key.
The first stores where a window starts and compares the time elapsed; the second leaves
it to a counter to expire.
-/

namespace PolicyModelRouter.RateLimiterBackends
open Doubles EvenRounding FixedWindows FloatFormats OrderedDicts InMemoryRateLimits RedisRateLimits

def reading (milliseconds : ℤ) : Double := .nearest (milliseconds / 1000)

def stored (w : Window ℤ) : Window Double := ⟨reading w.start, w.hits⟩

/-- The counter in Redis: it expires when the window is over. -/
def counted (windowMs : ℤ) (w : Window ℤ) : Counter := ⟨w.hits, some (w.start + windowMs)⟩

def inSeconds (call : Call String ℤ) : Call String Double := ⟨call.key, reading call.now⟩

def asRequest (redis : RedisRateLimiter) (call : Call String ℤ) : Request :=
  ⟨redis, call.key, call.now, .returned⟩

def NoCallFails (redis : RedisRateLimiter) : Keyspace → List (Call String ℤ) → Prop
  | _, [] => True
  | keyspace, call :: rest => (asRequest redis call).Executes keyspace ∧
      NoCallFails redis ((asRequest redis call).allow keyspace).2 rest

/-- The readings of two instants tell whether a window has elapsed between them. -/
def Tells (windowMs start now : ℤ) : Prop :=
  reading windowMs ≤ reading now - reading start ↔ windowMs ≤ now - start

/-- The exact difference of two readings falls short of the reading of the window by no more than
rounding makes up for. -/
def Reached (windowMs start now : ℤ) : Prop :=
  0 < (reading now).value - (reading start).value ∧
    binary64.Reaches ((reading now).value - (reading start).value) (reading windowMs).value

/-- The instants are within 2^50 milliseconds of zero and not exactly one window apart, or they are
and the difference of their readings reaches the window. -/
def Measured (windowMs start now : ℤ) : Prop :=
  (now - start ≠ windowMs ∧ |start| < 2 ^ 50 ∧ |now| < 2 ^ 50) ∨
    (now - start = windowMs ∧ Reached windowMs start now)

theorem abs_reading_sub_le {t bound : ℤ} (near : |t| ≤ bound) :
    |(reading t).value - t / 1000| ≤ (bound / 1000 + 1) / 2 ^ 53 := by
  have hbound := Double.abs_nearest_sub_le ((t : ℚ) / 1000)
  have hnear : |(t : ℚ)| ≤ bound := by exact_mod_cast near
  rw [abs_div, abs_of_pos (by norm_num : (0 : ℚ) < 1000)] at hbound
  refine hbound.trans ?_
  rw [← add_div]
  gcongr

/-- Four roundings move the comparison by half a millisecond. -/
theorem tells_of_ne {windowMs start now : ℤ} (positive : 0 ≤ windowMs) (day : windowMs ≤ 86400000)
    (apart : now - start ≠ windowMs) (before : |start| < 2 ^ 50) (after : |now| < 2 ^ 50) :
    Tells windowMs start now := by
  have hwindow := abs_le.mp (abs_reading_sub_le (abs_le.mpr ⟨by omega, day⟩))
  have hstart := abs_le.mp (abs_reading_sub_le before.le)
  have hnow := abs_le.mp (abs_reading_sub_le after.le)
  have hdifference := Double.abs_nearest_sub_le ((reading now).value - (reading start).value)
  rw [← Double.sub_value] at hdifference
  have hspan : |(reading now).value - (reading start).value| ≤ 2 ^ 51 / 1000 + 1 := by
    have hbefore := abs_lt.mp before
    have hafter := abs_lt.mp after
    have h1 : -(2 : ℚ) ^ 50 < start := by exact_mod_cast hbefore.1
    have h2 : (start : ℚ) < 2 ^ 50 := by exact_mod_cast hbefore.2
    have h3 : -(2 : ℚ) ^ 50 < now := by exact_mod_cast hafter.1
    have h4 : (now : ℚ) < 2 ^ 50 := by exact_mod_cast hafter.2
    push_cast at hstart hnow
    rw [abs_le]
    constructor <;> linarith
  have herror := abs_le.mp (hdifference.trans
    (add_le_add_left (div_le_div_of_nonneg_right hspan (by norm_num)) _))
  push_cast at hwindow hstart hnow
  unfold Tells
  rw [Double.le_def]
  rcases lt_or_gt_of_ne apart with hlt | hgt
  · have hless : (now : ℚ) - start ≤ windowMs - 1 := by exact_mod_cast Int.le_sub_one_of_lt hlt
    exact iff_of_false (by linarith) (by omega)
  · have hmore : (windowMs : ℚ) + 1 ≤ now - start := by exact_mod_cast hgt
    exact iff_of_true (by linarith) (by omega)

private theorem reading_pos {t : ℤ} (h : 0 < t) : 0 < (reading t).value := by
  have hleast : ((binary64.base : ℕ) : ℚ) ^ (-10 : ℤ) ≤ t / 1000 := by
    have hone : (1 : ℚ) ≤ t := by exact_mod_cast h
    norm_num [binary64]
    linarith
  have hround := Format.round_mono (f := binary64) (by decide) (Format.power_pos _ _).le hleast
  rw [Format.round_zpow (by decide) (by decide)] at hround
  exact (Format.power_pos _ _).trans_le hround

/-- One window apart, the readings tell that it is over exactly where their difference reaches it. -/
theorem tells_iff_reached {windowMs start now : ℤ} (positive : 0 < windowMs)
    (elapsed : now - start = windowMs) : Tells windowMs start now ↔ Reached windowMs start now := by
  rw [Tells, iff_true_right elapsed.ge, Double.le_def]
  change (reading windowMs).value ≤ binary64.round _ ↔ _
  rcases le_or_gt ((reading now).value - (reading start).value) 0 with hle | hlt
  · have hround := Format.round_nonpos (f := binary64) hle
    exact iff_of_false (not_le.mpr (hround.trans_lt (reading_pos positive))) fun h => not_lt.mpr hle h.1
  · rw [Format.le_round_iff (by decide) hlt (reading windowMs).kept, Reached, and_iff_right hlt]

theorem Measured.tells {windowMs start now : ℤ} (positive : 0 < windowMs) (day : windowMs ≤ 86400000)
    (measured : Measured windowMs start now) : Tells windowMs start now := by
  rcases measured with ⟨hapart, hbefore, hafter⟩ | ⟨hover, hreached⟩
  · exact tells_of_ne positive.le day hapart hbefore hafter
  · exact (tells_iff_reached positive hover).mpr hreached

/-- Counting a hit in seconds is counting it in milliseconds. -/
theorem hit_stored {windowMs now : ℤ} {current : Option (Window ℤ)}
    (tells : ∀ w ∈ current, Tells windowMs w.start now) :
    hit (reading windowMs) (reading now) (current.map stored) = stored (hit windowMs now current) := by
  cases current with
  | none => rfl
  | some w =>
    have htells : reading windowMs ≤ reading now - reading w.start ↔ windowMs ≤ now - w.start :=
      tells w rfl
    simp only [Option.map_some, hit, stored, htells]
    split_ifs <;> rfl

/-- A window of whole milliseconds is one of the limiter in Redis. -/
theorem windowMs_of_reading {redis : RedisRateLimiter} {w : ℤ} (whole : redis.windowSeconds = reading w) :
    redis.windowMs = w ∧ 0 < w ∧ w ≤ 86400000 := by
  obtain ⟨hpositive, hday⟩ := redis.inRange
  have herror := abs_le.mp (abs_reading_sub_le (le_refl |w|))
  rw [whole] at hpositive hday
  have hw : 0 < w := by
    by_contra hnot
    rcases (not_lt.mp hnot).eq_or_lt with rfl | hneg
    · have hzero : (reading 0).value = 0 := by simp [reading, Double.nearest]
      exact hpositive.ne' hzero
    · have hcast : (w : ℚ) ≤ -1 := by exact_mod_cast Int.le_sub_one_of_lt hneg
      rw [abs_of_neg hneg, Int.cast_neg] at herror
      linarith
  rw [abs_of_pos hw] at herror
  have hup : w ≤ 86400000 := by
    by_contra hnot
    have hcast : (86400001 : ℚ) ≤ w := by exact_mod_cast not_le.mp hnot
    linarith
  have hcast : (1 : ℚ) ≤ w ∧ (w : ℚ) ≤ 86400000 := by exact_mod_cast And.intro hw hup
  have hthousand : (Double.nearest 1000).value = 1000 := by decide +kernel
  have hproduct := Double.abs_nearest_sub_le ((reading w).value * 1000)
  have hsize : |(reading w).value * 1000| ≤ 86400001 := by
    rw [abs_le]
    constructor <;> linarith
  have hrounded := abs_le.mp (hproduct.trans
    (add_le_add_left (div_le_div_of_nonneg_right hsize (by norm_num)) _))
  have hnear : |(Double.nearest ((reading w).value * 1000)).value - w| < 1 / 2 := by
    rw [abs_lt]
    constructor <;> linarith
  refine ⟨?_, hw, hup⟩
  rw [RedisRateLimiter.windowMs, whole, Double.mul_value, hthousand, roundEven_eq_of_abs_lt hnear]
  exact max_eq_right hw

/-- A script counts a hit of the window its counter stands for. -/
theorem incrAndExpire_counted {windowMs now count : ℤ} {keyspace after : Keyspace} {key : String}
    (positive : 1 ≤ windowMs) {current : Option (Window ℤ)}
    (held : keyspace key = current.map (counted windowMs)) (hits : ∀ w ∈ current, 1 ≤ w.hits)
    (h : incrAndExpire keyspace now key windowMs = some (count, after)) :
    count = (hit windowMs now current).hits ∧
      after = Function.update keyspace key (some (counted windowMs (hit windowMs now current))) := by
  rcases hit_cases windowMs now current with ⟨hnew, helapsed⟩ | ⟨w, rfl, hrunning, hnext⟩
  · have hgone : live keyspace now key = none := by
      rw [live, held]
      cases current with
      | none => rfl
      | some w =>
        have := helapsed w rfl
        simp only [counted, Option.map_some, Option.filter_some, Option.all_some, decide_eq_true_eq,
          ite_eq_right_iff, reduceCtorEq]
        omega
    rw [hnew]
    exact incrAndExpire_of_gone positive hgone h
  · have hcount := hits w rfl
    rw [hnext]
    exact incrAndExpire_of_live positive held (by omega) (by omega) h

def counting (windowMs : ℤ) (held : String → Option (Window ℤ)) (call : Call String ℤ) :
    String → Option (Window ℤ) :=
  Function.update held call.key (some (hit windowMs call.now (held call.key)))

/-- At every call the window of its key is measured. -/
def Timed (windowMs : ℤ) : (String → Option (Window ℤ)) → List (Call String ℤ) → Prop
  | _, [] => True
  | held, call :: rest => (∀ w ∈ held call.key, Measured windowMs w.start call.now) ∧
      Timed windowMs (counting windowMs held call) rest

structure Agree (windowMs : ℤ) (held : String → Option (Window ℤ)) (windows : Windows String Double)
    (keyspace : Keyspace) : Prop where
  memory : ∀ key, windows.get? key = (held key).map stored
  redis : ∀ key, keyspace (fullKey key) = (held key).map (counted windowMs)
  hits : ∀ key, ∀ w ∈ held key, 1 ≤ w.hits

section Simulation

variable {memory : InMemoryRateLimiter Double} {redis : RedisRateLimiter}
  {held : String → Option (Window ℤ)} {windows : Windows String Double} {keyspace : Keyspace}
  {call : Call String ℤ} {calls : List (Call String ℤ)}

/-- One call is answered alike, and both limiters then hold the same windows again. -/
theorem Agree.allow (agree : Agree redis.windowMs held windows keyspace)
    (requests : memory.maxRequests = redis.maxRequests)
    (window : memory.windowSeconds = reading redis.windowMs) (room : 0 < memory.maxTrackedKeys)
    (unevicted : ∀ key, key ∈ windows.keys → key ∈ (memory.allow windows (inSeconds call)).2.keys)
    (executes : (asRequest redis call).Executes keyspace)
    (tells : ∀ w ∈ held call.key, Tells redis.windowMs w.start call.now) :
    (memory.allow windows (inSeconds call)).1 = ((asRequest redis call).allow keyspace).1 ∧
      Agree redis.windowMs (counting redis.windowMs held call)
        (memory.allow windows (inSeconds call)).2 ((asRequest redis call).allow keyspace).2 := by
  obtain ⟨count, after, hscript, hallow⟩ := executes.script_eq
  have hrun : incrAndExpire keyspace call.now (fullKey call.key) redis.windowMs = some (count, after) :=
    hscript
  obtain ⟨hcount, hafter⟩ := incrAndExpire_counted (one_le_windowMs redis) (agree.redis call.key)
    (agree.hits call.key) hrun
  have hmemory : memory.count windows (inSeconds call) =
      stored (hit redis.windowMs call.now (held call.key)) := by
    rw [count_eq_hit, window, ← hit_stored tells, ← agree.memory]
    rfl
  constructor
  · have hanswer : ((asRequest redis call).allow keyspace).1 = decide (count ≤ redis.maxRequests) := by
      simp only [Request.allow, Request.eval, hscript]
      rfl
    rw [hanswer, hcount, ← requests]
    simp only [InMemoryRateLimiter.allow, hmemory, stored, Nat.cast_le]
  · refine ⟨fun key => ?_, fun key => ?_, fun key => ?_⟩
    · by_cases hkey : key = call.key
      · subst hkey
        have hself : (memory.allow windows (inSeconds call)).2.get? call.key = _ :=
          get?_allow_self room
        rw [hself, ← count_eq_hit, hmemory, counting, Function.update_self]
        rfl
      · have hother : (memory.allow windows (inSeconds call)).2.get? key = _ :=
          get?_allow_of_ne hkey (unevicted key)
        rw [hother, counting, Function.update_of_ne hkey, agree.memory]
    · by_cases hkey : key = call.key
      · subst hkey
        rw [hallow, hafter, counting, Function.update_self, Function.update_self]
        rfl
      · have hother : ((asRequest redis call).allow keyspace).2 (fullKey key) = _ := allow_of_ne hkey
        rw [hother, counting, Function.update_of_ne hkey, agree.redis]
    · by_cases hkey : key = call.key
      · subst hkey
        rw [counting, Function.update_self]
        rintro _ ⟨⟩
        exact one_le_hits _ _ _
      · rw [counting, Function.update_of_ne hkey]
        exact agree.hits key

theorem Agree.replay (agree : Agree redis.windowMs held windows keyspace)
    (requests : memory.maxRequests = redis.maxRequests)
    (window : memory.windowSeconds = reading redis.windowMs) (day : redis.windowMs ≤ 86400000)
    (room : 0 < memory.maxTrackedKeys)
    (unevicted : ∀ key, Unevicted memory key windows (calls.map inSeconds))
    (executes : NoCallFails redis keyspace calls) (timed : Timed redis.windowMs held calls) :
    (InMemoryRateLimits.replay memory.allow windows (calls.map inSeconds)).map Answered.allowed =
      answers keyspace (calls.map (asRequest redis)) := by
  induction calls generalizing held windows keyspace with
  | nil => rfl
  | cons call rest ih =>
    simp only [List.map_cons] at unevicted
    have hpositive := one_le_windowMs redis
    have htells : ∀ w ∈ held call.key, Tells redis.windowMs w.start call.now := fun w hw =>
      (timed.1 w hw).tells (by omega) day
    obtain ⟨hanswer, hagree⟩ := agree.allow requests window room (fun key => (unevicted key).head)
      executes.1 htells
    have hrest := ih hagree (fun key => (unevicted key).tail) executes.2 timed.2
    simp only [List.map_cons, InMemoryRateLimits.replay, answers, hanswer, hrest]

/-- Without failures the two limiters answer a sequence of calls alike while the readings tell
when the windows are over. -/
theorem backends_agree {w : ℤ} (requests : memory.maxRequests = redis.maxRequests)
    (window : memory.windowSeconds = redis.windowSeconds)
    (whole : redis.windowSeconds = reading w)
    (room : (calls.map Call.key).dedup.length ≤ memory.maxTrackedKeys)
    (executes : NoCallFails redis (fun _ => none) calls)
    (timed : Timed w (fun _ => none) calls) :
    (InMemoryRateLimits.replay memory.allow OrderedDict.empty (calls.map inSeconds)).map
        Answered.allowed =
      answers (fun _ => none) (calls.map (asRequest redis)) := by
  obtain ⟨hmilliseconds, -, hday⟩ := windowMs_of_reading whole
  cases hcalls : calls with
  | nil => rfl
  | cons call rest =>
    rw [← hcalls]
    have hroom : 0 < memory.maxTrackedKeys := by
      refine lt_of_lt_of_le (List.length_pos_of_mem (a := call.key) ?_) room
      simp [hcalls]
    have hkeys : (calls.map inSeconds).map Call.key = calls.map Call.key := by
      rw [List.map_map]
      rfl
    have hempty : Agree redis.windowMs (fun _ => none) (OrderedDict.empty : Windows String Double)
        (fun _ => none) := ⟨fun _ => rfl, fun _ => rfl, fun _ _ h => nomatch h⟩
    exact hempty.replay requests (by rw [window, whole, hmilliseconds]) (by rw [hmilliseconds]; exact hday)
      hroom (fun key => unevicted_of_room hroom (by rw [hkeys]; exact room)) executes
      (by rw [hmilliseconds]; exact timed)

/-- Two calls for one key are not exactly one window apart. -/
def Apart (windowMs : ℤ) (first second : Call String ℤ) : Prop :=
  second.key = first.key → second.now - first.now ≠ windowMs

/-- Every window that is held started at an earlier call. -/
theorem timed_of_apart {windowMs : ℤ} {before : List (Call String ℤ)}
    (apart : (before ++ calls).Pairwise (Apart windowMs))
    (near : ∀ call ∈ before ++ calls, |call.now| < 2 ^ 50)
    (started : ∀ key, ∀ w ∈ held key, ∃ call ∈ before, call.key = key ∧ call.now = w.start) :
    Timed windowMs held calls := by
  induction calls generalizing before held with
  | nil => trivial
  | cons call rest ih =>
    have hsplit : before ++ call :: rest = (before ++ [call]) ++ rest := by simp
    constructor
    · intro w hw
      obtain ⟨first, hfirst, hkey, hstart⟩ := started call.key w hw
      have hapart := (List.pairwise_append.mp apart).2.2 first hfirst call List.mem_cons_self
      refine .inl ⟨?_, ?_, near call (by simp)⟩
      · rw [← hstart]
        exact hapart hkey.symm
      · rw [← hstart]
        exact near first (List.mem_append_left _ hfirst)
    · have hapart : ((before ++ [call]) ++ rest).Pairwise (Apart windowMs) := hsplit ▸ apart
      apply ih hapart (hsplit ▸ near)
      intro key w hw
      by_cases hkey : key = call.key
      · subst hkey
        rw [counting, Function.update_self] at hw
        obtain rfl := Option.some.inj hw
        rcases hit_cases windowMs call.now (held call.key) with ⟨hnew, -⟩ | ⟨v, hv, -, hnext⟩
        · exact ⟨call, by simp, rfl, by rw [hnew]⟩
        · obtain ⟨first, hfirst, hsame, hstart⟩ := started call.key v hv
          exact ⟨first, List.mem_append_left _ hfirst, hsame, by rw [hnext, hstart]⟩
      · rw [counting, Function.update_of_ne hkey] at hw
        obtain ⟨first, hfirst, hsame, hstart⟩ := started key w hw
        exact ⟨first, List.mem_append_left _ hfirst, hsame, hstart⟩

end Simulation

namespace Deployed

def oneEachMinute : RedisRateLimiter := ⟨1, .nearest 60, by decide +kernel⟩

/-- The second call comes when the window is over, to the millisecond. -/
def minuteApart : List (Call String ℤ) := [⟨"a", 4002⟩, ⟨"a", 64002⟩]

/-- Two calls at once, one after the window, and one exactly when the second window is over. -/
def fourCalls : List (Call String ℤ) := [⟨"a", 4000⟩, ⟨"a", 4000⟩, ⟨"a", 65000⟩, ⟨"a", 125000⟩]

end Deployed

private theorem whole_oneEachMinute : Deployed.oneEachMinute.windowSeconds = reading 60000 := by
  norm_num [Deployed.oneEachMinute, reading]

open Deployed in
theorem backends_agree_fourCalls :
    (InMemoryRateLimits.replay (InMemoryRateLimiter.allow ⟨1, .nearest 60, 1⟩) OrderedDict.empty
        (fourCalls.map inSeconds)).map Answered.allowed =
      answers (fun _ => none) (fourCalls.map (asRequest oneEachMinute)) := by
  apply backends_agree rfl rfl whole_oneEachMinute (by decide)
  · exact ⟨⟨by decide, by decide +kernel⟩, ⟨by decide, by decide +kernel⟩, ⟨by decide, by decide +kernel⟩,
      ⟨by decide, by decide +kernel⟩, trivial⟩
  · have hreached : Reached 60000 65000 125000 := ⟨by decide +kernel, .inl (by decide +kernel)⟩
    refine ⟨fun _ h => (nomatch h), ?_, ?_, ?_, trivial⟩
    · rintro _ ⟨⟩
      exact .inl (by decide)
    · rintro _ ⟨⟩
      exact .inl (by decide)
    · rintro _ ⟨⟩
      exact .inr ⟨rfl, hreached⟩

open Deployed in
/-- The two readings differ by less than sixty once their difference is rounded. -/
theorem not_backends_agree_minuteApart :
    oneEachMinute.windowSeconds = reading 60000 ∧
      (minuteApart.map Call.now).Pairwise (· ≤ ·) ∧
      NoCallFails oneEachMinute (fun _ => none) minuteApart ∧
      (InMemoryRateLimits.replay (InMemoryRateLimiter.allow ⟨1, oneEachMinute.windowSeconds, 1⟩)
        OrderedDict.empty (minuteApart.map inSeconds)).map Answered.allowed = [true, false] ∧
      answers (fun _ => none) (minuteApart.map (asRequest oneEachMinute)) = [true, true] :=
  ⟨whole_oneEachMinute, by decide,
    ⟨⟨by decide, by decide +kernel⟩, ⟨by decide, by decide +kernel⟩, trivial⟩,
    by decide +kernel, by decide +kernel⟩

end PolicyModelRouter.RateLimiterBackends
