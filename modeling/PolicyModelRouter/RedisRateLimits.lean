import PolicyModelRouter.Doubles
import PolicyModelRouter.InMemoryRateLimits

/-!
# The rate limiter in Redis

One script increments a counter and makes sure that it expires; it runs atomically, for
any number of replicas. Instants are those of the Redis clock, in milliseconds. A counter
is gone once its time to live has elapsed.
-/

namespace PolicyModelRouter.RedisRateLimits
open Doubles EvenRounding

structure Counter where
  value : ℤ
  expireAt : Option ℤ
  deriving DecidableEq

/-- The counters under the keys. One whose instant has passed is gone. -/
abbrev Keyspace := String → Option Counter

def maxInteger : ℤ := 2 ^ 63 - 1

def live (keyspace : Keyspace) (now : ℤ) (key : String) : Option Counter :=
  (keyspace key).filter fun counter => counter.expireAt.all fun instant => now < instant

/-- INCR keeps the time to live, and fails where the integer would overflow. -/
def incr (keyspace : Keyspace) (now : ℤ) (key : String) : Option (ℤ × Keyspace) :=
  match live keyspace now key with
  | none => some (1, Function.update keyspace key (some ⟨1, none⟩))
  | some counter =>
    if counter.value < maxInteger then
      some (counter.value + 1,
        Function.update keyspace key (some ⟨counter.value + 1, counter.expireAt⟩))
    else none

/-- PTTL is -2 without the key, and -1 without a time to live. -/
def pttl (keyspace : Keyspace) (now : ℤ) (key : String) : ℤ :=
  match live keyspace now key with
  | none => -2
  | some counter => counter.expireAt.elim (-1) (· - now)

/-- PEXPIRE deletes the key when the time to live is not positive. -/
def pexpire (keyspace : Keyspace) (now : ℤ) (key : String) (milliseconds : ℤ) : Keyspace :=
  match live keyspace now key with
  | none => keyspace
  | some counter =>
    Function.update keyspace key
      (if 0 < milliseconds then some ⟨counter.value, some (now + milliseconds)⟩ else none)

/-- The script: no result where INCR failed. -/
def incrAndExpire (keyspace : Keyspace) (now : ℤ) (key : String) (windowMs : ℤ) :
    Option (ℤ × Keyspace) := do
  let (count, keyspace) ← incr keyspace now key
  if count = 1 ∨ pttl keyspace now key < 0 then
    some (count, pexpire keyspace now key windowMs)
  else some (count, keyspace)

structure RedisRateLimiter where
  maxRequests : ℕ
  windowSeconds : Double
  inRange : 0 < windowSeconds.value ∧ windowSeconds.value ≤ 86400

def RedisRateLimiter.windowMs (limiter : RedisRateLimiter) : ℤ :=
  max 1 (roundEven (limiter.windowSeconds * .nearest 1000).value)

def fullKey (key : String) : String := "policy-model-router:rate-limit" ++ ":" ++ key

inductive EvalReply where
  | count (count : ℤ)
  | raises

/-- Every exception of the client lets the request through. -/
def RedisRateLimiter.answer (limiter : RedisRateLimiter) : EvalReply → Bool
  | .count count => count ≤ limiter.maxRequests
  | .raises => true

/-- Whether a script is run, and whether the client learns its result. -/
inductive Delivery where
  | returned
  | lost
  | unreached
  deriving DecidableEq

/-- One call of the limiter of some replica. -/
structure Request where
  limiter : RedisRateLimiter
  key : String
  now : ℤ
  delivery : Delivery

namespace Request

variable (keyspace : Keyspace) (request : Request)

def script : Option (ℤ × Keyspace) :=
  incrAndExpire keyspace request.now (fullKey request.key) request.limiter.windowMs

def eval : EvalReply × Keyspace :=
  match request.delivery, request.script keyspace with
  | .unreached, _ => (.raises, keyspace)
  | _, none => (.raises, keyspace)
  | .lost, some (_, after) => (.raises, after)
  | .returned, some (count, after) => (.count count, after)

def allow : Bool × Keyspace :=
  let reply := request.eval keyspace
  (request.limiter.answer reply.1, reply.2)

/-- The script is run to its end: it reaches the server, and the counter it finds there has room. -/
def Executes : Prop :=
  request.delivery ≠ .unreached ∧
    ∀ counter ∈ live keyspace request.now (fullKey request.key), counter.value < maxInteger

end Request

def after (keyspace : Keyspace) (requests : List Request) : Keyspace :=
  requests.foldl (fun keyspace request => (request.allow keyspace).2) keyspace

def answers : Keyspace → List Request → List Bool
  | _, [] => []
  | keyspace, request :: rest =>
    (request.allow keyspace).1 :: answers (request.allow keyspace).2 rest

theorem after_append (keyspace : Keyspace) (first rest : List Request) :
    after keyspace (first ++ rest) = after (after keyspace first) rest :=
  List.foldl_append ..

theorem one_le_windowMs (limiter : RedisRateLimiter) : 1 ≤ limiter.windowMs := le_max_left _ _

section Script

variable {keyspace after : Keyspace} {now windowMs count : ℤ} {key : String}

theorem live_eq_some {counter : Counter} : live keyspace now key = some counter ↔
    keyspace key = some counter ∧ ∀ instant, counter.expireAt = some instant → now < instant := by
  rw [live, Option.filter_eq_some_iff, Option.all_eq_true]
  simp only [decide_eq_true_eq]

theorem live_update_self {counter : Counter}
    (present : ∀ instant, counter.expireAt = some instant → now < instant) :
    live (Function.update keyspace key (some counter)) now key = some counter :=
  live_eq_some.mpr ⟨Function.update_self .., present⟩

/-- What the script does: a new counter, or a higher count that keeps the time to live it has. -/
theorem incrAndExpire_cases (positive : 1 ≤ windowMs)
    (h : incrAndExpire keyspace now key windowMs = some (count, after)) :
    (live keyspace now key = none ∧ count = 1 ∧
        after = Function.update keyspace key (some ⟨1, some (now + windowMs)⟩)) ∨
      ∃ counter, live keyspace now key = some counter ∧ count = counter.value + 1 ∧
        after = Function.update keyspace key (some ⟨count,
          if count = 1 ∨ counter.expireAt = none then some (now + windowMs)
          else counter.expireAt⟩) := by
  have hpositive : 0 < windowMs := by omega
  unfold incrAndExpire incr at h
  cases hlive : live keyspace now key with
  | none =>
    have hnew : live (Function.update keyspace key (some ⟨1, none⟩)) now key = some ⟨1, none⟩ :=
      live_update_self (by simp)
    simp only [hlive, Option.bind_eq_bind, Option.bind_some, true_or, if_true, Option.some.injEq,
      Prod.mk.injEq, pexpire, hnew, if_pos hpositive, Function.update_idem] at h
    exact .inl ⟨rfl, h.1.symm, h.2.symm⟩
  | some counter =>
    obtain ⟨-, hpresent⟩ := live_eq_some.mp hlive
    have hnext : live (Function.update keyspace key (some ⟨counter.value + 1, counter.expireAt⟩)) now
        key = some ⟨counter.value + 1, counter.expireAt⟩ := live_update_self hpresent
    have hpttl : pttl (Function.update keyspace key (some ⟨counter.value + 1, counter.expireAt⟩)) now
        key < 0 ↔ counter.expireAt = none := by
      simp only [pttl, hnext]
      cases hexpire : counter.expireAt with
      | none => simp
      | some instant =>
        have := hpresent instant hexpire
        simp only [Option.elim_some, reduceCtorEq, iff_false]
        omega
    by_cases hbounded : counter.value < maxInteger
    · simp only [hlive, if_pos hbounded, Option.bind_eq_bind, Option.bind_some, hpttl, pexpire, hnext,
        if_pos hpositive, Function.update_idem] at h
      by_cases hrepair : counter.value + 1 = 1 ∨ counter.expireAt = none
      · rw [if_pos hrepair] at h
        obtain ⟨rfl, rfl⟩ := Prod.mk.inj (Option.some.inj h)
        exact .inr ⟨counter, rfl, rfl, by rw [if_pos hrepair]⟩
      · rw [if_neg hrepair] at h
        obtain ⟨rfl, rfl⟩ := Prod.mk.inj (Option.some.inj h)
        exact .inr ⟨counter, rfl, rfl, by rw [if_neg hrepair]⟩
    · simp [hlive, hbounded] at h

/-- The script fails only where a counter has no room. -/
theorem isSome_incrAndExpire
    (room : ∀ counter ∈ live keyspace now key, counter.value < maxInteger) :
    (incrAndExpire keyspace now key windowMs).isSome = true := by
  have hincr : ∃ result, incr keyspace now key = some result := by
    unfold incr
    cases hlive : live keyspace now key with
    | none => exact ⟨_, rfl⟩
    | some counter => exact ⟨_, if_pos (room counter hlive)⟩
  obtain ⟨⟨count, later⟩, hresult⟩ := hincr
  rw [incrAndExpire, hresult, Option.bind_eq_bind, Option.bind_some]
  dsimp only
  split_ifs <;> rfl

/-- The counter a script leaves expires: at the instant it had, or one window later. -/
theorem incrAndExpire_expires (positive : 1 ≤ windowMs)
    (h : incrAndExpire keyspace now key windowMs = some (count, after)) :
    ∃ instant, now < instant ∧
      after = Function.update keyspace key (some ⟨count, some instant⟩) ∧
      (instant = now + windowMs ∨
        ∃ counter, keyspace key = some counter ∧ counter.expireAt = some instant) := by
  rcases incrAndExpire_cases positive h with ⟨-, rfl, rfl⟩ | ⟨counter, hlive, -, rfl⟩
  · exact ⟨now + windowMs, by omega, rfl, .inl rfl⟩
  · obtain ⟨hcounter, hpresent⟩ := live_eq_some.mp hlive
    by_cases hrepair : count = 1 ∨ counter.expireAt = none
    · exact ⟨now + windowMs, by omega, by rw [if_pos hrepair], .inl rfl⟩
    · obtain ⟨instant, hexpire⟩ := Option.ne_none_iff_exists'.mp fun h => hrepair (.inr h)
      exact ⟨instant, hpresent instant hexpire, by rw [if_neg hrepair, hexpire],
        .inr ⟨counter, hcounter, hexpire⟩⟩

/-- A counter that is still there and has counted a hit keeps the instant it expires at. -/
theorem incrAndExpire_of_live (positive : 1 ≤ windowMs) {value instant : ℤ}
    (held : keyspace key = some ⟨value, some instant⟩) (counted : 1 ≤ value) (early : now < instant)
    (h : incrAndExpire keyspace now key windowMs = some (count, after)) :
    count = value + 1 ∧ after = Function.update keyspace key (some ⟨value + 1, some instant⟩) := by
  have hlive : live keyspace now key = some ⟨value, some instant⟩ :=
    live_eq_some.mpr ⟨held, fun _ h => Option.some.inj h ▸ early⟩
  rcases incrAndExpire_cases positive h with ⟨hnone, -, -⟩ | ⟨counter, hsome, rfl, rfl⟩
  · exact nomatch hlive.symm.trans hnone
  · obtain rfl : (⟨value, some instant⟩ : Counter) = counter := Option.some.inj (hlive.symm.trans hsome)
    have hkeep : ¬ (value + 1 = 1 ∨ (some instant : Option ℤ) = none) := by
      rintro (h | h)
      · omega
      · cases h
    exact ⟨rfl, by rw [if_neg hkeep]⟩

/-- Once a counter is gone, the next script counts from one. -/
theorem incrAndExpire_of_gone (positive : 1 ≤ windowMs) (gone : live keyspace now key = none)
    (h : incrAndExpire keyspace now key windowMs = some (count, after)) :
    count = 1 ∧ after = Function.update keyspace key (some ⟨1, some (now + windowMs)⟩) := by
  rcases incrAndExpire_cases positive h with ⟨-, hcount, hafter⟩ | ⟨counter, hsome, -⟩
  · exact ⟨hcount, hafter⟩
  · exact nomatch gone.symm.trans hsome

end Script

section Request

variable {keyspace : Keyspace} {request : Request} {key : String}

private theorem fullKey_injective : Function.Injective fullKey := by
  intro a b h
  exact String.append_right_inj _ |>.mp h

/-- A request changes nothing, or what its script changes. -/
theorem allow_cases (keyspace : Keyspace) (request : Request) : (request.allow keyspace).2 = keyspace ∨
    ∃ count after, request.script keyspace = some (count, after) ∧
      (request.allow keyspace).2 = after := by
  unfold Request.allow Request.eval
  rcases request.script keyspace with _ | ⟨count, after⟩ <;> cases request.delivery <;> simp

theorem Request.Executes.script_eq (h : request.Executes keyspace) :
    ∃ count after, request.script keyspace = some (count, after) ∧
      (request.allow keyspace).2 = after := by
  obtain ⟨hreached, hroom⟩ := h
  obtain ⟨⟨count, after⟩, hrun⟩ := Option.isSome_iff_exists.mp (isSome_incrAndExpire hroom)
  have hscript : request.script keyspace = some (count, after) := hrun
  refine ⟨count, after, hscript, ?_⟩
  unfold Request.allow Request.eval
  cases hdelivery : request.delivery with
  | returned => simp only [hscript]
  | lost => simp only [hscript]
  | unreached => exact absurd hdelivery hreached

/-- Only a count above the maximum refuses a request. -/
theorem script_of_refused (h : (request.allow keyspace).1 = false) :
    ∃ count after, request.script keyspace = some (count, after) ∧
      (request.allow keyspace).2 = after ∧ request.limiter.maxRequests < count := by
  unfold Request.allow Request.eval at h ⊢
  cases hdelivery : request.delivery <;> cases hscript : request.script keyspace <;>
    simp only [hdelivery, hscript, RedisRateLimiter.answer, decide_eq_false_iff_not, not_le,
      reduceCtorEq] at h
  exact ⟨_, _, rfl, rfl, h⟩

private theorem allow_of_gone (permits : 1 ≤ request.limiter.maxRequests)
    (gone : live keyspace request.now (fullKey request.key) = none) :
    (request.allow keyspace).1 = true := by
  by_contra hrefused
  obtain ⟨count, after, hscript, -, hcount⟩ := script_of_refused (Bool.eq_false_of_not_eq_true hrefused)
  obtain ⟨rfl, -⟩ := incrAndExpire_of_gone (one_le_windowMs _) gone hscript
  omega

/-- A request for another key leaves the counter as it is. -/
theorem allow_of_ne (h : key ≠ request.key) :
    (request.allow keyspace).2 (fullKey key) = keyspace (fullKey key) := by
  rcases allow_cases keyspace request with hsame | ⟨count, after, hscript, hafter⟩
  · rw [hsame]
  · obtain ⟨instant, -, rfl, -⟩ := incrAndExpire_expires (one_le_windowMs _) hscript
    rw [hafter, Function.update_of_ne (fullKey_injective.ne h)]

/-- What a counter with a hit holds after a request made before it expires. -/
theorem allow_of_held {value instant : ℤ} (held : keyspace (fullKey key) = some ⟨value, some instant⟩)
    (counted : 1 ≤ value) (early : request.key = key → request.now < instant) :
    ∃ next, value ≤ next ∧
      (request.allow keyspace).2 (fullKey key) = some ⟨next, some instant⟩ := by
  by_cases hkey : request.key = key
  · subst hkey
    rcases allow_cases keyspace request with
      hsame | ⟨count, after, hscript, hafter⟩
    · exact ⟨value, le_rfl, by rw [hsame, held]⟩
    · obtain ⟨-, rfl⟩ := incrAndExpire_of_live (one_le_windowMs _) held counted (early rfl) hscript
      exact ⟨value + 1, by omega, by rw [hafter, Function.update_self]⟩
  · exact ⟨value, le_rfl, by rw [allow_of_ne (Ne.symm hkey), held]⟩

end Request

section Sequence

variable {windowMs began now : ℤ} {keyspace : Keyspace} {requests : List Request} {key : String}

/-- No counter expires later than one window from now. -/
def Bounded (windowMs now : ℤ) (keyspace : Keyspace) : Prop :=
  ∀ key counter instant, keyspace key = some counter → counter.expireAt = some instant →
    instant ≤ now + windowMs

/-- Every script keeps the times to live within the window. -/
theorem Bounded.after (bounded : Bounded windowMs began keyspace) (since : began ≤ now)
    (common : ∀ request ∈ requests, request.limiter.windowMs = windowMs)
    (upTo : ∀ request ∈ requests, request.now ≤ now) :
    Bounded windowMs now (RedisRateLimits.after keyspace requests) := by
  induction requests using List.reverseRecOn with
  | nil =>
    intro key counter instant hcounter hexpire
    have := bounded key counter instant hcounter hexpire
    omega
  | append_singleton requests request ih =>
    have hbefore := ih (fun r hr => common r (List.mem_append_left _ hr))
      fun r hr => upTo r (List.mem_append_left _ hr)
    have hmem : request ∈ requests ++ [request] := List.mem_append_right _ List.mem_cons_self
    have hnow := upTo request hmem
    rw [after_append]
    change Bounded windowMs now (request.allow (RedisRateLimits.after keyspace requests)).2
    rcases allow_cases (RedisRateLimits.after keyspace requests) request with
      hsame | ⟨count, after, hscript, hafter⟩
    · rwa [hsame]
    · obtain ⟨last, -, rfl, hlast⟩ := incrAndExpire_expires (one_le_windowMs _) hscript
      rw [hafter]
      intro key counter instant hcounter hexpire
      by_cases hkey : key = fullKey request.key
      · subst hkey
        rw [Function.update_self] at hcounter
        obtain rfl := Option.some.inj hcounter
        obtain rfl := Option.some.inj hexpire
        rcases hlast with rfl | ⟨old, hold, hexpire⟩
        · rw [common request hmem]
          omega
        · exact hbefore _ old _ hold hexpire
      · rw [Function.update_of_ne hkey] at hcounter
        exact hbefore key counter instant hcounter hexpire

/-- Hits before a counter expires leave the instant at which it does. -/
theorem after_of_held {value instant : ℤ} (held : keyspace (fullKey key) = some ⟨value, some instant⟩)
    (counted : 1 ≤ value) (early : ∀ request ∈ requests, request.key = key → request.now < instant) :
    ∃ next, value ≤ next ∧
      after keyspace requests (fullKey key) = some ⟨next, some instant⟩ := by
  induction requests generalizing keyspace value with
  | nil => exact ⟨value, le_rfl, held⟩
  | cons request requests ih =>
    obtain ⟨next, hnext, hheld⟩ := allow_of_held held counted (early request List.mem_cons_self)
    obtain ⟨last, hlast, hheld⟩ := ih hheld (hnext.trans' counted)
      fun r hr => early r (List.mem_cons_of_mem _ hr)
    exact ⟨last, hnext.trans hlast, hheld⟩

/-- Every counter expires within the window, hits before that leave the instant as it is,
and the first request after it is let through. -/
structure NeverBlocks (windowMs : ℤ) (keyspace : Keyspace) (requests : List Request) : Prop where
  bounded : ∀ first request rest, requests = first ++ request :: rest →
    request.Executes (after keyspace first) →
    1 ≤ pttl (after keyspace (first ++ [request])) request.now (fullKey request.key) ∧
      pttl (after keyspace (first ++ [request])) request.now (fullKey request.key) ≤ windowMs
  kept : ∀ first hits rest key value instant, requests = first ++ hits ++ rest →
    after keyspace first (fullKey key) = some ⟨value, some instant⟩ → 1 < value →
    (∀ request ∈ hits, request.key = key → request.now < instant) →
    ∃ next, value ≤ next ∧
      after keyspace (first ++ hits) (fullKey key) = some ⟨next, some instant⟩
  reopens : ∀ first refused rest, requests = first ++ refused :: rest →
    1 ≤ refused.limiter.maxRequests → (refused.allow (after keyspace first)).1 = false →
    ∃ instant, refused.now < instant ∧ instant ≤ refused.now + windowMs ∧
      ∀ hits later, rest = hits ++ later →
        (∀ request ∈ hits, request.key = refused.key → request.now < instant) →
        (∃ value, after keyspace (first ++ refused :: hits) (fullKey refused.key) =
          some ⟨value, some instant⟩) ∧
        ∀ next others, later = next :: others → next.key = refused.key → instant ≤ next.now →
          1 ≤ next.limiter.maxRequests →
          (next.allow (after keyspace (first ++ refused :: hits))).1 = true

/-- What a script leaves expires after it, and within the window. -/
theorem script_expires {t count : ℤ} {first rest : List Request} {request : Request}
    {later : Keyspace} (bounded : Bounded windowMs t keyspace)
    (ascending : (t :: (first ++ request :: rest).map Request.now).Pairwise (· ≤ ·))
    (common : ∀ r ∈ first ++ request :: rest, r.limiter.windowMs = windowMs)
    (script : request.script (after keyspace first) = some (count, later)) :
    ∃ instant, request.now < instant ∧ instant ≤ request.now + windowMs ∧
      later = Function.update (after keyspace first) (fullKey request.key)
        (some ⟨count, some instant⟩) := by
  obtain ⟨hsince, hascending⟩ := List.pairwise_cons.mp ascending
  have hmem : request ∈ first ++ request :: rest := List.mem_append_right _ List.mem_cons_self
  have hbefore : Bounded windowMs request.now (after keyspace first) := by
    refine bounded.after (hsince _ (List.mem_map_of_mem hmem))
      (fun r hr => common r (List.mem_append_left _ hr)) fun r hr => ?_
    rw [List.map_append, List.map_cons] at hascending
    exact (List.pairwise_append.mp hascending).2.2 _ (List.mem_map_of_mem hr) _ List.mem_cons_self
  obtain ⟨instant, hafter, hlater, horigin⟩ := incrAndExpire_expires (one_le_windowMs _) script
  refine ⟨instant, hafter, ?_, hlater⟩
  rcases horigin with rfl | ⟨counter, hcounter, hexpire⟩
  · rw [common request hmem]
  · exact hbefore _ counter _ hcounter hexpire

/-- No key is refused for longer than a window. -/
theorem never_blocks {t : ℤ} (bounded : Bounded windowMs t keyspace)
    (ascending : (t :: requests.map Request.now).Pairwise (· ≤ ·))
    (common : ∀ request ∈ requests, request.limiter.windowMs = windowMs) :
    NeverBlocks windowMs keyspace requests := by
  refine ⟨?_, ?_, ?_⟩
  · intro first request rest hsplit hexecutes
    obtain ⟨count, later, hscript, hallow⟩ := hexecutes.script_eq
    subst hsplit
    obtain ⟨instant, hnow, hwindow, rfl⟩ := script_expires bounded ascending common hscript
    have hpttl : pttl (after keyspace (first ++ [request])) request.now (fullKey request.key) =
        instant - request.now := by
      rw [after_append]
      change pttl (request.allow (after keyspace first)).2 _ _ = _
      rw [hallow, pttl, live_update_self fun _ h => Option.some.inj h ▸ hnow]
      rfl
    rw [hpttl]
    omega
  · intro first hits rest key value instant _ held counted early
    rw [after_append]
    exact after_of_held held (by omega) early
  · intro first refused rest hsplit permits hrefused
    obtain ⟨count, later, hscript, hallow, hcount⟩ := script_of_refused hrefused
    subst hsplit
    obtain ⟨instant, hnow, hwindow, rfl⟩ := script_expires bounded ascending common hscript
    refine ⟨instant, hnow, hwindow, fun hits later hrest hearly => ?_⟩
    have hheld : (refused.allow (after keyspace first)).2 (fullKey refused.key) =
        some ⟨count, some instant⟩ := by rw [hallow, Function.update_self]
    obtain ⟨value, -, hvalue⟩ := after_of_held hheld (by omega) hearly
    have hafter : after keyspace (first ++ refused :: hits) (fullKey refused.key) =
        some ⟨value, some instant⟩ := by
      rw [after_append]
      exact hvalue
    refine ⟨⟨value, hafter⟩, fun next others _ hkey hlate hpermits => allow_of_gone hpermits ?_⟩
    rw [hkey, live, hafter]
    simp only [Option.filter_some, Option.all_some, decide_eq_true_eq, ite_eq_right_iff, reduceCtorEq]
    omega

end Sequence

def oneEachSecond : RedisRateLimiter := ⟨1, .nearest 1, by decide +kernel⟩

/-- Two requests at once, and one when the window is over. -/
def twiceAndAgain : List Request :=
  [⟨oneEachSecond, "a", 0, .returned⟩, ⟨oneEachSecond, "a", 0, .returned⟩,
    ⟨oneEachSecond, "a", 1000, .returned⟩]

/-- The first call runs its script, and the second is refused while the window lasts. -/
theorem never_blocks_twice :
    Request.Executes (fun _ => none) ⟨oneEachSecond, "a", 0, .returned⟩ ∧
      answers (fun _ => none) twiceAndAgain = [true, false, true] ∧
      NeverBlocks oneEachSecond.windowMs (fun _ => none) twiceAndAgain :=
  ⟨⟨by decide, fun _ h => nomatch h⟩, by decide +kernel,
    never_blocks (t := 0) (fun _ _ _ h => nomatch h) (by decide) (by simp [twiceAndAgain])⟩

end PolicyModelRouter.RedisRateLimits
