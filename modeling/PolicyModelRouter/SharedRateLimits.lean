import PolicyModelRouter.RateLimiterBackends

/-!
# The limit shared through Redis

Replicas count their requests in one keyspace, each with a limiter of its own. A client that
learns no count lets its request through, so the limit holds up to these requests, and a key
is refused only after it has been called as often as the refusing limiter allows.
-/

namespace PolicyModelRouter.SharedRateLimits
open FixedWindows RateLimiterBackends RedisRateLimits

def replies : Keyspace → List Request → List (Request × EvalReply)
  | _, [] => []
  | keyspace, request :: rest =>
    (request, (request.eval keyspace).1) :: replies (request.allow keyspace).2 rest

/-- The client learned no count, and the failure is counted. -/
def raised : EvalReply → Bool
  | .count _ => false
  | .raises => true

/-- What the counter of an unavailable backend has gone up by. -/
def backendUnavailable (keyspace : Keyspace) (requests : List Request) : ℕ :=
  (replies keyspace requests).countP fun x => raised x.2

/-- A request for the key, under a limit up to the quota, that was let through at an instant
of interest. -/
def passing (quota : ℕ) (key : String) (interest : ℤ → Bool) (x : Request × EvalReply) : Bool :=
  decide (x.1.limiter.maxRequests ≤ quota) && decide (x.1.key = key) && interest x.1.now &&
    x.1.limiter.answer x.2

def uncounted (key : String) (interest : ℤ → Bool) (x : Request × EvalReply) : Bool :=
  decide (x.1.key = key) && interest x.1.now && raised x.2

def reaching (key : String) (interest : ℤ → Bool) (request : Request) : Bool :=
  decide (request.key = key) && interest request.now && decide (request.delivery ≠ .unreached)

def initially (keyspace : Keyspace) (key : String) : ℤ :=
  (keyspace (fullKey key)).elim 0 Counter.value

/-- The counters of a keyspace count, and none expires later than one window from now. -/
structure Sound (windowMs now : ℤ) (keyspace : Keyspace) : Prop where
  bounded : Bounded windowMs now keyspace
  counting : ∀ key counter, keyspace key = some counter → 0 ≤ counter.value

/-- What the shared limit guarantees over a sequence of requests. -/
structure Shares (windowMs : ℤ) (keyspace : Keyspace) (requests : List Request) : Prop where
  budget : ∀ (quota : ℕ) (key : String) (t : ℤ) (n : ℕ),
    (replies keyspace requests).countP
        (passing quota key fun now => decide (t ≤ now ∧ now < t + n * windowMs)) ≤
      (n + 1) * quota + (replies keyspace requests).countP
        (uncounted key fun now => decide (t ≤ now ∧ now < t + n * windowMs))
  alertable : ∀ (quota : ℕ) (key : String) (t : ℤ) (n : ℕ),
    (replies keyspace requests).countP
        (passing quota key fun now => decide (t ≤ now ∧ now < t + n * windowMs)) ≤
      (n + 1) * quota + backendUnavailable keyspace requests
  refused : ∀ first request rest, requests = first ++ request :: rest →
    (request.allow (after keyspace first)).1 = false →
      (request.limiter.maxRequests : ℤ) < initially keyspace request.key +
        (first ++ [request]).countP
          (reaching request.key fun now => decide (request.now - windowMs < now))

private theorem sound_empty (windowMs now : ℤ) : Sound windowMs now fun _ => none :=
  ⟨fun _ _ _ h => (nomatch h), fun _ _ h => (nomatch h)⟩

/-- A client that learns a count learns the one its script has stored. -/
theorem script_of_count {keyspace : Keyspace} {request : Request} {count : ℤ}
    (h : (request.eval keyspace).1 = .count count) :
    ∃ later, request.script keyspace = some (count, later) ∧ (request.allow keyspace).2 = later := by
  unfold Request.allow
  unfold Request.eval at h ⊢
  cases hdelivery : request.delivery <;> cases hscript : request.script keyspace <;>
    simp only [hdelivery, hscript, reduceCtorEq, EvalReply.count.injEq] at h
  subst h
  exact ⟨_, rfl, rfl⟩

/-- A request that changes a counter has reached the keyspace. -/
theorem executed_cases (keyspace : Keyspace) (request : Request) :
    (request.allow keyspace).2 = keyspace ∨ request.delivery ≠ .unreached ∧
      ∃ count later, request.script keyspace = some (count, later) ∧
        (request.allow keyspace).2 = later := by
  by_cases hreached : request.delivery = .unreached
  · apply Or.inl
    simp only [Request.allow, Request.eval, hreached]
  · exact (allow_cases keyspace request).imp_right fun h => ⟨hreached, h⟩

section Script

variable {windowMs : ℤ} {keyspace later : Keyspace}

/-- What a script leaves is the counter of a window it lies in, and that window follows the
one that was held. -/
theorem exists_window {now count : ℤ} {key : String} (positive : 1 ≤ windowMs)
    (sound : Sound windowMs now keyspace)
    (h : incrAndExpire keyspace now key windowMs = some (count, later)) :
    ∃ w : Window ℤ, later = Function.update keyspace key (some (counted windowMs w)) ∧
      count = w.hits ∧ 1 ≤ w.hits ∧ Within windowMs now w ∧
      ∀ v : Window ℤ, keyspace key = some (counted windowMs v) → 1 ≤ v.hits → Follows windowMs v w := by
  rcases incrAndExpire_cases positive h with ⟨hgone, rfl, rfl⟩ | ⟨counter, hlive, rfl, rfl⟩
  · refine ⟨⟨now, 1⟩, rfl, rfl, le_rfl, ⟨le_rfl, by dsimp only; omega⟩, fun v held _ => .inr ?_⟩
    have hpast : ¬ now < v.start + windowMs := by
      intro hearly
      have hlive : live keyspace now key = some (counted windowMs v) :=
        live_eq_some.mpr ⟨held, fun _ h => Option.some.inj h ▸ hearly⟩
      exact nomatch hlive.symm.trans hgone
    exact not_lt.mp hpast
  · obtain ⟨hheld, hpresent⟩ := live_eq_some.mp hlive
    have hcounting := sound.counting _ _ hheld
    by_cases hrestart : counter.value + 1 = 1 ∨ counter.expireAt = none
    · refine ⟨⟨now, (counter.value + 1).toNat⟩, ?_, ?_, ?_, ⟨le_rfl, by dsimp only; omega⟩,
        fun v held counted => ?_⟩
      · rw [if_pos hrestart, RateLimiterBackends.counted]
        dsimp only
        rw [Int.toNat_of_nonneg (by omega)]
      · dsimp only
        omega
      · dsimp only
        omega
      · -- a window with a hit and an end is not restarted
        obtain rfl := Option.some.inj (hheld.symm.trans held)
        rcases hrestart with hzero | hendless
        · simp only [RateLimiterBackends.counted] at hzero
          omega
        · cases hendless
    · obtain ⟨instant, hexpire⟩ := Option.ne_none_iff_exists'.mp fun h => hrestart (.inr h)
      have hbound := sound.bounded _ _ _ hheld hexpire
      have hearly := hpresent instant hexpire
      refine ⟨⟨instant - windowMs, (counter.value + 1).toNat⟩, ?_, ?_, ?_, ⟨?_, ?_⟩,
        fun v held _ => .inl ?_⟩
      · rw [if_neg hrestart, hexpire, RateLimiterBackends.counted]
        dsimp only
        rw [Int.toNat_of_nonneg (by omega), sub_add_cancel]
      · dsimp only
        omega
      · dsimp only
        omega
      · dsimp only
        omega
      · dsimp only
        omega
      · obtain rfl := Option.some.inj (hheld.symm.trans held)
        simp only [RateLimiterBackends.counted, Option.some.injEq] at hexpire hcounting ⊢
        omega

/-- A request leaves the keyspace sound. -/
theorem Sound.allow {request : Request} (sound : Sound windowMs request.now keyspace)
    (own : request.limiter.windowMs = windowMs) :
    Sound windowMs request.now (request.allow keyspace).2 := by
  rcases allow_cases keyspace request with hsame | ⟨count, later, hscript, hafter⟩
  · rwa [hsame]
  · rw [Request.script, own] at hscript
    obtain ⟨w, rfl, -, -, hwithin, -⟩ := exists_window (own ▸ one_le_windowMs _) sound hscript
    rw [hafter]
    refine ⟨fun key counter instant hcounter hexpire => ?_, fun key counter hcounter => ?_⟩
    · by_cases hkey : key = fullKey request.key
      · subst hkey
        rw [Function.update_self] at hcounter
        obtain rfl := Option.some.inj hcounter
        obtain rfl := Option.some.inj hexpire
        have := hwithin.1
        omega
      · rw [Function.update_of_ne hkey] at hcounter
        exact sound.bounded key counter instant hcounter hexpire
    · by_cases hkey : key = fullKey request.key
      · subst hkey
        rw [Function.update_self] at hcounter
        obtain rfl := Option.some.inj hcounter
        exact Int.natCast_nonneg _
      · rw [Function.update_of_ne hkey] at hcounter
        exact sound.counting key counter hcounter

theorem Sound.mono {now now' : ℤ} (sound : Sound windowMs now keyspace) (since : now ≤ now') :
    Sound windowMs now' keyspace := by
  refine ⟨fun key counter instant hcounter hexpire => ?_, sound.counting⟩
  have := sound.bounded key counter instant hcounter hexpire
  omega

end Script

section Sequence

variable {windowMs : ℤ} {keyspace : Keyspace} {requests : List Request} {key : String}

/-- The windows of some hits follow the window a key has now. -/
def Followed (windowMs : ℤ) (keyspace : Keyspace) (key : String) (hits : List (ℤ × Window ℤ)) : Prop :=
  ∀ v : Window ℤ, keyspace (fullKey key) = some (counted windowMs v) → 1 ≤ v.hits →
    ∀ x ∈ hits, Follows windowMs v x.2

/-- What follows the window after a request follows the window before it. -/
theorem Followed.of_allow {request : Request} {hits : List (ℤ × Window ℤ)}
    (sound : Sound windowMs request.now keyspace) (own : request.limiter.windowMs = windowMs)
    (h : Followed windowMs (request.allow keyspace).2 key hits) :
    Followed windowMs keyspace key hits := by
  intro v held counted x hx
  by_cases hkey : key = request.key
  swap
  · exact h v (by rw [allow_of_ne hkey, held]) counted x hx
  subst hkey
  have hpositive : 1 ≤ windowMs := own ▸ one_le_windowMs request.limiter
  rcases allow_cases keyspace request with hsame | ⟨count, later, hscript, hafter⟩
  · exact h v (by rw [hsame, held]) counted x hx
  · rw [Request.script, own] at hscript
    obtain ⟨w, rfl, -, hcounted, -, hfollows⟩ := exists_window hpositive sound hscript
    have hnext : Follows windowMs w x.2 := h w (by rw [hafter, Function.update_self]) hcounted x hx
    exact (hfollows v held counted).trans (by omega) hnext

/-- Of the requests for a key some were let through by a count: each has its window, and these
windows follow each other. -/
theorem exists_hits {t : ℤ} (sound : Sound windowMs t keyspace)
    (ascending : (t :: requests.map Request.now).Pairwise (· ≤ ·))
    (common : ∀ request ∈ requests, request.limiter.windowMs = windowMs)
    (key : String) (quota : ℕ) (interest : ℤ → Bool) :
    ∃ hits : List (ℤ × Window ℤ), Recorded windowMs hits ∧ Followed windowMs keyspace key hits ∧
      (∀ x ∈ hits, x.2.hits ≤ quota ∧ interest x.1 = true) ∧
      (replies keyspace requests).countP (passing quota key interest) ≤
        hits.length + (replies keyspace requests).countP (uncounted key interest) := by
  induction requests generalizing keyspace t with
  | nil => exact ⟨[], ⟨by simp, by simp, .nil⟩, by simp [Followed], by simp, Nat.zero_le _⟩
  | cons request rest ih =>
    obtain ⟨hsince, hascending⟩ := List.pairwise_cons.mp ascending
    have hnow : t ≤ request.now := hsince _ (by simp)
    have hown : request.limiter.windowMs = windowMs := common request List.mem_cons_self
    have hpositive : 1 ≤ windowMs := hown ▸ one_le_windowMs request.limiter
    have hsound := sound.mono hnow
    obtain ⟨hits, hrecorded, hfollowed, hbounded, hcount⟩ := ih (hsound.allow hown) hascending
      fun r hr => common r (List.mem_cons_of_mem _ hr)
    simp only [replies, List.countP_cons]
    by_cases hpassing : passing quota key interest (request, (request.eval keyspace).1) = true
    swap
    · refine ⟨hits, hrecorded, hfollowed.of_allow hsound hown, hbounded, ?_⟩
      rw [if_neg hpassing]
      omega
    simp only [passing, Bool.and_eq_true, decide_eq_true_eq] at hpassing
    obtain ⟨⟨⟨hquota, rfl⟩, hinterest⟩, hanswer⟩ := hpassing
    cases hreply : (request.eval keyspace).1 with
    | raises =>
      refine ⟨hits, hrecorded, hfollowed.of_allow hsound hown, hbounded, ?_⟩
      have huncounted : uncounted request.key interest (request, .raises) = true := by
        simp [uncounted, raised, hinterest]
      rw [if_pos huncounted]
      split_ifs <;> omega
    | count count =>
      rw [hreply] at hanswer
      obtain ⟨later, hscript, hafter⟩ := script_of_count hreply
      rw [Request.script, hown] at hscript
      obtain ⟨w, rfl, rfl, hcounted, hwithin, hfollows⟩ := exists_window hpositive hsound hscript
      have hheld : (request.allow keyspace).2 (fullKey request.key) = some (counted windowMs w) := by
        rw [hafter, Function.update_self]
      have hpermitted : (w.hits : ℤ) ≤ request.limiter.maxRequests := of_decide_eq_true hanswer
      refine ⟨(request.now, w) :: hits, ⟨?_, ?_, ?_⟩, ?_, ?_, ?_⟩
      · exact List.forall_mem_cons.mpr ⟨hwithin, hrecorded.within⟩
      · exact List.forall_mem_cons.mpr ⟨hcounted, hrecorded.numbered⟩
      · exact List.pairwise_cons.mpr ⟨hfollowed w hheld hcounted, hrecorded.ordered⟩
      · intro v held counted
        exact List.forall_mem_cons.mpr
          ⟨hfollows v held counted, hfollowed.of_allow hsound hown v held counted⟩
      · exact List.forall_mem_cons.mpr ⟨⟨by dsimp only; omega, hinterest⟩, hbounded⟩
      · rw [List.length_cons]
        split_ifs <;> omega

theorem Sound.after {t now : ℤ} (sound : Sound windowMs t keyspace)
    (ascending : (t :: requests.map Request.now).Pairwise (· ≤ ·))
    (common : ∀ request ∈ requests, request.limiter.windowMs = windowMs) (since : t ≤ now)
    (upTo : ∀ request ∈ requests, request.now ≤ now) :
    Sound windowMs now (after keyspace requests) := by
  induction requests generalizing keyspace t with
  | nil => exact sound.mono since
  | cons request rest ih =>
    obtain ⟨hsince, hascending⟩ := List.pairwise_cons.mp ascending
    have hnow : t ≤ request.now := hsince _ (by simp)
    exact ih ((sound.mono hnow).allow (common request List.mem_cons_self)) hascending
      (fun r hr => common r (List.mem_cons_of_mem _ hr)) (upTo request List.mem_cons_self)
      fun r hr => upTo r (List.mem_cons_of_mem _ hr)

private theorem initially_nonneg {t : ℤ} (sound : Sound windowMs t keyspace) :
    0 ≤ initially keyspace key := by
  unfold initially
  cases hheld : keyspace (fullKey key) with
  | none => exact le_rfl
  | some counter => exact sound.counting _ _ hheld

theorem countP_reaching_concat {request : Request} {interest : ℤ → Bool}
    (reached : request.delivery ≠ .unreached) (h : interest request.now = true) :
    (requests ++ [request]).countP (reaching request.key interest) =
      requests.countP (reaching request.key interest) + 1 := by
  rw [List.countP_append, List.countP_singleton]
  simp [reaching, h, reached]

private theorem countP_reaching_le {interest interest' : ℤ → Bool}
    (h : ∀ now, interest now = true → interest' now = true) :
    requests.countP (reaching key interest) ≤ requests.countP (reaching key interest') := by
  apply List.countP_mono_left
  intro request _ hreaching
  simp only [reaching, Bool.and_eq_true] at hreaching ⊢
  exact ⟨⟨hreaching.1.1, h _ hreaching.1.2⟩, hreaching.2⟩

/-- A counter has counted the requests since its window began, and what it started with; without
an end it is the one it started with. -/
structure Accounts (windowMs started : ℤ) (key : String) (requests : List Request)
    (counter : Counter) : Prop where
  value_le : counter.value ≤ started + requests.countP (reaching key fun now =>
    decide (∀ instant ∈ counter.expireAt, instant - windowMs ≤ now))
  endless : counter.expireAt = none → counter.value ≤ started

private theorem Accounts.concat {started : ℤ} {counter : Counter} (request : Request)
    (h : Accounts windowMs started key requests counter) :
    Accounts windowMs started key (requests ++ [request]) counter := by
  refine ⟨h.value_le.trans ?_, h.endless⟩
  rw [List.countP_append]
  omega

/-- The counter that a script leaves accounts for one request more. -/
theorem accounts_of_script {started count : ℤ} {request : Request} {later : Keyspace}
    {counter : Counter} (positive : 1 ≤ windowMs) (sound : Sound windowMs request.now keyspace)
    (nonneg : 0 ≤ started) (reached : request.delivery ≠ .unreached)
    (script : incrAndExpire keyspace request.now (fullKey request.key) windowMs = some (count, later))
    (accounts : ∀ old, keyspace (fullKey request.key) = some old →
      Accounts windowMs started request.key requests old)
    (held : later (fullKey request.key) = some counter) :
    Accounts windowMs started request.key (requests ++ [request]) counter := by
  rcases incrAndExpire_cases positive script with ⟨-, rfl, rfl⟩ | ⟨old, hlive, rfl, rfl⟩
  · rw [Function.update_self] at held
    obtain rfl := Option.some.inj held
    refine ⟨?_, fun h => nomatch h⟩
    rw [countP_reaching_concat reached (by simp)]
    dsimp only
    omega
  · rw [Function.update_self] at held
    obtain rfl := Option.some.inj held
    obtain ⟨hheld, -⟩ := live_eq_some.mp hlive
    obtain ⟨hvalue, hendless⟩ := accounts old hheld
    by_cases hrestart : old.value + 1 = 1 ∨ old.expireAt = none
    · refine ⟨?_, fun h => ?_⟩
      · rw [if_pos hrestart, countP_reaching_concat reached (by simp)]
        dsimp only
        rcases hrestart with hzero | hnone
        · omega
        · have := hendless hnone
          omega
      · rw [if_pos hrestart] at h
        cases h
    · have hstarted : ∀ instant ∈ old.expireAt, instant - windowMs ≤ request.now := by
        intro instant hinstant
        have := sound.bounded _ _ _ hheld hinstant
        omega
      rw [if_neg hrestart]
      refine ⟨?_, fun hnone => absurd (.inr hnone) hrestart⟩
      rw [countP_reaching_concat reached (decide_eq_true hstarted)]
      dsimp only
      omega

/-- Every counter accounts for the requests so far. -/
theorem accounts_of_after {t : ℤ} (sound : Sound windowMs t keyspace)
    (ascending : (t :: requests.map Request.now).Pairwise (· ≤ ·))
    (common : ∀ request ∈ requests, request.limiter.windowMs = windowMs) {counter : Counter}
    (held : after keyspace requests (fullKey key) = some counter) :
    Accounts windowMs (initially keyspace key) key requests counter := by
  induction requests using List.reverseRecOn generalizing counter with
  | nil =>
    have hinitially : initially keyspace key = counter.value := by
      have hheld : keyspace (fullKey key) = some counter := held
      rw [initially, hheld]
      rfl
    exact ⟨by simp [hinitially], fun _ => hinitially.ge⟩
  | append_singleton requests request ih =>
    obtain ⟨hsince, hascending⟩ := List.pairwise_cons.mp ascending
    rw [List.map_append, List.map_singleton] at hascending hsince
    obtain ⟨hfirst, -, hlast⟩ := List.pairwise_append.mp hascending
    have hbefore : (t :: requests.map Request.now).Pairwise (· ≤ ·) :=
      List.pairwise_cons.mpr ⟨fun now hnow => hsince now (List.mem_append_left _ hnow), hfirst⟩
    have hcommon : ∀ r ∈ requests, r.limiter.windowMs = windowMs := fun r hr =>
      common r (List.mem_append_left _ hr)
    have hown : request.limiter.windowMs = windowMs := common request (by simp)
    have hsound : Sound windowMs request.now (after keyspace requests) :=
      sound.after hbefore hcommon (hsince _ (by simp))
        fun r hr => hlast _ (List.mem_map_of_mem hr) _ (by simp)
    rw [after_append] at held
    change (request.allow (after keyspace requests)).2 (fullKey key) = some counter at held
    by_cases hkey : key = request.key
    swap
    · rw [allow_of_ne hkey] at held
      exact (ih hbefore hcommon held).concat request
    subst hkey
    rcases executed_cases (after keyspace requests) request with
      hsame | ⟨hreached, count, later, hscript, hafter⟩
    · rw [hsame] at held
      exact (ih hbefore hcommon held).concat request
    · rw [Request.script, hown] at hscript
      rw [hafter] at held
      exact accounts_of_script (hown ▸ one_le_windowMs _) hsound (initially_nonneg sound) hreached
        hscript (fun old hold => ih hbefore hcommon hold) held

/-- What a key is let through beyond its quota was let through without a count. -/
theorem budget_of_sound {t : ℤ} (sound : Sound windowMs t keyspace)
    (ascending : (t :: requests.map Request.now).Pairwise (· ≤ ·))
    (common : ∀ request ∈ requests, request.limiter.windowMs = windowMs)
    (quota : ℕ) (key : String) (began : ℤ) (n : ℕ) :
    (replies keyspace requests).countP
        (passing quota key fun now => decide (began ≤ now ∧ now < began + n * windowMs)) ≤
      (n + 1) * quota + (replies keyspace requests).countP
        (uncounted key fun now => decide (began ≤ now ∧ now < began + n * windowMs)) := by
  cases hrequests : requests with
  | nil => exact Nat.zero_le _
  | cons request rest =>
    rw [← hrequests]
    obtain ⟨hits, hrecorded, -, hbounded, hcount⟩ := exists_hits sound ascending common key
      quota fun now => decide (began ≤ now ∧ now < began + n * windowMs)
    have hpositive : 0 < windowMs := by
      have hown := common request (by simp [hrequests])
      have := one_le_windowMs request.limiter
      omega
    have hlength : hits.length ≤ (n + 1) * quota := by
      apply length_le_span hpositive hrecorded (fun x hx => (hbounded x hx).1) n (t := began)
      intro x hx
      rw [nsmul_eq_mul]
      exact of_decide_eq_true (hbounded x hx).2
    omega

/-- However the requests of any replicas interleave, the shared limit holds up to the requests
that no count was learned of, and each of these is counted. -/
theorem shared_limit_enforced {t : ℤ} (sound : Sound windowMs t keyspace)
    (ascending : (t :: requests.map Request.now).Pairwise (· ≤ ·))
    (common : ∀ request ∈ requests, request.limiter.windowMs = windowMs) :
    Shares windowMs keyspace requests := by
  constructor
  · exact budget_of_sound sound ascending common
  · intro quota key began n
    apply (budget_of_sound sound ascending common quota key began n).trans
    apply Nat.add_le_add_left
    apply List.countP_mono_left
    intro x _ huncounted
    simp only [uncounted, Bool.and_eq_true] at huncounted
    exact huncounted.2
  · rintro first request rest rfl hrefused
    obtain ⟨count, later, hscript, hafter, hcount⟩ := script_of_refused hrefused
    have hmem : request ∈ first ++ request :: rest := by simp
    have hcommon : ∀ r ∈ first ++ [request], r.limiter.windowMs = windowMs := by
      intro r hr
      apply common
      simp only [List.mem_append, List.mem_cons] at hr ⊢
      tauto
    have hascending : (t :: (first ++ [request]).map Request.now).Pairwise (· ≤ ·) := by
      refine List.Pairwise.sublist ?_ ascending
      simp
    obtain ⟨instant, hearly, hlater, -⟩ := incrAndExpire_expires (one_le_windowMs _) hscript
    have hheld : after keyspace (first ++ [request]) (fullKey request.key) =
        some ⟨count, some instant⟩ := by
      rw [after_append]
      change (request.allow (after keyspace first)).2 _ = _
      rw [hafter, hlater, Function.update_self]
    have hvalue : count ≤ _ := (accounts_of_after sound hascending hcommon hheld).value_le
    apply hcount.trans_le
    apply hvalue.trans
    apply Int.add_le_add_left
    rw [Nat.cast_le]
    apply countP_reaching_le
    intro now hstarted
    have := of_decide_eq_true hstarted instant rfl
    exact decide_eq_true (by omega)

end Sequence

/-- Of three calls the second is let through because its count is lost. -/
def withLoss : List Request :=
  [⟨oneEachSecond, "a", 0, .returned⟩, ⟨oneEachSecond, "a", 0, .lost⟩,
    ⟨oneEachSecond, "a", 0, .returned⟩]

theorem shared_limit_enforced_withLoss :
    answers (fun _ => none) withLoss = [true, true, false] ∧
      backendUnavailable (fun _ => none) withLoss = 1 ∧
      Shares oneEachSecond.windowMs (fun _ => none) withLoss :=
  ⟨by decide +kernel, by decide +kernel,
    shared_limit_enforced (sound_empty _ 0) (by decide) (by simp [withLoss])⟩

end PolicyModelRouter.SharedRateLimits
