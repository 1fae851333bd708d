import Mathlib.Algebra.Order.Ring.Rat
import PolicyModelRouter.DecidingPolicies
import PolicyModelRouter.InMemoryRateLimits
import PolicyModelRouter.RecordingSystems

/-!
# The server behind its rate limiters

The limiters of both tiers are part of the shared state, with the clock they read. Whatever
the order of the requests, a key passes its tier as often as its windows allow, is refused
only after that, and a request that was let through no limiter gets no decision.
-/

namespace PolicyModelRouter.ThrottledServer
open AuthorizationContract AwaitingPrograms HandlerRuns InterleavedPrograms OrderedDicts PythonText
open RecordingSystems RouteEndpoint RouteRuns RouterCalls RouterServer RoutingPolicyLoader RuntimeControl
open WireContracts
open InMemoryRateLimits (InMemoryRateLimiter Windows after outcomes passing)

/-- The host, what the clock of the limiters reads, and the windows of each tier. -/
structure Throttle where
  host : Host
  now : ℚ
  windows : Tier → Windows String ℚ

/-- A process just started. -/
def Throttle.initial (host : Host) (now : ℚ) : Throttle := ⟨host, now, fun _ => OrderedDict.empty⟩

/-- What the shared state answers: each limiter judges by its own windows. -/
def Throttling (limiter : Tier → InMemoryRateLimiter ℚ) (s : Throttle) :
    (call : Call) → Reply call → Throttle → Prop
  | .allow tier key, allowed, s' =>
    let answer := (limiter tier).allow (s.windows tier) ⟨key, s.now⟩
    allowed = answer.1 ∧ s' = { s with windows := Function.update s.windows tier answer.2 }
  | call, reply, s' => Answering s.host call reply s'.host ∧ s'.now = s.now ∧ s'.windows = s.windows

def tierOf : Call → Option Tier
  | .allow tier _ => some tier
  | _ => none

private theorem throttling_of_other {limiter : Tier → InMemoryRateLimiter ℚ} {s s' : Throttle}
    {c : Call}
    {r : Reply c} (h : Throttling limiter s c r s') (other : tierOf c = none) :
    Answering s.host c r s'.host ∧ s'.now = s.now ∧ s'.windows = s.windows := by
  cases c with
  | allow tier key => cases other
  | _ => exact h

/-- A limiter leaves the rest of the host alone. -/
theorem answering_of_throttling {limiter : Tier → InMemoryRateLimiter ℚ} {s s' : Throttle} {c : Call}
    {r : Reply c} (h : Throttling limiter s c r s') : Answering s.host c r s'.host := by
  cases c with
  | allow tier key =>
    obtain ⟨-, rfl⟩ := h
    rfl
  | _ => exact h.1

abbrev Outcome := InMemoryRateLimits.Call String ℚ × Bool

def judged (s : Throttle) (key : String) (allowed : Bool) : Outcome := (⟨key, s.now⟩, allowed)

def outcome (tier : Tier) (s : Throttle) : Event Reply → Multiset Outcome
  | ⟨.allow tier' key, allowed⟩ => if tier' = tier then {judged s key allowed} else 0
  | _ => 0

private theorem outcome_of_other {tier : Tier} {s : Throttle} {c : Call} (r : Reply c)
    (other : tierOf c = none) : outcome tier s ⟨c, r⟩ = 0 := by
  cases c with
  | allow tier' key => cases other
  | _ => rfl

def passed (tier : Tier) (key : String) (interest : ℚ → Bool) : Throttle × Event Reply → Bool
  | (s, ⟨.allow tier' key', allowed⟩) =>
    decide (tier' = tier) && passing key interest (judged s key' allowed)
  | _ => false

private theorem countP_outcome (tier : Tier) (key : String) (interest : ℚ → Bool)
    (x : Throttle × Event Reply) :
    (outcome tier x.1 x.2).countP (passing key interest · = true) =
      if passed tier key interest x then 1 else 0 := by
  obtain ⟨s, c, r⟩ := x
  cases c with
  | allow tier' key' =>
    by_cases htier : tier' = tier
    · simp [outcome, passed, htier, ← Multiset.cons_zero, Multiset.countP_cons]
    · simp [outcome, passed, htier]
  | _ => rfl

section Server

variable [UnicodeTables] [Cryptography] [JsonDecoder] [BodyParser] [PolicyLibraries]
variable {app : Application} {limiter : Tier → InMemoryRateLimiter ℚ}

def throttled (app : Application) (limiter : Tier → InMemoryRateLimiter ℚ) :
    System Throttle Task Call Reply Result where
  program := program app
  admits _ _ := True
  surroundings s s' :=
    (server app).surroundings s.host s'.host ∧ s.now ≤ s'.now ∧ s'.windows = s.windows
  serve := Throttling limiter

def passes (tier : Tier) (key : String) (interest : ℚ → Bool)
    (pool : Pool (throttled app limiter)) : ℕ :=
  (pool.processes.map fun p => p.log.countP (passed tier key interest)).sum

/-- The processes of a pool have called a tier for these keys only. -/
def CalledFor (tier : Tier) (keys : Finset String) (pool : Pool (throttled app limiter)) : Prop :=
  ∀ p ∈ pool.processes, ∀ s key allowed, (s, ⟨.allow tier key, allowed⟩) ∈ p.log → key ∈ keys

/-- What holds of the limiters at the end of a run, whatever its processes did: apart from
their answers it is a run of the server. -/
structure Throttles (host : Host) (ls : List (Label Task Reply))
    (pool : Pool (throttled app limiter)) : Prop where
  serves : Run (Step (server app)) (Pool.start _ host) ls (pool.forget Throttle.host rfl)
  budget : ∀ (tier : Tier) (keys : Finset String) (key : String) (t : ℚ) (n : ℕ),
    keys.card ≤ (limiter tier).maxTrackedKeys → CalledFor tier keys pool →
      passes tier key (fun now => decide (t ≤ now ∧ now < t + n • (limiter tier).windowSeconds)) pool ≤
        (n + 1) * (limiter tier).maxRequests
  refused : ∀ p ∈ pool.processes, ∀ s tier key, (s, ⟨.allow tier key, false⟩) ∈ p.log →
    (limiter tier).maxRequests ≤ passes tier key (fun now =>
      decide (s.now - (limiter tier).windowSeconds < now ∧ now ≤ s.now)) pool
  answered : ∀ p ∈ pool.processes, ∀ scope response, p.tag = .request scope →
    p.Finished (.response response) → response = tooManyRequests ∨
      ∃ s, (s, ⟨.allow .perIp ("ip:" ++ clientHost scope), true⟩) ∈ p.log
  decided : ∀ p ∈ pool.processes, ∀ scope decision, p.tag = .request scope →
    p.Finished (.response (.decision decision)) → ∃ s s' envelope,
      (s, ⟨.allow .perIp ("ip:" ++ clientHost scope), true⟩) ∈ p.log ∧
      (s', ⟨agentLimit scope envelope, true⟩) ∈ p.log ∧
      BodyParser.parse scope.headers (received (p.log.map Prod.snd)) = .admitted envelope

/-- The windows of a tier are those after the calls whose outcomes are these. -/
def StandsFor (limiter : Tier → InMemoryRateLimiter ℚ) (tier : Tier) (s : Throttle)
    (m : Multiset Outcome) : Prop :=
  ∃ calls, s.windows tier = after (limiter tier).allow OrderedDict.empty calls ∧
    m = (outcomes (limiter tier) calls : Multiset _) ∧
    (calls.map InMemoryRateLimits.Call.now).Pairwise (· ≤ ·) ∧ ∀ call ∈ calls, call.now ≤ s.now

omit [UnicodeTables] [Cryptography] [JsonDecoder] [BodyParser] [PolicyLibraries] in
/-- An answer leaves the windows of a tier standing for its outcome as well. -/
theorem standsFor_of_throttling {tier : Tier} {s s' : Throttle} {c : Call} {r : Reply c}
    {m : Multiset Outcome} (answer : Throttling limiter s c r s')
    (h : StandsFor limiter tier s m) : StandsFor limiter tier s' (m + outcome tier s ⟨c, r⟩) := by
  obtain ⟨calls, hwindows, rfl, hascending, hpast⟩ := h
  cases htier : tierOf c with
  | none =>
    obtain ⟨-, hnow, hsame⟩ := throttling_of_other answer htier
    rw [outcome_of_other r htier, add_zero]
    exact ⟨calls, by rw [hsame, hwindows], rfl, hascending, by rwa [hnow]⟩
  | some called =>
    cases c with
    | allow tier' key =>
      obtain ⟨rfl, rfl⟩ := answer
      by_cases hown : tier' = tier
      · subst hown
        refine ⟨calls ++ [⟨key, s.now⟩], ?_, ?_, ?_, ?_⟩
        · rw [InMemoryRateLimits.after_append, ← hwindows]
          exact Function.update_self ..
        · simp only [outcome, if_true]
          rw [InMemoryRateLimits.outcomes_append_singleton, ← hwindows, ← Multiset.coe_singleton,
            Multiset.coe_add]
          rfl
        · rw [List.map_append, List.pairwise_append]
          exact ⟨hascending, List.pairwise_singleton _ _, by simpa using hpast⟩
        · simpa [or_imp, forall_and] using hpast
      · refine ⟨calls, ?_, by simp [outcome, hown], hascending, hpast⟩
        rw [← hwindows]
        exact Function.update_of_ne (Ne.symm hown) ..
    | _ => cases htier

/-- At every moment the windows stand for what the logs hold. -/
theorem standsFor_of_run {host : Host} {now : ℚ} {ls : List (Label Task Reply)}
    {pool : Pool (throttled app limiter)} (tier : Tier)
    (h : Run (Step (throttled app limiter)) (Pool.start _ (.initial host now)) ls pool) :
    StandsFor limiter tier pool.shared (pool.processes.map (added (outcome tier))).sum := by
  have hmoves : ∀ s s' m, (throttled app limiter).surroundings s s' → StandsFor limiter tier s m →
      StandsFor limiter tier s' m := by
    rintro s s' m ⟨-, hnow, hsame⟩ ⟨calls, hwindows, hm, hascending, hpast⟩
    exact ⟨calls, by rw [hsame, hwindows], hm, hascending, fun call hcall => (hpast call hcall).trans hnow⟩
  have hstart : StandsFor limiter tier (Throttle.initial host now) 0 :=
    ⟨[], rfl, rfl, .nil, by simp⟩
  have hsum := summed_of_run (outcome tier) (StandsFor limiter tier) hmoves
    (fun _ _ _ _ _ answer held => standsFor_of_throttling answer held) hstart h
  rwa [zero_add] at hsum

/-- The windows have let pass what the logs say they have. -/
theorem passes_eq (tier : Tier) (key : String) (interest : ℚ → Bool)
    (pool : Pool (throttled app limiter)) : passes tier key interest pool =
      (pool.processes.map (added (outcome tier))).sum.countP (passing key interest · = true) := by
  rw [passes, countP_sum]
  simp only [countP_added (countP_outcome tier key interest)]

theorem mem_added {tier : Tier} {p : Process (throttled app limiter)}
    {call : InMemoryRateLimits.Call String ℚ} {allowed : Bool} :
    (call, allowed) ∈ added (outcome tier) p ↔
      ∃ s, s.now = call.now ∧ (s, ⟨.allow tier call.key, allowed⟩) ∈ p.log := by
  rw [added, mem_sum]
  constructor
  · rintro ⟨⟨s, c, r⟩, hx, hmem⟩
    cases htier : tierOf c with
    | none =>
      rw [outcome_of_other r htier] at hmem
      cases hmem
    | some called =>
      cases c with
      | allow tier' key =>
        simp only [outcome] at hmem
        split_ifs at hmem with hown
        · subst hown
          obtain ⟨rfl, rfl⟩ := Prod.mk.inj (Multiset.mem_singleton.mp hmem)
          exact ⟨s, rfl, hx⟩
        · cases hmem
      | _ => cases htier
  · rintro ⟨s, hnow, hx⟩
    refine ⟨_, hx, ?_⟩
    simp [outcome, judged, hnow]

omit [PolicyLibraries] in
/-- Whatever a request is answered, its host was judged first. -/
theorem judged_of_completes {scope : RouteScope} {es : List (Event Reply)} {response : Response}
    (h : Completes (postRoute app scope) es response) :
    response = tooManyRequests ∨ ⟨.allow .perIp ("ip:" ++ clientHost scope), true⟩ ∈ es := by
  obtain ⟨_, _, r, rfl, hserve, hdone⟩ := completes_bind_iff.mp h
  obtain ⟨rfl, rfl⟩ := (completes_done_iff _ _ _).mp hdone
  rcases completes_run_bind.mp hserve with ⟨_, -, hraises⟩ | ⟨bound, rest, _, rfl, -, hrest⟩
  · exact absurd hraises not_raises_bindCorrelationId
  unfold bodySizeAndIpRateLimit at hrest
  rcases completes_run_bind.mp hrest with ⟨_, -, hraises⟩ | ⟨_, after, allowed, rfl, hask, hafter⟩
  · exact absurd hraises not_raises_ask
  obtain rfl := returns_ask.mp hask
  cases allowed with
  | false =>
    obtain ⟨-, rfl⟩ := (completes_run_pure _ _).mp hafter
    exact .inl rfl
  | true => exact .inr (by simp)

omit [PolicyLibraries] in
/-- A decision has let its agent pass too. -/
theorem admitted_of_decision {scope : RouteScope} {es : List (Event Reply)}
    {decision : ModelRouteDecision} (h : Completes (postRoute app scope) es (.decision decision)) :
    ∃ envelope, ⟨agentLimit scope envelope, true⟩ ∈ es ∧
      BodyParser.parse scope.headers (received es) = .admitted envelope := by
  obtain ⟨before, handled, useCase, envelope, correlationId, rfl, hreaches, hreturned⟩ :=
    returned_of_decision h
  have hinside : ∀ e ∈ handled, Inside e.1 :=
    Completes.each_call hreturned Inside fun _ _ h => inside_of_issues h
  obtain ⟨admitted, _, _, _, rfl, hadmitted, -⟩ := returns_route hreturned
  obtain ⟨_, rfl, -⟩ := returns_admitRequest hadmitted
  refine ⟨envelope, by simp, ?_⟩
  rw [received_append, received_inside hinside, List.append_nil]
  exact hreaches.parsed

private theorem completes_of_forgotten {p : Process (throttled app limiter)} {scope : RouteScope}
    {response : Response} (request : p.tag = .request scope)
    (finished : p.Finished (.response response)) :
    Completes (postRoute app scope) (p.log.map Prod.snd) response := by
  let q : Process (server app) := p.forget Throttle.host rfl
  have hfinished : q.Finished (.response response) := finished
  have hlog : q.log.map Prod.snd = p.log.map Prod.snd := List.map_map ..
  exact hlog ▸ DecidingPolicies.completes_of_finished request hfinished

omit [UnicodeTables] [Cryptography] [JsonDecoder] [BodyParser] [PolicyLibraries] in
theorem exists_stamp {log : List (Throttle × Event Reply)} {e : Event Reply}
    (h : e ∈ log.map Prod.snd) : ∃ s, (s, e) ∈ log := by
  obtain ⟨x, hx, rfl⟩ := List.mem_map.mp h
  exact ⟨x.1, hx⟩

/-- However the requests interleave, the limiters enforce their budgets and nothing else. -/
theorem limits_enforced (positive : ∀ tier, 0 < (limiter tier).windowSeconds) {host : Host} {now : ℚ}
    {ls : List (Label Task Reply)} {pool : Pool (throttled app limiter)}
    (h : Run (Step (throttled app limiter)) (Pool.start _ (.initial host now)) ls pool) :
    Throttles host ls pool := by
  have hmoves : ∀ s s', (throttled app limiter).surroundings s s' →
      (server app).surroundings s.host s'.host := fun _ _ move => move.1
  refine ⟨run_forget Throttle.host rfl hmoves (fun _ _ _ => trivial)
    (fun _ _ _ _ answer => answering_of_throttling answer) h, ?_, ?_, ?_, ?_⟩
  · intro tier keys key t n fits called
    obtain ⟨calls, -, hcalls, hascending, -⟩ := standsFor_of_run tier h
    have hkeys : (calls.map InMemoryRateLimits.Call.key).toFinset ⊆ keys := by
      intro k hk
      obtain ⟨call, hcall, rfl⟩ := List.mem_map.mp (List.mem_toFinset.mp hk)
      rw [← InMemoryRateLimits.map_call_outcomes (limiter tier) calls] at hcall
      obtain ⟨⟨_, allowed⟩, hx, rfl⟩ := List.mem_map.mp hcall
      rw [← Multiset.mem_coe, ← hcalls, mem_sum] at hx
      obtain ⟨p, hp, hadded⟩ := hx
      obtain ⟨s, -, hlog⟩ := mem_added.mp hadded
      exact called p hp s _ allowed hlog
    have hfits : (calls.map InMemoryRateLimits.Call.key).dedup.length ≤
        (limiter tier).maxTrackedKeys :=
      (Finset.card_le_card hkeys).trans fits
    rw [passes_eq, hcalls, Multiset.coe_countP]
    simpa using InMemoryRateLimits.countP_passing_le (positive tier) hfits hascending t n
  · intro p hp s tier key hlog
    obtain ⟨calls, -, hcalls, hascending, -⟩ := standsFor_of_run tier h
    have hrefused : ((⟨key, s.now⟩, false) : Outcome) ∈ outcomes (limiter tier) calls := by
      rw [← Multiset.mem_coe, ← hcalls, mem_sum]
      exact ⟨p, hp, mem_added.mpr ⟨s, rfl, hlog⟩⟩
    rw [passes_eq, hcalls, Multiset.coe_countP]
    simpa using InMemoryRateLimits.le_countP_of_refused hascending hrefused
  · intro p hp scope response request finished
    exact (judged_of_completes (completes_of_forgotten request finished)).imp_right exists_stamp
  · intro p hp scope decision request finished
    have hcompletes := completes_of_forgotten request finished
    rcases judged_of_completes hcompletes with hlimited | hjudged
    · cases hlimited
    obtain ⟨envelope, hagent, hparsed⟩ := admitted_of_decision hcompletes
    obtain ⟨s, hs⟩ := exists_stamp hjudged
    obtain ⟨s', hs'⟩ := exists_stamp hagent
    exact ⟨s, s', envelope, hs, hs', hparsed⟩

end Server

namespace Deployed

open AuthorizedDecisions.Deployed (application parser route)
open RoutingPolicyLoader.Deployed (libraries)
open RoutingSpecification.Deployed (useCase)
open VerificationSpecification.Deployed (decoder genuine)

def limits (_ : Tier) : InMemoryRateLimiter ℚ := ⟨1, 60, 1⟩

def host : Host := ⟨.unreadable, useCase, 0⟩

abbrev system : System Throttle Task Call Reply (@Result genuine) :=
  @throttled asciiTables genuine decoder parser libraries application limits

def first : InMemoryRateLimits.Call String ℚ := ⟨"ip:10.0.0.1", 0⟩

def opened : Bool × Windows String ℚ := (limits .perIp).allow OrderedDict.empty first

def once : Throttle :=
  { Throttle.initial host 0 with
    windows := Function.update (Throttle.initial host 0).windows .perIp opened.2 }

/-- Of two requests from one address the second is refused. -/
theorem exists_run : ∃ ls pool p, Run (Step system) (Pool.start _ (.initial host 0)) ls pool ∧
    p ∈ pool.processes ∧ p.Finished (@Result.response genuine (@tooManyRequests genuine)) ∧
    (once, ⟨.allow .perIp "ip:10.0.0.1", false⟩) ∈ p.log := by
  obtain ⟨k, hprogram, hrefused⟩ : ∃ k, system.program (.request route) =
      .await (.allow .perIp "ip:10.0.0.1") k ∧
        k false = .done (@Result.response genuine (@tooManyRequests genuine)) := ⟨_, rfl, rfl⟩
  have hopened : opened.1 = true := by decide +kernel
  have hclosed : ((limits .perIp).allow opened.2 first).1 = false := by decide +kernel
  have hpasses : Amid system (.initial host 0)
      [(.initial host 0, ⟨.allow .perIp "ip:10.0.0.1", true⟩)] once :=
    .answer ⟨hopened.symm, rfl⟩ (.nil _)
  have hstays : Amid system once [(once, ⟨.allow .perIp "ip:10.0.0.1", false⟩)] _ :=
    .answer ⟨hclosed.symm, rfl⟩ (.nil _)
  have hreads : Advances (system.program (.request route)) [⟨.allow .perIp "ip:10.0.0.1", true⟩]
      (k true) := hprogram ▸ .await (.refl _)
  have hcompletes : Completes (system.program (.request route))
      [⟨.allow .perIp "ip:10.0.0.1", false⟩] (@Result.response genuine (@tooManyRequests genuine)) :=
    hprogram ▸ .await (hrefused ▸ .done _)
  obtain ⟨_, p, hrun, -⟩ := run_resumed hpasses [] (Process.launched system (.request route)) hreads
  obtain ⟨_, q, hagain, -, hlog, hfinished⟩ := run_alone hstays [p] trivial hcompletes
  exact ⟨_, _, q, (Run.cons (.launch trivial) hrun).trans hagain, by simp, hfinished, by simp [hlog]⟩

end Deployed

open AuthorizedDecisions.Deployed (application parser)
open RoutingPolicyLoader.Deployed (libraries)
open VerificationSpecification.Deployed (decoder genuine)

theorem limits_enforced_two_requests : ∃ ls pool,
    @Throttles asciiTables genuine decoder parser libraries application Deployed.limits Deployed.host
      ls pool ∧ ∃ p ∈ pool.processes,
        p.Finished (@Result.response genuine (@tooManyRequests genuine)) := by
  obtain ⟨ls, pool, p, hrun, hp, hfinished, -⟩ := Deployed.exists_run
  have hpositive : ∀ tier, 0 < (Deployed.limits tier).windowSeconds := fun _ => by norm_num [Deployed.limits]
  exact ⟨ls, pool, @limits_enforced asciiTables genuine decoder parser libraries application _ hpositive
    _ _ _ _ hrun, p, hp, hfinished⟩

end PolicyModelRouter.ThrottledServer
