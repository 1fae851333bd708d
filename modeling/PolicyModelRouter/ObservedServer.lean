import Mathlib.Data.Finset.Card
import PolicyModelRouter.RecordedVerdicts
import PolicyModelRouter.RecordingSystems
import PolicyModelRouter.RouterServer

/-!
# The counters of the running server

All requests and reloads of one process count into the same counters. No increment is lost
or made twice, whatever the interleaving, and the series that ever appear are those of the
policies that were served.
-/

namespace PolicyModelRouter.ObservedServer
open AnnotatedPrograms AuthorizationContract AwaitingPrograms InterleavedPrograms ObservedRequests
open PolicyReload PythonText RecordedVerdicts RecordingSystems RequestRecords RouteEndpoint RouteRuns
open RouterCalls RouterServer RoutingPolicyLoader RuntimeControl TrustedKeys
open ViolationContract
open RoutingCatalog hiding RejectedCandidate

section Server

variable [UnicodeTables] [Cryptography] [JsonDecoder] [BodyParser] [PolicyLibraries]
variable {app : Application}

/-- What is left of an observed reload. It is counted before it is logged, and the line of a
failure names the policy that is active then. -/
def observedCompletion (app : Application) : Except PyException RoutingPolicy →
    Async (Annotated Call Observation) (Answer Observation Reply) Reload
  | .ok policy => .await (.call (.swapUseCase (newUseCase app policy))) fun _ =>
    .await (.note (.policyReload true)) fun _ =>
    .await (.note (.log (.reloaded policy.policyId policy.policyVersion policy.policyDigest))) fun _ =>
    .done ⟨.ok true, [.succeeded]⟩
  | .error .routingPolicyLoad => .await (.note (.policyReload false)) fun _ =>
    .await (.call .activeUseCase) fun retained =>
    .await (.note (.log (.reloadFailed (RouteModelUseCase.policy retained).policyDigest))) fun _ =>
    .done ⟨.ok false, [.failed]⟩
  | .error e => .done ⟨.error e, []⟩

def observedReload (app : Application) :
    Async (Annotated Call Observation) (Answer Observation Reply) Reload :=
  .await (.call .readPolicyFile) fun file => observedCompletion app (loadRoutingPolicy file)

def observedProgram (app : Application) :
    Task → Async (Annotated Call Observation) (Answer Observation Reply) Result
  | .request scope => observedPostRoute app scope >>= fun response => .done (.response response)
  | .reload => observedReload app >>= fun reload => .done (.reload reload)

omit [UnicodeTables] [JsonDecoder] [BodyParser] in
private theorem erase_observedReload : erase (observedReload app) = reloadRoutingPolicy app := by
  have hcompletion : ∀ loaded, erase (observedCompletion app loaded) = completeReload app loaded := by
    intro loaded
    cases loaded with
    | ok policy => rfl
    | error e => cases e <;> rfl
  exact congrArg _ (funext fun file => hcompletion (loadRoutingPolicy file))

theorem erase_observedProgram (task : Task) :
    erase (observedProgram app task) = (server app).program task := by
  cases task with
  | request scope =>
    change erase (observedPostRoute app scope >>= _) = _
    rw [erase_bind, erase_observedPostRoute]
    rfl
  | reload =>
    change erase (observedReload app >>= _) = _
    rw [erase_bind, erase_observedReload]
    rfl

/-- The server with its counters and its log. -/
abbrev observedServer (app : Application) :
    System (Host × Multiset Observation) Task (Annotated Call Observation)
      (Answer Observation Reply) Result :=
  recording (server app) (observedProgram app)

def reloadLine : Event Reply → Option Observation
  | ⟨.swapUseCase next, _⟩ => some (.log
      (.reloaded next.policy.policyId next.policy.policyVersion next.policy.policyDigest))
  | ⟨.activeUseCase, retained⟩ =>
    some (.log (.reloadFailed (RouteModelUseCase.policy retained).policyDigest))
  | _ => none

/-- The record of a reload, from what it was answered and from what it returned. -/
def reloadRecord (cs : List (Event Reply)) (reload : Reload) : List Observation :=
  match reload.returned with
  | .ok succeeded => .policyReload succeeded :: cs.filterMap reloadLine
  | .error _ => []

def recordOfTask (app : Application) : Task → List (Event Reply) → Result → List Observation
  | .request scope, cs, .response response => recordOf app scope cs response
  | .reload, cs, .reload reload => reloadRecord cs reload
  | _, _, _ => []

def isFailure : Result → Bool
  | .response .internalServerError => true
  | .response .aborted => true
  | _ => false

/-- The series of which a failure leaves open whether they were counted before. -/
def leftOpen : Observation → Bool
  | .rateLimitDecision _ _ => false
  | .runtimeAuthorization .verified => false
  | .runtimeViolation _ _ => false
  | .policyReload _ => false
  | _ => true

/-- Notes have a series at most once, and exactly as often as expected unless it is left open. -/
structure Counts (n : Observation) (ns expected : List Observation) (isOpen : Bool) : Prop where
  once : ns.count n ≤ 1
  expected_le : expected.count n ≤ ns.count n
  settled : isOpen = false → ns.count n = expected.count n

omit [UnicodeTables] [JsonDecoder] [BodyParser] [PolicyLibraries] in
private theorem escaped_of_isFailure {response : Response} (h : isFailure (.response response) = true) :
    Escaped response := by
  cases response with
  | internalServerError => exact ⟨.overflow, rfl⟩
  | aborted => exact ⟨.cancelled, rfl⟩
  | _ => cases h

omit [UnicodeTables] [JsonDecoder] [BodyParser] [PolicyLibraries] in
private theorem isFailure_of_escaped {response : Response} (h : Escaped response) :
    isFailure (.response response) = true := by
  rcases h.eq_or with rfl | rfl <;> rfl

omit [JsonDecoder] [PolicyLibraries] in
/-- A request counts its response: a failure has counted all that answers decide, and no evidence. -/
theorem counts_of_recorded {scope : RouteScope} {es : List (Event (Answer Observation Reply))}
    {response : Response} (told : Told es) (recorded : Recorded app scope es response)
    (n : Observation) : Counts n (notes es) (recordOf app scope (calls es) response)
      (isFailure (.response response) && leftOpen n) := by
  have hagrees := agrees_of_recorded told recorded
  have honce := List.nodup_iff_count_le_one.mp hagrees.once n
  cases hfailure : isFailure (.response response) with
  | false =>
    have hsettled := hagrees.settled fun h => nomatch hfailure.symm.trans (isFailure_of_escaped h)
    exact ⟨honce, by rw [← hsettled], fun _ => by rw [← hsettled]⟩
  | true =>
    have hescaped := escaped_of_isFailure hfailure
    have hanswers : recordOf app scope (calls es) response = (notes es).filter decidedByAnswer := by
      rw [← told]
      apply recordOf_eq_answers
      intro useCase workload
      rcases hescaped.eq_or with rfl | rfl <;> rfl
    rw [hanswers]
    refine ⟨honce, List.filter_sublist.count_le n, fun hopen => ?_⟩
    by_cases hdecided : decidedByAnswer n = true
    · exact (List.count_filter hdecided).symm
    · -- what no answer decides and is not left open is not in the record
      have habsent : n ∉ notes es := by
        intro hn
        cases n with
        | runtimeViolation category code =>
          have hevidence : (category, code) ∈ (notes es).filterMap evidenceOf :=
            List.mem_filterMap.mpr ⟨_, hn, rfl⟩
          rw [hagrees.evidence, answeredEvidence_of_escaped hescaped] at hevidence
          cases hevidence
        | policyReload succeeded =>
          rcases source_of_recorded recorded (List.append_nil _).symm hn with ⟨_, h⟩ | ⟨_, -, h⟩
          · cases h
          · exact h
        | rateLimitDecision => exact hdecided rfl
        | runtimeAuthorization outcome => cases outcome <;> first | exact hdecided rfl | cases hopen
        | _ => cases hopen
      have hfilter : n ∉ (notes es).filter decidedByAnswer := fun h => habsent (List.mem_of_mem_filter h)
      rw [List.count_eq_zero_of_not_mem habsent, List.count_eq_zero_of_not_mem hfilter]

/-- A finished reload has noted what it returned, and nothing twice. -/
theorem notes_of_reload {es : List (Event (Answer Observation Reply))} {result : Result}
    (h : Completes (observedProgram app .reload) es result) :
    ∃ reload, result = .reload reload ∧ notes es = reloadRecord (calls es) reload ∧
      (notes es).Nodup := by
  obtain ⟨_, _, reload, rfl, hobserved, hdone⟩ := completes_bind_iff.mp h
  obtain ⟨rfl, rfl⟩ := (completes_done_iff _ _ _).mp hdone
  refine ⟨reload, rfl, ?_⟩
  rw [List.append_nil]
  obtain ⟨file, _, rfl, hrest⟩ := completes_await_iff.mp hobserved
  cases hload : loadRoutingPolicy file with
  | ok policy =>
    rw [hload] at hrest
    obtain ⟨_, _, rfl, hcounted⟩ := completes_await_iff.mp hrest
    obtain ⟨_, _, rfl, hlogged⟩ := completes_await_iff.mp hcounted
    obtain ⟨_, _, rfl, hreturned⟩ := completes_await_iff.mp hlogged
    obtain ⟨rfl, rfl⟩ := (completes_done_iff _ _ _).mp hreturned
    exact ⟨rfl, by simp [notes]⟩
  | error e =>
    rw [hload] at hrest
    cases e with
    | routingPolicyLoad =>
      obtain ⟨_, _, rfl, hretained⟩ := completes_await_iff.mp hrest
      obtain ⟨_, _, rfl, hlogged⟩ := completes_await_iff.mp hretained
      obtain ⟨_, _, rfl, hreturned⟩ := completes_await_iff.mp hlogged
      obtain ⟨rfl, rfl⟩ := (completes_done_iff _ _ _).mp hreturned
      exact ⟨rfl, by simp [notes]⟩
    | _ =>
      obtain ⟨rfl, rfl⟩ := (completes_done_iff _ _ _).mp hrest
      exact ⟨rfl, .nil⟩

private theorem recorded_of_request {scope : RouteScope} {es : List (Event (Answer Observation Reply))}
    {result : Result} (h : Completes (observedProgram app (.request scope)) es result) :
    ∃ response, result = .response response ∧ Told es ∧ Recorded app scope es response := by
  obtain ⟨_, _, response, rfl, hroute, hdone⟩ := completes_bind_iff.mp h
  obtain ⟨rfl, rfl⟩ := (completes_done_iff _ _ _).mp hdone
  rw [List.append_nil]
  exact ⟨response, rfl, recorded_of_completes hroute⟩

private theorem counts_of_completes {task : Task} {es : List (Event (Answer Observation Reply))}
    {result : Result} (h : Completes (observedProgram app task) es result) (n : Observation) :
    Counts n (notes es) (recordOfTask app task (calls es) result) (isFailure result && leftOpen n) := by
  cases task with
  | request scope =>
    obtain ⟨response, rfl, htold, hrecorded⟩ := recorded_of_request h
    exact counts_of_recorded htold hrecorded n
  | reload =>
    obtain ⟨reload, rfl, hnotes, hnodup⟩ := notes_of_reload h
    exact ⟨List.nodup_iff_count_le_one.mp hnodup n, hnotes ▸ le_rfl, fun _ => hnotes ▸ rfl⟩

/-- How often a finished process has counted a series, by its result. -/
def expectedOf (n : Observation) (p : Process (observedServer app)) : ℕ :=
  match p.rest with
  | .done result => (recordOfTask app p.tag (calls (p.log.map Prod.snd)) result).count n
  | .await _ _ => 0

def openFor (n : Observation) (p : Process (observedServer app)) : Bool :=
  match p.rest with
  | .done result => isFailure result && leftOpen n
  | .await _ _ => true

omit [UnicodeTables] [Cryptography] [JsonDecoder] [BodyParser] [PolicyLibraries] in
private theorem nonempty_answer (c : Annotated Call Observation) : Nonempty
    (Answer Observation Reply c) := by
  cases c with
  | call c => exact ⟨AuthorizedDecisions.Deployed.answer c⟩
  | note n => exact ⟨()⟩

/-- What a process has counted, against what it has come to. -/
theorem counts_of_process (p : Process (observedServer app)) (n : Observation) :
    expectedOf n p ≤ (notedBy p).count n ∧
      (notedBy p).count n ≤ expectedOf n p + (openFor n p).toNat := by
  cases hrest : p.rest with
  | done result =>
    have hfinished : p.Finished result := hrest
    have hcounts := counts_of_completes hfinished.completes n
    simp only [expectedOf, openFor, hrest]
    refine ⟨hcounts.expected_le, ?_⟩
    cases hopen : isFailure result && leftOpen n with
    | false => exact (hcounts.settled hopen).le
    | true => exact hcounts.once.trans (Nat.le_add_left _ _)
  | await c k =>
    have := nonempty_answer
    obtain ⟨rest, result, hcompletes⟩ := log_begins p
    have honce := (counts_of_completes hcompletes n).once
    rw [notes_append, List.count_append] at honce
    simp only [expectedOf, openFor, hrest, notedBy, Bool.toNat_true]
    omega

/-- The policy was active at first, or was swapped in on the way. -/
def ServedSince (host : Host) (pool : Pool (server app)) (policy : RoutingPolicy) : Prop :=
  policy = host.useCase.policy ∨ ∃ p ∈ pool.processes, ∃ s next,
    (s, ⟨.swapUseCase next, ()⟩) ∈ p.log ∧ policy = next.policy

private theorem servedSince_step {host : Host} {a b : Pool (server app)} {l : Label Task Reply}
    (h : Step (server app) a l b) {policy : RoutingPolicy} (served : ServedSince host a policy) :
    ServedSince host b policy := by
  refine served.imp_right fun hswapped => some_process h (fun p => ∃ s next,
    (s, ⟨.swapUseCase next, ()⟩) ∈ p.log ∧ policy = next.policy) ?_ hswapped
  rintro p c k r suspended - ⟨s, next, hmem, hpolicy⟩
  exact ⟨s, next, List.mem_append_left _ hmem, hpolicy⟩

/-- The active policy is served at any moment, and so is the policy of every use case that a
request has resolved. -/
theorem servedSince_of_run {host : Host} {ls : List (Label Task Reply)} {pool : Pool (server app)}
    (h : Run (Step (server app)) (Pool.start _ host) ls pool) :
    ServedSince host pool pool.shared.useCase.policy ∧ ∀ p ∈ pool.processes, ∀ x ∈ p.log,
      ∀ useCase, x.2 = ⟨.activeUseCase, useCase⟩ → ServedSince host pool useCase.policy := by
  refine h.invariant (fun pool => ServedSince host pool pool.shared.useCase.policy ∧
    ∀ p ∈ pool.processes, ∀ x ∈ p.log, ∀ useCase, x.2 = ⟨.activeUseCase, useCase⟩ →
      ServedSince host pool useCase.policy) ⟨.inl rfl, by simp [Pool.start]⟩ ?_
  rintro a l b ⟨hactive, hresolved⟩ hstep
  have hkept : ∀ policy, ServedSince host a policy → ServedSince host b policy :=
    fun _ => servedSince_step hstep
  constructor
  · cases hstep with
    | surroundings move =>
      rw [move.1]
      exact hkept _ hactive
    | launch admitted => exact hkept _ hactive
    | @serve s s' ps i p c k r pending suspended answer =>
      by_cases hswap : ∃ next, c = .swapUseCase next
      · obtain ⟨next, rfl⟩ := hswap
        obtain ⟨hlt, -⟩ := List.getElem?_eq_some_iff.mp pending
        rw [show s' = { s with useCase := next } from answer]
        exact .inr ⟨_, List.mem_set hlt _, s, next, List.mem_append_right _ List.mem_cons_self, rfl⟩
      · rw [useCase_of_answering answer (not_exists.mp hswap)]
        exact hkept _ hactive
  · refine each_answer hstep (fun _ _ e _ => ∀ useCase, e = ⟨.activeUseCase, useCase⟩ →
      ServedSince host b useCase.policy) (fun p hp x hx useCase h => hkept _ (hresolved p hp x hx useCase h))
      (fun _ _ _ _ h => h) (fun _ _ _ _ _ _ h => h) ?_
    rintro i p c k r - - - answer useCase ⟨⟩
    have hsame : useCase = a.shared.useCase := answer.1
    rw [hsame]
    exact hkept _ hactive

/-- The observations that no policy is behind. -/
def Unrouted (n : Observation) : Prop :=
  (∃ allowed, n = .rateLimitDecision .perIp allowed) ∨ (∃ succeeded, n = .policyReload succeeded) ∨
    ∃ line, n = .log line

/-- Whatever a program has noted at any time is a series of a policy it has resolved by then,
or no policy is behind it. -/
theorem source_of_completes {task : Task} {seen rest : List (Event (Answer Observation Reply))}
    {result : Result} (h : Completes (observedProgram app task) (seen ++ rest) result)
    {n : Observation} (noted : n ∈ notes seen) :
    Unrouted n ∨ ∃ useCase, ⟨.activeUseCase, useCase⟩ ∈ calls seen ∧ Series useCase.policy n := by
  cases task with
  | request scope =>
    obtain ⟨response, rfl, -, hrecorded⟩ := recorded_of_request h
    exact (source_of_recorded hrecorded rfl noted).imp_left .inl
  | reload =>
    obtain ⟨⟨returned, counted⟩, rfl, hnotes, -⟩ := notes_of_reload h
    have hn : n ∈ reloadRecord (calls (seen ++ rest)) ⟨returned, counted⟩ := by
      rw [← hnotes, notes_append]
      exact List.mem_append_left _ noted
    cases returned with
    | ok succeeded =>
      rcases List.mem_cons.mp hn with rfl | hline
      · exact .inl (.inr (.inl ⟨succeeded, rfl⟩))
      · obtain ⟨⟨c, reply⟩, -, hline⟩ := List.mem_filterMap.mp hline
        cases c with
        | swapUseCase next => exact .inl (.inr (.inr ⟨_, (Option.some.inj hline).symm⟩))
        | activeUseCase => exact .inl (.inr (.inr ⟨_, (Option.some.inj hline).symm⟩))
        | _ => cases hline
    | error e => cases hn

/-- Whatever is recorded was there at first, or is a series of a policy that was served, or no
policy is behind it. -/
theorem series_of_run {host : Host} {record : Multiset Observation}
    {ls : List (Label Task (Answer Observation Reply))} {pool : Pool (observedServer app)}
    (h : Run (Step (observedServer app)) (Pool.start _ (host, record)) ls pool)
    {n : Observation} (counted : n ∈ pool.shared.2) :
    n ∈ record ∨ Unrouted n ∨
      ∃ policy, ServedSince host (plainPool erase_observedProgram pool) policy ∧ Series policy n := by
  refine ((mem_record h).mp counted).imp_right ?_
  rintro ⟨p, hp, hn⟩
  have := nonempty_answer
  obtain ⟨rest, result, hcompletes⟩ := log_begins p
  refine (source_of_completes hcompletes hn).imp_right ?_
  rintro ⟨useCase, hresolved, hseries⟩
  obtain ⟨s, hs⟩ := mem_plainLog hresolved
  obtain ⟨-, hserved⟩ := servedSince_of_run (plain_of_run erase_observedProgram h)
  exact ⟨useCase.policy, hserved _ (List.mem_map_of_mem hp) _ hs useCase rfl, hseries⟩

def workloadLabelOf : Observation → Option String
  | .routeDecision workload _ => some workload
  | .routeRejection workload _ => some workload
  | .routeDuration workload => some workload
  | _ => none

def decisionLabelsOf : Observation → Option (String × String)
  | .routeDecision workload modelGroup => some (workload, modelGroup)
  | _ => none

def mappings (policies : List RoutingPolicy) : List (String × String) :=
  policies.flatMap fun policy => policy.workloads.entries.map fun entry =>
    (entry.1.value, entry.2.modelGroup.value)

omit [UnicodeTables] [Cryptography] [JsonDecoder] [BodyParser] [PolicyLibraries] in
theorem mem_mappings {policies : List RoutingPolicy} {policy : RoutingPolicy} (h : policy ∈ policies)
    {workload : GovernedVocabularies.WorkloadId} {rule : WorkloadRule}
    (mapped : policy.workloads.lookup workload = some rule) :
    (workload.value, rule.modelGroup.value) ∈ mappings policies :=
  List.mem_flatMap.mpr ⟨policy, h, List.mem_map.mpr ⟨⟨workload, rule⟩, AList.mem_lookup_iff.mp mapped, rfl⟩⟩

omit [UnicodeTables] [Cryptography] [JsonDecoder] [BodyParser] [PolicyLibraries] in
theorem workloadLabel_of_series {policies : List RoutingPolicy} {policy : RoutingPolicy}
    (h : policy ∈ policies) {n : Observation} (series : Series policy n) {label : String}
    (labelled : workloadLabelOf n = some label) :
    label ∈ undeclaredWorkloadLabel :: (mappings policies).map Prod.fst := by
  have hdeclared : ∀ workload ∈ policy.workloads,
      workload.value ∈ undeclaredWorkloadLabel :: (mappings policies).map Prod.fst := by
    intro workload hworkload
    obtain ⟨rule, hrule⟩ := Option.isSome_iff_exists.mp (AList.lookup_isSome.mpr hworkload)
    exact List.mem_cons_of_mem _ (List.mem_map.mpr ⟨_, mem_mappings h hrule, rfl⟩)
  cases n with
  | routeDecision =>
    cases labelled
    obtain ⟨workload, rule, hmapped, rfl, -⟩ := series
    exact List.mem_cons_of_mem _ (List.mem_map.mpr ⟨_, mem_mappings h hmapped, rfl⟩)
  | routeRejection _ outcome =>
    cases labelled
    cases outcome with
    | noViableModelGroup =>
      obtain ⟨workload, hworkload, rfl⟩ := series
      exact hdeclared workload hworkload
    | misconfiguredPolicy =>
      rw [show label = undeclaredWorkloadLabel from series]
      exact List.mem_cons_self
  | routeDuration =>
    cases labelled
    rcases series with rfl | ⟨workload, hworkload, rfl⟩
    · exact List.mem_cons_self
    · exact hdeclared workload hworkload
  | _ => cases labelled

omit [UnicodeTables] [Cryptography] [JsonDecoder] [BodyParser] [PolicyLibraries] in
private theorem card_filterMap_le {β : Type} [DecidableEq β] {f : Observation → Option β}
    {m : Multiset Observation} (bound : List β) (h : ∀ n ∈ m, ∀ b, f n = some b → b ∈ bound) :
    (m.filterMap f).toFinset.card ≤ bound.length := by
  refine (Finset.card_le_card fun b hb => ?_).trans (List.toFinset_card_le bound)
  obtain ⟨n, hn, hb⟩ := (Multiset.mem_filterMap f m).mp (Multiset.mem_toFinset.mp hb)
  exact List.mem_toFinset.mpr (h n hn b hb)

end Server

namespace Deployed

open AuthorizedDecisions.Deployed (application front handled parser route)
open RecordedVerdicts.Deployed (answers_made exists_observed made requested_made)
open RoutingPolicyLoader.Deployed (libraries)
open RoutingSpecification.Deployed (useCase)
open VerificationSpecification.Deployed (decoder genuine)

def host : Host := ⟨.unreadable, useCase, 0⟩

theorem exists_run : ∃ ls m p decision,
    Run (Step (@observedServer asciiTables genuine decoder parser libraries application))
      (Pool.start _ (host, 0)) ls ⟨(host, m), [p]⟩ ∧ p.tag = .request route ∧
      calls (p.log.map Prod.snd) = made ∧
      p.Finished (@Result.response genuine (@Response.decision genuine decision)) := by
  obtain ⟨es, decision, hobserved, hcalls⟩ := exists_observed
  have hcompletes := completes_erase hobserved
  rw [hcalls, @erase_observedPostRoute asciiTables genuine decoder parser] at hcompletes
  have hactive : ∀ other, ⟨.activeUseCase, other⟩ ∈ made → other = useCase := by
    intro other h
    rcases List.mem_append.mp h with h | h
    · simp only [front, List.mem_cons, List.not_mem_nil, or_false] at h
      rcases h with h | h | h
      · cases h
      · cases h
      · cases h
        rfl
    · exact fixed_of_mem_run AuthorizedDecisions.Deployed.answer _ () h
  obtain ⟨ls, p, hrun, htag, hlog, hfinished⟩ := @run_request asciiTables genuine decoder parser
    libraries application _ _ _ host hcompletes hactive []
  have herases := @erase_observedProgram asciiTables genuine decoder parser libraries application
  obtain ⟨ls', ⟨⟨host', m⟩, ps⟩, hrecorded, -, hplain⟩ := exists_run_of_plain herases hrun 0
  obtain ⟨rfl, hps⟩ := Pool.mk.inj hplain
  obtain ⟨q, rfl, rfl⟩ := List.map_eq_singleton_iff.mp hps
  -- what the request has left to note is noted
  obtain ⟨ns, hleft⟩ := exists_notes_of_erase_eq_done hfinished
  have hfirst : [q][0]? = some q := rfl
  obtain ⟨notes, m', q', hnotes, -, hrest, hsame⟩ := run_notes herases (s := host) (m := m) hfirst hleft
  have htag' : (plain herases q').tag = (plain herases q).tag := by rw [hsame]
  have hlog' : (plain herases q').log = (plain herases q).log := by rw [hsame]
  refine ⟨_, m', q', decision, hrecorded.trans hnotes, htag'.trans htag, ?_, hrest⟩
  rw [← plainLog_map_snd]
  change (plain herases q').log.map Prod.snd = made
  rw [hlog', hlog, List.map_map]
  exact List.map_id _

end Deployed

open VerificationSpecification.Deployed (decoder genuine)
open AuthorizedDecisions.Deployed (application parser route)
open RecordedVerdicts.Deployed (answers_made made requested_made)
open RoutingPolicyLoader.Deployed (libraries)

end PolicyModelRouter.ObservedServer
