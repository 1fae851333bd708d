import PolicyModelRouter.HandlerRuns
import PolicyModelRouter.InterleavedPrograms
import PolicyModelRouter.PolicyReload

/-!
# The running server

One process serves any number of requests and reloads at once. They share the active use
case and the policy file, which others replace at any time. Everything else a request is
answered may be anything.
-/

namespace PolicyModelRouter.RouterServer
open AuthorizationContract AwaitingPrograms HandlerRuns InterleavedPrograms OrderedChecks
open PolicyReload PythonText RouteEndpoint RouteRuns RouterCalls RoutingCatalog RoutingPolicyLoader
open RuntimeControl VerificationTraces WireContracts

/-- The policy file, the active use case, and how often the file was read so far. -/
structure Host where
  file : PolicyFile
  useCase : RouteModelUseCase
  reads : ℕ

inductive Task where
  | request (scope : RouteScope)
  | reload

inductive Result [Cryptography] where
  | response (response : Response)
  | reload (reload : Reload)

def Answering (s : Host) : (call : Call) → Reply call → Host → Prop
  | .readPolicyFile, file, s' => file = s.file ∧ s' = { s with reads := s.reads + 1 }
  | .activeUseCase, useCase, s' => useCase = s.useCase ∧ s' = s
  | .swapUseCase next, _, s' => s' = { s with useCase := next }
  | _, _, s' => s' = s

section Server

variable [UnicodeTables] [Cryptography] [JsonDecoder] [BodyParser] [PolicyLibraries]
variable {app : Application}

def program (app : Application) : Task → Async Call Reply Result
  | .request scope => postRoute app scope >>= fun response => .done (.response response)
  | .reload => reloadRoutingPolicy app >>= fun reload => .done (.reload reload)

/-- The surroundings replace the file and nothing else. -/
def server (app : Application) : System Host Task Call Reply Result where
  program := program app
  admits _ _ := True
  surroundings s s' := s'.useCase = s.useCase ∧ s'.reads = s.reads
  serve := Answering

private theorem issues_program_request {scope : RouteScope} {es : List (Event Reply)} {c : Call}
    (h : Issues (program app (.request scope)) es c) : Issues (postRoute app scope) es c := by
  rcases issues_bind_iff.mp h with h | ⟨_, _, _, -, -, hdone⟩
  · exact h
  · exact absurd hdone (not_issues_done _ _ _)

/-- A request reads no policy file and swaps nothing in. -/
theorem not_policy_of_request {scope : RouteScope} {es : List (Event Reply)} {c : Call}
    (h : Issues (program app (.request scope)) es c) :
    c ≠ .readPolicyFile ∧ ∀ next, c ≠ .swapUseCase next := by
  cases makes_of_issues (issues_program_request h) with
  | inFront front => cases front with
    | outer outer => cases outer <;> simp
    | activeUseCase => simp
  | answering own => rcases own with rfl | rfl <;> simp
  | inHandler reaches issued => cases inside_of_issues issued with
    | allow key => simp
    | utcNow => simp
    | store touches =>
      refine ⟨?_, fun next => ?_⟩
      all_goals
        rintro rfl
        cases touches
    | routing routing => cases routing <;> simp

/-- Where a reload is when it makes a call. -/
inductive ReloadCall (app : Application) : List (Event Reply) → Call → Prop where
  | read : ReloadCall app [] .readPolicyFile
  | swap {file : PolicyFile} {policy : RoutingPolicy} (loads : loadRoutingPolicy file = .ok policy) :
      ReloadCall app [⟨.readPolicyFile, file⟩] (.swapUseCase (newUseCase app policy))
  | retain {file : PolicyFile} (fails : ∀ policy, loadRoutingPolicy file ≠ .ok policy) :
      ReloadCall app [⟨.readPolicyFile, file⟩] .activeUseCase

private theorem reloadCall_of_issues {es : List (Event Reply)} {c : Call}
    (h : Issues (program app .reload) es c) : ReloadCall app es c := by
  rcases issues_bind_iff.mp h with hreload | ⟨_, _, _, -, -, hdone⟩
  swap
  · exact absurd hdone (not_issues_done _ _ _)
  rw [reloadRoutingPolicy, issues_await_iff] at hreload
  rcases hreload with ⟨rfl, rfl⟩ | ⟨file, tail, rfl, hrest⟩
  · exact .read
  cases hload : loadRoutingPolicy file with
  | ok policy =>
    rw [hload, completeReload, issues_await_iff] at hrest
    rcases hrest with ⟨rfl, rfl⟩ | ⟨_, _, -, hdone⟩
    · exact .swap hload
    · exact absurd hdone (not_issues_done _ _ _)
  | error e =>
    rw [hload] at hrest
    cases e with
    | routingPolicyLoad =>
      rw [completeReload, issues_await_iff] at hrest
      rcases hrest with ⟨rfl, rfl⟩ | ⟨_, _, -, hdone⟩
      · refine .retain fun policy hok => ?_
        cases hload.symm.trans hok
      · exact absurd hdone (not_issues_done _ _ _)
    | _ => exact absurd hrest (not_issues_done _ _ _)

/-- Only a reload swaps, right after it read a file that loads. -/
theorem swap_of_issues {task : Task} {es : List (Event Reply)} {next : RouteModelUseCase}
    (h : Issues (program app task) es (.swapUseCase next)) :
    ∃ file policy, es = [⟨.readPolicyFile, file⟩] ∧ loadRoutingPolicy file = .ok policy ∧
      next = newUseCase app policy := by
  cases task with
  | request scope => exact absurd rfl ((not_policy_of_request h).2 next)
  | reload =>
    cases reloadCall_of_issues h with
    | swap loads => exact ⟨_, _, rfl, loads, rfl⟩

/-- A finished reload swapped in what it read, if that loads. -/
theorem events_of_reload {es : List (Event Reply)} {result : Result}
    (h : Completes (program app .reload) es result) :
    ∃ file rest, es = ⟨.readPolicyFile, file⟩ :: rest ∧
      ∀ policy, loadRoutingPolicy file = .ok policy →
        rest = [⟨.swapUseCase (newUseCase app policy), ()⟩] := by
  obtain ⟨es, _, reload, rfl, hreload, hdone⟩ := completes_bind_iff.mp h
  obtain ⟨rfl, -⟩ := (completes_done_iff _ _ _).mp hdone
  rw [reloadRoutingPolicy, completes_await_iff] at hreload
  obtain ⟨file, tail, rfl, htail⟩ := hreload
  refine ⟨file, tail, List.append_nil _, fun policy hload => ?_⟩
  rw [hload, completeReload, completes_await_iff] at htail
  obtain ⟨_, _, rfl, htail⟩ := htail
  obtain ⟨rfl, -⟩ := (completes_done_iff _ _ _).mp htail
  rfl

def Faithful (s : Host) (e : Event Reply) (now : Host) : Prop :=
  (∀ file, e = ⟨.readPolicyFile, file⟩ → file = s.file ∧ s.reads < now.reads) ∧
    ∀ useCase, e = ⟨.activeUseCase, useCase⟩ → useCase = s.useCase

omit [UnicodeTables] [Cryptography] [JsonDecoder] [BodyParser] [PolicyLibraries] in
theorem reads_mono {s s' : Host} {c : Call} {r : Reply c} (h : Answering s c r s') :
    s.reads ≤ s'.reads := by
  cases c with
  | readPolicyFile =>
    obtain ⟨-, rfl⟩ := h
    exact Nat.le_succ _
  | activeUseCase => rw [h.2]
  | swapUseCase next => rw [h]
  | _ => rw [h]

omit [UnicodeTables] [Cryptography] [JsonDecoder] [BodyParser] [PolicyLibraries] in
theorem file_of_answering {s s' : Host} {c : Call} {r : Reply c} (h : Answering s c r s') :
    s'.file = s.file := by
  cases c with
  | readPolicyFile =>
    obtain ⟨-, rfl⟩ := h
    rfl
  | activeUseCase => rw [h.2]
  | swapUseCase next => rw [h]
  | _ => rw [h]

omit [UnicodeTables] [Cryptography] [JsonDecoder] [BodyParser] [PolicyLibraries] in
theorem useCase_of_answering {s s' : Host} {c : Call} {r : Reply c} (h : Answering s c r s')
    (other : ∀ next, c ≠ .swapUseCase next) : s'.useCase = s.useCase := by
  cases c with
  | readPolicyFile =>
    obtain ⟨-, rfl⟩ := h
    rfl
  | activeUseCase => rw [h.2]
  | swapUseCase next => exact absurd rfl (other next)
  | _ => rw [h]

theorem faithful_of_step {a b : Pool (server app)} {l : Label Task Reply} (h : Step (server app) a l b)
    (held : ∀ p ∈ a.processes, ∀ x ∈ p.log, Faithful x.1 x.2 a.shared) :
    ∀ p ∈ b.processes, ∀ x ∈ p.log, Faithful x.1 x.2 b.shared := by
  refine each_answer h (fun _ s e now => Faithful s e now) held ?_ ?_ ?_
  · rintro _ s e ⟨-, hreads⟩ ⟨hread, hresolved⟩
    exact ⟨fun file hfile => hreads ▸ hread file hfile, hresolved⟩
  · rintro _ s e c r hanswer ⟨hread, hresolved⟩
    refine ⟨fun file hfile => ?_, hresolved⟩
    exact ⟨(hread file hfile).1, (hread file hfile).2.trans_le (reads_mono hanswer)⟩
  · intro i p c k r _ _ _ hanswer
    constructor
    · rintro file ⟨⟩
      obtain ⟨hfile, hnow⟩ := hanswer
      refine ⟨hfile, ?_⟩
      rw [hnow]
      exact Nat.lt_succ_self _
    · rintro useCase ⟨⟩
      exact hanswer.1

theorem faithful_of_run {s : Host} {ls : List (Label Task Reply)} {pool : Pool (server app)}
    (h : Run (Step (server app)) (Pool.start (server app) s) ls pool) :
    ∀ p ∈ pool.processes, ∀ x ∈ p.log, Faithful x.1 x.2 pool.shared :=
  h.invariant (fun pool => ∀ p ∈ pool.processes, ∀ x ∈ p.log, Faithful x.1 x.2 pool.shared)
    (by simp [Pool.start]) fun _ _ _ held step => faithful_of_step step held

/-- The log of a request holds no read of the file and no swap. -/
theorem ordinary_of_request {p : Process (server app)} {scope : RouteScope}
    (request : p.tag = .request scope) {t : Host} {c : Call} {r : Reply c} (h : (t, ⟨c, r⟩) ∈ p.log) :
    c ≠ .readPolicyFile ∧ ∀ next, c ≠ .swapUseCase next := by
  obtain ⟨before, after, hlog⟩ := List.append_of_mem h
  have hissued : Issues (program app p.tag) (before.map Prod.snd) c := Process.issues_of_log hlog
  rw [request] at hissued
  exact not_policy_of_request hissued

omit [UnicodeTables] [Cryptography] [JsonDecoder] [BodyParser] [PolicyLibraries] in
/-- What a request is answered besides its use case leaves the host as it is. -/
theorem answering_of_request {s : Host} {e : Event Reply}
    (ordinary : e.1 ≠ .readPolicyFile ∧ ∀ next, e.1 ≠ .swapUseCase next)
    (active : ∀ useCase, e = ⟨.activeUseCase, useCase⟩ → useCase = s.useCase) :
    Answering s e.1 e.2 s := by
  obtain ⟨c, r⟩ := e
  cases c with
  | readPolicyFile => exact absurd rfl ordinary.1
  | swapUseCase next => exact absurd rfl (ordinary.2 next)
  | activeUseCase => exact ⟨active r rfl, rfl⟩
  | _ => rfl

private theorem amid_of_answering {s : Host} {es : List (Event Reply)}
    (h : ∀ e ∈ es, Answering s e.1 e.2 s) :
    Amid (server app) s (es.map fun e => (s, e)) s := by
  induction es with
  | nil => exact .nil s
  | cons e rest ih =>
    exact .answer (h e List.mem_cons_self) (ih fun d hd => h d (List.mem_cons_of_mem _ hd))

/-- A request that completes can be run alone. -/
theorem run_request {scope : RouteScope} {es : List (Event Reply)} {response : Response} {s : Host}
    (completes : Completes (postRoute app scope) es response)
    (active : ∀ useCase, ⟨.activeUseCase, useCase⟩ ∈ es → useCase = s.useCase)
    (ps : List (Process (server app))) : ∃ ls p,
      Run (Step (server app)) ⟨s, ps⟩ ls ⟨s, ps ++ [p]⟩ ∧ p.tag = .request scope ∧
        p.log = es.map (fun e => (s, e)) ∧ p.Finished (.response response) := by
  have hprogram : Completes (program app (.request scope)) es (.response response) :=
    completes_bind_iff.mpr ⟨es, [], response, (List.append_nil _).symm, completes, .done _⟩
  have hordinary := hprogram.each_call (fun c => c ≠ .readPolicyFile ∧ ∀ next, c ≠ .swapUseCase next)
    fun _ _ h => not_policy_of_request h
  have hamid : Amid (server app) s (es.map fun e => (s, e)) s := by
    refine amid_of_answering fun e he => answering_of_request (hordinary e he) ?_
    rintro useCase rfl
    exact active useCase he
  apply run_alone hamid ps trivial
  rw [List.map_map]
  exact (List.map_id es).symm ▸ hprogram

/-- A reload of a file that loads can be run alone. -/
theorem run_reload {s : Host} {policy : RoutingPolicy} (loads : loadRoutingPolicy s.file = .ok policy)
    (ps : List (Process (server app))) : ∃ ls p, Run (Step (server app)) ⟨s, ps⟩ ls
      ⟨⟨s.file, newUseCase app policy, s.reads + 1⟩, ps ++ [p]⟩ ∧ p.tag = .reload ∧
      p.log = [(s, ⟨.readPolicyFile, s.file⟩),
        (⟨s.file, s.useCase, s.reads + 1⟩, ⟨.swapUseCase (newUseCase app policy), ()⟩)] := by
  have hreload : Completes (reloadRoutingPolicy app)
      [⟨.readPolicyFile, s.file⟩, ⟨.swapUseCase (newUseCase app policy), ()⟩]
      ⟨.ok true, [.succeeded]⟩ := by
    rw [completes_reload_iff, loads]
    exact .await (.done _)
  have hcompletes : Completes ((server app).program .reload)
      [⟨.readPolicyFile, s.file⟩, ⟨.swapUseCase (newUseCase app policy), ()⟩]
      (.reload ⟨.ok true, [.succeeded]⟩) :=
    completes_bind_iff.mpr ⟨_, [], _, rfl, hreload, .done _⟩
  have hamid : Amid (server app) s [(s, ⟨.readPolicyFile, s.file⟩),
      (⟨s.file, s.useCase, s.reads + 1⟩, ⟨.swapUseCase (newUseCase app policy), ()⟩)]
      ⟨s.file, newUseCase app policy, s.reads + 1⟩ :=
    .answer ⟨rfl, rfl⟩ (.answer rfl (.nil _))
  obtain ⟨ls, p, hrun, htag, hlog, -⟩ := run_alone hamid ps trivial hcompletes
  exact ⟨ls, p, hrun, htag, hlog⟩

end Server

end PolicyModelRouter.RouterServer
