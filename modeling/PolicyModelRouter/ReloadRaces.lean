import PolicyModelRouter.RouterServer

/-!
# Races between reloads

Reading the file and swapping the use case are two steps of a reload, and reloads overlap.
As long as they swap in the order they read in, or agree, the active policy is never older
than one that was read by a finished reload.
-/

namespace PolicyModelRouter.ReloadRaces
open AuthorizationContract AwaitingPrograms InterleavedPrograms PolicyReload PythonText RouteEndpoint
open RouterCalls RouterServer RoutingCatalog RoutingPolicyLoader RuntimeControl

section Races

variable [UnicodeTables] [Cryptography] [JsonDecoder] [BodyParser] [PolicyLibraries]
variable {app : Application}

def ReadIn (p : Process (server app)) (s : Host) : Prop :=
  ∃ file, (s, ⟨.readPolicyFile, file⟩) ∈ p.log

/-- The process has read the file in this state, and then swapped in a use case. -/
def Replaced (p : Process (server app)) (s : Host) (useCase : RouteModelUseCase) : Prop :=
  ∃ file t, [(s, ⟨.readPolicyFile, file⟩), (t, ⟨.swapUseCase useCase, ()⟩)] <+: p.log

/-- A swap comes after no swap of another use case that was read later. -/
def InOrder (a : Pool (server app)) : Label Task Reply → Prop
  | .serve i ⟨.swapUseCase next, _⟩ => ∀ p s, a.processes[i]? = some p → ReadIn p s →
      ∀ q ∈ a.processes, ∀ t useCase, Replaced q t useCase → s.reads < t.reads → useCase = next
  | _ => True

def OrderedStep (app : Application) (a : Pool (server app)) (l : Label Task Reply)
    (b : Pool (server app)) : Prop :=
  Step (server app) a l b ∧ InOrder a l

private theorem readIn_of_replaced {p : Process (server app)} {s : Host} {useCase : RouteModelUseCase}
    (h : Replaced p s useCase) : ∃ file policy, (s, ⟨.readPolicyFile, file⟩) ∈ p.log ∧
      loadRoutingPolicy file = .ok policy ∧ useCase = newUseCase app policy := by
  obtain ⟨file, t, after, hlog⟩ := h
  have hsplit : p.log = [(s, ⟨.readPolicyFile, file⟩)] ++ (t, ⟨.swapUseCase useCase, ()⟩) :: after :=
    hlog.symm
  have hissued : Issues (program app p.tag) [⟨.readPolicyFile, file⟩] (.swapUseCase useCase) :=
    Process.issues_of_log hsplit
  obtain ⟨file', policy, hevents, hload, huseCase⟩ := swap_of_issues hissued
  cases hevents
  refine ⟨file, policy, ?_, hload, huseCase⟩
  rw [← hlog]
  simp

/-- What a process has replaced when it gets one more answer. -/
theorem replaced_resume {p : Process (server app)} {c : Call} {k : Reply c → Async Call Reply Result}
    {r : Reply c} {now s : Host} {useCase : RouteModelUseCase} (suspended : p.rest = .await c k)
    (h : Replaced (p.resume suspended now r) s useCase) : Replaced p s useCase ∨
      ReadIn p s ∧ c = .swapUseCase useCase := by
  obtain ⟨file, t, hprefix⟩ := h
  rw [Process.resume_log, List.prefix_concat_iff] at hprefix
  rcases hprefix with hlog | hprefix
  · have hsplit : [(s, ⟨.readPolicyFile, file⟩)] ++ [(t, ⟨.swapUseCase useCase, ()⟩)] =
      p.log ++ [(now, (⟨c, r⟩ : Event Reply))] := hlog
    obtain ⟨hread, hswap⟩ := List.append_inj' hsplit rfl
    have hevent := (Prod.ext_iff.mp (List.cons.inj hswap).1).2
    refine .inr ⟨⟨file, by rw [← hread]; exact List.mem_singleton_self _⟩, ?_⟩
    exact (congrArg Sigma.fst hevent).symm
  · exact .inl ⟨file, t, hprefix⟩

theorem Replaced.resume {p : Process (server app)} {c : Call} {k : Reply c → Async Call Reply Result}
    {r : Reply c} {now s : Host} {useCase : RouteModelUseCase} (h : Replaced p s useCase)
    (suspended : p.rest = .await c k) : Replaced (p.resume suspended now r) s useCase := by
  obtain ⟨file, t, hprefix⟩ := h
  exact ⟨file, t, hprefix.trans (List.prefix_append _ _)⟩

/-- A process about to swap has only read, and has replaced once it is answered. -/
theorem replaced_of_swap {p : Process (server app)} {next : RouteModelUseCase}
    {k : Reply (.swapUseCase next) → Async Call Reply Result} (suspended : p.rest = .await (.swapUseCase next) k)
    (now : Host) : ∃ s, ReadIn p s ∧ (∀ t, ReadIn p t → t = s) ∧
      Replaced (p.resume suspended now ()) s next := by
  obtain ⟨file, policy, hevents, -, -⟩ := swap_of_issues (Process.issues_of_rest suspended)
  obtain ⟨⟨s, e⟩, rest, hlog, rfl, hrest⟩ := List.map_eq_cons_iff.mp hevents
  obtain rfl := List.map_eq_nil_iff.mp hrest
  refine ⟨s, ⟨file, by rw [hlog]; exact List.mem_singleton_self _⟩, ?_, ?_⟩
  · rintro t ⟨file', ht⟩
    rw [hlog, List.mem_singleton] at ht
    exact (Prod.ext_iff.mp ht).1
  · refine ⟨file, now, ?_⟩
    change _ <+: p.log ++ [(now, ⟨.swapUseCase next, ()⟩)]
    rw [hlog]
    exact List.prefix_rfl

/-- Nothing that was swapped in was read later than everything that agrees with the active
use case. -/
def Current (a : Pool (server app)) : Prop :=
  ∀ q ∈ a.processes, ∀ s useCase, Replaced q s useCase →
    ∃ p ∈ a.processes, ∃ t, s.reads ≤ t.reads ∧ Replaced p t a.shared.useCase

private theorem replaced_persists {a b : Pool (server app)} {l : Label Task Reply}
    (h : Step (server app) a l b) {s : Host} {useCase : RouteModelUseCase}
    (held : ∃ p ∈ a.processes, Replaced p s useCase) : ∃ q ∈ b.processes, Replaced q s useCase :=
  some_process h (Replaced · s useCase) (fun _ _ _ _ suspended _ hreplaced =>
    hreplaced.resume suspended) held

private theorem current_of_step {a b : Pool (server app)} {l : Label Task Reply}
    (h : OrderedStep app a l b) (current : Current a) : Current b := by
  obtain ⟨hstep, hordered⟩ := h
  have hkept : b.shared.useCase = a.shared.useCase →
      (∀ q ∈ b.processes, ∀ s useCase, Replaced q s useCase →
        ∃ q' ∈ a.processes, Replaced q' s useCase) → Current b := by
    intro hsame hold q hq s useCase hreplaced
    obtain ⟨q', hq', hreplaced'⟩ := hold q hq s useCase hreplaced
    obtain ⟨p, hp, t, hle, hactive⟩ := current q' hq' s useCase hreplaced'
    obtain ⟨p', hp', hactive'⟩ := replaced_persists hstep ⟨p, hp, hactive⟩
    exact ⟨p', hp', t, hle, hsame ▸ hactive'⟩
  cases hstep with
  | surroundings move => exact hkept move.1 fun q hq s useCase hreplaced => ⟨q, hq, hreplaced⟩
  | launch admitted =>
    refine hkept rfl fun q hq s useCase hreplaced => ?_
    rcases List.mem_append.mp hq with hq | hq
    · exact ⟨q, hq, hreplaced⟩
    · obtain rfl := List.mem_singleton.mp hq
      obtain ⟨file, t, hprefix⟩ := hreplaced
      cases List.prefix_nil.mp hprefix
  | @serve s s' ps i p c k r pending suspended answer =>
    have hp : p ∈ ps := List.mem_of_getElem? pending
    by_cases hswap : ∃ next, c = .swapUseCase next
    · obtain ⟨next, rfl⟩ := hswap
      obtain ⟨read, hread, honly, hnew⟩ := replaced_of_swap suspended s
      obtain ⟨hindex, -⟩ := List.getElem?_eq_some_iff.mp pending
      have hmember := List.mem_set hindex (p.resume suspended s r)
      have hactive : s'.useCase = next := by rw [answer]
      intro q hq t useCase hreplaced
      rw [hactive]
      rcases List.mem_or_eq_of_mem_set hq with hold | rfl
      · rcases lt_or_ge read.reads t.reads with hlater | hle
        · obtain rfl := hordered p read pending hread q hold t useCase hreplaced hlater
          exact ⟨q, hq, t, le_rfl, hreplaced⟩
        · exact ⟨_, hmember, read, hle, hnew⟩
      · have hstamp : t = read := by
          rcases replaced_resume suspended hreplaced with hbefore | ⟨hreadIn, -⟩
          · obtain ⟨file, policy, hfile, -, -⟩ := readIn_of_replaced hbefore
            exact honly t ⟨file, hfile⟩
          · exact honly t hreadIn
        exact ⟨_, hmember, read, hstamp ▸ le_rfl, hnew⟩
    · have hother : ∀ next, c ≠ .swapUseCase next := fun next h => hswap ⟨next, h⟩
      refine hkept (useCase_of_answering answer hother) fun q hq t useCase hreplaced => ?_
      rcases List.mem_or_eq_of_mem_set hq with hold | rfl
      · exact ⟨q, hold, hreplaced⟩
      · rcases replaced_resume suspended hreplaced with hbefore | ⟨-, rfl⟩
        · exact ⟨p, hp, hbefore⟩
        · exact absurd rfl (hother useCase)

private theorem current_of_run {s : Host} {ls : List (Label Task Reply)} {pool : Pool (server app)}
    (h : Run (OrderedStep app) (Pool.start (server app) s) ls pool) : Current pool :=
  h.invariant Current (fun _ hq => nomatch hq) fun _ _ _ current step => current_of_step step current

/-- The file is the one this signal was sent for, every later read returned it, and a reload
scheduled by the signal reads no earlier. -/
structure Since (file : PolicyFile) (n : ℕ) (a : Pool (server app)) : Prop where
  unchanged : a.shared.file = file
  reads : n ≤ a.shared.reads
  fresh : ∀ p ∈ a.processes, ∀ x ∈ p.log, ∀ read, x.2 = ⟨.readPolicyFile, read⟩ →
    n ≤ x.1.reads → read = file
  scheduled : ∃ p ∈ a.processes, p.tag = .reload ∧ ∀ x ∈ p.log, n ≤ x.1.reads

private theorem since_of_launch {s : Host} {ls : List (Label Task Reply)} {a b : Pool (server app)}
    (h : Run (Step (server app)) (Pool.start (server app) s) ls a)
    (signal : Step (server app) a (.launch .reload) b) : Since b.shared.file b.shared.reads b := by
  cases signal with
  | launch admitted =>
    refine ⟨rfl, le_rfl, ?_, ⟨_, List.mem_append_right _ (List.mem_singleton_self _), rfl, by simp⟩⟩
    intro p hp x hx read hread hlate
    rcases List.mem_append.mp hp with hp | hp
    · have hearly := ((faithful_of_run h p hp x hx).1 read hread).2
      exact absurd hlate (not_le.mpr hearly)
    · obtain rfl := List.mem_singleton.mp hp
      cases hx

private theorem since_of_step {file : PolicyFile} {n : ℕ} {a b : Pool (server app)}
    {l : Label Task Reply}
    (h : Step (server app) a l b) (kept : l ≠ .surroundings) (since : Since file n a) :
    Since file n b := by
  have hstate : b.shared.file = a.shared.file ∧ a.shared.reads ≤ b.shared.reads := by
    cases h with
    | surroundings move => exact absurd rfl kept
    | launch admitted => exact ⟨rfl, le_rfl⟩
    | serve pending suspended answer => exact ⟨file_of_answering answer, reads_mono answer⟩
  refine ⟨hstate.1.trans since.unchanged, since.reads.trans hstate.2, ?_, ?_⟩
  · refine each_answer h (fun _ s e _ => ∀ read, e = ⟨.readPolicyFile, read⟩ → n ≤ s.reads →
      read = file) since.fresh (fun _ _ _ _ held => held) (fun _ _ _ _ _ _ held => held) ?_
    rintro i p c k r - - - hanswer read ⟨⟩ -
    exact hanswer.1.trans since.unchanged
  · refine some_process h (fun p => p.tag = .reload ∧ ∀ x ∈ p.log, n ≤ x.1.reads) ?_ since.scheduled
    rintro p c k r suspended - ⟨htag, hlog⟩
    refine ⟨htag, fun x hx => ?_⟩
    rcases List.mem_append.mp hx with hx | hx
    · exact hlog x hx
    · obtain rfl := List.mem_singleton.mp hx
      exact since.reads

theorem replaced_of_finished {p : Process (server app)} {result : Result} (reload : p.tag = .reload)
    (finished : p.Finished result) : ∃ s file, (s, ⟨.readPolicyFile, file⟩) ∈ p.log ∧
      ∀ policy, loadRoutingPolicy file = .ok policy → Replaced p s (newUseCase app policy) := by
  have hcompletes : Completes (program app p.tag) (p.log.map Prod.snd) result := finished.completes
  rw [reload] at hcompletes
  obtain ⟨file, rest, hevents, hswaps⟩ := events_of_reload hcompletes
  obtain ⟨⟨s, e⟩, later, hlog, rfl, hrest⟩ := List.map_eq_cons_iff.mp hevents
  refine ⟨s, file, by rw [hlog]; exact List.mem_cons_self, fun policy hload => ?_⟩
  rw [hswaps policy hload] at hrest
  obtain ⟨⟨t, e⟩, last, rfl, rfl, hnil⟩ := List.map_eq_cons_iff.mp hrest
  obtain rfl := List.map_eq_nil_iff.mp hnil
  exact ⟨file, t, hlog ▸ List.prefix_rfl⟩

/-- While reloads swap in order, the file of the last signal wins. -/
theorem reload_not_lost {s : Host} {ls ls' : List (Label Task Reply)} {pool : Pool (server app)}
    (run : Run (OrderedStep app) (Pool.start (server app) s) (ls ++ .launch .reload :: ls') pool)
    (unchanged : Label.surroundings ∉ ls')
    (finished : ∀ p ∈ pool.processes, p.tag = .reload → ∃ result, p.Finished result)
    {policy : RoutingPolicy} (loads : loadRoutingPolicy pool.shared.file = .ok policy) :
    pool.shared.useCase = newUseCase app policy := by
  have hcurrent := current_of_run run
  obtain ⟨a, hbefore, hafter⟩ := run.split rfl
  obtain ⟨b, hsignal, hquiet⟩ := hafter.uncons
  have hlaunched := since_of_launch (hbefore.mono fun _ _ _ h => h.1) hsignal.1
  have hsince : Since b.shared.file b.shared.reads pool :=
    hquiet.invariant_of_labels (Since b.shared.file b.shared.reads) hlaunched
      fun _ _ _ hl since step => since_of_step step.1 (fun h => unchanged (h ▸ hl)) since
  rw [hsince.unchanged] at loads
  obtain ⟨q, hq, htag, hlate⟩ := hsince.scheduled
  obtain ⟨result, hfinished⟩ := finished q hq htag
  obtain ⟨read, file, hread, hreplaced⟩ := replaced_of_finished htag hfinished
  have hfile := hsince.fresh q hq _ hread file rfl (hlate _ hread)
  obtain ⟨p, hp, t, hle, hactive⟩ := hcurrent q hq read _ (hreplaced policy (hfile ▸ loads))
  obtain ⟨file', policy', hread', hload', huseCase⟩ := readIn_of_replaced hactive
  have hfile' := hsince.fresh p hp _ hread' file' rfl ((hlate _ hread).trans hle)
  rw [hfile', loads] at hload'
  rw [huseCase, Except.ok.inj hload']

def started : Process (server app) := .launched (server app) .reload

def reading (s : Host) (file : PolicyFile) : Process (server app) :=
  @Process.resume _ _ _ _ _ _ started .readPolicyFile
    (fun file => completeReload app (loadRoutingPolicy file) >>= fun reload => .done (.reload reload))
    rfl s file

theorem rest_reading {s : Host} {file : PolicyFile} {policy : RoutingPolicy}
    (loads : loadRoutingPolicy file = .ok policy) :
    (reading s file : Process (server app)).rest = .await (.swapUseCase (newUseCase app policy))
      fun _ => .done (.reload ⟨.ok true, [.succeeded]⟩) := by
  change (completeReload app (loadRoutingPolicy file) >>= fun reload =>
    Async.done (Result.reload reload)) = _
  rw [loads]
  rfl

def swapping {file : PolicyFile} {policy : RoutingPolicy} (loads : loadRoutingPolicy file = .ok policy)
    (s now : Host) : Process (server app) :=
  (reading s file).resume (rest_reading loads) now ()

section Steps

variable (s : Host) (ps : List (Process (server app)))

private theorem step_launch : OrderedStep app ⟨s, ps⟩ (.launch .reload) ⟨s, ps ++ [started]⟩ :=
  ⟨.launch trivial, trivial⟩

private theorem step_replace (file : PolicyFile) :
    OrderedStep app ⟨s, ps⟩ .surroundings ⟨{ s with file := file }, ps⟩ :=
  ⟨.surroundings ⟨rfl, rfl⟩, trivial⟩

private theorem step_read {i : ℕ} (pending : ps[i]? = some started) :
    OrderedStep app ⟨s, ps⟩ (.serve i ⟨.readPolicyFile, s.file⟩)
      ⟨{ s with reads := s.reads + 1 }, ps.set i (reading s s.file)⟩ :=
  ⟨.serve pending rfl ⟨rfl, rfl⟩, trivial⟩

theorem step_swap {i : ℕ} {file : PolicyFile} {policy : RoutingPolicy} {read : Host}
    (loads : loadRoutingPolicy file = .ok policy) (pending : ps[i]? = some (reading read file)) :
    Step (server app) ⟨s, ps⟩ (.serve i ⟨.swapUseCase (newUseCase app policy), ()⟩)
      ⟨{ s with useCase := newUseCase app policy }, ps.set i (swapping loads read s)⟩ :=
  .serve pending (rest_reading loads) rfl

end Steps

variable {old new : PolicyFile} {oldPolicy newPolicy : RoutingPolicy} {useCase : RouteModelUseCase}

theorem run_reading : Run (OrderedStep app) (Pool.start (server app) ⟨old, useCase, 0⟩)
    ([.launch .reload, .serve 0 ⟨.readPolicyFile, old⟩, .surroundings] ++
      .launch .reload :: [.serve 1 ⟨.readPolicyFile, new⟩])
    ⟨⟨new, useCase, 2⟩, [reading ⟨old, useCase, 0⟩ old, reading ⟨new, useCase, 1⟩ new]⟩ := by
  refine .cons (step_launch _ _) (.cons (step_read _ _ rfl) (.cons (step_replace _ _ new) ?_))
  exact .cons (step_launch _ _) (.cons (step_read _ _ rfl) (.nil _))

theorem run_overtaken (loadsOld : loadRoutingPolicy old = .ok oldPolicy)
    (loadsNew : loadRoutingPolicy new = .ok newPolicy) :
    Run (Step (server app)) (Pool.start (server app) ⟨old, useCase, 0⟩)
      ([.launch .reload, .serve 0 ⟨.readPolicyFile, old⟩, .surroundings] ++ .launch .reload ::
        [.serve 1 ⟨.readPolicyFile, new⟩, .serve 1 ⟨.swapUseCase (newUseCase app newPolicy), ()⟩,
          .serve 0 ⟨.swapUseCase (newUseCase app oldPolicy), ()⟩])
      ⟨⟨new, newUseCase app oldPolicy, 2⟩,
        [swapping loadsOld ⟨old, useCase, 0⟩ ⟨new, newUseCase app newPolicy, 2⟩,
          swapping loadsNew ⟨new, useCase, 1⟩ ⟨new, useCase, 2⟩]⟩ := by
  have hread := (@run_reading _ _ _ _ _ app old new useCase).mono fun _ _ _ h => h.1
  exact (hread.snoc (step_swap _ _ loadsNew rfl)).snoc (step_swap _ _ loadsOld rfl)

private theorem readIn_reading {read s : Host} {file : PolicyFile}
    (h : ReadIn (reading read file : Process (server app)) s) : s = read := by
  obtain ⟨other, hread⟩ := h
  exact (Prod.ext_iff.mp (List.mem_singleton.mp hread)).1

theorem not_replaced_reading {read s : Host} {file : PolicyFile} :
    ¬ Replaced (reading read file : Process (server app)) s useCase := by
  rintro ⟨_, _, hprefix⟩
  exact absurd hprefix.length_le (by decide : ¬ 2 ≤ 1)

private theorem readIn_of_swapping {read now s : Host} {file : PolicyFile} {policy : RoutingPolicy}
    {loads : loadRoutingPolicy file = .ok policy}
    (h : Replaced (swapping loads read now : Process (server app)) s useCase) : s = read := by
  rcases replaced_resume (rest_reading loads) h with hreplaced | ⟨hread, -⟩
  · exact absurd hreplaced not_replaced_reading
  · exact readIn_reading hread

theorem run_ordered (loadsOld : loadRoutingPolicy old = .ok oldPolicy)
    (loadsNew : loadRoutingPolicy new = .ok newPolicy) :
    Run (OrderedStep app) (Pool.start (server app) ⟨old, useCase, 0⟩)
      ([.launch .reload, .serve 0 ⟨.readPolicyFile, old⟩, .surroundings] ++ .launch .reload ::
        [.serve 1 ⟨.readPolicyFile, new⟩, .serve 0 ⟨.swapUseCase (newUseCase app oldPolicy), ()⟩,
          .serve 1 ⟨.swapUseCase (newUseCase app newPolicy), ()⟩])
      ⟨⟨new, newUseCase app newPolicy, 2⟩,
        [swapping loadsOld ⟨old, useCase, 0⟩ ⟨new, useCase, 2⟩,
          swapping loadsNew ⟨new, useCase, 1⟩ ⟨new, newUseCase app oldPolicy, 2⟩]⟩ := by
  refine (run_reading.snoc ⟨step_swap _ _ loadsOld rfl, ?_⟩).snoc ⟨step_swap _ _ loadsNew rfl, ?_⟩
  · intro p s hp hread q hq t other hreplaced
    rcases List.mem_pair.mp hq with rfl | rfl <;> exact absurd hreplaced not_replaced_reading
  · intro p s hp hread q hq t other hreplaced hlater
    obtain rfl := Option.some.inj hp
    obtain rfl := readIn_reading hread
    rcases List.mem_pair.mp hq with rfl | rfl
    · rw [readIn_of_swapping hreplaced] at hlater
      exact absurd hlater (by decide : ¬ 1 < 0)
    · exact absurd hreplaced not_replaced_reading

end Races

namespace Deployed

open AuthorizedDecisions.Deployed (application parser)
open RoutingPolicyLoader.Deployed
open VerificationSpecification.Deployed (decoder genuine)

def startup : RouteModelUseCase := newUseCase application (@policyOf genuine baseline)

abbrev deployed : System Host Task Call Reply (@Result genuine) :=
  @server asciiTables genuine decoder parser libraries application

private theorem newUseCase_ne : newUseCase application (@policyOf genuine baseline) ≠
    newUseCase application (@policyOf genuine revised) := by
  intro h
  have hversion : (baseline : String) = revised := congrArg (fun useCase : RouteModelUseCase => useCase.policy.policyVersion) h
  exact absurd hversion (by decide)

/-- The file holds the revised policy, both reloads have finished, and the baseline is active. -/
theorem stale_policy_wins : ∃ ls ls' pool,
    Run (Step deployed) (Pool.start deployed ⟨policyFile baseline, startup, 0⟩)
      (ls ++ .launch .reload :: ls') pool ∧ Label.surroundings ∉ ls' ∧
    (∀ p ∈ pool.processes, ∃ result, p.Finished result) ∧
    @loadRoutingPolicy libraries genuine pool.shared.file = .ok (@policyOf genuine revised) ∧
    pool.shared.useCase ≠ newUseCase application (@policyOf genuine revised) := by
  have hrun := @run_overtaken asciiTables genuine decoder parser libraries application _ _ _ _ startup
    (@load_policyFile genuine baseline (.inl rfl)) (@load_policyFile genuine revised (.inr rfl))
  refine ⟨_, _, _, hrun, by simp, ?_, @load_policyFile genuine revised (.inr rfl), newUseCase_ne⟩
  intro p hp
  rcases List.mem_pair.mp hp with rfl | rfl <;> exact ⟨_, rfl⟩

theorem reload_not_lost_deployed : ∃ ls ls' pool,
    Run (@OrderedStep asciiTables genuine decoder parser libraries application)
      (Pool.start deployed ⟨policyFile baseline, startup, 0⟩) (ls ++ .launch .reload :: ls') pool ∧
    pool.shared.useCase = newUseCase application (@policyOf genuine revised) := by
  have hrun := @run_ordered asciiTables genuine decoder parser libraries application _ _ _ _ startup
    (@load_policyFile genuine baseline (.inl rfl)) (@load_policyFile genuine revised (.inr rfl))
  refine ⟨_, _, _, hrun, ?_⟩
  refine @reload_not_lost asciiTables genuine decoder parser libraries application _ _ _ _ hrun
    (by simp) ?_ _ (@load_policyFile genuine revised (.inr rfl))
  intro p hp _
  rcases List.mem_pair.mp hp with rfl | rfl <;> exact ⟨_, rfl⟩

end Deployed

end PolicyModelRouter.ReloadRaces
