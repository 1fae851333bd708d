import PolicyModelRouter.AuthorizedDecisions
import PolicyModelRouter.InterleavedPrograms
import PolicyModelRouter.RouteEndpoint
import PolicyModelRouter.RoutingPolicyLoader

/-!
# Reloading the routing policy

One reload reads and parses the file in a worker thread, and on success replaces the
active use case as a whole. What it counts is part of what it comes to.
-/

namespace PolicyModelRouter.PolicyReload
open AuthorizationContract AwaitingPrograms OrderedChecks RouteEndpoint RouterCalls RoutingCatalog
open RoutingPolicyLoader

inductive ReloadOutcome where
  | succeeded
  | failed
  deriving DecidableEq

/-- What one reload came to: what it returned or raised, and what it counted. -/
structure Reload where
  returned : Except PyException Bool
  counted : List ReloadOutcome

section Reloading

variable [PolicyLibraries] [Cryptography]

def newUseCase (app : Application) (policy : RoutingPolicy) : RouteModelUseCase :=
  ⟨policy, app.serviceVersion, app.environment⟩

/-- What is left of a reload once the worker thread has finished. A failure is logged with the
policy that stays active. -/
def completeReload (app : Application) :
    Except PyException RoutingPolicy → Async Call Reply Reload
  | .ok policy => .await (.swapUseCase (newUseCase app policy)) fun _ => .done ⟨.ok true, [.succeeded]⟩
  | .error .routingPolicyLoad => .await .activeUseCase fun _ => .done ⟨.ok false, [.failed]⟩
  | .error e => .done ⟨.error e, []⟩

def reloadRoutingPolicy (app : Application) : Async Call Reply Reload :=
  .await .readPolicyFile fun file => completeReload app (loadRoutingPolicy file)

end Reloading

/-- The active use case and the two reload counters. -/
structure ServerState where
  useCase : RouteModelUseCase
  succeeded : ℕ
  failed : ℕ

def swapped (useCase : RouteModelUseCase) : Event Reply → RouteModelUseCase
  | ⟨.swapUseCase next, _⟩ => next
  | _ => useCase

def ServerState.after (s : ServerState) (es : List (Event Reply)) (reload : Reload) : ServerState :=
  { useCase := es.foldl swapped s.useCase
    succeeded := s.succeeded + reload.counted.count .succeeded
    failed := s.failed + reload.counted.count .failed }

section Counting

variable [PolicyLibraries] [Cryptography] {app : Application} {file : PolicyFile}

/-- Whatever state it starts in, a reload of this file returns one value and has one effect. -/
structure ReloadsTo (app : Application) (file : PolicyFile) (returned : Bool)
    (effect : ServerState → ServerState) : Prop where
  ends : ∃ es reload, Completes (reloadRoutingPolicy app) (⟨.readPolicyFile, file⟩ :: es) reload
  only : ∀ es reload, Completes (reloadRoutingPolicy app) (⟨.readPolicyFile, file⟩ :: es) reload →
    reload.returned = .ok returned ∧ ∀ s : ServerState, s.after es reload = effect s

/-- A file that loads is swapped in and counted, and every other file is a counted failure
that changes nothing. -/
structure Counted (app : Application) (file : PolicyFile) : Prop where
  loads : (∃ policy, loadRoutingPolicy file = .ok policy) ∨
    loadRoutingPolicy file = .error .routingPolicyLoad
  succeeds : ∀ policy, loadRoutingPolicy file = .ok policy → ReloadsTo app file true fun s =>
    { s with useCase := newUseCase app policy, succeeded := s.succeeded + 1 }
  fails : (∀ policy, loadRoutingPolicy file ≠ .ok policy) → ReloadsTo app file false fun s =>
    { s with failed := s.failed + 1 }

theorem completes_reload_iff {es : List (Event Reply)} {reload : Reload} :
    Completes (reloadRoutingPolicy app) (⟨.readPolicyFile, file⟩ :: es) reload ↔
      Completes (completeReload app (loadRoutingPolicy file)) es reload := by
  rw [reloadRoutingPolicy, completes_await_iff]
  constructor
  · rintro ⟨file', tail, hes, h⟩
    cases hes
    exact h
  · exact fun h => ⟨file, es, rfl, h⟩

private theorem reloadsTo_of_ok {policy : RoutingPolicy} (loads : loadRoutingPolicy file = .ok policy) :
    ReloadsTo app file true fun s =>
      { s with useCase := newUseCase app policy, succeeded := s.succeeded + 1 } := by
  constructor
  · have hrun : Completes (completeReload app (loadRoutingPolicy file))
        [⟨.swapUseCase (newUseCase app policy), ()⟩] ⟨.ok true, [.succeeded]⟩ := by
      rw [loads]
      exact .await (.done _)
    exact ⟨_, _, completes_reload_iff.mpr hrun⟩
  · intro es reload h
    rw [completes_reload_iff, loads, completeReload, completes_await_iff] at h
    obtain ⟨_, tail, rfl, h⟩ := h
    obtain ⟨rfl, rfl⟩ := (completes_done_iff _ _ _).mp h
    exact ⟨rfl, fun s => rfl⟩

private theorem reloadsTo_of_error (loads : loadRoutingPolicy file = .error .routingPolicyLoad) :
    ReloadsTo app file false fun s => { s with failed := s.failed + 1 } := by
  constructor
  · have hrun : Completes (completeReload app (loadRoutingPolicy file))
        [⟨.activeUseCase, RoutingSpecification.Deployed.useCase⟩] ⟨.ok false, [.failed]⟩ := by
      rw [loads]
      exact .await (.done _)
    exact ⟨_, _, completes_reload_iff.mpr hrun⟩
  · intro es reload h
    rw [completes_reload_iff, loads, completeReload, completes_await_iff] at h
    obtain ⟨_, tail, rfl, h⟩ := h
    obtain ⟨rfl, rfl⟩ := (completes_done_iff _ _ _).mp h
    exact ⟨rfl, fun s => rfl⟩

private theorem not_counted_of_error {e : PyException} (loads : loadRoutingPolicy file = .error e)
    (other : e ≠ .routingPolicyLoad) : ¬ Counted app file := by
  intro h
  rcases h.loads with ⟨policy, hok⟩ | herror
  · cases loads.symm.trans hok
  · exact other (Except.error.inj (loads.symm.trans herror))

end Counting

namespace Deployed

open AuthorizedDecisions.Deployed (application)
open RoutingPolicyLoader.Deployed
open VerificationSpecification.Deployed (genuine)

end Deployed

end PolicyModelRouter.PolicyReload
