import ModelRouter.Application.Obligations
import ModelRouter.Application.World
import ModelRouter.Lib.Threads

/-!
# Exclusion by health

Requests share one in-memory health repository, in any interleaving (`healthMachine`). A model found
unavailable is in no chain, so it is not attempted and no outcome of it is recorded;
`unavailable_forever` : from a state without invocations in flight in which it is unavailable, it
stays so in every continuation.
-/

namespace ModelRouter
open Effects Prog RouteEvaluationService

/-! ## Requests on one repository -/

inductive UseCase where
  | evaluate (request : InferenceRequest)
  | invoke (request : InferenceRequest)
  | invokeStream (request : InferenceRequest)

def UseCase.program (orchestrator : InvocationOrchestrator) : UseCase → Prog Ports Unit
  | evaluate request => do
    let _ ← orchestrator.routeEvaluationService.evaluate request
    ret ()
  | invoke request => do
    let _ ← orchestrator.invoke request
    ret ()
  | invokeStream request => do
    let _ ← orchestrator.invokeStream request
    ret ()

/-- The repository answers its two ports; every other port may answer anything. -/
def healthMachine : Machine Ports InMemoryModelHealthRepository where
  act repository port reply repository' := match port with
    | .getHealth modelAlias =>
        reply = .ok (repository.getHealth modelAlias) ∧ repository' = repository
    | .recordOutcome modelAlias status =>
        reply = .ok () ∧ repository' = repository.recordOutcome modelAlias status
    | _ => repository' = repository
  tick _ _ := False

/-- An attempt at the model, or an outcome of it. -/
def AttemptOf (modelAlias : String) : Port → Prop
  | .invoke preq | .invokeStream preq => preq.modelAlias = modelAlias
  | .recordOutcome other _ => other = modelAlias
  | _ => False

/-! ## What exclusion asks of an attempt -/

/-- The repository finds the model unavailable, and it is not attempted. -/
def exclusionObligation (modelAlias : String) : Obligation where
  owes _ port := ¬ AttemptOf modelAlias port
  keeps port reply := match port with
    | .getHealth other => other = modelAlias → ∀ status, reply = .ok status → status = .unavailable
    | _ => True
  elsewhere tr port h := by cases port <;> first | exact id | exact absurd trivial h
  mono h _ := h

theorem not_eligible_of_unavailable {service : RouteEvaluationService}
    {requirements : EffectiveRoutingRequirements}
    {policy : RoutingPolicy} {messages : List Message} {model : ModelDefinition}
    {candidate : RouteCandidate}
    (h : service.evaluateModel requirements policy messages model .unavailable = .ok candidate) :
    candidate.eligible = false := by
  obtain ⟨-, -, -, -, heligible, -⟩ := evaluateCandidate_ok h
  rw [heligible, Bool.eq_false_iff]
  exact fun hpasses => ((candidateEligible_iff _ _).mp hpasses).health rfl

variable {modelAlias : String} {orchestrator : InvocationOrchestrator} {request : InferenceRequest}

theorem exclusion_admits (htracks : orchestrator.routeEvaluationService.tracksHealth = true) :
    (exclusionObligation modelAlias).Admits orchestrator.routeEvaluationService request := by
  intro tr decision policy hrun hkept _ other hmem
  obtain ⟨evaluated, -, hevaluated⟩ := run_evaluate hrun
  have hother : other ≠ modelAlias := by
    rintro rfl
    have heligible := InvocationOrchestrator.mem_buildCandidateChain hevaluated hmem
    cases hevaluated with
    | unavailable => cases heligible
    | considered decisionId createdAt candidates selection hallowed hcandidates hselection =>
        obtain ⟨candidate, hcandidate, halias⟩ := List.mem_map.mp heligible
        obtain ⟨hcandidate, hel⟩ := List.mem_filter.mp hcandidate
        obtain ⟨model, -, status, hreported, hmodel⟩ := exists_of_forall₂_mem hcandidates hcandidate
        have hname : model.modelAlias = other := (evaluateCandidate_ok hmodel).1 ▸ halias
        rw [Reported, if_pos htracks] at hreported
        have hstatus : status = .unavailable := hkept _ hreported hname status rfl
        subst hstatus
        rw [not_eligible_of_unavailable hmodel] at hel
        cases hel
  exact ⟨hother, hother, fun _ => hother⟩

/-- While the model is found unavailable, no use case attempts it. -/
theorem spec_useCase (htracks : orchestrator.routeEvaluationService.tracksHealth = true)
    (useCase : UseCase) :
    Spec (exclusionObligation modelAlias).monitor (useCase.program orchestrator) (fun _ _ => True)
    [] := by
  cases useCase with
  | evaluate request =>
      refine Spec.bind (InvocationOrchestrator.spec_elsewhere ?_) (fun _ _ _ =>
        trivial) fun _ _ _ => trivial
      refine (orchestrator.routeEvaluationService.only_evaluate request).mono fun port h => ?_
      cases port <;> first | exact id | exact h.elim
  | invoke request =>
      exact Spec.bind (InvocationOrchestrator.spec_invoke (exclusion_admits htracks))
        (fun _ _ _ => trivial)
        fun _ _ _ => trivial
  | invokeStream request =>
      exact Spec.bind (InvocationOrchestrator.spec_invokeStream (exclusion_admits htracks))
        (fun _ _ _ => trivial)
        fun _ _ _ => trivial

/-! ## Runs -/

variable {ι : Type} [DecidableEq ι]

/-- No invocation is in flight: each thread has not started or has ended. -/
def Quiescent (programs : ι → Prog Ports Unit)
    (c : Config Ports InMemoryModelHealthRepository ι Unit) : Prop :=
  ∀ i, c.threads i = programs i ∨ ∃ out, c.threads i = ofExcept out

/-- The configuration from which the further requests start. -/
def restart (c : Config Ports InMemoryModelHealthRepository ι Unit) :
    Config Ports InMemoryModelHealthRepository ι Unit :=
  { c with log := [] }

theorem lawful_unavailable
    {G : InMemoryModelHealthRepository → List (Entry Ports InMemoryModelHealthRepository ι) → Prop}
    {repository repository' : InMemoryModelHealthRepository}
    {log : List (Entry Ports InMemoryModelHealthRepository ι)}
    (hunavailable : repository.getHealth modelAlias = .unavailable)
    (h : healthMachine.Lawful (exclusionObligation modelAlias).monitor
      [] G repository repository' log) :
    repository'.getHealth modelAlias = .unavailable := by
  induction h with
  | init => exact hunavailable
  | tick _ htick => exact htick.elim
  | @call s s' log i port reply _ howes hact _ ih =>
      cases port with
      | getHealth other =>
          rw [hact.2]
          exact ih
      | recordOutcome other status =>
          have hother : ¬ other = modelAlias := howes
          rw [hact.2]
          exact InMemoryModelHealthRepository.unavailable_recordOutcome ih fun h =>
            absurd h.symm hother
      | _ =>
          rw [show s' = s from hact]
          exact ih

/-- What follows a state without invocations in flight keeps the protocol. -/
theorem lawful_restart {orchestrators : ι → InvocationOrchestrator} {useCases : ι → UseCase}
    {c c' : Config Ports InMemoryModelHealthRepository ι Unit}
    (htracks : ∀ i, (orchestrators i).routeEvaluationService.tracksHealth = true)
    (hquiescent : Quiescent (fun i => (useCases i).program (orchestrators i)) c)
    (hunavailable : c.shared.getHealth modelAlias = .unavailable)
    (hlater : healthMachine.Reachable (fun _ _ => True) (restart c) c') :
    healthMachine.Lawful (exclusionObligation modelAlias).monitor
    [] (fun _ _ => True) c.shared c'.shared c'.log := by
  have hspec : ∀ i, Spec (exclusionObligation modelAlias).monitor ((restart c).threads i)
      (fun _ _ => True) [] := by
    intro i
    have hthread : (restart c).threads i = c.threads i := rfl
    rcases hquiescent i with hinitial | ⟨out, hended⟩
    · rw [hthread, hinitial]
      exact spec_useCase (htracks i) (useCases i)
    · rw [hthread, hended]
      cases out <;> trivial
  refine (Machine.Reachable.lawful rfl hspec ?_ hlater).1
  intro s log i port reply s' hlawful _ hact
  cases port with
  | getHealth other =>
      rintro rfl status hstatus
      rw [hact.1] at hstatus
      cases hstatus
      exact lawful_unavailable hunavailable hlawful
  | _ => trivial

/-- **A model that is unavailable with nothing in flight stays unavailable**: in every continuation
it is not attempted, no outcome of it is recorded and no request finds it eligible. -/
theorem unavailable_forever {orchestrators : ι → InvocationOrchestrator} {useCases : ι → UseCase}
    {c c' : Config Ports InMemoryModelHealthRepository ι Unit}
    (htracks : ∀ i, (orchestrators i).routeEvaluationService.tracksHealth = true)
    (hquiescent : Quiescent (fun i => (useCases i).program (orchestrators i)) c)
    (hunavailable : c.shared.getHealth modelAlias = .unavailable)
    (hlater : healthMachine.Reachable (fun _ _ => True) (restart c) c') :
    c'.shared.getHealth modelAlias = .unavailable ∧
    (∀ entry ∈ c'.log, ¬ AttemptOf modelAlias entry.event.call) ∧
      ∀ (service : RouteEvaluationService) requirements policy messages model candidate,
        service.evaluateModel requirements policy messages model (c'.shared.getHealth modelAlias) =
          .ok candidate →
        candidate.eligible = false := by
  have hlawful := lawful_restart htracks hquiescent hunavailable hlater
  have hstill := lawful_unavailable hunavailable hlawful
  refine ⟨hstill, fun entry hentry => ?_,
    fun service requirements policy messages model candidate hmodel => ?_⟩
  · obtain ⟨later, past, hlog⟩ := List.append_of_mem hentry
    rw [hlog] at hlawful
    exact hlawful.split.2.1
  · rw [hstill] at hmodel
    exact not_eligible_of_unavailable hmodel

/-! ## A model that was eligible and does not recover -/

theorem healthMachine_world (world : World) (port : Port) (s : WorldState) :
    healthMachine.act s.health port (world.answer port s).1 (world.answer port s).2.health := by
  cases port with
  | publishMetrics result => simp only [World.answer, EmfMetricsPublisher.publish_ok, healthMachine]
  | getHealth modelAlias => exact ⟨rfl, rfl⟩
  | recordOutcome modelAlias status => exact ⟨rfl, rfl⟩
  | _ => rfl

namespace Scenario

/-- Two consecutive failures make a model unavailable. -/
def repository : InMemoryModelHealthRepository := { degradedAfter := 1, unavailableAfter := 2 }

/-- Two invocations of the scenario's request, then any further requests. -/
def useCases (further : Nat → UseCase) (i : Nat) : UseCase :=
  if i < 2 then .invoke Scenario.request else further i

def programs (further : Nat → UseCase) (i : Nat) : Prog Ports Unit :=
  (useCases further i).program Scenario.orchestrator

/-- None of the requests has started. -/
def start (further : Nat → UseCase) : Config Ports InMemoryModelHealthRepository Nat Unit where
  shared := repository
  threads := programs further
  log := []

def invocation : Prog Ports Unit := (UseCase.invoke Scenario.request).program Scenario.orchestrator

/-- The state after two invocations, one after the other, in which the primary model is
throttled. -/
def afterTwo : WorldState :=
  (exec throttled.answer invocation (exec throttled.answer invocation { health := repository }).2).2

theorem reach_afterTwo (further : Nat → UseCase) :
    ∃ c, healthMachine.Reachable (fun _ _ => True) (start further) c ∧
    Quiescent (programs further) c ∧ c.shared = afterTwo.health := by
  have hrefl : healthMachine.Reachable (fun _ _ => True) (start further) (start further) :=
    Machine.Reachable.refl
  have hstart : (start further).shared = ({ health := repository } : WorldState).health := rfl
  have hthread : ∀ i < 2, (start further).threads i = invocation := by
    intro i hi
    show (if i < 2 then UseCase.invoke Scenario.request
        else further i).program Scenario.orchestrator = invocation
    rw [if_pos hi, invocation]
  obtain ⟨log, hfirst⟩ := Machine.Reachable.exec WorldState.health
    (healthMachine_world throttled) hrefl 0 hstart
  rw [hthread 0 (by decide)] at hfirst
  obtain ⟨log', hsecond⟩ :=
    Machine.Reachable.exec WorldState.health (healthMachine_world throttled) hfirst 1 rfl
  dsimp only at hsecond
  rw [Function.update_of_ne (by decide : (1 : Nat) ≠ 0), hthread 1 (by decide)] at hsecond
  refine ⟨_, hsecond, fun i => ?_, by rw [afterTwo]⟩
  dsimp only
  by_cases h1 : i = 1
  · subst h1
    rw [Function.update_self]
    exact Or.inr ⟨_, rfl⟩
  · rw [Function.update_of_ne h1]
    by_cases h0 : i = 0
    · subst h0
      rw [Function.update_self]
      exact Or.inr ⟨_, rfl⟩
    · rw [Function.update_of_ne h0]
      exact Or.inl rfl

theorem afterTwo_unavailable : afterTwo.health.getHealth "primary" = .unavailable := by
  decide +kernel

/-- The primary model was eligible at first; after two invocations it is unavailable, and whatever
the further requests and the outcomes of their calls, it never recovers. -/
theorem exclusion_not_recoverable :
    (∃ candidate, Scenario.orchestrator.routeEvaluationService.evaluateModel
      (resolveEffectiveRequirements Scenario.request.requirements policy) policy
        Scenario.request.messages
      (model "primary" 3) (repository.getHealth "primary") = .ok candidate ∧
      candidate.eligible = true) ∧
    ∀ further, ∃ c, healthMachine.Reachable (fun _ _ => True) (start further) c ∧
      Quiescent (programs further) c ∧
      c.shared = afterTwo.health ∧ c.shared.getHealth "primary" = .unavailable ∧
      ∀ c', healthMachine.Reachable (fun _ _ => True) (restart c) c' →
        c'.shared.getHealth "primary" = .unavailable := by
  refine ⟨?_, fun further => ?_⟩
  · have heligible : (Scenario.orchestrator.routeEvaluationService.evaluateModel
        (resolveEffectiveRequirements Scenario.request.requirements policy) policy
          Scenario.request.messages
        (model "primary" 3) (repository.getHealth "primary")).toOption.map (·.eligible) =
          some true := by
      decide +kernel
    cases h : Scenario.orchestrator.routeEvaluationService.evaluateModel
        (resolveEffectiveRequirements Scenario.request.requirements policy) policy
          Scenario.request.messages
        (model "primary" 3) (repository.getHealth "primary") with
    | error x =>
        rw [h] at heligible
        cases heligible
    | ok candidate =>
        rw [h] at heligible
        exact ⟨candidate, rfl, Option.some.inj heligible⟩
  · obtain ⟨c, hreach, hquiescent, hshared⟩ := reach_afterTwo further
    have hunavailable : c.shared.getHealth "primary" = .unavailable :=
      hshared ▸ afterTwo_unavailable
    refine ⟨c, hreach, hquiescent, hshared, hunavailable, fun c' hlater => ?_⟩
    exact lawful_unavailable hunavailable
      (@lawful_restart "primary" Nat _ (fun _ => Scenario.orchestrator)
      (useCases further) c c' (fun _ => rfl) hquiescent hunavailable hlater)

/-- A third invocation, on its way from there, does not attempt the primary model. -/
theorem third_not_attempted : ∃ c c', healthMachine.Reachable (fun _ _ => True) (restart c) c' ∧
    c.shared = afterTwo.health ∧ (∃ out, c'.threads 2 = ofExcept out) ∧
    ∀ entry ∈ c'.log, ¬ AttemptOf "primary" entry.event.call := by
  obtain ⟨c, -, hquiescent, hshared⟩ := reach_afterTwo fun _ => .invoke Scenario.request
  have hunavailable : c.shared.getHealth "primary" = .unavailable := hshared ▸ afterTwo_unavailable
  have hrefl : healthMachine.Reachable (fun _ _ => True) (restart c) (restart c) :=
    Machine.Reachable.refl
  obtain ⟨log, hthird⟩ := Machine.Reachable.exec WorldState.health
    (healthMachine_world throttled) hrefl 2 hshared
  refine ⟨c, _, hthird, hshared, ?_, ?_⟩
  · dsimp only
    rw [Function.update_self]
    exact ⟨_, rfl⟩
  exact (@unavailable_forever "primary" Nat _ (fun _ => Scenario.orchestrator)
    (useCases fun _ => .invoke Scenario.request) c _ (fun _ =>
      rfl) hquiescent hunavailable hthird).2.1

end Scenario

end ModelRouter
