import ModelRouter.Application.Ports
import ModelRouter.Domain.Strategy

/-!
# Route evaluation

`RouteEvaluationService.evaluate` resolves the policy, filters the catalogued models and lets the
strategy select. `Evaluated` says what its decision is (`run_evaluate`): either the capability is
unavailable, or the decision explains a selection among the considered candidates.
-/

namespace ModelRouter
open Effects Prog

structure RouteEvaluationService where
  modelCatalogue : ModelCatalogue
  tokenEstimator : TokenEstimator := DefaultTokenEstimator
  costEstimator : CostEstimator := DefaultCostEstimator
  digestPrefix : String → Nat
  /-- A `model_health_repository` is configured. -/
  tracksHealth : Bool

namespace RouteEvaluationService

variable (service : RouteEvaluationService)

def healthStatus (modelAlias : String) : Prog Ports ModelHealthStatus :=
  if service.tracksHealth then ask (.getHealth modelAlias) else ret .healthy

def evaluateModel (requirements : EffectiveRoutingRequirements) (policy : RoutingPolicy)
    (messages : List Message) (model : ModelDefinition) (healthStatus : ModelHealthStatus) :
    Except PyException RouteCandidate :=
  evaluateCandidate model requirements policy service.tokenEstimator service.costEstimator messages
    healthStatus

def buildRouteCandidates (requirements : EffectiveRoutingRequirements) (policy : RoutingPolicy)
    (messages : List Message) : List ModelDefinition → Prog Ports (List RouteCandidate)
  | [] => ret []
  | model :: models => do
    let healthStatus ← service.healthStatus model.modelAlias
    let candidate ← ofExcept (service.evaluateModel requirements policy messages model healthStatus)
    let candidates ← buildRouteCandidates requirements policy messages models
    ret (candidate :: candidates)

def routeSelection (request : InferenceRequest) (policy : RoutingPolicy)
    (candidates : List RouteCandidate) :
    Except PyException RouteSelection :=
  (getStrategy service.digestPrefix policy.routingStrategy).select
    (candidates.filter (·.eligible)) policy
    (resolveEffectiveRequirements request.requirements policy)
    { applicationId := request.applicationId, conversationId := request.conversationId }

def routeReasonCodes (selection : RouteSelection) : List RoutingReasonCode :=
  match selection.selected with
  | none => [.noEligibleModel]
  | some selected => sortReasonCodes (selected.reasonCodes ++ selection.additionalReasonCodes)

/-- The decision `_build_decision` constructs, given its identifier and time. -/
def routingDecision (request : InferenceRequest) (policy : RoutingPolicy)
    (selection : RouteSelection)
    (candidates : List RouteCandidate) (reasonCodes : List RoutingReasonCode) (decisionId : String)
    (createdAt : Nat) : RoutingDecision where
  decisionId := decisionId
  applicationId := request.applicationId
  createdAt := createdAt
  policyId := policy.policyId
  policyVersion := policy.policyVersion
  capability := request.requirements.capability
  selectedModelAlias := selection.selected.map (·.modelAlias)
  provider := selection.selected.map (·.provider)
  reasonCodes := reasonCodes
  consideredCandidates := candidates
  estimatedUsage := selection.selected.map (·.estimatedUsage)
  estimatedCost := selection.selected.map (·.estimatedCost)

def buildDecision (request : InferenceRequest) (policy : RoutingPolicy) (selection : RouteSelection)
    (candidates : List RouteCandidate) (reasonCodes : List RoutingReasonCode) :
      Prog Ports RoutingDecision := do
  let decisionId ← ask (.newId "dec")
  let createdAt ← ask .now
  ret (routingDecision request policy selection candidates reasonCodes decisionId createdAt)

def evaluate (request : InferenceRequest) : Prog Ports RoutingDecision := do
  let policy ← ask (.resolve request.applicationId)
  let capability := request.requirements.capability
  if capability ∉ policy.allowedCapabilities then
    buildDecision request policy { selected := none } [] [.requiredCapabilityUnavailable]
  else
    let effective := resolveEffectiveRequirements request.requirements policy
    let models := service.modelCatalogue.findByCapability effective.capability
    if models = [] then
      buildDecision request policy { selected := none } [] [.requiredCapabilityUnavailable]
    else
      let candidates ← service.buildRouteCandidates effective policy request.messages models
      let selection ← ofExcept (service.routeSelection request policy candidates)
      buildDecision request policy selection candidates (routeReasonCodes selection)

/-! ## The ports of an evaluation -/

def EvaluationPort : Port → Prop
  | .resolve _ | .getHealth _ | .newId _ | .now => True
  | _ => False

theorem only_buildRouteCandidates (requirements : EffectiveRoutingRequirements)
    (policy : RoutingPolicy) (messages : List Message) (models : List ModelDefinition) :
    Only EvaluationPort (service.buildRouteCandidates requirements policy messages models) := by
  induction models with
  | nil => trivial
  | cons model models ih =>
      refine Only.bind ?_ fun status => Only.bind (Only.ofExcept _) fun candidate =>
        Only.bind ih fun _ => trivial
      unfold healthStatus
      split
      · exact Only.perform trivial
      · trivial

theorem only_buildDecision (request : InferenceRequest) (policy : RoutingPolicy)
    (selection : RouteSelection)
    (candidates : List RouteCandidate) (reasonCodes : List RoutingReasonCode) :
    Only EvaluationPort (buildDecision request policy selection candidates reasonCodes) :=
  Only.bind (Only.perform trivial) fun _ => Only.bind (Only.perform trivial) fun _ => trivial

theorem only_evaluate (request : InferenceRequest) :
    Only EvaluationPort (service.evaluate request) := by
  refine Only.bind (Only.perform trivial) fun policy => ?_
  dsimp only
  split
  · exact only_buildDecision _ _ _ _ _
  · split
    · exact only_buildDecision _ _ _ _ _
    · exact Only.bind (service.only_buildRouteCandidates _ _ _ _) fun _ =>
        Only.bind (Only.ofExcept _) fun _ => only_buildDecision _ _ _ _ _

/-! ## What a decision is -/

/-- The status a candidate was evaluated at: the repository's reply, or `healthy` without one. -/
def Reported (tr : List (Event Ports)) (modelAlias : String) (status : ModelHealthStatus) : Prop :=
  if service.tracksHealth then (⟨.getHealth modelAlias, .ok status⟩ : Event Ports) ∈ tr
    else status = .healthy

/-- The candidate of a model, at the health status reported in `tr`. -/
def CandidateOf (requirements : EffectiveRoutingRequirements) (policy : RoutingPolicy)
    (messages : List Message) (tr : List (Event Ports)) (model : ModelDefinition)
    (candidate : RouteCandidate) : Prop :=
  ∃ status, service.Reported tr model.modelAlias status ∧
    service.evaluateModel requirements policy messages model status = .ok candidate

/-- The models of the requested capability. -/
def requestedModels (request : InferenceRequest) : List ModelDefinition :=
  service.modelCatalogue.findByCapability request.requirements.capability

/-- The candidates of a request: one for each model of the capability, in order. -/
def Candidates (request : InferenceRequest) (policy : RoutingPolicy) (tr : List (Event Ports))
    (candidates : List RouteCandidate) : Prop :=
  List.Forall₂ (service.CandidateOf
    (resolveEffectiveRequirements request.requirements policy) policy
    request.messages tr) (service.requestedModels request) candidates

/-- What `evaluate` decides under a policy, with the replies `tr`. -/
inductive Evaluated (request : InferenceRequest) (policy : RoutingPolicy)
    (tr : List (Event Ports)) :
    RoutingDecision → Prop
  | unavailable (decisionId : String) (createdAt : Nat)
      (h : request.requirements.capability ∉ policy.allowedCapabilities ∨
        service.requestedModels request = []) :
      Evaluated request policy tr (routingDecision request policy { selected := none } []
        [.requiredCapabilityUnavailable] decisionId createdAt)
  | considered (decisionId : String) (createdAt : Nat) (candidates : List RouteCandidate)
      (selection : RouteSelection)
      (hallowed : request.requirements.capability ∈ policy.allowedCapabilities)
      (hcandidates : service.Candidates request policy tr candidates)
      (hselection : service.routeSelection request policy candidates = .ok selection) :
      Evaluated request policy tr
        (routingDecision request policy selection candidates (routeReasonCodes selection)
        decisionId createdAt)

variable {service} {request : InferenceRequest} {policy : RoutingPolicy}
  {requirements : EffectiveRoutingRequirements} {messages : List Message}
  {tr tr' : List (Event Ports)} {decision : RoutingDecision}

theorem Reported.mono {modelAlias : String} {status : ModelHealthStatus}
    (h : service.Reported tr modelAlias status) (htr : ∀ ev ∈ tr, ev ∈ tr') :
    service.Reported tr' modelAlias status := by
  unfold Reported at h ⊢
  split
  · rename_i hs
    rw [if_pos hs] at h
    exact htr _ h
  · rename_i hs
    rw [if_neg hs] at h
    exact h

theorem CandidateOf.mono {model : ModelDefinition} {candidate : RouteCandidate}
    (h : service.CandidateOf requirements policy messages tr model candidate)
    (htr : ∀ ev ∈ tr, ev ∈ tr') :
    service.CandidateOf requirements policy messages tr' model candidate := by
  obtain ⟨status, hstatus, hcandidate⟩ := h
  exact ⟨status, hstatus.mono htr, hcandidate⟩

theorem model_eq_of_alias {model model' : ModelDefinition} {candidate candidate' : RouteCandidate}
    {status status' : ModelHealthStatus} (hmodel : model ∈ service.requestedModels request)
    (hmodel' : model' ∈ service.requestedModels request)
    (h : service.evaluateModel requirements policy messages model status = .ok candidate)
    (h' : service.evaluateModel requirements policy messages model' status' = .ok candidate')
    (halias : candidate.modelAlias = candidate'.modelAlias) : model = model' := by
  have hname := (evaluateCandidate_ok h).1
  have hname' := (evaluateCandidate_ok h').1
  refine ModelCatalogue.eq_of_alias (ModelCatalogue.mem_findByCapability.mp hmodel).1
    (ModelCatalogue.mem_findByCapability.mp hmodel').1 ?_
  rw [← hname, ← hname', halias]

theorem exists_of_forall₂_mem {α β : Type} {R : α → β → Prop} {l : List α} {l' : List β}
    (h : List.Forall₂ R l l') {b : β} (hb : b ∈ l') : ∃ a ∈ l, R a b := by
  induction h with
  | nil => cases hb
  | cons hab _ ih =>
      rcases List.mem_cons.mp hb with rfl | hb
      · exact ⟨_, List.mem_cons_self, hab⟩
      · obtain ⟨a, ha, hR⟩ := ih hb
        exact ⟨a, List.mem_cons_of_mem _ ha, hR⟩

theorem run_healthStatus {modelAlias : String} {status : ModelHealthStatus}
    (h : Run (service.healthStatus modelAlias) tr (.ok status)) :
      service.Reported tr modelAlias status := by
  unfold healthStatus at h
  unfold Reported
  split
  · rename_i hs
    rw [if_pos hs] at h
    rw [(run_perform_ok_iff _ _ _).mp h]
    exact List.mem_singleton_self _
  · rename_i hs
    rw [if_neg hs] at h
    obtain ⟨-, hstatus⟩ := (run_ret_iff _ _ _).mp h
    cases hstatus
    rfl

theorem run_buildRouteCandidates (models : List ModelDefinition) (candidates : List RouteCandidate)
    (h : Run (service.buildRouteCandidates requirements policy messages models) tr
      (.ok candidates)) :
    List.Forall₂ (service.CandidateOf requirements policy messages tr) models candidates := by
  induction models generalizing tr candidates with
  | nil =>
      obtain ⟨-, h⟩ := (run_ret_iff _ _ _).mp h
      cases h
      exact List.Forall₂.nil
  | cons model models ih =>
      obtain ⟨status, tr₁, tr₂, rfl, h₁, h₂⟩ := (run_bind_ok_iff _ _ _ _).mp h
      obtain ⟨candidate, tr₃, tr₄, rfl, h₃, h₄⟩ := (run_bind_ok_iff _ _ _ _).mp h₂
      obtain ⟨rest, tr₅, tr₆, rfl, h₅, h₆⟩ := (run_bind_ok_iff _ _ _ _).mp h₄
      obtain ⟨-, hcandidates⟩ := (run_ret_iff _ _ _).mp h₆
      obtain ⟨-, hcandidate⟩ := (run_ofExcept_iff _ _ _).mp h₃
      cases hcandidates
      refine List.Forall₂.cons ⟨status, (run_healthStatus h₁).mono ?_, hcandidate.symm⟩ ?_
      · intro ev hev
        exact List.mem_append_left _ hev
      · refine (ih rest h₅).imp fun m c hc => hc.mono ?_
        intro ev hev
        simp [hev]

theorem run_buildDecision {selection : RouteSelection} {candidates : List RouteCandidate}
    {reasonCodes : List RoutingReasonCode}
    (h : Run (buildDecision request policy selection candidates reasonCodes) tr (.ok decision)) :
    ∃ decisionId createdAt,
      decision = routingDecision request policy selection candidates reasonCodes decisionId
        createdAt := by
  obtain ⟨decisionId, tr₁, rfl, h₁⟩ := (run_perform_bind_ok_iff _ _ _ _).mp h
  obtain ⟨createdAt, tr₂, rfl, h₂⟩ := (run_perform_bind_ok_iff _ _ _ _).mp h₁
  obtain ⟨-, hdecision⟩ := (run_ret_iff _ _ _).mp h₂
  cases hdecision
  exact ⟨decisionId, createdAt, rfl⟩

/-- **What an evaluation decides**, under the policy it resolved. -/
theorem run_evaluate (h : Run (service.evaluate request) tr (.ok decision)) :
    ∃ policy, (⟨.resolve request.applicationId, .ok policy⟩ : Event Ports) ∈ tr ∧
      service.Evaluated request policy tr decision := by
  obtain ⟨policy, tr₁, rfl, hrest⟩ := (run_perform_bind_ok_iff _ _ _ _).mp h
  refine ⟨policy, List.mem_cons_self, ?_⟩
  dsimp only at hrest
  split at hrest
  · rename_i hcap
    obtain ⟨decisionId, createdAt, rfl⟩ := run_buildDecision hrest
    exact Evaluated.unavailable decisionId createdAt (Or.inl hcap)
  · rename_i hcap
    split at hrest
    · rename_i hmodels
      obtain ⟨decisionId, createdAt, rfl⟩ := run_buildDecision hrest
      exact Evaluated.unavailable decisionId createdAt (Or.inr hmodels)
    · obtain ⟨candidates, tr₂, tr₃, rfl, h₁, h₂⟩ := (run_bind_ok_iff _ _ _ _).mp hrest
      obtain ⟨selection, tr₄, tr₅, rfl, h₄, h₅⟩ := (run_bind_ok_iff _ _ _ _).mp h₂
      obtain ⟨decisionId, createdAt, rfl⟩ := run_buildDecision h₅
      obtain ⟨-, hselection⟩ := (run_ofExcept_iff _ _ _).mp h₄
      refine Evaluated.considered decisionId createdAt candidates selection
        (not_not.mp hcap) ?_ hselection.symm
      refine (run_buildRouteCandidates _ _ h₁).imp fun m c hc => hc.mono ?_
      intro ev hev
      simp [hev]

end RouteEvaluationService

end ModelRouter
