import ModelRouter.Application.HealthExclusion
import ModelRouter.Application.Prediction
import ModelRouter.Composition.ContentIsolation

/-!
# Health as a history

The counter of an alias is the number of its failures since its last success, in the history of all
outcomes.

* `trailingFailures` : that number (`consecutiveFailures_recordOutcomes`);
* `Invocations` : a sequence of invocations on one repository;
* `Balanced` : an invocation saves no audit record, or one with exactly the attempts whose outcomes
  it has recorded (`run_balanced`);
* `health_of_attempts` : after a sequence of invocations a candidate is unhealthy exactly where the
  attempts of its alias end in enough failures. An invocation that raises after an attempt saves no
  audit record, and its attempts count.
-/

namespace ModelRouter
open Effects Prog RouteEvaluationService
open InvocationOrchestrator (recordedOutcomes)

/-! ## The history of an alias -/

abbrev OutcomeHistory := List (String × InvocationAttemptStatus)

/-- The failures of the alias since its last success. -/
def trailingFailures (modelAlias : String) (outcomes : OutcomeHistory) : Nat :=
  (((outcomes.filter (·.1 = modelAlias)).map (·.2)).reverse.takeWhile (· ≠ .succeeded)).countP
    (· ∈ healthAffectingStatuses)

namespace InMemoryModelHealthRepository
variable {repository : InMemoryModelHealthRepository} {modelAlias other : String}
  {status : InvocationAttemptStatus} {outcomes : OutcomeHistory}

def recordOutcomes (repository : InMemoryModelHealthRepository) (outcomes : OutcomeHistory) :
    InMemoryModelHealthRepository :=
  outcomes.foldl (fun repository outcome => repository.recordOutcome outcome.1 outcome.2) repository

theorem recordOutcomes_append (outcomes outcomes' : OutcomeHistory) :
    repository.recordOutcomes (outcomes ++ outcomes') =
      (repository.recordOutcomes outcomes).recordOutcomes outcomes' :=
  List.foldl_append

theorem consecutiveFailures_recordOutcome_self :
    (repository.recordOutcome modelAlias status).consecutiveFailures modelAlias =
    if status = .succeeded then 0
    else if status ∈ healthAffectingStatuses then repository.consecutiveFailures modelAlias + 1
    else repository.consecutiveFailures modelAlias := by
  unfold recordOutcome setFailures
  split_ifs <;> simp

theorem degradedAfter_recordOutcome (modelAlias : String) (status : InvocationAttemptStatus) :
    (repository.recordOutcome modelAlias status).degradedAfter = repository.degradedAfter := by
  unfold recordOutcome setFailures
  split_ifs <;> rfl

theorem trailingFailures_other (h : other ≠ modelAlias) :
    trailingFailures modelAlias (outcomes ++ [(other, status)]) =
      trailingFailures modelAlias outcomes := by
  simp [trailingFailures, h]

theorem trailingFailures_own : trailingFailures modelAlias (outcomes ++ [(modelAlias, status)]) =
    if status = .succeeded then 0
    else if status ∈ healthAffectingStatuses then trailingFailures modelAlias outcomes + 1
    else trailingFailures modelAlias outcomes := by
  unfold trailingFailures
  rw [List.filter_append, List.map_append, List.reverse_append]
  by_cases hsucceeded : status = .succeeded
  · simp [hsucceeded]
  · by_cases haffecting : status ∈ healthAffectingStatuses <;> simp [hsucceeded, haffecting]

/-- **The counter of an alias is its trailing failures.** -/
theorem consecutiveFailures_recordOutcomes
    (hfresh : ∀ modelAlias, repository.consecutiveFailures modelAlias = 0)
    (outcomes : OutcomeHistory) (modelAlias : String) :
    (repository.recordOutcomes outcomes).consecutiveFailures modelAlias =
      trailingFailures modelAlias outcomes := by
  induction outcomes using List.reverseRecOn with
  | nil => exact hfresh modelAlias
  | append_singleton outcomes outcome ih =>
      obtain ⟨other, status⟩ := outcome
      rw [recordOutcomes_append]
      show ((repository.recordOutcomes outcomes).recordOutcome other status).consecutiveFailures
          modelAlias = _
      by_cases hother : other = modelAlias
      · subst hother
        rw [consecutiveFailures_recordOutcome_self, trailingFailures_own, ih]
      · rw [consecutiveFailures_recordOutcome_ne status (Ne.symm hother),
          trailingFailures_other hother, ih]

theorem thresholds_recordOutcomes (outcomes : OutcomeHistory) :
    (repository.recordOutcomes outcomes).degradedAfter = repository.degradedAfter ∧
      (repository.recordOutcomes outcomes).unavailableAfter = repository.unavailableAfter := by
  induction outcomes generalizing repository with
  | nil => exact ⟨rfl, rfl⟩
  | cons outcome outcomes ih =>
      obtain ⟨hdegraded, hunavailable⟩ := @ih (repository.recordOutcome outcome.1 outcome.2)
      exact ⟨hdegraded.trans (degradedAfter_recordOutcome _ _),
        hunavailable.trans (unavailableAfter_recordOutcome _ _)⟩

theorem getHealth_recordOutcomes
    (hfresh : ∀ modelAlias, repository.consecutiveFailures modelAlias = 0)
    (outcomes : OutcomeHistory) (modelAlias : String) :
      (repository.recordOutcomes outcomes).getHealth modelAlias =
      if repository.unavailableAfter ≤ trailingFailures modelAlias outcomes then .unavailable
      else if repository.degradedAfter ≤ trailingFailures modelAlias outcomes then .degraded
      else .healthy := by
  obtain ⟨hdegraded, hunavailable⟩ := @thresholds_recordOutcomes repository outcomes
  unfold getHealth
  rw [consecutiveFailures_recordOutcomes hfresh, hdegraded, hunavailable]

theorem getHealth_recordOutcome (h : other ≠ modelAlias ∨ status = .nonRetryableError) :
    (repository.recordOutcome other status).getHealth modelAlias =
      repository.getHealth modelAlias := by
  unfold getHealth
  rw [degradedAfter_recordOutcome, unavailableAfter_recordOutcome]
  rcases h with hother | rfl
  · rw [consecutiveFailures_recordOutcome_ne status (Ne.symm hother)]
  · rfl

end InMemoryModelHealthRepository
open InMemoryModelHealthRepository

/-! ## The books of an invocation -/

def outcomesOf (attempts : List InvocationAttempt) : OutcomeHistory :=
  attempts.map fun attempt => (attempt.modelAlias, attempt.status)

/-- The outcomes that were recorded, and the audit records that were saved. -/
structure Books where
  outcomes : OutcomeHistory := []
  saved : List AuditRecord := []

def Books.next (books : Books) : (port : Port) → Except PyException port.Answer → Books
  | .recordOutcome modelAlias status, _ =>
      { books with outcomes := books.outcomes ++ [(modelAlias, status)] }
  | .save auditRecord, .ok _ => { books with saved := books.saved ++ [auditRecord] }
  | _, _ => books

/-- An observer that keeps the books. -/
def bookkeeping : Monitor Ports Books where
  owes _ _ := True
  relies _ _ _ := True
  next := Books.next

/-- No audit record has been saved, or one with exactly the attempts whose outcomes have been
recorded. -/
def Balanced (books : Books) : Prop :=
  books.saved = [] ∨ ∃ auditRecord, books.saved = [auditRecord] ∧
    books.outcomes = outcomesOf auditRecord.invocationAttempts

theorem kept_bookkeeping (books : Books) (tr : List (Event Ports)) : bookkeeping.Kept books tr := by
  induction tr generalizing books with
  | nil => trivial
  | cons event tr ih => exact ⟨trivial, ih _⟩

theorem after_bookkeeping (books : Books) (tr : List (Event Ports)) : bookkeeping.after books tr =
    { outcomes := books.outcomes ++ recordedOutcomes tr,
      saved := books.saved ++ tr.flatMap savedRecords } := by
  induction tr generalizing books with
  | nil => simp [Monitor.after, recordedOutcomes]
  | cons event tr ih =>
      obtain ⟨port, reply⟩ := event
      rw [Monitor.after, ih, List.flatMap_cons]
      cases port with
      | recordOutcome modelAlias status =>
          simp [bookkeeping, Books.next, savedRecords, recordedOutcomes]
      | save auditRecord =>
          cases reply <;> simp [bookkeeping, Books.next, savedRecords, recordedOutcomes]
      | _ => simp [bookkeeping, Books.next, savedRecords, recordedOutcomes]

/-- The ports that are entered in the books. -/
def BookPort : Port → Prop
  | .recordOutcome _ _ | .save _ => True
  | _ => False

theorem spec_quiet {α : Type} {p : Prog Ports α} (h : Only (fun port => ¬ BookPort port) p)
    (books : Books) :
    Spec bookkeeping p (fun _ books' => books' = books) books := by
  refine h.spec fun port hport => ⟨trivial, fun reply => ?_⟩
  cases port <;> first | rfl | exact absurd trivial hport

section Invocation
variable {orchestrator : InvocationOrchestrator} {request : InferenceRequest}
  {decision : RoutingDecision} {books : Books}

theorem spec_recordHealthOutcome_books (hhealth : orchestrator.hasModelHealthRepository = true)
    (modelAlias : String) (status : InvocationAttemptStatus) :
      Spec bookkeeping (orchestrator.recordHealthOutcome modelAlias status)
      (fun _ books' => books' = { books with outcomes := books.outcomes ++ [(modelAlias, status)] })
        books := by
  unfold InvocationOrchestrator.recordHealthOutcome
  rw [if_pos hhealth]
  exact Spec.perform trivial fun reply _ => rfl

theorem spec_attemptChain_books (hhealth : orchestrator.hasModelHealthRepository = true)
    {effective : EffectiveRoutingRequirements} (chain : List String)
    (st : InvocationOrchestrator.Attempts)
    (hsaved : books.saved = []) (houtcomes : books.outcomes = outcomesOf st.attempts) :
    Spec bookkeeping (orchestrator.attemptChain request decision effective chain st)
      (fun out books' => books'.saved = [] ∧ ∀ st', out = .ok st' →
        books'.outcomes = outcomesOf st'.attempts) books := by
  induction chain generalizing st books with
  | nil =>
      refine ⟨hsaved, fun st' hst => ?_⟩
      rw [← Except.ok.inj hst]
      exact houtcomes
  | cons modelAlias chain ih =>
      refine Spec.performBind trivial (fun startedAt _ => ?_) fun _ _ => ⟨hsaved, by simp⟩
      refine Spec.tryPerformBind trivial fun reply _ => ?_
      split
      · refine Spec.performBind trivial (fun finishedAt _ => ?_) fun _ _ => ⟨hsaved, by simp⟩
        refine Spec.bind (spec_recordHealthOutcome_books hhealth _ _) ?_ ?_
        · rintro _ _ rfl
          dsimp only
          split
          · refine ⟨hsaved, fun st' hst => ?_⟩
            rw [← Except.ok.inj hst]
            simp [InvocationOrchestrator.Attempts.failed, outcomesOf, houtcomes, bookkeeping,
              Books.next]
          · apply ih
            · exact hsaved
            · simp [InvocationOrchestrator.Attempts.failed, outcomesOf, houtcomes, bookkeeping,
                Books.next]
        · rintro _ _ rfl
          exact ⟨hsaved, by simp⟩
      · exact ⟨hsaved, by simp⟩
      · refine Spec.performBind trivial (fun finishedAt _ => ?_) fun _ _ => ⟨hsaved, by simp⟩
        refine Spec.bind (spec_recordHealthOutcome_books hhealth _ _) ?_ ?_
        · rintro _ _ rfl
          refine ⟨hsaved, fun st' hst => ?_⟩
          rw [← Except.ok.inj hst]
          simp [outcomesOf, houtcomes, bookkeeping, Books.next]
        · rintro _ _ rfl
          exact ⟨hsaved, by simp⟩

theorem spec_record_books (result : InferenceResult) (hsaved : books.saved = [])
    (houtcomes : books.outcomes = outcomesOf result.invocationAttempts) :
    Spec bookkeeping (orchestrator.record result) (fun _ books' => Balanced books') books := by
  have hquiet : ∀ books, Balanced books → Spec bookkeeping
      (do
        orchestrator.publishMetrics result
        orchestrator.publishDecisionEvent result
        ret result : Prog Ports InferenceResult)
      (fun _ books' => Balanced books') books := by
    intro books hbalanced
    refine (spec_quiet ?_ books).mono fun _ books' h => h ▸ hbalanced
    refine Only.bind ((orchestrator.only_publishMetrics result).mono ?_) fun _ =>
      Only.bind ((orchestrator.only_publishDecisionEvent result).mono ?_) fun _ => trivial
    all_goals
      rintro port rfl
      exact id
  unfold InvocationOrchestrator.record InvocationOrchestrator.persist
  split
  · refine Spec.performBind trivial (fun _ _ => ?_) fun _ _ => Or.inl hsaved
    apply hquiet
    refine Or.inr ⟨{ decision := result.decision, invocationAttempts := result.invocationAttempts },
      ?_, houtcomes⟩
    show books.saved ++ [_] = [_]
    rw [hsaved, List.nil_append]
  · exact hquiet books (Or.inl hsaved)

theorem spec_invokeUncached_books (hhealth : orchestrator.hasModelHealthRepository = true) :
    Spec bookkeeping (orchestrator.invokeUncached request) (fun _ books => Balanced books) {} := by
  have hevaluate : Only (fun port => ¬ BookPort port)
      (orchestrator.routeEvaluationService.evaluate request) := by
    refine (orchestrator.routeEvaluationService.only_evaluate request).mono fun port h => ?_
    cases port <;> first | exact id | exact h.elim
  refine Spec.bind (spec_quiet hevaluate {}) ?_ ?_
  · rintro decision _ rfl
    refine Spec.performBind trivial (fun policy _ => ?_) fun _ _ => Or.inl rfl
    unfold InvocationOrchestrator.invokeDecision
    dsimp only
    split
    · exact spec_record_books _ rfl rfl
    · refine Spec.bind (spec_attemptChain_books hhealth _ _ rfl rfl) (fun st books hbooks =>
        ?_) fun _ _ h => Or.inl h.1
      exact Spec.ofExceptBind (fun _ _ => spec_record_books _ hbooks.1 (hbooks.2 st rfl)) fun _ _ =>
        Or.inl hbooks.1
  · rintro _ _ rfl
    exact Or.inl rfl

theorem spec_invokeReserved_books (hhealth : orchestrator.hasModelHealthRepository = true)
    (idempotencyKey requestHash : String) :
    Spec bookkeeping (orchestrator.invokeReserved request idempotencyKey requestHash)
      (fun _ books => Balanced books) {} := by
  have huncached : Spec bookkeeping (orchestrator.invokeUncached request).attempt (fun _ books =>
      Balanced books) {} :=
    Spec.attempt (spec_invokeUncached_books hhealth)
  refine Spec.bind huncached (fun outcome books hbalanced => ?_) fun _ _ hbalanced => hbalanced
  have hquiet : ∀ {p : Prog Ports InferenceResult}, Only (fun port => ¬ BookPort port) p →
      Spec bookkeeping p (fun _ books' => Balanced books') books :=
    fun honly => (spec_quiet honly books).mono fun _ _ h => h ▸ hbalanced
  split
  · exact hquiet (Only.bind (Only.perform id) fun _ => trivial)
  · exact hquiet (Only.bind (Only.perform id) fun policy =>
      Only.bind (Only.perform id) fun _ => trivial)

/-- **Every invocation balances its books**, also one that raises. -/
theorem spec_invoke_books (hhealth : orchestrator.hasModelHealthRepository = true) :
    Spec bookkeeping (orchestrator.invoke request) (fun _ books => Balanced books) {} := by
  unfold InvocationOrchestrator.invoke
  split
  · exact spec_invokeUncached_books hhealth
  · split
    · refine Spec.ofExceptBind (fun requestHash _ => ?_) fun _ _ => Or.inl rfl
      refine Spec.performBind trivial (fun reservation _ => ?_) fun _ _ => Or.inl rfl
      split
      · exact Or.inl rfl
      · exact Or.inl rfl
      · split <;> exact Or.inl rfl
      · exact spec_invokeReserved_books hhealth _ _
    · exact spec_invokeUncached_books hhealth

theorem run_balanced (hhealth : orchestrator.hasModelHealthRepository = true)
    {tr : List (Event Ports)}
    {out : Except PyException InferenceResult} (hrun : Run (orchestrator.invoke request) tr out) :
    tr.flatMap savedRecords = [] ∨ ∃ auditRecord, tr.flatMap savedRecords = [auditRecord] ∧
      recordedOutcomes tr = outcomesOf auditRecord.invocationAttempts := by
  have hbalanced := (spec_invoke_books hhealth).run hrun (kept_bookkeeping _ _)
  rw [after_bookkeeping] at hbalanced
  exact hbalanced

end Invocation

/-! ## Sequences of invocations -/

/-- The runs of a sequence of invocations, each to its end, between two states of the repository. -/
inductive Invocations (orchestrator : InvocationOrchestrator) :
    InMemoryModelHealthRepository → List (List (Event Ports)) → InMemoryModelHealthRepository → Prop
  | nil {repository : InMemoryModelHealthRepository} : Invocations orchestrator repository
      [] repository
  | cons {repository repository' repository'' : InMemoryModelHealthRepository}
      {request : InferenceRequest}
      {tr : List (Event Ports)} {out : Except PyException InferenceResult}
      {trs : List (List (Event Ports))} (hrun : Run (orchestrator.invoke request) tr out)
      (hserves : healthMachine.Serves repository tr repository')
      (h : Invocations orchestrator repository' trs repository'') :
      Invocations orchestrator repository (tr :: trs) repository''

/-- The attempts of an invocation that an audit record has. -/
def attemptsSaved (tr : List (Event Ports)) : OutcomeHistory :=
  (tr.flatMap savedRecords).flatMap fun auditRecord => outcomesOf auditRecord.invocationAttempts

/-- The attempts of an invocation: those of its audit record, or, without one, those whose outcomes
it has recorded. -/
def attemptsMade (tr : List (Event Ports)) : OutcomeHistory := match tr.flatMap savedRecords with
  | [] => recordedOutcomes tr
  | auditRecord :: _ => outcomesOf auditRecord.invocationAttempts

section Sequences
variable {orchestrator : InvocationOrchestrator}
  {repository repository' : InMemoryModelHealthRepository}
  {tr : List (Event Ports)} {trs : List (List (Event Ports))}

theorem attemptsMade_eq (hhealth : orchestrator.hasModelHealthRepository = true)
    {request : InferenceRequest}
    {out : Except PyException InferenceResult} (hrun : Run (orchestrator.invoke request) tr out) :
    attemptsMade tr = recordedOutcomes tr := by
  unfold attemptsMade
  rcases run_balanced hhealth hrun with hnone | ⟨auditRecord, hone, houtcomes⟩
  · rw [hnone]
  · rw [hone, houtcomes]

theorem serves_healthMachine (h : healthMachine.Serves repository tr repository') :
    repository' = repository.recordOutcomes (recordedOutcomes tr) := by
  induction h with
  | nil => rfl
  | @cons s s' s'' event tr hact _ ih =>
      obtain ⟨port, reply⟩ := event
      cases port with
      | getHealth modelAlias =>
          rw [ih, hact.2]
          rfl
      | recordOutcome modelAlias status =>
          rw [ih, hact.2]
          rfl
      | _ =>
          rw [ih, show s' = s from hact]
          rfl

theorem Invocations.repository_eq (hhealth : orchestrator.hasModelHealthRepository = true)
    (h : Invocations orchestrator repository trs repository') :
    repository' = repository.recordOutcomes (trs.flatMap attemptsMade) := by
  induction h with
  | nil => rfl
  | cons hrun hserves _ ih =>
      rw [ih, List.flatMap_cons, recordOutcomes_append, attemptsMade_eq hhealth hrun,
        ← serves_healthMachine hserves]

/-- An evaluation leaves the repository, and reads every status from it. -/
theorem serves_evaluate {service : RouteEvaluationService} {request : InferenceRequest}
    {decision : RoutingDecision} (hrun : Run (service.evaluate request) tr (.ok decision))
    (h : healthMachine.Serves repository tr repository') :
    ∀ modelAlias reply, (⟨.getHealth modelAlias, reply⟩ : Event Ports) ∈ tr →
      reply = .ok (repository.getHealth modelAlias) := by
  have hports : ∀ event ∈ tr, EvaluationPort event.call := (service.only_evaluate request).run hrun
  clear hrun
  intro modelAlias reply hmem
  induction h with
  | nil => cases hmem
  | @cons s s' s'' event tr hact _ ih =>
      obtain ⟨hport, hrest⟩ := List.forall_mem_cons.mp hports
      have hsame : s' = s := by
        obtain ⟨port, reply'⟩ := event
        cases port with
        | getHealth other => exact hact.2
        | recordOutcome other status => exact hport.elim
        | _ => exact hact
      rcases List.mem_cons.mp hmem with heq | hmem
      · subst heq
        exact hact.1
      · rw [ih hrest hmem, hsame]

theorem modelUnhealthy_iff {model : ModelDefinition} {requirements : EffectiveRoutingRequirements}
    {policy : RoutingPolicy}
    {usage : Usage} {cost : EstimatedCost} {healthStatus : ModelHealthStatus} :
    .modelUnhealthy ∈ candidateCodes model requirements policy usage cost healthStatus ↔
    healthStatus = .unavailable := by
  unfold candidateCodes
  constructor
  · intro h
    simp only [List.mem_append, or_assoc] at h
    rcases h with h | h | h | h | h | h
    · cases healthStatus <;> simp_all [healthCodes]
    all_goals split at h <;> simp_all
  · rintro rfl
    simp [healthCodes]

theorem considered_unhealthy_iff {service : RouteEvaluationService}
    (htracks : service.tracksHealth = true)
    {request : InferenceRequest} {decision : RoutingDecision}
    (hrun : Run (service.evaluate request) tr (.ok decision))
    (hserves : healthMachine.Serves repository tr repository') {candidate : RouteCandidate}
    (hcandidate : candidate ∈ decision.consideredCandidates) :
    .modelUnhealthy ∈ candidate.reasonCodes ↔
    repository.getHealth candidate.modelAlias = .unavailable := by
  obtain ⟨policy, -, hevaluated⟩ := run_evaluate hrun
  cases hevaluated with
  | unavailable => cases hcandidate
  | considered decisionId createdAt candidates selection hallowed hcandidates hselection =>
      obtain ⟨model, -, status, hreported, hmodel⟩ := exists_of_forall₂_mem hcandidates hcandidate
      obtain ⟨halias, -, -, -, -, hcodes⟩ := evaluateCandidate_ok hmodel
      rw [Reported, if_pos htracks] at hreported
      have hstatus := serves_evaluate hrun hserves _ _ hreported
      rw [hcodes, mem_sortReasonCodes, modelUnhealthy_iff, halias, ← Except.ok.inj hstatus]

end Sequences

/-- **Health is the trailing failure run.** The status of an alias is read off the number of its
failures after its last success, in any history; outcomes of other aliases and permanent failures
never change it. After any sequence of invocations on a fresh repository, returned or raised, a
considered candidate is unhealthy exactly where the attempts of its alias that they have made end in
such a run of at least `unavailableAfter`. -/
theorem health_of_attempts {fresh : InMemoryModelHealthRepository}
    (hfresh : ∀ modelAlias, fresh.consecutiveFailures modelAlias = 0) :
    (∀ outcomes modelAlias, (fresh.recordOutcomes outcomes).getHealth modelAlias =
      if fresh.unavailableAfter ≤ trailingFailures modelAlias outcomes then .unavailable
      else if fresh.degradedAfter ≤ trailingFailures modelAlias outcomes then .degraded
      else .healthy) ∧
    (∀ (repository : InMemoryModelHealthRepository) (modelAlias other : String)
        (status : InvocationAttemptStatus),
      other ≠ modelAlias ∨ status = .nonRetryableError →
        (repository.recordOutcome other status).getHealth modelAlias =
          repository.getHealth modelAlias) ∧
    ∀ orchestrator : InvocationOrchestrator, orchestrator.hasModelHealthRepository = true →
      orchestrator.routeEvaluationService.tracksHealth = true →
      ∀ trs repository, Invocations orchestrator fresh trs repository →
      ∀ request tr decision repository',
        Run (orchestrator.routeEvaluationService.evaluate request) tr (.ok decision) →
        healthMachine.Serves repository tr repository' →
        ∀ candidate ∈ decision.consideredCandidates,
          (.modelUnhealthy ∈ candidate.reasonCodes ↔
            fresh.unavailableAfter ≤
              trailingFailures candidate.modelAlias (trs.flatMap attemptsMade)) := by
  refine ⟨getHealth_recordOutcomes hfresh, fun repository modelAlias other status =>
    getHealth_recordOutcome, ?_⟩
  intro orchestrator hhealth htracks trs repository hinvocations request tr decision repository'
    hrun hserves candidate
    hcandidate
  rw [considered_unhealthy_iff htracks hrun hserves hcandidate, getHealth_unavailable_iff,
    hinvocations.repository_eq hhealth, consecutiveFailures_recordOutcomes hfresh,
      (thresholds_recordOutcomes _).2]

namespace Scenario

/-- A world in which the primary model is throttled, and no audit record can be saved. -/
def unsaved : Handler Ports WorldState
  | .save _, s => (.error (.other "ClientError"), s)
  | port, s => throttled.answer port s

theorem healthMachine_unsaved (port : Port) (s : WorldState) :
    healthMachine.act s.health port (unsaved port s).1 (unsaved port s).2.health := by
  cases port with
  | save auditRecord => rfl
  | _ => exact healthMachine_world throttled _ s

/-- The run of an invocation, and the state after it. -/
def invocationRun (handler : Handler Ports WorldState) (s : WorldState) :
    List (Event Ports) × WorldState :=
  (trace handler (Scenario.orchestrator.invoke request) s,
    (exec handler (Scenario.orchestrator.invoke request) s).2)

def once (handler : Handler Ports WorldState) : List (Event Ports) × WorldState :=
  invocationRun handler { health := repository }

def twice (handler : Handler Ports WorldState) : List (Event Ports) × WorldState :=
  invocationRun handler (once handler).2

theorem twice_invocations {handler : Handler Ports WorldState}
    (hact : ∀ port s, healthMachine.act s.health port
      (handler port s).1 (handler port s).2.health) :
    Invocations Scenario.orchestrator repository
    [(once handler).1, (twice handler).1] (twice handler).2.health :=
  .cons (run_exec handler _ _)
    (Machine.Serves.exec WorldState.health hact _ { health := repository })
    (.cons (run_exec handler _ _)
      (Machine.Serves.exec WorldState.health hact _ (once handler).2) .nil)

/-- The codes that matter, in an evaluation after the two invocations. -/
def unhealthyCandidates (decision : RoutingDecision) : List (String × Bool) :=
  decision.consideredCandidates.map fun candidate =>
    (candidate.modelAlias, .modelUnhealthy ∈ candidate.reasonCodes)

/-- After two invocations that could not save their audit records, the primary model is unhealthy,
and no audit record has an attempt. -/
theorem unsaved_counts : ∃ trs repository' tr decision repository'' candidate,
    Invocations Scenario.orchestrator repository trs repository' ∧
    Run (Scenario.orchestrator.routeEvaluationService.evaluate request) tr (.ok decision) ∧
    healthMachine.Serves repository' tr repository'' ∧ candidate ∈ decision.consideredCandidates ∧
    trs.flatMap attemptsSaved = [] ∧
    ¬ (.modelUnhealthy ∈ candidate.reasonCodes ↔
      repository.unavailableAfter ≤
        trailingFailures candidate.modelAlias (trs.flatMap attemptsSaved)) := by
  obtain ⟨decision, hrun, hunhealthy⟩ := @run_of_exec _ _ _ _ unsaved
    (Scenario.orchestrator.routeEvaluationService.evaluate request)
      (twice unsaved).2 unhealthyCandidates
    [("primary", true), ("fallback", false)] (by decide +kernel)
  have hsaved : [(once unsaved).1, (twice unsaved).1].flatMap attemptsSaved = [] := by
    decide +kernel
  have hmem : ("primary", true) ∈ unhealthyCandidates decision := by
    rw [hunhealthy]
    exact List.mem_cons_self
  obtain ⟨candidate, hcandidate, hcodes⟩ := List.mem_map.mp hmem
  refine ⟨_, _, _, decision, _, candidate, twice_invocations healthMachine_unsaved, hrun,
    Machine.Serves.exec WorldState.health healthMachine_unsaved _ _, hcandidate, hsaved,
      fun h => ?_⟩
  have hfailures := h.mp (of_decide_eq_true (Prod.mk.inj hcodes).2)
  rw [hsaved] at hfailures
  exact absurd hfailures (Nat.not_succ_le_zero 1)

/-- After two invocations that save theirs, it is unhealthy by the attempts that they have. -/
theorem saved_counts : ∃ trs repository' tr decision repository'',
    Invocations Scenario.orchestrator repository trs repository' ∧
    trs.flatMap attemptsMade =
    [("primary", .throttled), ("fallback", .succeeded), ("primary", .throttled),
      ("fallback", .succeeded)] ∧
    Run (Scenario.orchestrator.routeEvaluationService.evaluate request) tr (.ok decision) ∧
    healthMachine.Serves repository' tr repository'' ∧
    ∀ candidate ∈ decision.consideredCandidates,
      (.modelUnhealthy ∈ candidate.reasonCodes ↔
        repository.unavailableAfter ≤
          trailingFailures candidate.modelAlias (trs.flatMap attemptsMade)) := by
  have hact := healthMachine_world throttled
  obtain ⟨decision, hrun, -⟩ := @run_of_exec _ _ _ _ throttled.answer
    (Scenario.orchestrator.routeEvaluationService.evaluate request)
      (twice throttled.answer).2 unhealthyCandidates
    [("primary", true), ("fallback", false)] (by decide +kernel)
  have hinvocations := twice_invocations hact
  have hserves := Machine.Serves.exec WorldState.health hact
    (Scenario.orchestrator.routeEvaluationService.evaluate request) (twice throttled.answer).2
  exact ⟨_, _, _, decision, _, hinvocations, by decide +kernel, hrun, hserves,
    (health_of_attempts (fun _ => rfl)).2.2 _ rfl rfl _ _ hinvocations _ _ _ _ hrun hserves⟩

end Scenario

end ModelRouter
