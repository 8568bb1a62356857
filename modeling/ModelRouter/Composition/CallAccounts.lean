import ModelRouter.Adapters.Publishers
import ModelRouter.Application.CallLedger
import ModelRouter.Composition.Tenancy
import ModelRouter.Lib.Billing

/-!
# The accounts of the model calls

Events run over the two tables, in any interleaving.

* `records_account` : a record or a result that is put into a table lists exactly the calls of
  models that its event has made, in order;
* `metrics_account` : the sums of the attempts' metrics are the calls, and the failed calls, of the
  events that published.
-/

namespace ModelRouter
open Effects Prog HandlerServices InvocationOrchestrator DynamoDbIdempotencyStore
  DynamoDbRoutingDecisionRepository
open DeployedState

/-! ## Events -/

def apiAccounting : Monitor ApiPorts CallLedger where
  owes ledger port := match port with
    | .ofPort port => ledger.Allows port
    | .getDecision _ => True
  relies _ _ _ := True
  next ledger port reply := match port, reply with
    | .ofPort port, reply => ledger.after port reply
    | .getDecision _, _ => ledger

theorem spec_dispatch_accounting (services : HandlerServices) (event : ProxyEvent) :
    Spec apiAccounting (services.dispatch event) (fun _ _ => True) {} :=
  (spec_useCases (M := accounting) (V := fun _ _ => True) (fun _ _ => id) (fun _ _ _ => id)
    (fun _ _ _ => rfl)
    (fun _ => trivial) (fun _ => spec_invoke_accounting.mono fun _ _ _ _ _ => trivial)
    fun _ => (spec_evaluate_accounting _ _).mono fun _ _ _ => trivial).mono fun _ _ _ => trivial

/-! ## Over the tables -/

/-- A result that is put is one of the calls that have been made, and so is a record. -/
def CallLedger.Puts (store : DynamoDbIdempotencyStore)
    (repository : DynamoDbRoutingDecisionRepository) (ledger : CallLedger) : DeployedCall → Prop
  | .backend (.ofPort port) => ledger.Allows port
  | .backend (.putItem item none) => ∃ result, item.result = some (store.modelDumpJson result) ∧
    ledger.Accounts result.invocationAttempts
  | .decisions (.putItem item) => ∃ auditRecord, item.record = repository.modelDumpJson auditRecord ∧
    ledger.Accounts auditRecord.invocationAttempts
  | _ => True

def deployedAccounting (store : DynamoDbIdempotencyStore)
    (repository : DynamoDbRoutingDecisionRepository) :
    Monitor Deployed CallLedger where
  owes ledger operation := ledger.Puts store repository operation
  relies _ _ _ := True
  next ledger operation reply := match operation, reply with
    | .backend (.ofPort port), reply => ledger.after port reply
    | _, _ => ledger

/-- The observer of the operations of the idempotency store. -/
def backendAccounting (store : DynamoDbIdempotencyStore)
    (repository : DynamoDbRoutingDecisionRepository) :
    Monitor Backend CallLedger where
  owes ledger operation := ledger.Puts store repository (.backend operation)
  relies _ _ _ := True
  next ledger operation reply :=
    (deployedAccounting store repository).next ledger (.backend operation) reply

section
variable {store : DynamoDbIdempotencyStore} {repository : DynamoDbRoutingDecisionRepository}

theorem spec_carryOutTables_accounting (port : ApiPort) (high low : CallLedger) (hsame : high = low)
    (howes : apiAccounting.owes high port) :
    Spec (deployedAccounting store repository) (carryOutTables store repository port)
      (fun out low' => ∃ reply, out = .ok reply ∧ True ∧
        apiAccounting.next high port reply = low') low := by
  subst hsame
  have hport : ∀ port : Port, high.Allows port →
      Spec (deployedAccounting store repository) (onBackend (tryRequest (.ofPort port)))
      (fun out low' => ∃ reply, out = .ok reply ∧ True ∧ high.after port reply = low') high :=
    fun port hallows => ⟨hallows, fun reply _ => ⟨reply, rfl, trivial, rfl⟩⟩
  have hstore : ∀ {α : Type} {p : Prog Backend α} {next : Except PyException α → CallLedger},
      Spec (backendAccounting store repository) p (fun out low' => next out = low') high →
      Spec (deployedAccounting store repository) (onBackend p.attempt)
        (fun out low' => ∃ reply, out = .ok reply ∧ True ∧ next reply = low') high :=
    fun h => spec_onBackend (Spec.attempt (h.mono fun out _ hnext => ⟨out, rfl, trivial, hnext⟩))
      (fun _ _ => id) (fun _ _ _ => id) fun _ _ _ => rfl
  cases port with
  | getDecision decisionId =>
      show Spec _ (onDecisions (repository.get decisionId).attempt) _ _
      rw [onDecisions_get]
      exact ⟨trivial, fun reply _ => ⟨_, rfl, trivial, rfl⟩⟩
  | ofPort port =>
      cases port with
      | save auditRecord =>
          refine ⟨trivial, fun clock _ => ?_⟩
          cases clock with
          | error x => exact ⟨_, rfl, trivial, rfl⟩
          | ok clock => 
              refine ⟨⟨auditRecord, rfl, howes⟩, fun reply _ => ?_⟩
              cases reply <;> exact ⟨_, rfl, trivial, rfl⟩
      | reserve applicationId idempotencyKey requestHash =>
          have hreserving : ∀ operation, ReservingCall store applicationId idempotencyKey
              requestHash operation → (backendAccounting store repository).owes high operation ∧
                ∀ reply, (backendAccounting store repository).next high operation reply = high := by
            intro operation hreserving
            cases operation with
            | putItem item condition =>
                obtain ⟨now, -, rfl⟩ := hreserving
                exact ⟨trivial, fun _ => rfl⟩
            | ofPort | deleteItem => exact hreserving.elim
            | _ => exact ⟨trivial, fun _ => rfl⟩
          have hreserve := spec_reserve_replays (F := fun _ => True) hreserving fun _ _ => trivial
          refine hstore (hreserve.mono fun out low' hlow => ?_)
          obtain ⟨rfl, -⟩ := hlow
          cases out <;> rfl
      | complete applicationId idempotencyKey requestHash result cacheResult retentionSeconds =>
          have hcomplete : Spec (backendAccounting store repository) (store.complete applicationId
              idempotencyKey requestHash result cacheResult retentionSeconds) (fun _ low' =>
                low' = high) high := by
            unfold complete
            split
            · exact Spec.perform trivial fun _ _ => rfl
            · refine Spec.performBind trivial (fun clock _ => ?_) fun _ _ => rfl
              exact Spec.perform ⟨result, rfl, howes⟩ fun _ _ => rfl
          refine hstore (hcomplete.mono fun out low' hlow => ?_)
          subst hlow
          cases out <;> rfl
      | release applicationId idempotencyKey =>
          have hrelease : Spec (backendAccounting store repository)
              (DynamoDbIdempotencyStore.release applicationId idempotencyKey)
              (fun _ low' => low' = high) high := Spec.perform trivial fun _ _ => rfl
          refine hstore (hrelease.mono fun out low' hlow => ?_)
          subst hlow
          cases out <;> rfl
      | _ => exact hport _ howes

theorem spec_overTables_accounting (services : HandlerServices) (event : ProxyEvent) :
    Spec (deployedAccounting store repository)
      (overTables store repository (services.dispatch event)) (fun _ _ => True) {} := by
  have hover := @Spec.interpret ApiPorts HttpReply _ _ _ Deployed CallLedger _ Eq id
    (carryOutTables store repository) spec_carryOutTables_accounting
    (services.dispatch event) {} {} (spec_dispatch_accounting services event) rfl
  exact hover.mono fun _ _ _ => trivial

/-! ## All events -/

/-- The call of a model that an operation is. -/
def modelCall : Event Deployed → Option ModelCall
  | ⟨.backend (.ofPort (.invoke providerRequest)), reply⟩ =>
      some (providerRequest.modelAlias, callStatus reply)
  | _ => none

theorem next_calls (ledger : CallLedger) (operation : DeployedCall)
    (reply : Except PyException operation.Answer) :
    ((deployedAccounting store repository).next ledger operation reply).calls = ledger.calls ++
      (modelCall ⟨operation, reply⟩).toList := by
  have hsame : ledger.calls = ledger.calls ++ [] := (List.append_nil _).symm
  cases operation with
  | decisions operation => exact hsame
  | backend operation =>
      cases operation with
      | ofPort port =>
          cases port with
          | invoke providerRequest => rfl
          | _ => cases reply <;> exact hsame
      | _ => exact hsame

variable {ι : Type} [DecidableEq ι] {services : ι → HandlerServices} {events : ι → ProxyEvent}
  {now : Int} {c : Config Deployed DeployedState ι HttpReply}
  {G : DeployedState → List (Entry Deployed DeployedState ι) → Prop}

theorem phase_calls (i : ι) (log : List (Entry Deployed DeployedState ι)) :
    ((deployedAccounting store repository).phase {} i log).calls =
      (own i log).filterMap modelCall := by
  induction log with
  | nil => rfl
  | cons entry log ih =>
      by_cases hi : entry.thread = i
      · subst hi
        rw [Monitor.phase_cons_self, own_cons_self, List.filterMap_append, next_calls, ih,
          List.filterMap_cons]
        cases modelCall entry.event <;> rfl
      · rw [Monitor.phase_cons_of_ne hi, own, if_neg hi]
        exact ih

theorem lawful_accounts
    (hreach : deployedMachine.Reachable G (start services events store repository now) c) :
    deployedMachine.Lawful (deployedAccounting store repository) {} G
      (start services events store repository now).shared c.shared c.log :=
  (hreach.lawful rfl (fun i => spec_overTables_accounting (services i) (events i))
    fun _ _ _ _ _ _ _ _ _ => trivial).1

/-- **A record or a result that is put into a table lists exactly the calls of models that its event
has made**, in order. -/
theorem records_account
    (hreach : deployedMachine.Reachable G (start services events store repository now) c)
    {later past : List (Entry Deployed DeployedState ι)} {entry : Entry Deployed DeployedState ι}
    (hlog : c.log = later ++ entry :: past) :
    (∀ item, entry.event.call = .decisions (.putItem item) → ∃ auditRecord : AuditRecord,
      item.record = repository.modelDumpJson auditRecord ∧
      auditRecord.invocationAttempts.map InvocationAttempt.call =
        (own entry.thread past).filterMap modelCall) ∧
    ∀ item, entry.event.call = .backend (.putItem item none) → ∃ result : InferenceResult,
      item.result = some (store.modelDumpJson result) ∧
      result.invocationAttempts.map InvocationAttempt.call =
        (own entry.thread past).filterMap modelCall := by
  have hlawful := lawful_accounts hreach
  rw [hlog] at hlawful
  obtain ⟨-, howes, -⟩ := hlawful.split
  refine ⟨fun item hput => ?_, fun item hput => ?_⟩
  · rw [hput] at howes
    obtain ⟨auditRecord, hrecord, haccounts⟩ := howes
    exact ⟨auditRecord, hrecord, haccounts.trans (phase_calls _ _)⟩
  · rw [hput] at howes
    obtain ⟨result, hresult, haccounts⟩ := howes
    exact ⟨result, hresult, haccounts.trans (phase_calls _ _)⟩

/-! ## The metrics -/

/-- The calls of a kind are charged, and billed where the metrics are published. -/
def callBilling (counted : ModelCall → Bool) : Billing Deployed Nat where
  charge event := ((modelCall event).toList.countP counted)
  bill
    | ⟨.backend (.ofPort (.publishMetrics result)), .ok _⟩ =>
        some ((result.invocationAttempts.map (·.call)).countP counted)
    | _ => none

/-- The account of a ledger. -/
def CallLedger.account (counted : ModelCall → Bool) (ledger : CallLedger) : Billing.Account Nat :=
  ⟨ledger.calls.countP counted, ledger.published⟩

theorem lawful_callBilling {s₀ s : DeployedState} {log : List (Entry Deployed DeployedState ι)}
    (counted : ModelCall → Bool)
    (h : deployedMachine.Lawful (deployedAccounting store repository) {} G s₀ s log) :
    deployedMachine.Lawful (callBilling counted).monitor Billing.Account.opened G s₀ s log := by
  refine h.image (CallLedger.account counted) (fun ledger operation reply =>
    ?_) fun ledger operation howes reply => ?_
  · show Billing.Account.mk _ _ = Billing.Account.mk _ _
    rw [next_calls, List.countP_append]
    congr 1
    cases operation with
    | decisions operation => exact Bool.or_false _
    | backend operation =>
        cases operation with
        | ofPort port =>
            cases port with
            | publishMetrics result =>
                cases reply with
                | error x => exact Bool.or_false _
                | ok _ => exact Bool.or_true _
            | _ => cases reply <;> exact Bool.or_false _
        | _ => exact Bool.or_false _
  · cases operation with
    | decisions operation => exact ⟨fun _ h => (by cases h), fun _ => rfl⟩
    | backend operation =>
        cases operation with
        | ofPort port =>
            cases port with
            | invoke providerRequest =>
                refine ⟨fun _ h => (by cases h), fun hpublished => ?_⟩
                have hunpublished : ledger.published = false := howes
                rw [show ledger.published = true from hpublished] at hunpublished
                cases hunpublished
            | publishMetrics result =>
                refine ⟨fun amount hbill => ?_, fun _ => rfl⟩
                cases reply with
                | error x => cases hbill
                | ok _ =>
                    obtain ⟨hpublished, haccounts⟩ := howes
                    obtain rfl := Option.some.inj hbill
                    exact ⟨hpublished, congrArg _ haccounts, rfl⟩
            | _ => exact ⟨fun _ h => (by cases reply <;> cases h), fun _ => rfl⟩
        | _ => exact ⟨fun _ h => (by cases h), fun _ => rfl⟩

/-- The `Sum` of a metric over the points of one line each. -/
def metricSum (name : String) (points : List MetricPoint) : Nat :=
  ((points.filter (·.name = name)).map fun point => match point.value with
    | .int value => value
    | .float _ => 0).sum

/-- The `Sum` of a metric over everything that was published. -/
def metricTotal (name : String) : List (Entry Deployed DeployedState ι) → Nat
  | [] => 0
  | entry :: log => (match entry.event with
      | ⟨.backend (.ofPort (.publishMetrics result)), .ok _⟩ =>
          metricSum name (resultMetrics result)
      | _ => 0) + metricTotal name log

/-- The thread has published its metrics. -/
def hasPublished (log : List (Entry Deployed DeployedState ι)) (i : ι) : Bool :=
  log.any fun entry => decide (i = entry.thread) && match entry.event with
    | ⟨.backend (.ofPort (.publishMetrics _)), .ok _⟩ => true
    | _ => false

/-- The call did not succeed. -/
def ModelCall.failed (call : ModelCall) : Bool := call.2 ≠ some .succeeded

theorem metricSum_append (name : String) (points points' : List MetricPoint) :
    metricSum name (points ++ points') = metricSum name points + metricSum name points' := by
  rw [metricSum, List.filter_append, List.map_append, List.sum_append]
  rfl

theorem metricSum_decision (decision : RoutingDecision) :
    metricSum "InvocationAttemptCount" (decisionMetrics decision) = 0 ∧
    metricSum "ProviderFailureCount" (decisionMetrics decision) = 0 := by
  unfold decisionMetrics
  dsimp only
  cases decision.estimatedCost <;> simp [metricSum]

theorem metricSum_attempt (attempt : InvocationAttempt) :
    metricSum "InvocationAttemptCount" (attemptMetrics attempt) = 1 ∧
    metricSum "ProviderFailureCount" (attemptMetrics attempt) = if ModelCall.failed attempt.call
      then 1 else 0 := by
  unfold attemptMetrics ModelCall.failed InvocationAttempt.call
  cases attempt.status <;> simp [metricSum]

/-- The metrics of a result count its attempts, and those that failed. -/
theorem metricSum_result (result : InferenceResult) :
    metricSum "InvocationAttemptCount" (resultMetrics result) =
      (result.invocationAttempts.map (·.call)).countP (fun _ => true) ∧
    metricSum "ProviderFailureCount" (resultMetrics result) =
      (result.invocationAttempts.map (·.call)).countP ModelCall.failed := by
  obtain ⟨hattempts, hfailures⟩ := metricSum_decision result.decision
  rw [resultMetrics, metricSum_append, metricSum_append, hattempts, hfailures, zero_add, zero_add]
  induction result.invocationAttempts with
  | nil => exact ⟨rfl, rfl⟩
  | cons attempt attempts ih =>
      obtain ⟨hattempt, hfailure⟩ := metricSum_attempt attempt
      rw [List.flatMap_cons, List.map_cons, metricSum_append, metricSum_append, ih.1, ih.2,
        hattempt, hfailure,
        List.countP_cons, List.countP_cons, if_pos rfl]
      exact ⟨add_comm _ _, add_comm _ _⟩

theorem hasPublished_eq (counted : ModelCall → Bool)
    (log : List (Entry Deployed DeployedState ι)) (i : ι) :
    (callBilling counted).hasBilled log i = hasPublished log i := by
  induction log with
  | nil => rfl
  | cons entry log ih =>
      rw [Billing.hasBilled_cons, ih, hasPublished, hasPublished, List.any_cons, Bool.or_comm]
      congr 2
      obtain ⟨j, s, operation, reply⟩ := entry
      cases operation with
      | decisions operation => rfl
      | backend operation =>
          cases operation with
          | ofPort port => cases port <;> cases reply <;> rfl
          | _ => rfl

omit [DecidableEq ι] in
theorem billed_eq_total {counted : ModelCall → Bool} {name : String}
    (h : ∀ result : InferenceResult,
    metricSum name (resultMetrics result) = (result.invocationAttempts.map (·.call)).countP counted)
    (log : List (Entry Deployed DeployedState ι)) :
      (callBilling counted).billed log = metricTotal name log := by
  induction log with
  | nil => rfl
  | cons entry log ih =>
      rw [Billing.billed, metricTotal, ih]
      congr 1
      obtain ⟨j, s, operation, reply⟩ := entry
      cases operation with
      | decisions operation => rfl
      | backend operation =>
          cases operation with
          | ofPort port =>
              cases port with
              | publishMetrics result =>
                  cases reply with
                  | error x => rfl
                  | ok _ => exact (h result).symm
              | _ => rfl
          | _ => rfl

omit [DecidableEq ι] in
theorem charged_eq_count (counted : ModelCall → Bool) (who : ι → Bool)
    (log : List (Entry Deployed DeployedState ι)) :
    (callBilling counted).charged who log =
      log.countP fun entry => who entry.thread && (modelCall entry.event).any counted := by
  induction log with
  | nil => rfl
  | cons entry log ih =>
      rw [Billing.charged, ih, List.countP_cons, add_comm]
      congr 1
      show (if who entry.thread then (modelCall entry.event).toList.countP counted else 0) = _
      cases who entry.thread with
      | false => rfl
      | true =>
          cases modelCall entry.event with
          | none => rfl
          | some call => simp [List.countP_cons]

/-- **The sums of the attempts' metrics are the calls of models, and the failed calls, of the events
that have published.** -/
theorem metrics_account
    (hreach : deployedMachine.Reachable G (start services events store repository now) c) :
    metricTotal "InvocationAttemptCount" c.log =
      c.log.countP (fun entry =>
        hasPublished c.log entry.thread && (modelCall entry.event).isSome) ∧
    metricTotal "ProviderFailureCount" c.log =
      c.log.countP (fun entry =>
        hasPublished c.log entry.thread && (modelCall entry.event).any ModelCall.failed) := by
  have hlawful := lawful_accounts hreach
  have htotal : ∀ {name : String} {counted : ModelCall → Bool}, (∀ result : InferenceResult,
      metricSum name (resultMetrics result) =
        (result.invocationAttempts.map (·.call)).countP counted) →
      metricTotal name c.log =
        c.log.countP fun entry =>
          hasPublished c.log entry.thread && (modelCall entry.event).any counted := by
    intro name counted h
    rw [← billed_eq_total h, Billing.billed_eq_charged (lawful_callBilling counted hlawful),
      Billing.charged_congr (hasPublished_eq counted c.log), charged_eq_count]
  refine ⟨?_, htotal fun result => (metricSum_result result).2⟩
  rw [htotal fun result => (metricSum_result result).1]
  congr 1

end

namespace Scenario

/-- The events have put their record. -/
def putsRecord (entry : Entry Deployed DeployedState (Fin 3)) : Bool :=
  match entry.event.call with
  | .decisions (.putItem _) => true
  | _ => false

theorem afterInferences_accounts : afterInferences.log.any putsRecord = true ∧
    afterInferences.log.countP (fun entry => hasPublished afterInferences.log entry.thread &&
      (modelCall entry.event).isSome) = 2 ∧
    afterInferences.log.countP (fun entry => hasPublished afterInferences.log entry.thread &&
      (modelCall entry.event).any ModelCall.failed) = 1 := by decide +kernel

theorem record_lists_calls : ∃ later entry past item, afterInferences.log = later ++ entry :: past ∧
    entry.event.call = .decisions (.putItem item) ∧ ∃ auditRecord : AuditRecord,
      item.record = savedDecisions.modelDumpJson auditRecord ∧
      auditRecord.invocationAttempts.map InvocationAttempt.call =
        (own entry.thread past).filterMap modelCall := by
  obtain ⟨entry, hentry, hput⟩ := List.any_eq_true.mp afterInferences_accounts.1
  unfold putsRecord at hput
  split at hput
  · rename_i item hcall
    obtain ⟨later, past, hlog⟩ := List.append_of_mem hentry
    exact ⟨later, entry, past, item, hlog, hcall,
      (records_account reachable_afterInferences hlog).1 item hcall⟩
  · cases hput

/-- One of the two calls was throttled. -/
theorem calls_counted : metricTotal "InvocationAttemptCount" afterInferences.log = 2 ∧
    metricTotal "ProviderFailureCount" afterInferences.log = 1 := by
  obtain ⟨hattempts, hfailures⟩ := metrics_account reachable_afterInferences
  exact ⟨hattempts.trans afterInferences_accounts.2.1, hfailures.trans afterInferences_accounts.2.2⟩

end Scenario

end ModelRouter
