import ModelRouter.Application.StreamLog

/-!
# The stream loop, drained

When the consumer drains the iterator and every port answers (`drains`), the loop has asked the
candidates of a prefix of the chain (`StreamTried`), and its log and its end follow from how their
streams went (`run_streamChain_drained`). The one exception is a stream that ends without a chunk:
its `StopIteration` leaves the loop, and nothing is recorded.
-/

namespace ModelRouter
open Effects Prog

/-- How the stream of a candidate went. -/
inductive StreamOutcome where
  | refused (message : String) (category : ProviderErrorCategory)
  | completed
  | broken (message : String) (category : ProviderErrorCategory)

/-- The provider's reply, as the loop sees it: a failure before the first chunk, or a stream with a
chunk. -/
def StreamOutcome.Shown : StreamOutcome → Except PyException ChunkStream → Prop
  | refused message category, reply =>
    InvocationOrchestrator.firstChunk reply = .error (.providerError message category)
  | completed, reply => ∃ stream, reply = .ok stream ∧ stream.chunks ≠ [] ∧ stream.failure = none
  | broken message category, reply =>
    ∃ stream, reply = .ok stream ∧ stream.chunks ≠ [] ∧
      stream.failure = some (.providerError message category)

/-- A candidate that was asked for a stream. -/
structure StreamAttempt where
  modelAlias : String
  outcome : StreamOutcome
  latency : Nat

namespace StreamAttempt

variable (call : StreamAttempt)

def status : InvocationAttemptStatus := match call.outcome with
  | .refused _ category | .broken _ category => statusForProviderErrorCategory category
  | .completed => .succeeded

def attempt : InvocationAttempt := ⟨call.modelAlias, call.status, call.latency⟩

/-- The reason codes the loop adds for the candidate: a stream that breaks adds those of one that
started. -/
def codes (decision : RoutingDecision) : List RoutingReasonCode := match call.outcome with
  | .refused _ category => (reasonCodeForProviderErrorCategory category).toList
  | .completed | .broken _ _ => InvocationOrchestrator.fallbackCode decision call.modelAlias

def completedAlias : Option String := match call.outcome with
  | .completed => some call.modelAlias
  | .refused _ _ | .broken _ _ => none

/-- The error that reaches the consumer. -/
def error : Option PyException := match call.outcome with
  | .broken message category => some (.providerError message category)
  | .refused _ _ | .completed => none

/-- The loop ends with the candidate. -/
def Final : Prop := match call.outcome with
  | .refused _ category => category = .permanent
  | .completed | .broken _ _ => True

end StreamAttempt

/-- The loop has asked the candidates: it ended with the chain or with the first final one. -/
inductive StreamTried : List String → List StreamAttempt → Prop
  | exhausted : StreamTried [] []
  | final {call : StreamAttempt} {chain : List String} (h : call.Final) :
    StreamTried (call.modelAlias :: chain) [call]
  | next {call : StreamAttempt} {chain : List String} {calls : List StreamAttempt}
      (h : ¬ call.Final)
      (ht : StreamTried chain calls) : StreamTried (call.modelAlias :: chain) (call :: calls)

namespace StreamLog

variable (log : StreamLog)

/-- The log with further recordings. -/
def recorded (recordings : List Port) : StreamLog :=
  { log with recordings := log.recordings ++ recordings }

/-- The log with further chunks delivered. -/
def delivering (chunks : List ProviderResponseChunk) : StreamLog :=
  { log with delivered := log.delivered ++ chunks }

/-- The log with a stream asked for. -/
def asking (preq : ProviderRequest) (reply : Except PyException ChunkStream) : StreamLog :=
  { log with calls := log.calls ++ [(preq, reply)] }

@[simp] theorem recorded_nil : log.recorded [] = log := by simp [recorded]

@[simp] theorem delivering_nil : log.delivering [] = log := by simp [delivering]

@[simp] theorem recorded_recorded (recordings recordings' : List Port) :
    (log.recorded recordings).recorded recordings' = log.recorded (recordings ++ recordings') := by
  simp [recorded]

@[simp] theorem delivering_delivering (chunks chunks' : List ProviderResponseChunk) :
    (log.delivering chunks).delivering chunks' = log.delivering (chunks ++ chunks') := by
  simp [delivering]

theorem next_yieldChunk (chunk : ProviderResponseChunk) :
    log.next (.yieldChunk chunk) (.ok ()) = log.delivering [chunk] := by
  simp [next, delivering, closes]

end StreamLog

namespace InvocationOrchestrator

/-- The port answers and the consumer goes on; a streaming provider honours its port. -/
def drains : (port : Port) → Except PyException port.Answer → Prop
  | .invokeStream _, .error x => x.isProviderError = true
  | .invokeStream _, .ok stream => ∀ x, stream.failure = some x → x.isProviderError = true
  | _, .ok _ => True
  | _, .error _ => False

def Drained (tr : List (Event Ports)) : Prop := ∀ ev ∈ tr, drains ev.call ev.reply

/-- The chunks of a reply. -/
def chunksOf (call : ProviderRequest × Except PyException ChunkStream) :
    List ProviderResponseChunk :=
  match call.2 with
  | .ok stream => stream.chunks
  | .error _ => []

/-- The recordings of a result. -/
def recordingsOf (orchestrator : InvocationOrchestrator) (result : InferenceResult) : List Port :=
  (if orchestrator.hasDecisionRepository then
    [.save { decision := result.decision, invocationAttempts := result.invocationAttempts }]
      else []) ++
  (if orchestrator.hasMetricsPublisher then [.publishMetrics result] else []) ++
  (if orchestrator.hasDecisionEventPublisher then [.publishEvent result] else [])

variable {orchestrator : InvocationOrchestrator} {request : InferenceRequest}
  {decision : RoutingDecision}
  {effective : EffectiveRoutingRequirements} {log : StreamLog} {tr : List (Event Ports)}

theorem Drained.left {tr tr' : List (Event Ports)} (h : Drained (tr ++ tr')) : Drained tr :=
  fun ev hev => h ev (List.mem_append_left _ hev)

theorem Drained.right {tr tr' : List (Event Ports)} (h : Drained (tr ++ tr')) : Drained tr' :=
  fun ev hev => h ev (List.mem_append_right _ hev)

theorem Drained.tail {ev : Event Ports} {tr : List (Event Ports)} (h : Drained (ev :: tr)) :
    Drained tr :=
  fun ev' hev' => h ev' (List.mem_cons_of_mem _ hev')

/-! ## Ports that answer -/

/-- The port is not the streaming provider. -/
def PlainPort : Port → Prop
  | .invokeStream _ => False
  | _ => True

theorem run_ask_drained {port : Port} {out : Except PyException port.Answer}
    (h : Run (ask port) tr out)
    (hdrained : Drained tr) (hport : PlainPort port) : ∃ a, out = .ok a ∧ tr = [⟨port, .ok a⟩] := by
  rw [run_perform_iff] at h
  subst h
  have hdrains := hdrained _ List.mem_cons_self
  cases out with
  | ok a => exact ⟨a, rfl, rfl⟩
  | error x => cases port <;> first | exact absurd hdrains id | exact absurd hport id

theorem run_ask_bind_drained {α : Type} {port : Port} {f : port.Answer → Prog Ports α}
    {out : Except PyException α}
    (h : Run (ask port >>= f) tr out) (hdrained : Drained tr) (hport : PlainPort port) :
    ∃ a tr', tr = ⟨port, .ok a⟩ :: tr' ∧ Drained tr' ∧ Run (f a) tr' out := by
  rcases (run_bind_iff _ _ _ _).mp h with ⟨a, tr₁, tr₂, rfl, h₁, h₂⟩ | ⟨x, h₁, -⟩
  · obtain ⟨a', ha, rfl⟩ := run_ask_drained h₁ hdrained.left hport
    cases ha
    exact ⟨a, tr₂, rfl, hdrained.right, h₂⟩
  · obtain ⟨a, ha, -⟩ := run_ask_drained h₁ hdrained hport
    cases ha

theorem run_recordHealthOutcome_drained {modelAlias : String} {status : InvocationAttemptStatus}
    {out : Except PyException Unit}
    (h : Run (orchestrator.recordHealthOutcome modelAlias status) tr out)
    (hdrained : Drained tr) : out = .ok () ∧ ∀ log : StreamLog, log.after tr = log := by
  unfold recordHealthOutcome at h
  split at h
  · obtain ⟨a, rfl, rfl⟩ := run_ask_drained h hdrained trivial
    exact ⟨rfl, fun _ => rfl⟩
  · obtain ⟨rfl, rfl⟩ := (run_ret_iff _ _ _).mp h
    exact ⟨rfl, fun _ => rfl⟩

theorem run_bind_drained {β : Type} {p : Prog Ports Unit} {f : Unit → Prog Ports β}
    {out : Except PyException β}
    {Q : List (Event Ports) → Prop} (h : Run (p >>= f) tr out) (hdrained : Drained tr)
    (hp : ∀ tr out, Run p tr out → Drained tr → out = .ok () ∧ Q tr) :
    ∃ tr₁ tr₂, tr = tr₁ ++ tr₂ ∧ Q tr₁ ∧ Run (f ()) tr₂ out ∧ Drained tr₂ := by
  rcases (run_bind_iff _ _ _ _).mp h with ⟨_, tr₁, tr₂, rfl, h₁, h₂⟩ | ⟨x, h₁, -⟩
  · exact ⟨tr₁, tr₂, rfl, (hp _ _ h₁ hdrained.left).2, h₂, hdrained.right⟩
  · cases (hp _ _ h₁ hdrained).1

/-! ## Recording a result -/

theorem run_persist_drained {result : InferenceResult} {out : Except PyException Unit}
    (h : Run (orchestrator.persist result) tr out) (hdrained : Drained tr) :
    out = .ok () ∧ ∀ log : StreamLog,
      log.after tr = log.recorded (if orchestrator.hasDecisionRepository then
      [.save { decision := result.decision, invocationAttempts := result.invocationAttempts }]
        else []) := by
  unfold persist at h
  split at h
  · rename_i hconfigured
    obtain ⟨a, rfl, rfl⟩ := run_ask_drained h hdrained trivial
    rw [if_pos hconfigured]
    exact ⟨rfl, fun log => rfl⟩
  · rename_i hconfigured
    obtain ⟨rfl, rfl⟩ := (run_ret_iff _ _ _).mp h
    rw [if_neg hconfigured]
    exact ⟨rfl, fun log => (log.recorded_nil).symm⟩

theorem run_publishMetrics_drained {result : InferenceResult} {out : Except PyException Unit}
    (h : Run (orchestrator.publishMetrics result) tr out) (hdrained : Drained tr) :
    out = .ok () ∧ ∀ log : StreamLog, log.after tr =
      log.recorded (if orchestrator.hasMetricsPublisher then [.publishMetrics result] else []) := by
  unfold publishMetrics at h
  split at h
  · rename_i hconfigured
    obtain ⟨a, rfl, rfl⟩ := run_ask_drained h hdrained trivial
    rw [if_pos hconfigured]
    exact ⟨rfl, fun log => rfl⟩
  · rename_i hconfigured
    obtain ⟨rfl, rfl⟩ := (run_ret_iff _ _ _).mp h
    rw [if_neg hconfigured]
    exact ⟨rfl, fun log => (log.recorded_nil).symm⟩

theorem run_publishDecisionEvent_drained {result : InferenceResult} {out : Except PyException Unit}
    (h : Run (orchestrator.publishDecisionEvent result) tr out) (hdrained : Drained tr) :
    out = .ok () ∧ ∀ log : StreamLog, log.after tr =
      log.recorded (if orchestrator.hasDecisionEventPublisher then [.publishEvent result]
        else []) := by
  unfold publishDecisionEvent at h
  split at h
  · rename_i hconfigured
    obtain ⟨a, rfl, rfl⟩ := run_ask_drained h hdrained trivial
    rw [if_pos hconfigured]
    exact ⟨rfl, fun log => rfl⟩
  · rename_i hconfigured
    obtain ⟨rfl, rfl⟩ := (run_ret_iff _ _ _).mp h
    rw [if_neg hconfigured]
    exact ⟨rfl, fun log => (log.recorded_nil).symm⟩

theorem run_record_drained {result : InferenceResult} {out : Except PyException InferenceResult}
    (h : Run (orchestrator.record result) tr out) (hdrained : Drained tr) :
    out = .ok result ∧ ∀ log :
      StreamLog, log.after tr = log.recorded (orchestrator.recordingsOf result) := by
  obtain ⟨tr₁, rest, rfl, h₁, h, hdrained⟩ :=
    run_bind_drained h hdrained fun _ _ => run_persist_drained
  obtain ⟨tr₂, rest, rfl, h₂, h, hdrained⟩ :=
    run_bind_drained h hdrained fun _ _ => run_publishMetrics_drained
  obtain ⟨tr₃, rest, rfl, h₃, h, hdrained⟩ :=
    run_bind_drained h hdrained fun _ _ => run_publishDecisionEvent_drained
  obtain ⟨rfl, rfl⟩ := (run_ret_iff _ _ _).mp h
  refine ⟨rfl, fun log => ?_⟩
  rw [List.append_nil, StreamLog.after_append, StreamLog.after_append, h₁, h₂, h₃,
    StreamLog.recorded_recorded,
    StreamLog.recorded_recorded, recordingsOf, List.append_assoc]

theorem run_finalizeStream_drained {succeededAlias : Option String}
    {extraReasonCodes : List RoutingReasonCode}
    {attempts : List InvocationAttempt} {out : Except PyException InferenceResult}
    (heligible : ∀ modelAlias, succeededAlias = some modelAlias →
      modelAlias ∈ eligibleAliases decision)
    (h : Run (orchestrator.finalizeStream decision succeededAlias extraReasonCodes attempts) tr out)
    (hdrained : Drained tr) :
    ∃ result : InferenceResult,
      aggregateDecision decision succeededAlias extraReasonCodes = .ok result.decision ∧
      result.invocationAttempts = attempts ∧ result.response = none ∧ out = .ok result ∧
      ∀ log : StreamLog, log.after tr = log.recorded (orchestrator.recordingsOf result) := by
  obtain ⟨final, hfinal⟩ :
    ∃ final, aggregateDecision decision succeededAlias extraReasonCodes = .ok final := by
    cases succeededAlias with
    | none => exact ⟨_, rfl⟩
    | some modelAlias =>
        obtain ⟨candidate, -, -, hok⟩ :=
          aggregateDecision_some (heligible modelAlias rfl) extraReasonCodes
        exact ⟨_, hok⟩
  rw [finalizeStream, hfinal] at h
  exact ⟨{ decision := final, response := none, invocationAttempts := attempts }, hfinal, rfl, rfl,
    run_record_drained h hdrained⟩

/-! ## Delivering a stream -/

theorem run_yieldChunks_drained {chunks : List ProviderResponseChunk}
    {out : Except PyException Unit} (h : Run (yieldChunks chunks) tr out) (hdrained : Drained tr) :
    out = .ok () ∧ ∀ log : StreamLog, log.after tr = log.delivering chunks := by
  induction chunks generalizing tr with
  | nil =>
      obtain ⟨rfl, rfl⟩ := (run_ret_iff _ _ _).mp h
      exact ⟨rfl, fun log => (log.delivering_nil).symm⟩
  | cons chunk chunks ih =>
      obtain ⟨_, tr', rfl, hdrained', h'⟩ := run_ask_bind_drained h hdrained trivial
      obtain ⟨rfl, hlog⟩ := ih h' hdrained'
      refine ⟨rfl, fun log => ?_⟩
      rw [StreamLog.after, hlog, log.next_yieldChunk, StreamLog.delivering_delivering]
      rfl

/-- How a stream ends. -/
def endOf (stream : ChunkStream) : Except PyException Unit :=
  match stream.failure with
  | none => .ok ()
  | some x => .error x

theorem run_yieldFrom_drained {stream : ChunkStream} {out : Except PyException Unit}
    (h : Run (yieldFrom stream) tr out) (hdrained : Drained tr) :
    out = endOf stream ∧ ∀ log : StreamLog, log.after tr = log.delivering stream.chunks := by
  obtain ⟨tr₁, tr₂, rfl, hlog, h', -⟩ :=
    run_bind_drained h hdrained fun _ _ => run_yieldChunks_drained
  unfold endOf
  cases hfailure : stream.failure with
  | none =>
      rw [hfailure] at h'
      obtain ⟨rfl, rfl⟩ := (run_ret_iff _ _ _).mp h'
      rw [List.append_nil]
      exact ⟨rfl, hlog⟩
  | some x =>
      rw [hfailure] at h'
      obtain ⟨rfl, rfl⟩ := (run_raise_iff _ _ _).mp h'
      rw [List.append_nil]
      exact ⟨rfl, hlog⟩

/-! ## The log of a loop -/

/-- The provider's reply to the request of a candidate. -/
def Shows (request : InferenceRequest) (effective : EffectiveRoutingRequirements)
    (call : StreamAttempt) (reply : ProviderRequest × Except PyException ChunkStream) : Prop :=
  reply.1 = providerRequest request effective call.modelAlias ∧ call.outcome.Shown reply.2

/-- The events `tr` asked the candidates `calls`, delivered their chunks and recorded `result`. -/
def Logged (orchestrator : InvocationOrchestrator) (request : InferenceRequest)
    (effective : EffectiveRoutingRequirements) (tr : List (Event Ports))
    (calls : List StreamAttempt) (result : InferenceResult) : Prop :=
  ∃ replies, List.Forall₂ (Shows request effective) calls replies ∧
    ∀ log : StreamLog, log.after tr = { log with
    calls := log.calls ++ replies
    delivered := log.delivered ++ replies.flatMap chunksOf
    recordings := log.recordings ++ orchestrator.recordingsOf result }

variable {result : InferenceResult} {modelAlias : String} {startedAt finishedAt : Nat}
  {tr₁ tr₂ : List (Event Ports)}

theorem logged_nil (hrecorded : ∀ log :
    StreamLog, log.after tr = log.recorded (orchestrator.recordingsOf result)) :
    Logged orchestrator request effective tr [] result := by
  refine ⟨[], List.Forall₂.nil, fun log => ?_⟩
  rw [hrecorded]
  simp [StreamLog.recorded]

theorem Logged.refused {calls : List StreamAttempt}
    (h : Logged orchestrator request effective tr₂ calls result)
    {message : String} {category : ProviderErrorCategory} {reply : Except PyException ChunkStream}
    (latency : Nat) (hfirst : firstChunk reply = .error (.providerError message category))
    (hhealth : ∀ log : StreamLog, log.after tr₁ = log) :
    Logged orchestrator request effective (⟨.monotonic, .ok startedAt⟩ ::
      ⟨.invokeStream (providerRequest request effective modelAlias), reply⟩ ::
        ⟨.monotonic, .ok finishedAt⟩ ::
        (tr₁ ++ tr₂)) (⟨modelAlias, .refused message category, latency⟩ :: calls) result := by
  obtain ⟨replies, hshows, hlog⟩ := h
  have hchunks : chunksOf (providerRequest request effective modelAlias, reply) = [] := by
    unfold chunksOf
    unfold firstChunk at hfirst
    split at hfirst
    · rfl
    · cases hfirst
    · rfl
    · cases hfirst
  refine ⟨(providerRequest request effective modelAlias, reply) :: replies,
    List.Forall₂.cons ⟨rfl, hfirst⟩ hshows,
    fun log => ?_⟩
  show ((log.asking (providerRequest request effective modelAlias) reply).after (tr₁ ++ tr₂)) = _
  rw [StreamLog.after_append, hhealth, hlog]
  simp [StreamLog.asking, hchunks]

theorem logged_committed {first : ProviderResponseChunk} {rest : ChunkStream}
    {outcome : StreamOutcome} {tr₃ : List (Event Ports)} (latency : Nat)
    (hshown : outcome.Shown (.ok { chunks := first :: rest.chunks, failure := rest.failure }))
    (hyielded : ∀ log : StreamLog, log.after tr₁ = log.delivering (first :: rest.chunks))
    (hhealth : ∀ log : StreamLog, log.after tr₂ = log)
    (hrecorded : ∀ log : StreamLog,
      log.after tr₃ = log.recorded (orchestrator.recordingsOf result)) :
    Logged orchestrator request effective (⟨.monotonic, .ok startedAt⟩ ::
      ⟨.invokeStream (providerRequest request effective modelAlias),
        .ok { chunks := first :: rest.chunks, failure := rest.failure }⟩ ::
      (tr₁ ++ ⟨.monotonic, .ok finishedAt⟩ :: (tr₂ ++ tr₃)))
      [⟨modelAlias, outcome, latency⟩] result := by
  refine ⟨[(providerRequest request effective modelAlias,
    .ok { chunks := first :: rest.chunks, failure := rest.failure })],
    List.Forall₂.cons ⟨rfl, hshown⟩ List.Forall₂.nil, fun log => ?_⟩
  show (log.asking _ _).after (tr₁ ++ _ :: (tr₂ ++ tr₃)) = _
  rw [StreamLog.after_append, hyielded, StreamLog.after, StreamLog.after_append, hhealth, hrecorded]
  simp [StreamLog.next, StreamLog.asking, StreamLog.delivering, StreamLog.recorded, chunksOf]

/-! ## The loop -/

/-- A loop that asked the candidates `calls` has recorded `result` and ended. -/
structure Streamed (orchestrator : InvocationOrchestrator) (request : InferenceRequest)
    (decision : RoutingDecision)
    (effective : EffectiveRoutingRequirements) (st : Attempts) (tr : List (Event Ports))
    (out : Except PyException InferenceResult) (calls : List StreamAttempt)
    (result : InferenceResult) : Prop where
  log : Logged orchestrator request effective tr calls result
  aggregated : aggregateDecision decision (calls.getLast?.bind (·.completedAlias))
    (st.extraReasonCodes ++ calls.flatMap (·.codes decision)) = .ok result.decision
  attempts : result.invocationAttempts = st.attempts ++ calls.map (·.attempt)
  response : result.response = none
  out : out = (calls.getLast?.bind (·.error)).elim (.ok result) .error

/-- A committed stream ends the loop. -/
theorem run_streamCommitted_drained {first : ProviderResponseChunk} {rest : ChunkStream}
    {st : Attempts}
    {out : Except PyException InferenceResult} (heligible : modelAlias ∈ eligibleAliases decision)
    (hfailure : ∀ x, rest.failure = some x → x.isProviderError = true)
    (h : Run (orchestrator.streamCommitted decision modelAlias startedAt (first, rest) st) tr out)
    (hdrained : Drained tr) :
    ∃ (call : StreamAttempt) (result : InferenceResult), call.modelAlias = modelAlias ∧ call.Final ∧
      Streamed orchestrator request decision effective st (⟨.monotonic, .ok startedAt⟩ ::
        ⟨.invokeStream (providerRequest request effective modelAlias),
          .ok { chunks := first :: rest.chunks, failure := rest.failure }⟩ :: tr) out
          [call] result := by
  obtain ⟨o, tr₁, tr₂, rfl, h₁, h₂⟩ := (run_attempt_bind_iff _ _ _ _).mp h
  obtain ⟨_, tr₃, rfl, hdrained₃, h₃⟩ := run_ask_bind_drained h₁ hdrained.left trivial
  obtain ⟨hend, hdelivered⟩ := run_yieldFrom_drained h₃ hdrained₃
  have hyielded : ∀ log : StreamLog, log.after (⟨.yieldChunk first, .ok ()⟩ :: tr₃) =
      log.delivering (first :: rest.chunks) := by
    intro log
    rw [StreamLog.after, hdelivered, log.next_yieldChunk, StreamLog.delivering_delivering]
    rfl
  have hdrained₂ := hdrained.right
  unfold endOf at hend
  cases hrest : rest.failure with
  | none =>
      rw [hrest] at hend
      cases hend
      obtain ⟨finishedAt, tr₄, rfl, hdrained₄, h₄⟩ := run_ask_bind_drained h₂ hdrained₂ trivial
      obtain ⟨tr₅, tr₆, rfl, hhealth, h₅, hdrained₆⟩ := run_bind_drained h₄ hdrained₄ fun _ _ =>
        run_recordHealthOutcome_drained
      obtain ⟨result, hfinal, hattempts, hresponse, rfl, hrecorded⟩ := run_finalizeStream_drained
        (fun succeeded hsome => by cases hsome; exact heligible) h₅ hdrained₆
      refine ⟨⟨modelAlias, .completed, latencyMs startedAt finishedAt⟩, result, rfl, trivial, ?_⟩
      exact {
        log := by
          rw [← hrest]
          exact logged_committed _ ⟨_, rfl, by simp, hrest⟩ hyielded hhealth hrecorded
        aggregated := by simpa [StreamAttempt.completedAlias, StreamAttempt.codes] using hfinal
        attempts := hattempts
        response := hresponse
        out := rfl }
  | some x =>
      obtain ⟨message, category, rfl⟩ : ∃ message category,
        x = .providerError message category := by
        have hprovider := hfailure x hrest
        cases x <;> first | exact ⟨_, _, rfl⟩ | cases hprovider
      rw [hrest] at hend
      cases hend
      obtain ⟨finishedAt, tr₄, rfl, hdrained₄, h₄⟩ := run_ask_bind_drained h₂ hdrained₂ trivial
      obtain ⟨tr₅, tr₆, rfl, hhealth, h₅, hdrained₆⟩ := run_bind_drained h₄ hdrained₄ fun _ _ =>
        run_recordHealthOutcome_drained
      rcases (run_bind_iff _ _ _ _).mp h₅ with ⟨returned, tr₇, tr₈, rfl, h₇, h₈⟩ | ⟨y, h₇, rfl⟩
      · obtain ⟨result, hfinal, hattempts, hresponse, -, hrecorded⟩ :=
          run_finalizeStream_drained (by simp) h₇
          hdrained₆.left
        obtain ⟨rfl, rfl⟩ := (run_raise_iff _ _ _).mp h₈
        rw [List.append_nil]
        refine ⟨⟨modelAlias, .broken message category, latencyMs startedAt finishedAt⟩, result, rfl,
          trivial, ?_⟩
        exact {
          log := by
            rw [← hrest]
            exact logged_committed _ ⟨_, rfl, by simp, hrest⟩ hyielded hhealth hrecorded
          aggregated := by simpa [StreamAttempt.completedAlias, StreamAttempt.codes] using hfinal
          attempts := hattempts
          response := hresponse
          out := rfl }
      · obtain ⟨result, -, -, -, hraised, -⟩ := run_finalizeStream_drained (by simp) h₇ hdrained₆
        cases hraised

theorem Streamed.refused {st : Attempts} {out : Except PyException InferenceResult}
    {calls : List StreamAttempt}
    {message : String} {category : ProviderErrorCategory} {reply : Except PyException ChunkStream}
    {latency : Nat} (h : Streamed orchestrator request decision effective
      (st.failed modelAlias category latency) tr₂ out calls result)
    (hfirst : firstChunk reply = .error (.providerError message category))
    (hhealth : ∀ log : StreamLog, log.after tr₁ = log) :
    Streamed orchestrator request decision effective st (⟨.monotonic, .ok startedAt⟩ ::
      ⟨.invokeStream (providerRequest request effective modelAlias), reply⟩ ::
        ⟨.monotonic, .ok finishedAt⟩ ::
        (tr₁ ++ tr₂)) out (⟨modelAlias, .refused message category, latency⟩ :: calls) result := by
  have hlast : ∀ {α : Type} (f : StreamAttempt → Option α),
      f ⟨modelAlias, .refused message category, latency⟩ = none →
      ((⟨modelAlias, .refused message category, latency⟩ ::
        calls : List StreamAttempt).getLast?.bind f) = calls.getLast?.bind f := by
    intro α f hf
    cases calls with
    | nil => simpa using hf
    | cons call calls => simp [List.getLast?_cons_cons]
  exact {
    log := h.log.refused latency hfirst hhealth
    aggregated := by
      rw [hlast _ rfl, List.flatMap_cons, ← List.append_assoc]
      exact h.aggregated
    attempts := by
      rw [h.attempts, List.map_cons]
      exact List.append_assoc _ [_] _
    response := h.response
    out := by
      rw [hlast _ rfl]
      exact h.out }

/-- A stream that ends without a chunk. -/
def emptyStream : ChunkStream := { chunks := [], failure := none }

/-- The replies a provider that honours its port can give. -/
theorem firstChunk_error {preq : ProviderRequest} {reply : Except PyException ChunkStream}
    {x : PyException}
    (hdrains : drains (.invokeStream preq) reply) (h : firstChunk reply = .error x)
    (hx : ∀ message category, x ≠ .providerError message category) : x = .stopIteration ∧
      reply = .ok emptyStream := by
  have hprovider : x.isProviderError = true → False := fun hp => by
    cases x with
    | providerError message category => exact hx _ _ rfl
    | _ => cases hp
  unfold firstChunk at h
  split at h
  · cases h
    exact (hprovider hdrains).elim
  · cases h
  · cases h
    exact (hprovider (hdrains _ rfl)).elim
  · cases h
    exact ⟨rfl, rfl⟩

/-- **A drained loop** asked a prefix of the chain and recorded its result, unless a candidate's
stream was empty: then its `StopIteration` leaves the loop before anything is recorded. -/
theorem run_streamChain_drained {chain : List String} {st : Attempts}
    {out : Except PyException InferenceResult}
    (heligible : ∀ modelAlias ∈ chain, modelAlias ∈ eligibleAliases decision)
    (h : Run (orchestrator.streamChain request decision effective chain st) tr out)
    (hdrained : Drained tr) :
    (∃ calls result, StreamTried chain calls ∧
      Streamed orchestrator request decision effective st tr out calls result) ∨
    (out = .error .stopIteration ∧ ∀ log : StreamLog, (log.after tr).recordings = log.recordings ∧
      ∃ call ∈ (log.after tr).calls, call.2 = .ok emptyStream) := by
  induction chain generalizing st tr with
  | nil =>
      obtain ⟨result, hfinal, hattempts, hresponse, rfl, hrecorded⟩ :=
        run_finalizeStream_drained (by simp) h hdrained
      refine Or.inl ⟨[], result, StreamTried.exhausted, ?_⟩
      exact {
        log := logged_nil hrecorded
        aggregated := by simpa using hfinal
        attempts := by simpa using hattempts
        response := hresponse
        out := rfl }
  | cons modelAlias chain ih =>
      obtain ⟨startedAt, tr₁, rfl, hdrained₁, h₁⟩ := run_ask_bind_drained h hdrained trivial
      obtain ⟨reply, tr₂, rfl, h₂⟩ := (run_tryPerform_bind_iff _ _ _ _).mp h₁
      have hreply := hdrained₁ _ List.mem_cons_self
      have hdrained₂ := hdrained₁.tail
      split at h₂
      · rename_i message category hfirst
        obtain ⟨finishedAt, tr₃, rfl, hdrained₃, h₃⟩ := run_ask_bind_drained h₂ hdrained₂ trivial
        obtain ⟨tr₄, tr₅, rfl, hhealth, h₅, hdrained₅⟩ := run_bind_drained h₃ hdrained₃ fun _ _ =>
          run_recordHealthOutcome_drained
        split at h₅
        · rename_i hpermanent
          obtain ⟨result, hfinal, hattempts, hresponse, rfl, hrecorded⟩ :=
            run_finalizeStream_drained (by simp) h₅ hdrained₅
          have hends : (⟨modelAlias, .refused message category, latencyMs startedAt finishedAt⟩ :
              StreamAttempt).Final :=
            hpermanent
          refine Or.inl ⟨_, result, StreamTried.final hends, ?_⟩
          exact {
            log := (logged_nil hrecorded).refused _ hfirst hhealth
            aggregated := by
              simpa [StreamAttempt.completedAlias, StreamAttempt.codes,
                Attempts.failed] using hfinal
            attempts := hattempts
            response := hresponse
            out := rfl }
        · rename_i hpermanent
          rcases ih (fun a ha => heligible a (List.mem_cons_of_mem _ ha)) h₅ hdrained₅ with
            ⟨calls, result, htried, hstreamed⟩ | ⟨rfl, hempty⟩
          · have hnext : ¬ (⟨modelAlias, .refused message category,
                latencyMs startedAt finishedAt⟩ : StreamAttempt).Final :=
              hpermanent
            exact Or.inl ⟨_, result, StreamTried.next hnext htried,
              hstreamed.refused hfirst hhealth⟩
          · refine Or.inr ⟨rfl, fun log => ?_⟩
            have hskip : log.after (⟨.monotonic, .ok startedAt⟩ ::
                ⟨.invokeStream (providerRequest request effective modelAlias), reply⟩ ::
                ⟨.monotonic, .ok finishedAt⟩ :: (tr₄ ++ tr₅)) =
                (log.asking (providerRequest request effective modelAlias) reply).after tr₅ := by
              show (log.asking _ reply).after (tr₄ ++ tr₅) = _
              rw [StreamLog.after_append, hhealth]
            rw [hskip]
            exact hempty (log.asking _ reply)
      · rename_i x hx hfirst
        obtain ⟨rfl, rfl⟩ := (run_raise_iff _ _ _).mp h₂
        obtain ⟨rfl, rfl⟩ := firstChunk_error hreply hfirst hx
        refine Or.inr ⟨rfl, fun log => ⟨rfl, _, List.mem_append_right _ List.mem_cons_self, rfl⟩⟩
      · rename_i stream hfirst
        obtain ⟨first, rest⟩ := stream
        have hok := firstChunk_ok hfirst
        subst hok
        obtain ⟨call, result, rfl, hfinal, hstreamed⟩ :=
          @run_streamCommitted_drained orchestrator request decision
          effective tr₂ modelAlias startedAt first rest st out
            (heligible modelAlias List.mem_cons_self) hreply h₂
          hdrained₂
        exact Or.inl ⟨[call], result, StreamTried.final hfinal, hstreamed⟩

end InvocationOrchestrator

end ModelRouter
