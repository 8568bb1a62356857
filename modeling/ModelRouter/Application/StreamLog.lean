import ModelRouter.Application.CandidateChain

/-!
# What a streamed run shows

`StreamLog` is what can be seen of a run of `invoke_stream` so far: the streams asked for, the
chunks delivered, what was recorded, and whether the consumer abandoned the iterator at a chunk.
`Allowed` says which calls the generator may make at a log, and every partial run keeps to it
(`allowed_of_trace`); from it follow the invariants of a log (`invariant_of_trace`): `OneStream`,
and that nothing is recorded of an abandoned stream (`abandoned_unrecorded`).
-/

namespace ModelRouter
open Effects Prog

/-- Whether the exception is a `ProviderError`. -/
def PyException.isProviderError : PyException → Bool
  | .providerError _ _ => true
  | _ => false

structure StreamLog where
  calls : List (ProviderRequest × Except PyException ChunkStream) := []
  delivered : List ProviderResponseChunk := []
  recordings : List Port := []
  abandoned : Bool := false

namespace StreamLog

/-- The reply to a yielded chunk is an exception, other than a provider error: `close()` was called
on the iterator. -/
def closes : Except PyException Unit → Bool
  | .ok _ => false
  | .error x => !x.isProviderError

def next (log : StreamLog) : (port : Port) → Except PyException port.Answer → StreamLog
  | .invokeStream preq, reply => { log with calls := log.calls ++ [(preq, reply)] }
  | .yieldChunk chunk, reply =>
    { log with delivered := log.delivered ++ [chunk], abandoned := log.abandoned || closes reply }
  | .save auditRecord, _ => { log with recordings := log.recordings ++ [.save auditRecord] }
  | .publishMetrics result, _ =>
      { log with recordings := log.recordings ++ [.publishMetrics result] }
  | .publishEvent result, _ => { log with recordings := log.recordings ++ [.publishEvent result] }
  | _, _ => log

def after (log : StreamLog) : List (Event Ports) → StreamLog
  | [] => log
  | ev :: tr => (log.next ev.call ev.reply).after tr

theorem after_append (log : StreamLog) (tr tr' : List (Event Ports)) :
    log.after (tr ++ tr') = (log.after tr).after tr' := by
  induction tr generalizing log with
  | nil => rfl
  | cons ev tr ih => exact ih _

end StreamLog

/-- The log of a run. -/
def streamLog (tr : List (Event Ports)) : StreamLog := ({} : StreamLog).after tr

namespace InvocationOrchestrator

/-- The candidate failed before its first chunk, and the next one may be asked. -/
def RefusedRetryably (reply : Except PyException ChunkStream) : Prop :=
  ∃ message category, firstChunk reply = .error (.providerError message category) ∧
    category ≠ .permanent

/-- The calls a generator over the chain may make. -/
def Allowed (chain : List String) (log : StreamLog) : Port → Prop
  | .invokeStream preq => log.delivered = [] ∧ log.recordings = [] ∧
      (∀ call ∈ log.calls, RefusedRetryably call.2) ∧
        log.calls.map (·.1.modelAlias) ++ [preq.modelAlias] <+: chain
  | .yieldChunk chunk => log.abandoned = false ∧ log.recordings = [] ∧ ∃ calls preq stream,
      log.calls = calls ++ [(preq, .ok stream)] ∧ log.delivered ++ [chunk] <+: stream.chunks
  | .save _ | .publishMetrics _ | .publishEvent _ => log.abandoned = false
  | _ => True

/-- The observer of a streamed run. -/
def streamMonitor (chain : List String) : Monitor Ports StreamLog where
  owes := Allowed chain
  relies _ _ _ := True
  next := StreamLog.next

theorem after_streamMonitor (chain : List String) (log : StreamLog) (tr : List (Event Ports)) :
    (streamMonitor chain).after log tr = log.after tr := by
  induction tr generalizing log with
  | nil => rfl
  | cons ev tr ih => exact ih _

theorem kept_streamMonitor (chain : List String) (log : StreamLog) (tr : List (Event Ports)) :
    (streamMonitor chain).Kept log tr := by
  induction tr generalizing log with
  | nil => trivial
  | cons ev tr ih => exact ⟨trivial, ih _⟩

/-! ## The invariants of a log -/

/-- The chunks delivered are the beginning of one candidate's stream; the candidates asked before it
are the ones before it in the chain, and failed before a chunk. -/
structure OneStream (chain : List String) (log : StreamLog) : Prop where
  in_order : log.calls.map (·.1.modelAlias) <+: chain
  refused : ∀ call ∈ log.calls.dropLast, RefusedRetryably call.2
  delivered : log.delivered = [] ∨ ∃ preq stream, log.calls.getLast? = some (preq, .ok stream) ∧
    log.delivered <+: stream.chunks

variable {chain : List String} {log : StreamLog}

theorem OneStream.start (chain : List String) : OneStream chain {} where
  in_order := List.nil_prefix
  refused := by simp
  delivered := Or.inl rfl

theorem OneStream.next (h : OneStream chain log) {port : Port} (hallowed : Allowed chain log port)
    (reply : Except PyException port.Answer) : OneStream chain (log.next port reply) := by
  cases port with
  | invokeStream preq =>
      obtain ⟨hdelivered, -, hrefused, horder⟩ := hallowed
      refine ⟨?_, ?_, Or.inl hdelivered⟩
      · simpa [StreamLog.next] using horder
      · simpa [StreamLog.next] using hrefused
  | yieldChunk chunk =>
      obtain ⟨-, -, calls, preq, stream, hcalls, hprefix⟩ := hallowed
      refine ⟨h.in_order, h.refused, Or.inr ⟨preq, stream, ?_, hprefix⟩⟩
      show log.calls.getLast? = _
      rw [hcalls, List.getLast?_concat]
  | _ => exact ⟨h.in_order, h.refused, h.delivered⟩

/-- Nothing is recorded of an abandoned stream. -/
def Unrecorded (log : StreamLog) : Prop := log.abandoned = true → log.recordings = []

theorem Unrecorded.next (h : Unrecorded log) {port : Port} (hallowed : Allowed chain log port)
    (reply : Except PyException port.Answer) : Unrecorded (log.next port reply) := by
  cases port with
  | yieldChunk chunk => exact fun _ => hallowed.2.1
  | save auditRecord =>
      intro habandoned
      exact absurd habandoned (by simp [StreamLog.next, show log.abandoned = false from hallowed])
  | publishMetrics result =>
      intro habandoned
      exact absurd habandoned (by simp [StreamLog.next, show log.abandoned = false from hallowed])
  | publishEvent result =>
      intro habandoned
      exact absurd habandoned (by simp [StreamLog.next, show log.abandoned = false from hallowed])
  | _ => exact h

theorem paid_invariant {I : StreamLog → Prop}
    (hstep : ∀ log port reply, I log → Allowed chain log port → I (log.next port reply))
    {tr : List (Event Ports)}
    (hpaid : (streamMonitor chain).Paid log tr) (h : I log) : I (log.after tr) := by
  induction tr generalizing log with
  | nil => exact h
  | cons ev tr ih => exact ih hpaid.2 (hstep _ _ _ h hpaid.1)

/-! ## The generator keeps to the allowed calls -/

variable {orchestrator : InvocationOrchestrator} {request : InferenceRequest}
  {decision : RoutingDecision} {effective : EffectiveRoutingRequirements} {policy : RoutingPolicy}

/-- The calls that leave the log as it is. -/
def UnloggedPort : Port → Prop
  | .invokeStream _ | .yieldChunk _ | .save _ | .publishMetrics _ | .publishEvent _ => False
  | _ => True

theorem unlogged (port : Port) (h : UnloggedPort port) :
    (streamMonitor chain).owes log port ∧
    ∀ reply, (streamMonitor chain).next log port reply = log := by
  cases port with
  | invokeStream | yieldChunk | save | publishMetrics | publishEvent => exact h.elim
  | _ => exact ⟨trivial, fun _ => rfl⟩

theorem unlogged_recordHealthOutcome (modelAlias : String) (status : InvocationAttemptStatus) :
    Spec (streamMonitor chain) (orchestrator.recordHealthOutcome modelAlias status) (fun _ log' =>
      log' = log) log := by
  refine Only.spec ((orchestrator.only_recordHealthOutcome modelAlias status).mono fun port h =>
    ?_) unlogged
  cases port <;> trivial

theorem unlogged_bind {α : Type} {port : Port} {f : port.Answer → Prog Ports α}
    {Q : Except PyException α → StreamLog → Prop} (hport : UnloggedPort port)
    (hok : ∀ a, Spec (streamMonitor chain) (f a) Q log) (herr : ∀ x, Q (.error x) log) :
    Spec (streamMonitor chain) (ask port >>= f) Q log := by
  obtain ⟨howes, hnext⟩ := @unlogged chain log port hport
  refine Spec.performBind howes (fun a _ => ?_) fun x _ => ?_
  · rw [hnext]
    exact hok a
  · rw [hnext]
    exact herr x

theorem allowed_record (h : log.abandoned = false) (result : InferenceResult) :
    Spec (streamMonitor chain) (orchestrator.record result) (fun _ _ => True) log := by
  have hpersist : ∀ log : StreamLog, log.abandoned = false →
      Spec (streamMonitor chain) (orchestrator.persist result)
      (fun _ log' => log'.abandoned = false) log := by
    intro log h
    unfold persist
    split
    · exact Spec.perform h fun _ _ => h
    · exact h
  have hmetrics : ∀ log : StreamLog, log.abandoned = false →
      Spec (streamMonitor chain) (orchestrator.publishMetrics result) (fun _ log' =>
        log'.abandoned = false) log := by
    intro log h
    unfold publishMetrics
    split
    · exact Spec.perform h fun _ _ => h
    · exact h
  have hevent : ∀ log : StreamLog, log.abandoned = false →
      Spec (streamMonitor chain) (orchestrator.publishDecisionEvent result) (fun _ _ =>
        True) log := by
    intro log h
    unfold publishDecisionEvent
    split
    · exact Spec.perform h fun _ _ => trivial
    · trivial
  refine Spec.bind (hpersist log h) (fun _ log₁ h₁ => ?_) fun _ _ _ => trivial
  refine Spec.bind (hmetrics log₁ h₁) (fun _ log₂ h₂ => ?_) fun _ _ _ => trivial
  exact Spec.bind (hevent log₂ h₂) (fun _ _ _ => trivial) fun _ _ _ => trivial

theorem allowed_finalizeStream (h : log.abandoned = false) (succeededAlias : Option String)
    (extraReasonCodes : List RoutingReasonCode) (attempts : List InvocationAttempt) :
    Spec (streamMonitor chain)
      (orchestrator.finalizeStream decision succeededAlias extraReasonCodes attempts)
      (fun _ _ => True) log :=
  Spec.ofExceptBind (fun _ _ => allowed_record h _) fun _ _ => trivial

/-- The stream is not abandoned if it ended, or if the failure is a provider error. -/
def NotAbandoned (out : Except PyException Unit) (log : StreamLog) : Prop :=
  (∀ x, out = .error x → x.isProviderError = true) → log.abandoned = false

theorem allowed_yieldChunks {calls : List (ProviderRequest × Except PyException ChunkStream)}
    {preq : ProviderRequest} {stream : ChunkStream} (chunks : List ProviderResponseChunk)
    (hcalls : log.calls = calls ++ [(preq, .ok stream)])
    (hleft : log.delivered ++ chunks = stream.chunks) (hrecordings : log.recordings = [])
    (habandoned : log.abandoned = false) :
    Spec (streamMonitor chain) (yieldChunks chunks) NotAbandoned log := by
  induction chunks generalizing log with
  | nil => exact fun _ => habandoned
  | cons chunk chunks ih =>
      have hprefix : log.delivered ++ [chunk] <+: stream.chunks := ⟨chunks, by rw [← hleft]; simp⟩
      refine Spec.performBind ⟨habandoned, hrecordings, calls, preq, stream, hcalls, hprefix⟩
        (fun a _ => ?_) fun x _ => ?_
      · refine ih hcalls ?_ hrecordings ?_
        · rw [← hleft]
          exact List.append_assoc _ _ _
        · show (log.abandoned || false) = false
          simp [habandoned]
      · intro hprovider
        show (log.abandoned || !x.isProviderError) = false
        rw [habandoned, hprovider x rfl]
        rfl

theorem allowed_yieldFrom {calls : List (ProviderRequest × Except PyException ChunkStream)}
    {preq : ProviderRequest}
    {stream rest : ChunkStream} (hcalls : log.calls = calls ++ [(preq, .ok stream)])
    (hleft : log.delivered ++ rest.chunks = stream.chunks) (hrecordings : log.recordings = [])
    (habandoned : log.abandoned = false) :
      Spec (streamMonitor chain) (yieldFrom rest) NotAbandoned log := by
  refine Spec.bind (allowed_yieldChunks rest.chunks hcalls hleft hrecordings habandoned)
    (fun _ log' h => ?_)
    fun x log' h => h
  have hkept : log'.abandoned = false := h (by simp)
  cases rest.failure with
  | none => exact fun _ => hkept
  | some x => exact fun _ => hkept

theorem allowed_streamCommitted {calls : List (ProviderRequest × Except PyException ChunkStream)}
    {preq : ProviderRequest} {stream : ChunkStream} {first : ProviderResponseChunk}
    {rest : ChunkStream} (candidateAlias : String) (startedAt : Nat) (st : Attempts)
    (hcalls : log.calls = calls ++ [(preq, .ok stream)])
    (hleft : log.delivered ++ first :: rest.chunks = stream.chunks)
    (hrecordings : log.recordings = []) (habandoned : log.abandoned = false) :
    Spec (streamMonitor chain)
      (orchestrator.streamCommitted decision candidateAlias startedAt (first, rest) st)
      (fun _ _ => True) log := by
  have hyields : Spec (streamMonitor chain) (do ask (.yieldChunk first); yieldFrom rest :
      Prog Ports Unit)
      NotAbandoned log := by
    have hprefix : log.delivered ++ [first] <+: stream.chunks :=
      ⟨rest.chunks, by rw [← hleft]; simp⟩
    refine Spec.performBind ⟨habandoned, hrecordings, calls, preq, stream, hcalls, hprefix⟩
      (fun a _ => ?_) fun x _ => ?_
    · refine allowed_yieldFrom hcalls ?_ hrecordings ?_
      · rw [← hleft]
        exact List.append_assoc _ _ _
      · show (log.abandoned || false) = false
        simp [habandoned]
    · intro hprovider
      show (log.abandoned || !x.isProviderError) = false
      rw [habandoned, hprovider x rfl]
      rfl
  have hattempt : Spec (streamMonitor chain) (do ask (.yieldChunk first); yieldFrom rest :
      Prog Ports Unit).attempt
      (fun o log' => ∃ out, o = .ok out ∧ NotAbandoned out log') log :=
    Spec.attempt (Spec.mono hyields fun o log' h => ⟨o, rfl, h⟩)
  refine Spec.bind hattempt (fun out log' h => ?_) fun _ _ _ => trivial
  obtain ⟨out', hout, hkept⟩ := h
  cases hout
  split
  · have hkept' : log'.abandoned = false := hkept fun x hx => by
      cases hx
      rfl
    refine unlogged_bind trivial (fun finishedAt => ?_) fun _ => trivial
    refine Spec.bind (unlogged_recordHealthOutcome _ _) (fun _ log'' hsame => ?_) fun _ _ _ =>
      trivial
    subst hsame
    exact Spec.bind (allowed_finalizeStream hkept' _ _ _) (fun _ _ _ => trivial) fun _ _ _ =>
      trivial
  · trivial
  · have hkept' : log'.abandoned = false := hkept (by simp)
    refine unlogged_bind trivial (fun finishedAt => ?_) fun _ => trivial
    refine Spec.bind (unlogged_recordHealthOutcome _ _) (fun _ log'' hsame => ?_) fun _ _ _ =>
      trivial
    subst hsame
    exact allowed_finalizeStream hkept' _ _ _

theorem firstChunk_ok {reply : Except PyException ChunkStream} {first : ProviderResponseChunk}
    {rest : ChunkStream} (h : firstChunk reply = .ok (first, rest)) :
    reply = .ok { chunks := first :: rest.chunks, failure := rest.failure } := by
  unfold firstChunk at h
  split at h
  · cases h
  · cases h
    rfl
  · cases h
  · cases h

/-- The generator keeps to the allowed calls, once it has been refused by the candidates before the
chain. -/
theorem allowed_streamChain (todo : List String) (st : Attempts)
    (hchain : log.calls.map (·.1.modelAlias) ++ todo = chain)
    (hrefused : ∀ call ∈ log.calls, RefusedRetryably call.2)
    (hdelivered : log.delivered = []) (hrecordings : log.recordings = [])
    (habandoned : log.abandoned = false) :
    Spec (streamMonitor chain) (orchestrator.streamChain request decision effective todo st)
      (fun _ _ => True) log := by
  induction todo generalizing st log with
  | nil => exact allowed_finalizeStream habandoned _ _ _
  | cons candidateAlias todo ih =>
      refine unlogged_bind trivial (fun startedAt => ?_) fun _ => trivial
      have hprefix : log.calls.map (·.1.modelAlias) ++ [candidateAlias] <+: chain :=
        ⟨todo, by rw [← hchain]; simp⟩
      refine Spec.tryPerformBind ⟨hdelivered, hrecordings, hrefused, hprefix⟩ fun reply _ => ?_
      show Spec _ _ _ { log with calls := log.calls ++
          [(providerRequest request effective candidateAlias, reply)] }
      split
      · rename_i message category hfirst
        refine unlogged_bind trivial (fun finishedAt => ?_) fun _ => trivial
        refine Spec.bind (unlogged_recordHealthOutcome _ _) (fun _ log' hsame => ?_) fun _ _ _ =>
          trivial
        subst hsame
        split
        · refine allowed_finalizeStream ?_ _ _ _
          exact habandoned
        · rename_i hpermanent
          refine ih _ ?_ ?_ hdelivered hrecordings habandoned
          · rw [← hchain]
            simp [providerRequest]
          · intro call hcall
            rcases List.mem_append.mp hcall with hcall | hcall
            · exact hrefused call hcall
            · rw [List.mem_singleton.mp hcall]
              exact ⟨message, category, hfirst, hpermanent⟩
      · trivial
      · rename_i stream hfirst
        obtain ⟨first, rest⟩ := stream
        rw [firstChunk_ok hfirst]
        refine allowed_streamCommitted candidateAlias startedAt st rfl ?_ hrecordings habandoned
        show log.delivered ++ _ = _
        rw [hdelivered]
        rfl

/-! ## Partial runs of `invoke_stream` -/

theorem after_unlogged {tr : List (Event Ports)} (h : ∀ ev ∈ tr, UnloggedPort ev.call) :
    log.after tr = log := by
  induction tr generalizing log with
  | nil => rfl
  | cons ev tr ih =>
      have hnext := (@unlogged [] log ev.call (h ev List.mem_cons_self)).2 ev.reply
      rw [StreamLog.after, show log.next ev.call ev.reply = log from hnext]
      exact ih fun ev' hev' => h ev' (List.mem_cons_of_mem _ hev')

theorem streamLog_evaluated {tr₁ tr₂ : List (Event Ports)} (h : ∀ ev ∈ tr₁, UnloggedPort ev.call)
    (applicationId : String) (reply : Except PyException RoutingPolicy) :
    streamLog (tr₁ ++ ⟨.resolve applicationId, reply⟩ :: tr₂) = streamLog tr₂ := by
  rw [streamLog, StreamLog.after_append, after_unlogged h]
  rfl

theorem only_evaluate_unlogged (service : RouteEvaluationService) (request : InferenceRequest) :
    Only UnloggedPort (service.evaluate request) := by
  refine (service.only_evaluate request).mono fun port h => ?_
  cases port <;> trivial

theorem trace_generator {α : Type} {body : Prog Ports α} {tr : List (Event Ports)}
    (h : Trace (generator body) tr) :
    Trace body tr := by
  rcases (trace_bind_iff _ _ _).mp h with h | ⟨o, tr₁, tr₂, rfl, h₁, h₂⟩
  · exact trace_attempt h
  · have hnil : tr₂ = [] := by
      refine trace_ended ?_ h₂
      split <;> rfl
    rw [hnil, List.append_nil]
    exact trace_attempt h₁.trace

/-- A partial run of `invoke_stream` that goes on to the stream of a decision. -/
structure Streaming (orchestrator : InvocationOrchestrator) (request : InferenceRequest)
    (decision : RoutingDecision)
    (policy : RoutingPolicy) (tr₁ tr₂ : List (Event Ports)) : Prop where
  evaluated : Run (orchestrator.routeEvaluationService.evaluate request) tr₁ (.ok decision)
  stream : Trace (orchestrator.streamDecision request decision policy) tr₂

theorem trace_invokeStream {tr : List (Event Ports)}
    (h : Trace (orchestrator.invokeStream request) tr) :
    (∀ ev ∈ tr, UnloggedPort ev.call) ∨ ∃ decision policy tr₁ tr₂,
      tr = tr₁ ++ ⟨.resolve request.applicationId, .ok policy⟩ :: tr₂ ∧
        Streaming orchestrator request decision policy tr₁ tr₂ := by
  unfold invokeStream at h
  split at h
  · rw [trace_ended rfl h]
    exact Or.inl (by simp)
  · split at h
    · rw [trace_ended rfl h]
      exact Or.inl (by simp)
    · have honly := only_evaluate_unlogged orchestrator.routeEvaluationService request
      have hresolve : Only UnloggedPort (ask (.resolve request.applicationId)) :=
        Only.perform trivial
      rcases (trace_bind_iff _ _ _).mp (trace_generator h) with h |
        ⟨decision, tr₁, tr', rfl, hevaluate, h⟩
      · exact Or.inl (honly.trace h)
      · rcases (trace_bind_iff _ _ _).mp h with h | ⟨policy, tr₂, tr₃, rfl, hresolved, hrest⟩
        · exact Or.inl (List.forall_mem_append.mpr ⟨honly.run hevaluate, hresolve.trace h⟩)
        · rw [run_perform_ok_iff] at hresolved
          subst hresolved
          exact Or.inr ⟨decision, policy, tr₁, tr₃, rfl, hevaluate, hrest⟩

theorem paid_streamDecision {tr : List (Event Ports)}
    (h : Trace (orchestrator.streamDecision request decision policy) tr) :
    (streamMonitor (buildCandidateChain decision policy.fallbackPolicy)).Paid {} tr := by
  have hspec : Spec (streamMonitor (buildCandidateChain decision policy.fallbackPolicy))
      (orchestrator.streamDecision request decision policy) (fun _ _ => True) {} := by
    unfold streamDecision
    dsimp only
    split
    · exact allowed_finalizeStream rfl _ _ _
    · exact allowed_streamChain _ _ rfl (by simp) rfl rfl rfl
  obtain ⟨q, hsteps⟩ := h
  exact (hspec.steps hsteps (kept_streamMonitor _ _ _)).1

/-- **Every call of `invoke_stream` is allowed** over the chain of its decision. -/
theorem allowed_of_trace {before after : List (Event Ports)} {ev : Event Ports}
    (h : Trace (orchestrator.invokeStream request) (before ++ ev :: after)) :
    ∃ chain, Allowed chain (streamLog before) ev.call := by
  have hunlogged : UnloggedPort ev.call → ∃ chain, Allowed chain (streamLog before) ev.call :=
    fun hport => ⟨[], (unlogged ev.call hport).1⟩
  rcases trace_invokeStream h with hall | ⟨decision, policy, tr₁, tr₂, happ, hstreaming⟩
  · exact hunlogged (hall ev (by simp))
  · have honly := (only_evaluate_unlogged orchestrator.routeEvaluationService request).run
        hstreaming.evaluated
    rcases List.append_eq_append_iff.mp happ with ⟨rest, htr₁, hrest⟩ | ⟨rest, hbefore, hrest⟩
    · cases rest with
      | nil =>
          rw [(List.cons.inj hrest).1]
          exact ⟨[], trivial⟩
      | cons ev' rest =>
          rw [(List.cons.inj hrest).1] at hunlogged ⊢
          exact hunlogged (honly ev' (by simp [htr₁]))
    · cases rest with
      | nil =>
          rw [← (List.cons.inj hrest).1]
          exact ⟨[], trivial⟩
      | cons ev' rest =>
          obtain ⟨hev', htr₂⟩ := List.cons.inj hrest
          have hpaid := paid_streamDecision hstreaming.stream
          rw [htr₂] at hpaid
          have howes := hpaid.owes
          rw [after_streamMonitor] at howes
          rw [hbefore, ← hev', streamLog_evaluated honly]
          exact ⟨_, howes⟩

theorem invariant_of_trace {I : List String → StreamLog → Prop} (hstart : ∀ chain, I chain {})
    (hstep : ∀ chain log port reply, I chain log → Allowed chain log port →
      I chain (log.next port reply))
    {tr : List (Event Ports)} (h : Trace (orchestrator.invokeStream request) tr) :
    ∃ chain, I chain (streamLog tr) ∧ ((streamLog tr).calls ≠ [] → ∃ decision policy tr₁ tr₂,
      tr = tr₁ ++ ⟨.resolve request.applicationId, .ok policy⟩ :: tr₂ ∧
        Streaming orchestrator request decision policy tr₁ tr₂ ∧
        chain = buildCandidateChain decision policy.fallbackPolicy) := by
  rcases trace_invokeStream h with hall | ⟨decision, policy, tr₁, tr₂, rfl, hstreaming⟩
  · have hlog : streamLog tr = {} := after_unlogged hall
    rw [hlog]
    exact ⟨[], hstart [], by simp⟩
  · have honly := (only_evaluate_unlogged orchestrator.routeEvaluationService request).run
        hstreaming.evaluated
    rw [streamLog_evaluated honly]
    refine ⟨_, paid_invariant (hstep _) (paid_streamDecision hstreaming.stream) (hstart _),
      fun _ => ?_⟩
    exact ⟨decision, policy, tr₁, tr₂, rfl, hstreaming, rfl⟩

/-- **Nothing is recorded of an abandoned stream.** -/
theorem abandoned_unrecorded {tr : List (Event Ports)}
    (h : Trace (orchestrator.invokeStream request) tr)
    (habandoned : (streamLog tr).abandoned = true) : (streamLog tr).recordings = [] := by
  obtain ⟨-, hunrecorded, -⟩ :=
    @invariant_of_trace orchestrator request (fun _ => Unrecorded) (fun _ h => by cases h)
    (fun _ _ _ reply hI hallowed => hI.next hallowed reply) tr h
  exact hunrecorded habandoned

end InvocationOrchestrator

end ModelRouter
