import ModelRouter.Application.StreamLoop
import ModelRouter.Application.World

/-!
# A stream commits to one model

`run_invokeStream_drained` : a drained run of `invoke_stream` evaluates a route and streams its
decision, with a log and an end that `Streamed` describes, unless the evaluation raises or a
candidate's stream is empty. `stream_commits` : at every point of every run the chunks delivered are
the beginning of one candidate's stream, after the first of them the provider is not asked again,
and a drained run ends as that stream does.
-/

namespace ModelRouter
open Effects Prog RouteEvaluationService

namespace InvocationOrchestrator

variable {orchestrator : InvocationOrchestrator} {request : InferenceRequest}
  {decision : RoutingDecision}
  {effective : EffectiveRoutingRequirements} {policy policy' : RoutingPolicy}
  {tr tr₁ tr₂ : List (Event Ports)}

/-! ## Drained runs of `invoke_stream` -/

/-- What the consumer of a generator sees of the end of its body. -/
def generatorEnd {α : Type} : Except PyException α → Except PyException α
  | .error .stopIteration => .error (.runtimeError "generator raised StopIteration")
  | out => out

theorem run_generator_iff {α : Type} {body : Prog Ports α} {out : Except PyException α} :
    Run (generator body) tr out ↔ ∃ o, Run body tr o ∧ out = generatorEnd o := by
  rw [generator, run_attempt_bind_iff]
  constructor
  · rintro ⟨o, tr₁, tr₂, rfl, h, h'⟩
    refine ⟨o, ?_⟩
    have hend : tr₂ = [] ∧ out = generatorEnd o := by
      cases o with
      | ok a => exact (run_ret_iff _ _ _).mp h'
      | error x => cases x <;> exact (run_raise_iff _ _ _).mp h'
    rw [hend.1, List.append_nil]
    exact ⟨h, hend.2⟩
  · rintro ⟨o, h, hout⟩
    refine ⟨o, tr, [], (List.append_nil _).symm, h, ?_⟩
    cases o with
    | ok a => exact (run_ret_iff _ _ _).mpr ⟨rfl, hout⟩
    | error x => cases x <;> exact (run_raise_iff _ _ _).mpr ⟨rfl, hout⟩

/-- An empty chain is a loop that is over at once. -/
theorem streamDecision_eq (orchestrator : InvocationOrchestrator) (request : InferenceRequest)
    (decision : RoutingDecision) (policy : RoutingPolicy) :
    orchestrator.streamDecision request decision policy = orchestrator.streamChain request decision
      (resolveEffectiveRequirements request.requirements policy)
      (buildCandidateChain decision policy.fallbackPolicy) {} := by
  unfold streamDecision
  dsimp only
  split
  · rename_i hchain
    rw [hchain]
    rfl
  · rfl

theorem Streamed.generatorEnd {calls : List StreamAttempt} {st : Attempts}
    {result : InferenceResult} {out : Except PyException InferenceResult}
    (h : Streamed orchestrator request decision effective st tr out calls result) :
      generatorEnd out = out := by
  rw [h.out]
  cases hlast : calls.getLast? with
  | none => rfl
  | some call =>
      obtain ⟨modelAlias, outcome, latency⟩ := call
      cases outcome <;> rfl

/-- A drained run after the evaluation of the route: the loop has recorded its result, or a stream
was empty. -/
inductive StreamEnd (orchestrator : InvocationOrchestrator) (request : InferenceRequest)
    (decision : RoutingDecision) (policy : RoutingPolicy) (tr : List (Event Ports))
    (out : Except PyException InferenceResult) : Prop
  | streamed (calls : List StreamAttempt) (result : InferenceResult)
      (htried : StreamTried (buildCandidateChain decision policy.fallbackPolicy) calls)
      (hstreamed : Streamed orchestrator request decision
        (resolveEffectiveRequirements request.requirements policy) {}
        tr out calls result)
  | empty (hout : out = .error (.runtimeError "generator raised StopIteration"))
      (hlog : (streamLog tr).recordings = [])
      (hcall : ∃ call ∈ (streamLog tr).calls, call.2 = .ok emptyStream)

/-- **A drained run of `invoke_stream`** evaluates a route and streams its decision, if the
evaluation does not raise. -/
theorem run_invokeStream_drained {out : Except PyException InferenceResult}
    (hkey : request.idempotencyKey = none) (hstreams : orchestrator.providerStreams = true)
    (h : Run (orchestrator.invokeStream request) tr out) (hdrained : Drained tr) :
    (∃ x, Run (orchestrator.routeEvaluationService.evaluate request) tr (.error x) ∧
      out = InvocationOrchestrator.generatorEnd (.error x)) ∨
    ∃ decision policy tr₁ tr₂, tr = tr₁ ++ ⟨.resolve request.applicationId, .ok policy⟩ :: tr₂ ∧
      Run (orchestrator.routeEvaluationService.evaluate request) tr₁ (.ok decision) ∧
      StreamEnd orchestrator request decision policy tr₂ out := by
  rw [invokeStream, if_neg (by simp [hkey]), if_neg (by simp [hstreams])] at h
  obtain ⟨o, hbody, rfl⟩ := run_generator_iff.mp h
  rcases (run_bind_iff _ _ _ _).mp hbody with ⟨decision, tr₁, tr', rfl, hevaluate, h'⟩ |
    ⟨x, hevaluate, rfl⟩
  · obtain ⟨policy, tr₂, rfl, hdrained₂, hstream⟩ := run_ask_bind_drained h' hdrained.right trivial
    refine Or.inr ⟨decision, policy, tr₁, tr₂, rfl, hevaluate, ?_⟩
    obtain ⟨policy₀, -, hevaluated⟩ := run_evaluate hevaluate
    rw [streamDecision_eq] at hstream
    rcases run_streamChain_drained (fun modelAlias => mem_buildCandidateChain hevaluated) hstream
      hdrained₂ with
      ⟨calls, result, htried, hstreamed⟩ | ⟨rfl, hempty⟩
    · rw [hstreamed.generatorEnd]
      exact StreamEnd.streamed calls result htried hstreamed
    · obtain ⟨hrecordings, hcall⟩ := hempty {}
      exact StreamEnd.empty rfl hrecordings hcall
  · exact Or.inl ⟨x, hevaluate, rfl⟩

theorem streaming_of_call {out : Except PyException InferenceResult}
    (h : Run (orchestrator.invokeStream request) tr out) (htr : tr ≠ []) :
    request.idempotencyKey = none ∧ orchestrator.providerStreams = true := by
  unfold invokeStream at h
  split at h
  · exact absurd ((run_raise_iff _ _ _).mp h).1 htr
  · rename_i hkey
    split at h
    · exact absurd ((run_raise_iff _ _ _).mp h).1 htr
    · rename_i hstreams
      exact ⟨by simpa using hkey, by simpa using hstreams⟩

/-! ## The log of a recorded result -/

theorem chunksOf_refused {call : ProviderRequest × Except PyException ChunkStream}
    (h : RefusedRetryably call.2) :
    chunksOf call = [] := by
  obtain ⟨message, category, hfirst, -⟩ := h
  unfold chunksOf
  unfold firstChunk at hfirst
  split at hfirst
  · rename_i hreply
    rw [hreply]
  · cases hfirst
  · rename_i hreply
    rw [hreply]
  · cases hfirst

theorem flatMap_chunksOf {calls : List (ProviderRequest × Except PyException ChunkStream)}
    {last : ProviderRequest × Except PyException ChunkStream} (hlast : calls.getLast? = some last)
    (hrefused : ∀ call ∈ calls.dropLast, RefusedRetryably call.2) :
      calls.flatMap chunksOf = chunksOf last := by
  rw [← List.dropLast_append_getLast? last hlast, List.flatMap_append, List.flatMap_singleton,
    List.flatMap_eq_nil_iff.mpr fun call hcall => chunksOf_refused (hrefused call hcall),
      List.nil_append]

theorem getLast?_of_forall₂ {α β : Type} {R : α → β → Prop} {l : List α} {l' : List β}
    (h : List.Forall₂ R l l')
    {b : β} (hb : l'.getLast? = some b) : ∃ a, l.getLast? = some a ∧ R a b := by
  induction h with
  | nil => cases hb
  | @cons a b' l l' hab hl ih =>
      cases hl with
      | nil =>
          rw [List.getLast?_singleton, Option.some.injEq] at hb
          exact ⟨a, rfl, hb ▸ hab⟩
      | cons _ _ =>
          rw [List.getLast?_cons_cons] at hb ⊢
          exact ih hb

theorem Streamed.committed {calls : List StreamAttempt} {result : InferenceResult}
    {out : Except PyException InferenceResult} {preq : ProviderRequest} {stream : ChunkStream}
    {chain : List String}
    (h : Streamed orchestrator request decision effective {} tr out calls result)
    (hone : OneStream chain (streamLog tr))
    (hlast : (streamLog tr).calls.getLast? = some (preq, .ok stream))
    (hchunks : stream.chunks ≠ []) :
    (streamLog tr).delivered = stream.chunks ∧ out = stream.failure.elim (.ok result) .error := by
  obtain ⟨replies, hshows, hlog⟩ := h.log
  have hcalls : (streamLog tr).calls = replies := by
    rw [streamLog, hlog]
    rfl
  have hdelivered : (streamLog tr).delivered = replies.flatMap chunksOf := by
    rw [streamLog, hlog]
    rfl
  rw [hcalls] at hlast
  obtain ⟨call, hcall, -, hshown⟩ := getLast?_of_forall₂ hshows hlast
  have hrefused := hone.refused
  rw [hcalls] at hrefused
  refine ⟨?_, ?_⟩
  · rw [hdelivered, flatMap_chunksOf hlast hrefused]
    rfl
  · rw [h.out, hcall]
    obtain ⟨modelAlias, outcome, latency⟩ := call
    cases outcome with
    | refused message category =>
        have hfirst : firstChunk (.ok stream) = .error (.providerError message category) := hshown
        unfold firstChunk at hfirst
        split at hfirst <;> simp_all
    | completed =>
        obtain ⟨stream', hstream, -, hfailure⟩ := hshown
        cases hstream
        rw [hfailure]
        rfl
    | broken message category =>
        obtain ⟨stream', hstream, -, hfailure⟩ := hshown
        cases hstream
        rw [hfailure]
        rfl

/-! ## Commitment -/

/-- The log of a partial run that has asked for a stream is the one of a chain. -/
theorem oneStream_of_trace (h : Trace (orchestrator.invokeStream request) tr) :
    ∃ chain, OneStream chain (streamLog tr) ∧
      ((streamLog tr).calls ≠ [] → ∃ decision policy tr₁ tr₂,
      tr = tr₁ ++ ⟨.resolve request.applicationId, .ok policy⟩ :: tr₂ ∧
        Streaming orchestrator request decision policy tr₁ tr₂ ∧
        chain = buildCandidateChain decision policy.fallbackPolicy) :=
  invariant_of_trace OneStream.start (fun _ _ _ reply hone hallowed => hone.next hallowed reply) h

theorem not_refusedRetryably_empty : ¬ RefusedRetryably (.ok emptyStream) := by
  rintro ⟨message, category, hfirst, -⟩
  cases hfirst

/-- **A stream commits to one model.** The chunks delivered so far are the beginning of the stream
of one candidate of the chain, and the candidates before it failed retryably without a chunk; no
stream is asked for once a chunk has been delivered; and a drained run delivers the whole stream and
ends as it does. -/
theorem stream_commits (orchestrator : InvocationOrchestrator) (request : InferenceRequest)
    (tr : List (Event Ports))
    (htrace : Trace (orchestrator.invokeStream request) tr) :
    (∃ chain, OneStream chain (streamLog tr) ∧
      ((streamLog tr).calls ≠ [] → ∃ decision policy tr₁ tr₂,
      tr = tr₁ ++ ⟨.resolve request.applicationId, .ok policy⟩ :: tr₂ ∧
        Streaming orchestrator request decision policy tr₁ tr₂ ∧
        chain = buildCandidateChain decision policy.fallbackPolicy)) ∧
    (∀ before after preq reply, tr = before ++ ⟨.invokeStream preq, reply⟩ :: after →
      (streamLog before).delivered = []) ∧
    (∀ out preq stream, Run (orchestrator.invokeStream request) tr out → Drained tr →
      (streamLog tr).calls.getLast? = some (preq, .ok stream) → stream.chunks ≠ [] →
      (streamLog tr).delivered = stream.chunks ∧
        ∃ result, out = stream.failure.elim (.ok result) .error) := by
  refine ⟨oneStream_of_trace htrace, ?_, ?_⟩
  · intro before after preq reply htr
    subst htr
    obtain ⟨chain, hdelivered, -⟩ := allowed_of_trace htrace
    exact hdelivered
  · intro out preq stream hrun hdrained hlast hchunks
    have hcalls : (streamLog tr).calls ≠ [] := fun hnil => by
      rw [hnil] at hlast
      cases hlast
    obtain ⟨hkey, hstreams⟩ := streaming_of_call hrun fun hnil => hcalls (by rw [hnil]; rfl)
    obtain ⟨chain, hone, -⟩ := oneStream_of_trace htrace
    rcases run_invokeStream_drained hkey hstreams hrun hdrained with
      ⟨x, hevaluate, -⟩ | ⟨decision, policy, tr₁, tr₂, rfl, hevaluate, hend⟩
    · have hlog : streamLog tr = {} :=
        after_unlogged ((only_evaluate_unlogged _ request).run hevaluate)
      exact absurd (by rw [hlog]) hcalls
    · have hlog : streamLog (tr₁ ++ ⟨.resolve request.applicationId, .ok policy⟩ :: tr₂) =
          streamLog tr₂ :=
        streamLog_evaluated ((only_evaluate_unlogged _ request).run hevaluate) _ _
      rw [hlog] at hlast hone ⊢
      cases hend with
      | streamed calls result htried hstreamed =>
          obtain ⟨hdelivered, hout⟩ := hstreamed.committed hone hlast hchunks
          exact ⟨hdelivered, result, hout⟩
      | empty hout hrecordings hcall =>
          -- an empty stream is the last one that is asked for
          obtain ⟨call, hmem, hempty⟩ := hcall
          rw [← List.dropLast_append_getLast? _ hlast, List.mem_append, List.mem_singleton] at hmem
          rcases hmem with hbefore | rfl
          · have hrefused := hone.refused call hbefore
            rw [hempty] at hrefused
            exact absurd hrefused not_refusedRetryably_empty
          · cases hempty
            exact absurd rfl hchunks

/-! ## A scenario -/

/-- The event does not raise, or is a stream. -/
def answered (event : Event Ports) : Bool :=
  match event with
  | ⟨.invokeStream _, _⟩ => true
  | ⟨_, .ok _⟩ => true
  | ⟨_, .error _⟩ => false

theorem drained_trace {α : Type} {world : World} {streams : String → Except PyException ChunkStream}
    {p : Prog Ports α} {s : WorldState}
    (h : (trace (world.streaming streams) p s).all answered = true)
    (hstreams : ∀ preq : ProviderRequest, drains (.invokeStream preq) (streams preq.modelAlias)) :
    Drained (trace (world.streaming streams) p s) := by
  intro ev hev
  have hanswered := List.all_eq_true.mp h ev hev
  obtain ⟨s', hreply⟩ := mem_trace hev
  obtain ⟨port, reply⟩ := ev
  cases port with
  | invokeStream preq =>
      have hstream : reply = streams preq.modelAlias := hreply
      rw [hstream]
      exact hstreams preq
  | _ => cases reply <;> simp_all [answered, drains]

theorem drained_breaking : Drained (trace (Scenario.throttled.streaming Scenario.breaking)
    (Scenario.orchestrator.invokeStream Scenario.request) Scenario.fresh) := by
  refine drained_trace (by decide +kernel) fun preq => ?_
  unfold Scenario.breaking
  split
  · rfl
  · intro x hx
    cases hx
    rfl

/-- The fallback model's stream breaks, and its chunks and its error reach the consumer. -/
theorem scenario_commits :
    (streamLog (trace (Scenario.throttled.streaming Scenario.breaking)
      (Scenario.orchestrator.invokeStream Scenario.request) Scenario.fresh)).delivered =
        [{ deltaText := "h" }, { deltaText := "i" }] ∧
    (exec (Scenario.throttled.streaming Scenario.breaking)
      (Scenario.orchestrator.invokeStream Scenario.request)
      Scenario.fresh).1 = .error (.providerError "cut" .throttled) := by
  have hrun := run_exec (Scenario.throttled.streaming Scenario.breaking)
    (Scenario.orchestrator.invokeStream Scenario.request) Scenario.fresh
  have hlast : (streamLog (trace (Scenario.throttled.streaming Scenario.breaking)
      (Scenario.orchestrator.invokeStream Scenario.request) Scenario.fresh)).calls.getLast?.map
        (·.2.toOption) =
        some (some { chunks := [{ deltaText := "h" }, { deltaText := "i" }]
                     failure := some (.providerError "cut" .throttled) }) := by decide +kernel
  obtain ⟨⟨preq, reply⟩, hcall, hreply⟩ := Option.map_eq_some_iff.mp hlast
  cases reply with
  | error x => cases hreply
  | ok stream =>
      obtain ⟨-, -, hends⟩ := stream_commits _ _ _ hrun.trace
      obtain ⟨hdelivered, result, hout⟩ := hends _ _ _ hrun drained_breaking hcall (by
        rw [Option.some.inj hreply]
        simp)
      rw [Option.some.inj hreply] at hdelivered hout
      exact ⟨hdelivered, hout⟩

end InvocationOrchestrator

end ModelRouter
