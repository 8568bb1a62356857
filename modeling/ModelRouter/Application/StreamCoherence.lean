import ModelRouter.Application.Explanation
import ModelRouter.Application.StreamPersistence

/-!
# Coherence of streamed decisions

`LawfulRecord` are the laws of an invocation's record that a streamed one should keep too.
`stream_coherent_iff` says when it does: a stream that breaks adds the codes of one that started,
not those of its failure, so it may break only permanently and on the model that the strategy
selected; and without a selected model the record has a code only if the first candidate was not
refused permanently.
-/

namespace ModelRouter
open Effects Prog RouteEvaluationService

/-- The codes of a record tell whether a fallback was used and how its attempts failed. -/
structure LawfulRecord (auditRecord : AuditRecord) : Prop where
  fallback_code : auditRecord.decision.fallbackUsed = true ↔
    .fallbackSelected ∈ auditRecord.decision.reasonCodes
  throttled : .modelThrottled ∈ auditRecord.decision.reasonCodes ↔
    ∃ attempt ∈ auditRecord.invocationAttempts, attempt.status = .throttled
  unavailable : .modelUnavailable ∈ auditRecord.decision.reasonCodes ↔
    ∃ attempt ∈ auditRecord.invocationAttempts, attempt.status = .transientError ∨
      attempt.status = .timeout
  explained : auditRecord.decision.reasonCodes ≠ []

/-! ## The codes of a candidate that was asked -/

namespace StreamAttempt

variable (decision : RoutingDecision) (call : StreamAttempt)

theorem throttled_mem_codes :
    .modelThrottled ∈ call.codes decision ↔
    ∃ message, call.outcome = .refused message .throttled := by
  obtain ⟨modelAlias, outcome, latency⟩ := call
  cases outcome with
  | refused message category => cases category <;> simp [codes, reasonCodeForProviderErrorCategory]
  | _ =>
      simp only [codes, InvocationOrchestrator.fallbackCode]
      split <;> simp

theorem unavailable_mem_codes : .modelUnavailable ∈ call.codes decision ↔
    ∃ message category, call.outcome = .refused message category ∧
      (category = .transient ∨ category = .timeout) := by
  obtain ⟨modelAlias, outcome, latency⟩ := call
  cases outcome with
  | refused message category => cases category <;> simp [codes, reasonCodeForProviderErrorCategory]
  | _ =>
      simp only [codes, InvocationOrchestrator.fallbackCode]
      split <;> simp

/-- A stream that has started adds the code of a fallback, whether it breaks or not. -/
theorem fallback_mem_codes : .fallbackSelected ∈ call.codes decision ↔
    (∀ message category, call.outcome ≠ .refused message category) ∧
      some call.modelAlias ≠ decision.selectedModelAlias := by
  obtain ⟨modelAlias, outcome, latency⟩ := call
  cases outcome with
  | refused message category => cases category <;> simp [codes, reasonCodeForProviderErrorCategory]
  | _ =>
      simp only [codes, InvocationOrchestrator.fallbackCode]
      split <;> simp_all

theorem status_throttled_iff : call.status = .throttled ↔ ∃ message,
    call.outcome = .refused message .throttled ∨ call.outcome = .broken message .throttled := by
  obtain ⟨modelAlias, outcome, latency⟩ := call
  cases outcome with
  | completed => simp [status]
  | _ message category => cases category <;> simp [status, statusForProviderErrorCategory]

theorem status_unavailable_iff : call.status = .transientError ∨ call.status = .timeout ↔
    ∃ message category,
    (call.outcome = .refused message category ∨ call.outcome = .broken message category) ∧
      (category = .transient ∨ category = .timeout) := by
  obtain ⟨modelAlias, outcome, latency⟩ := call
  cases outcome with
  | completed => simp [status]
  | _ message category => cases category <;> simp [status, statusForProviderErrorCategory]

end StreamAttempt

/-! ## The candidates that were asked -/

variable {chain : List String} {calls : List StreamAttempt}

theorem StreamTried.aliases (h : StreamTried chain calls) : calls.map (·.modelAlias) <+: chain := by
  induction h with
  | exhausted => exact List.nil_prefix
  | final => exact ⟨_, rfl⟩
  | next _ _ ih => exact List.cons_prefix_cons.mpr ⟨rfl, ih⟩

theorem StreamTried.last (h : StreamTried chain calls) {call : StreamAttempt} (hcall : call ∈ calls)
    (hfinal : call.Final) : calls.getLast? = some call := by
  induction h with
  | exhausted => cases hcall
  | final => simpa using (List.mem_singleton.mp hcall).symm
  | @next first chain calls hnot ht ih =>
      rcases List.mem_cons.mp hcall with rfl | hcall
      · exact absurd hfinal hnot
      · have hrest := ih hcall
        cases calls with
        | nil => cases hcall
        | cons second calls =>
            rw [List.getLast?_cons_cons]
            exact hrest

theorem StreamTried.only (h : StreamTried chain calls) (hnodup : chain.Nodup) {call : StreamAttempt}
    (hcall : call ∈ calls) (hfinal : call.Final) (hhead : chain.head? = some call.modelAlias) :
      calls = [call] := by
  cases h with
  | exhausted => cases hcall
  | final => rw [List.mem_singleton.mp hcall]
  | @next first chain calls hnot ht =>
      rcases List.mem_cons.mp hcall with rfl | hcall
      · exact absurd hfinal hnot
      · have hmem : call.modelAlias ∈ chain := ht.aliases.subset (List.mem_map_of_mem hcall)
        have halias : first.modelAlias = call.modelAlias := by simpa using hhead
        exact absurd (halias ▸ hmem) (List.nodup_cons.mp hnodup).1

namespace InvocationOrchestrator

/-- What the route and the streams that were asked for must be like for a lawful record. -/
structure Accountable (decision : RoutingDecision)
    (calls : List (ProviderRequest × Except PyException ChunkStream)) :
    Prop where
  broken : ∀ preq stream message category, (preq, .ok stream) ∈ calls → stream.chunks ≠ [] →
    stream.failure = some (.providerError message category) →
    some preq.modelAlias = decision.selectedModelAlias ∧ category = .permanent
  unselected : decision.selectedModelAlias = none →
    .requiredCapabilityUnavailable ∈ decision.reasonCodes ∨
    ∃ call, calls.head? = some call ∧
      ∀ message, firstChunk call.2 ≠ .error (.providerError message .permanent)

/-- The same of the candidates as the loop saw them. -/
structure AccountableCalls (decision : RoutingDecision) (calls : List StreamAttempt) : Prop where
  broken : ∀ call ∈ calls, ∀ message category, call.outcome = .broken message category →
    some call.modelAlias = decision.selectedModelAlias ∧ category = .permanent
  unselected : decision.selectedModelAlias = none →
    .requiredCapabilityUnavailable ∈ decision.reasonCodes ∨
    ∃ call, calls.head? = some call ∧ ∀ message, call.outcome ≠ .refused message .permanent

variable {orchestrator : InvocationOrchestrator} {service : RouteEvaluationService}
  {request : InferenceRequest}
  {decision decision' : RoutingDecision} {policy : RoutingPolicy} {state : RoutingState}
  {effective : EffectiveRoutingRequirements} {tr tr₀ : List (Event Ports)}
  {result : InferenceResult} {out : Except PyException InferenceResult}

theorem shown_broken_iff {outcome : StreamOutcome} {reply : Except PyException ChunkStream}
    (h : outcome.Shown reply)
    {message : String} {category : ProviderErrorCategory} : outcome = .broken message category ↔
      ∃ stream, reply = .ok stream ∧ stream.chunks ≠ [] ∧
        stream.failure = some (.providerError message category) := by
  constructor
  · rintro rfl
    exact h
  · rintro ⟨stream, rfl, hchunks, hfailure⟩
    cases outcome with
    | refused message' category' =>
        have hfirst : firstChunk (.ok stream) = .error (.providerError message' category') := h
        unfold firstChunk at hfirst
        split at hfirst <;> simp_all
    | completed =>
        obtain ⟨stream', hstream, -, hnone⟩ := h
        cases hstream
        rw [hfailure] at hnone
        cases hnone
    | broken message' category' =>
        obtain ⟨stream', hstream, -, hfailure'⟩ := h
        cases hstream
        rw [hfailure, Option.some.injEq] at hfailure'
        cases hfailure'
        rfl

theorem shown_refused_iff {outcome : StreamOutcome} {reply : Except PyException ChunkStream}
    (h : outcome.Shown reply)
    {message : String} {category : ProviderErrorCategory} : outcome = .refused message category ↔
      firstChunk reply = .error (.providerError message category) := by
  constructor
  · rintro rfl
    exact h
  · intro hfirst
    have hstarted : ∀ stream : ChunkStream, reply = .ok stream → stream.chunks ≠ [] → False := by
      rintro stream rfl hchunks
      unfold firstChunk at hfirst
      split at hfirst <;> simp_all
    cases outcome with
    | refused message' category' =>
        have hfirst' : firstChunk reply = .error (.providerError message' category') := h
        rw [hfirst] at hfirst'
        cases hfirst'
        rfl
    | completed =>
        obtain ⟨stream, hstream, hchunks, -⟩ := h
        exact (hstarted stream hstream hchunks).elim
    | broken message' category' =>
        obtain ⟨stream, hstream, hchunks, -⟩ := h
        exact (hstarted stream hstream hchunks).elim

theorem accountable_iff {replies : List (ProviderRequest × Except PyException ChunkStream)}
    (hshows : List.Forall₂ (Shows request effective) calls replies) :
    AccountableCalls decision calls ↔ Accountable decision replies := by
  have hhead : (∃ call, calls.head? = some call ∧
      ∀ message, call.outcome ≠ .refused message .permanent) ↔
      ∃ call, replies.head? = some call ∧
        ∀ message, firstChunk call.2 ≠ .error (.providerError message .permanent) := by
    cases hshows with
    | nil => simp
    | cons hshow _ =>
        have hrefused := fun message => (@shown_refused_iff _ _ hshow.2 message .permanent).not
        simp [hrefused]
  constructor
  · rintro ⟨hbroken, hunselected⟩
    refine ⟨fun preq stream message category hmem hchunks hfailure => ?_, fun hnone => ?_⟩
    · obtain ⟨call, hcall, hrequest, hshown⟩ := exists_of_forall₂_mem hshows hmem
      have halias : preq.modelAlias = call.modelAlias := by
        rw [show preq = _ from hrequest]
        rfl
      rw [halias]
      exact hbroken call hcall message category
        ((shown_broken_iff hshown).mpr ⟨stream, rfl, hchunks, hfailure⟩)
    · exact (hunselected hnone).imp_right hhead.mp
  · rintro ⟨hbroken, hunselected⟩
    refine ⟨fun call hcall message category houtcome => ?_, fun hnone => ?_⟩
    · obtain ⟨⟨preq, reply⟩, hmem, hrequest, hshown⟩ := exists_of_forall₂_mem hshows.flip hcall
      obtain ⟨stream, rfl, hchunks, hfailure⟩ := (shown_broken_iff hshown).mp houtcome
      have halias : call.modelAlias = preq.modelAlias := by
        rw [show preq = _ from hrequest]
        rfl
      rw [halias]
      exact hbroken preq stream message category hmem hchunks hfailure
    · exact (hunselected hnone).imp_right hhead.mpr

/-! ## The codes of the record -/

/-- The codes that the loop can add. -/
def loopCodes : List RoutingReasonCode := [.modelThrottled, .modelUnavailable, .fallbackSelected]

theorem evaluated_loopCodes (h : service.Evaluated request policy tr decision)
    {code : RoutingReasonCode} (hcode : code ∈ loopCodes) : code ∉ decision.reasonCodes := by
  intro hmem
  by_cases hselected : decision.selectedModelAlias = none
  · obtain ⟨hcodes | ⟨hcodes, -⟩, -⟩ := evaluated_none h hselected
    · rw [hcodes, List.mem_singleton] at hmem
      subst hmem
      exact absurd hcode (by decide)
    · rw [hcodes, List.mem_singleton] at hmem
      subst hmem
      exact absurd hcode (by decide)
  · refine evaluated_some h hselected hmem ?_
    revert hcode
    cases code <;> decide

theorem mem_streamed_codes (h : service.Evaluated request policy tr decision)
    {succeededAlias : Option String} {final : RoutingDecision}
    (hfinal : Aggregated decision succeededAlias (calls.flatMap (·.codes decision)) final)
    {code : RoutingReasonCode} (hcode : code ∈ loopCodes) :
    code ∈ final.reasonCodes ↔ ∃ call ∈ calls, code ∈ call.codes decision := by
  rw [hfinal.codes, mem_sortReasonCodes, List.mem_append, List.mem_flatMap]
  constructor
  · rintro (hevaluated | hcalls)
    · exact absurd (List.mem_filter.mp hevaluated).1 (evaluated_loopCodes h hcode)
    · exact hcalls
  · exact Or.inr

/-! ## The laws -/

/-- The fallback code tells whether a fallback was used, unless a fallback model's stream broke. -/
theorem fallback_code_iff (h : service.Evaluated request policy tr decision)
    {final : RoutingDecision} (hfinal : Aggregated decision (calls.getLast?.bind (·.completedAlias))
      (calls.flatMap (·.codes decision)) final)
    (htried : StreamTried chain calls) :
      (final.fallbackUsed = true ↔ .fallbackSelected ∈ final.reasonCodes) ↔
      ∀ call ∈ calls, ∀ message category, call.outcome = .broken message category →
        some call.modelAlias = decision.selectedModelAlias := by
  rw [hfinal.fallback_used, mem_streamed_codes h hfinal (by decide)]
  constructor
  · intro hlaw call hcall message category hbroken
    by_contra hselected
    obtain ⟨modelAlias, hcompleted, -⟩ := hlaw.mpr ⟨call, hcall,
      (StreamAttempt.fallback_mem_codes decision call).mpr ⟨by simp [hbroken], hselected⟩⟩
    rw [htried.last hcall (by simp [StreamAttempt.Final, hbroken]), Option.bind_some,
      StreamAttempt.completedAlias,
      hbroken] at hcompleted
    cases hcompleted
  · intro hbroken
    constructor
    · rintro ⟨modelAlias, hcompleted, hselected⟩
      obtain ⟨call, hlast, halias⟩ := Option.bind_eq_some_iff.mp hcompleted
      refine ⟨call, List.mem_of_getLast? hlast,
        (StreamAttempt.fallback_mem_codes decision call).mpr ?_⟩
      unfold StreamAttempt.completedAlias at halias
      split at halias
      · rename_i hcompleted'
        cases halias
        exact ⟨by simp [hcompleted'], hselected⟩
      · cases halias
      · cases halias
    · rintro ⟨call, hcall, hcode⟩
      obtain ⟨hrefused, hselected⟩ := (StreamAttempt.fallback_mem_codes decision call).mp hcode
      have hcompleted : call.outcome = .completed := by
        cases houtcome : call.outcome with
        | refused message category => exact absurd houtcome (hrefused message category)
        | broken message category =>
            exact absurd (hbroken call hcall message category houtcome) hselected
        | completed => rfl
      refine ⟨call.modelAlias, ?_, hselected⟩
      rw [htried.last hcall (by simp [StreamAttempt.Final, hcompleted]), Option.bind_some,
        StreamAttempt.completedAlias,
        hcompleted]

/-- Where streams break on the selected model only, the codes tell how the attempts failed unless
one breaks otherwise than permanently. -/
theorem failure_codes_iff (h : service.Evaluated request policy tr decision)
    {fallbackPolicy : FallbackPolicy}
    {final : RoutingDecision} {attempts : List InvocationAttempt}
    (hfinal : Aggregated decision (calls.getLast?.bind (·.completedAlias))
      (calls.flatMap (·.codes decision)) final)
    (htried : StreamTried (buildCandidateChain decision fallbackPolicy) calls)
    (hattempts : attempts = calls.map (·.attempt))
    (hselected : ∀ call ∈ calls, ∀ message category, call.outcome = .broken message category →
      some call.modelAlias = decision.selectedModelAlias) :
    ((.modelThrottled ∈ final.reasonCodes ↔ ∃ attempt ∈ attempts, attempt.status = .throttled) ∧
      (.modelUnavailable ∈ final.reasonCodes ↔
        ∃ attempt ∈ attempts, attempt.status = .transientError ∨ attempt.status = .timeout)) ↔
      ∀ call ∈ calls, ∀ message category, call.outcome = .broken message category →
        category = .permanent := by
  have hattempt : ∀ P : InvocationAttemptStatus → Prop,
      (∃ attempt ∈ attempts, P attempt.status) ↔ ∃ call ∈ calls, P call.status := by
    intro P
    rw [hattempts]
    simp [StreamAttempt.attempt]
  rw [hattempt (· = .throttled), hattempt fun status => status = .transientError ∨
    status = .timeout,
    mem_streamed_codes h hfinal (by decide), mem_streamed_codes h hfinal (by decide)]
  constructor
  · rintro ⟨hthrottled, hunavailable⟩ call hcall message category hbroken
    -- the selected model is asked first, and its broken stream ends the loop
    have honly : calls = [call] := by
      refine htried.only (buildCandidateChain_nodup _ _) hcall
        (by simp [StreamAttempt.Final, hbroken]) ?_
      rw [buildCandidateChain_head?, predictedAlias,
        ← hselected call hcall message category hbroken]
      rfl
    have hsingle : ∀ {code : RoutingReasonCode}, (∃ call ∈ calls, code ∈ call.codes decision) →
        code ∈ call.codes decision := by
      rintro code ⟨call', hmem, hcode⟩
      rw [honly, List.mem_singleton] at hmem
      exact hmem ▸ hcode
    by_contra hcategory
    cases category with
    | permanent => exact hcategory rfl
    | throttled =>
        obtain ⟨m, hrefused⟩ := (StreamAttempt.throttled_mem_codes decision call).mp
          (hsingle (hthrottled.mpr
          ⟨call, hcall, (StreamAttempt.status_throttled_iff call).mpr ⟨message, Or.inr hbroken⟩⟩))
        rw [hbroken] at hrefused
        cases hrefused
    | transient =>
        obtain ⟨m, c, hrefused, -⟩ :=
          (StreamAttempt.unavailable_mem_codes decision call).mp (hsingle (hunavailable.mpr
          ⟨call, hcall, (StreamAttempt.status_unavailable_iff call).mpr
            ⟨message, .transient, Or.inr hbroken, Or.inl rfl⟩⟩))
        rw [hbroken] at hrefused
        cases hrefused
    | timeout =>
        obtain ⟨m, c, hrefused, -⟩ :=
          (StreamAttempt.unavailable_mem_codes decision call).mp (hsingle (hunavailable.mpr
          ⟨call, hcall, (StreamAttempt.status_unavailable_iff call).mpr
            ⟨message, .timeout, Or.inr hbroken, Or.inr rfl⟩⟩))
        rw [hbroken] at hrefused
        cases hrefused
  · intro hpermanent
    have hthrottled : ∀ call ∈ calls, .modelThrottled ∈ call.codes decision ↔
        call.status = .throttled := by
      intro call hcall
      rw [StreamAttempt.throttled_mem_codes, StreamAttempt.status_throttled_iff]
      refine exists_congr fun message => (or_iff_left fun hbroken => ?_).symm
      cases hpermanent call hcall message .throttled hbroken
    have hunavailable : ∀ call ∈ calls,
        .modelUnavailable ∈ call.codes decision ↔ call.status = .transientError ∨
        call.status = .timeout := by
      intro call hcall
      rw [StreamAttempt.unavailable_mem_codes, StreamAttempt.status_unavailable_iff]
      refine exists_congr fun message => exists_congr fun category =>
        and_congr_left fun hcategory => (or_iff_left fun hbroken => ?_).symm
      rw [hpermanent call hcall message category hbroken] at hcategory
      simp at hcategory
    constructor
    · exact exists_congr fun call => and_congr_right fun hcall => hthrottled call hcall
    · exact exists_congr fun call => and_congr_right fun hcall => hunavailable call hcall

/-- The record has a code exactly if the route gives one or the first candidate's call does. -/
theorem explained_iff (hread : state.Read tr) (h : service.Evaluated request policy tr decision)
    {final : RoutingDecision}
    (hfinal : Aggregated decision (calls.getLast?.bind (·.completedAlias))
      (calls.flatMap (·.codes decision)) final)
    (htried : StreamTried chain calls) : final.reasonCodes ≠ [] ↔
    (decision.selectedModelAlias = none →
      .requiredCapabilityUnavailable ∈ decision.reasonCodes ∨
        ∃ call, calls.head? = some call ∧
          ∀ message, call.outcome ≠ .refused message .permanent) := by
  have hmem : ∀ code, code ∈ final.reasonCodes ↔
      (code ∈ decision.reasonCodes ∧ code ≠ .noEligibleModel) ∨
      ∃ call ∈ calls, code ∈ call.codes decision := by
    intro code
    rw [hfinal.codes, mem_sortReasonCodes, List.mem_append, List.mem_flatMap, List.mem_filter,
      decide_eq_true_iff]
  cases hselected : decision.selectedModelAlias with
  | some selected =>
      obtain ⟨hbase, -⟩ := mem_selected_codes hread h hselected
      refine iff_of_true (List.ne_nil_of_mem ((hmem .modelAllowed).mpr (Or.inl ⟨hbase _ ?_, ?_⟩)))
        (by simp)
      · decide
      · decide
  | none =>
      rw [forall_prop_of_true rfl]
      obtain ⟨hcodes | ⟨hcodes, -⟩, -⟩ := evaluated_none h hselected
      · rw [or_iff_right (by simp [hcodes])]
        constructor
        · intro hne
          obtain ⟨code, hcode⟩ := List.exists_mem_of_ne_nil _ hne
          rcases (hmem code).mp hcode with ⟨hevaluated, hneligible⟩ | ⟨call, hcall, hcode⟩
          · rw [hcodes, List.mem_singleton] at hevaluated
            exact absurd hevaluated hneligible
          · cases htried with
            | exhausted => cases hcall
            | @final first _ hfinal' =>
                rw [List.mem_singleton.mp hcall] at hcode
                refine ⟨first, rfl, fun message hrefused => ?_⟩
                simp [StreamAttempt.codes, hrefused, reasonCodeForProviderErrorCategory] at hcode
            | @next first _ calls hnot _ =>
                refine ⟨first, rfl, fun message hrefused => hnot ?_⟩
                simp [StreamAttempt.Final, hrefused]
        · rintro ⟨call, hhead, hrefused⟩
          have hcall : call ∈ calls := List.mem_of_head? hhead
          have hcode : ∃ code, code ∈ call.codes decision := by
            obtain ⟨modelAlias, outcome, latency⟩ := call
            cases outcome with
            | refused message category =>
                cases category with
                | permanent => exact absurd rfl (hrefused message)
                | _ => exact ⟨_, List.mem_singleton_self _⟩
            | _ => exact ⟨.fallbackSelected, by simp [StreamAttempt.codes, fallbackCode, hselected]⟩
          obtain ⟨code, hcode⟩ := hcode
          exact List.ne_nil_of_mem ((hmem code).mpr (Or.inr ⟨call, hcall, hcode⟩))
      · have hcode : .requiredCapabilityUnavailable ∈ decision.reasonCodes := by simp [hcodes]
        exact iff_of_true (List.ne_nil_of_mem ((hmem _).mpr (Or.inl ⟨hcode, by decide⟩)))
          (Or.inl hcode)

theorem lawful_streamed_iff (hread : state.Read tr₀)
    (h : service.Evaluated request policy tr₀ decision) {fallbackPolicy : FallbackPolicy}
    (htried : StreamTried (buildCandidateChain decision fallbackPolicy) calls)
    (hstreamed : Streamed orchestrator request decision effective {} tr out calls result) :
    LawfulRecord { decision := result.decision, invocationAttempts := result.invocationAttempts } ↔
      AccountableCalls decision calls := by
  have hfinal := aggregated_of_ok hstreamed.aggregated
  have hfallback := fallback_code_iff h hfinal htried
  have hexplained := explained_iff hread h hfinal htried
  constructor
  · rintro ⟨hfallbackCode, hthrottled, hunavailable, hcodes⟩
    have hselected := hfallback.mp hfallbackCode
    have hpermanent := (failure_codes_iff h hfinal htried hstreamed.attempts hselected).mp
        ⟨hthrottled, hunavailable⟩
    refine ⟨fun call hcall message category hbroken => ?_, hexplained.mp hcodes⟩
    exact ⟨hselected call hcall message category hbroken,
      hpermanent call hcall message category hbroken⟩
  · rintro ⟨hbroken, hunselected⟩
    have hselected := fun call hcall message category houtcome =>
        (hbroken call hcall message category houtcome).1
    obtain ⟨hthrottled, hunavailable⟩ :=
      (failure_codes_iff h hfinal htried hstreamed.attempts hselected).mpr
      fun call hcall message category houtcome => (hbroken call hcall message category houtcome).2
    exact ⟨hfallback.mpr hselected, hthrottled, hunavailable, hexplained.mpr hunselected⟩

/-! ## The persisted decision -/

/-- A decision says that the capability is unavailable exactly if the policy does not allow it or no
model has it. -/
theorem run_evaluate_unavailable (hread : state.Read tr)
    (hpolicy : state.policies request.applicationId = .ok policy)
    (h : Run (service.evaluate request) tr (.ok decision)) :
      .requiredCapabilityUnavailable ∈ decision.reasonCodes ↔
      request.requirements.capability ∉ policy.allowedCapabilities ∨
      service.requestedModels request = [] := by
  obtain ⟨policy', tr₁, rfl, hrest⟩ := (run_perform_bind_ok_iff _ _ _ _).mp h
  have hsame : policy' = policy :=
    Except.ok.inj ((hread.policy _ _ List.mem_cons_self).trans hpolicy)
  subst hsame
  dsimp only at hrest
  split at hrest
  · rename_i hcapability
    obtain ⟨decisionId, createdAt, rfl⟩ := run_buildDecision hrest
    exact iff_of_true (List.mem_singleton_self _) (Or.inl hcapability)
  · rename_i hcapability
    split at hrest
    · rename_i hmodels
      obtain ⟨decisionId, createdAt, rfl⟩ := run_buildDecision hrest
      exact iff_of_true (List.mem_singleton_self _) (Or.inr hmodels)
    · rename_i hmodels
      obtain ⟨candidates, tr₂, tr₃, rfl, h₂, h₃⟩ := (run_bind_ok_iff _ _ _ _).mp hrest
      obtain ⟨selection, hselection, h₄⟩ := (run_ofExcept_bind_ok_iff _ _ _ _).mp h₃
      obtain ⟨decisionId, createdAt, rfl⟩ := run_buildDecision h₄
      have hconsidered : service.Evaluated request policy' tr₂ _ :=
        Evaluated.considered decisionId createdAt candidates
        selection (not_not.mp hcapability) (run_buildRouteCandidates _ _ h₂) hselection
      refine iff_of_false (fun hcode => ?_) fun hnot => hnot.elim hcapability hmodels
      by_cases hselected : selection.selected = none
      · have hcode' : .requiredCapabilityUnavailable ∈ routeReasonCodes selection := hcode
        rw [routeReasonCodes, hselected] at hcode'
        exact absurd (List.mem_singleton.mp hcode') (by decide)
      · exact evaluated_some hconsidered (fun hnone => hselected (Option.map_eq_none_iff.mp hnone))
          hcode (by decide)

/-- **When the record of a streamed run is lawful**: for the route evaluated from the same state and
the streams of the run. -/
theorem stream_coherent_iff
    (hevaluate : Run (orchestrator.routeEvaluationService.evaluate request) tr₀ (.ok decision))
    (hread₀ : state.Read tr₀) (hrun : Run (orchestrator.invokeStream request) tr out)
    (hread : state.Read tr)
    (hdrained : Drained tr) {auditRecord : AuditRecord}
    (hsaved : .save auditRecord ∈ (streamLog tr).recordings) :
    LawfulRecord auditRecord ↔ Accountable decision (streamLog tr).calls := by
  have htr : tr ≠ [] := by
    rintro rfl
    cases hsaved
  obtain ⟨hkey, hstreams⟩ := streaming_of_call hrun htr
  rcases run_invokeStream_drained hkey hstreams hrun hdrained with
    ⟨x, hraised, -⟩ | ⟨decision', policy', tr₁, tr₂, rfl, hevaluate', hend⟩
  · rw [show streamLog tr =
      {} from after_unlogged ((only_evaluate_unlogged _ request).run hraised)] at hsaved
    cases hsaved
  · rw [streamLog_evaluated ((only_evaluate_unlogged _ request).run hevaluate')] at hsaved ⊢
    have hread₁ : state.Read tr₁ := hread.mono fun ev hev => List.mem_append_left _ hev
    obtain ⟨policy₀, hresolved₀, hevaluated₀⟩ := run_evaluate hevaluate
    obtain ⟨policy₁, hresolved₁, hevaluated₁⟩ := run_evaluate hevaluate'
    have hpolicy₀ := (hread₀.policy _ _ hresolved₀).symm
    have hpolicy₁ := (hread₁.policy _ _ hresolved₁).symm
    have hsame : policy₀ = policy₁ := Except.ok.inj (hpolicy₀.symm.trans hpolicy₁)
    subst hsame
    obtain ⟨hselected, -⟩ := evaluated_agree hread₀ hread₁ hevaluated₀ hevaluated₁
    have hunavailable : .requiredCapabilityUnavailable ∈ decision'.reasonCodes ↔
        .requiredCapabilityUnavailable ∈ decision.reasonCodes :=
      (run_evaluate_unavailable hread₁ hpolicy₁ hevaluate').trans
        (run_evaluate_unavailable hread₀ hpolicy₀ hevaluate).symm
    cases hend with
    | empty hout hrecordings hcall =>
        rw [hrecordings] at hsaved
        cases hsaved
    | streamed calls result htried hstreamed =>
        obtain ⟨replies, hshows, hlog⟩ := hstreamed.log
        have hcalls : (streamLog tr₂).calls = replies := by
          rw [streamLog, hlog]
          rfl
        have hrecord : auditRecord =
            { decision := result.decision, invocationAttempts := result.invocationAttempts } := by
          rw [streamLog, hlog, recordingsOf] at hsaved
          revert hsaved
          simp only [List.nil_append, List.mem_append]
          rintro ((hsave | hmetrics) | hevent)
          · split at hsave
            · simpa using hsave
            · cases hsave
          · split at hmetrics
            · simp at hmetrics
            · cases hmetrics
          · split at hevent
            · simp at hevent
            · cases hevent
        rw [hrecord, lawful_streamed_iff hread₁ hevaluated₁ htried hstreamed,
          accountable_iff hshows, hcalls]
        constructor
        · rintro ⟨hbroken, hunselected⟩
          exact ⟨by rwa [← hselected], by rwa [← hselected, ← hunavailable]⟩
        · rintro ⟨hbroken, hunselected⟩
          exact ⟨by rwa [hselected], by rwa [hselected, hunavailable]⟩

/-! ## Scenarios -/

/-- A fallback model whose stream breaks leaves a record that has its code and says that no fallback
was used. -/
theorem broken_stream_unlawful :
    ∃ tr out auditRecord, Run (Scenario.orchestrator.invokeStream Scenario.request) tr out ∧
    Drained tr ∧ .save auditRecord ∈ (streamLog tr).recordings ∧ ¬ LawfulRecord auditRecord := by
  have hsaved : ((streamLog (trace (Scenario.throttled.streaming Scenario.breaking)
      (Scenario.orchestrator.invokeStream Scenario.request) Scenario.fresh)).recordings.filterMap
        savedRecord).map
        (fun auditRecord => (auditRecord.decision.fallbackUsed,
          decide (.fallbackSelected ∈ auditRecord.decision.reasonCodes))) = [(false, true)] := by
            decide +kernel
  obtain ⟨auditRecord, hrecord, hobserved⟩ := List.map_eq_singleton_iff.mp hsaved
  obtain ⟨hused, hcode⟩ := Prod.mk.inj hobserved
  refine ⟨_, _, auditRecord, run_exec _ _ _, drained_breaking, mem_of_savedRecord ?_,
    fun hlawful => ?_⟩
  · rw [hrecord]
    exact List.mem_singleton_self _
  · have hfallback := hlawful.fallback_code.mpr (of_decide_eq_true hcode)
    rw [hused] at hfallback
    cases hfallback

/-- The streams of the world in which the primary model is throttled. -/
def throttledStreams (modelAlias : String) : Except PyException ChunkStream :=
  (Scenario.throttled.outcome modelAlias).stream

theorem scenario_lawful : ∃ auditRecord, .save auditRecord ∈ (streamLog (trace
      (Scenario.throttled.streaming throttledStreams)
        (Scenario.orchestrator.invokeStream Scenario.request)
        Scenario.fresh)).recordings ∧
    auditRecord.decision.fallbackUsed = true ∧ LawfulRecord auditRecord := by
  have hsaved : ((streamLog (trace (Scenario.throttled.streaming throttledStreams)
      (Scenario.orchestrator.invokeStream Scenario.request) Scenario.fresh)).recordings.filterMap
        savedRecord).map
        (·.decision.fallbackUsed) = [true] := by decide +kernel
  obtain ⟨auditRecord, hrecord, hused⟩ := List.map_eq_singleton_iff.mp hsaved
  have hmem : .save auditRecord ∈ (streamLog (trace (Scenario.throttled.streaming throttledStreams)
      (Scenario.orchestrator.invokeStream Scenario.request) Scenario.fresh)).recordings :=
    mem_of_savedRecord (by simp [hrecord])
  have hdecided : (exec Scenario.throttled.answer
      (Scenario.orchestrator.routeEvaluationService.evaluate Scenario.request)
        Scenario.fresh).1.toOption.map
        (·.selectedModelAlias) = some (some "primary") := by decide +kernel
  obtain ⟨decision, hevaluate, hselected⟩ := run_of_exec hdecided
  have hread₀ := read_trace Scenario.throttled
    (Scenario.orchestrator.routeEvaluationService.evaluate Scenario.request) Scenario.fresh
    (show List.all _ (readsHealth fun _ => .healthy) = true by decide +kernel)
  have hrun := run_exec (Scenario.throttled.streaming throttledStreams)
    (Scenario.orchestrator.invokeStream Scenario.request) Scenario.fresh
  have hread : RoutingState.Read ⟨Scenario.throttled.policy, fun _ => .healthy⟩ (trace
      (Scenario.throttled.streaming throttledStreams)
        (Scenario.orchestrator.invokeStream Scenario.request)
        Scenario.fresh) := read_streaming (by decide +kernel)
  have hunbroken : (streamLog (trace (Scenario.throttled.streaming throttledStreams)
      (Scenario.orchestrator.invokeStream Scenario.request) Scenario.fresh)).calls.all
        (fun call => (call.2.toOption.bind (·.failure)).isNone) = true := by decide +kernel
  have hdrained : Drained (trace (Scenario.throttled.streaming throttledStreams)
      (Scenario.orchestrator.invokeStream Scenario.request) Scenario.fresh) := by
    refine drained_trace (by decide +kernel) fun preq => ?_
    unfold throttledStreams Scenario.throttled
    dsimp only
    split
    · rfl
    · intro x hx
      cases hx
  refine ⟨auditRecord, hmem, hused, ?_⟩
  refine (stream_coherent_iff hevaluate hread₀ hrun hread hdrained hmem).mpr ⟨?_, ?_⟩
  · intro preq stream message category hcall _ hfailure
    have hnone := List.all_eq_true.mp hunbroken _ hcall
    simp [hfailure, Except.toOption] at hnone
  · intro hnone
    rw [hselected] at hnone
    cases hnone

end InvocationOrchestrator

end ModelRouter
