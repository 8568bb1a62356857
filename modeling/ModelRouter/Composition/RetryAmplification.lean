import ModelRouter.Adapters.ModelProviders
import ModelRouter.Application.World

/-!
# Retries and their amplification

* `run_retried` : an adapter calls its client until the first outcome that is not tried again, or as
  often as its policy allows, and its result is that of the last call;
* `attemptBudget` : an orchestrator invokes at most as many models as the fallback policy allows
  (`spec_invoke_attemptBudget`);
* `retryBudget` : what a use case over the composite provider spends on calls and sleeps
  (`spec_serve`).
-/

namespace ModelRouter
open Effects Prog

/-! ## One candidate -/

section Candidate
variable {τ ε ρ α : Type}

theorem run_waitBeforeRetry {policy : RetryPolicy} {attempt : Nat} {tr : List (Event Clients)}
    (h : Run (waitBeforeRetry policy attempt) tr (.ok ())) :
    ∃ jitterFraction, tr = [⟨.jitter, .ok jitterFraction⟩,
      ⟨.sleep (computeBackoffDelay attempt policy jitterFraction), .ok ()⟩] := by
  obtain ⟨jitterFraction, tr', rfl, hsleep⟩ := (run_perform_bind_ok_iff _ _ _ _).mp h
  refine ⟨jitterFraction, ?_⟩
  rw [(run_perform_ok_iff _ _ _).mp hsleep]

theorem quiet_waitBeforeRetry (policy : RetryPolicy) (attempt : Nat) :
    Quiet (waitBeforeRetry policy attempt) :=
  (Quiet.perform _).bind fun _ => Quiet.perform _

/-- The calls of a client that answer with an outcome. -/
abbrev Selection (ε ρ : Type) : Type := (call : ClientCall) → call.Answer → Option (Except ε ρ)

/-- Neither a jitter nor a sleep is selected. -/
def Selection.Pauseless (select : Selection ε ρ) : Prop :=
  (∀ jitterFraction, select .jitter jitterFraction = none) ∧
    ∀ seconds, select (.sleep seconds) () = none

/-- The outcomes of a candidate's calls and its result: the calls were tried as the policy says, and
the last one decided. -/
def Attempted (target : Except PyException τ) (policy : RetryPolicy)
    (classify : ε → ProviderErrorCategory)
    (select : Selection ε ρ) (parse : τ → ρ → Except PyException α) (tr : List (Event Clients))
    (out : Except PyException α) : Prop :=
  match target with
  | .error x => tr = [] ∧ out = .error x
  | .ok target => Tries (retryable classify) policy.maxAttempts.toNat (@answersOf Clients _ select tr) ∧
      (@answersOf Clients _ select tr).getLast?.map (settle classify (parse target)) = some out

/-- **A candidate's calls.** -/
theorem run_retried {policy : RetryPolicy} {classify : ε → ProviderErrorCategory}
    {select : Selection ε ρ} {call : Prog Clients (Except ε ρ)} {parse : ρ → Except PyException α}
    {tr : List (Event Clients)} {out : Except PyException α} (hquiet : Quiet call)
    (hcall : ∀ tr o, Run call tr (.ok o) → @answersOf Clients _ select tr = [o])
    (hselect : select.Pauseless)
    (hpos : 1 ≤ policy.maxAttempts) (h : Run (retried policy classify call parse) tr out)
    (hanswered : Answered tr) :
    Tries (retryable classify) policy.maxAttempts.toNat (@answersOf Clients _ select tr) ∧
      (@answersOf Clients _ select tr).getLast?.map (settle classify parse) = some out := by
  have hwait : ∀ k tr, Run (waitBeforeRetry policy k) tr (.ok ()) →
      @answersOf Clients _ select tr = [] := by
    intro k tr hrun
    obtain ⟨jitterFraction, rfl⟩ := run_waitBeforeRetry hrun
    simp [answersOf, hselect.1, hselect.2]
  rcases (run_bind_iff _ _ _ _).mp h with ⟨outcome, tr₁, tr₂, rfl, hloop, hsettle⟩ | ⟨x, hraised, -⟩
  · obtain ⟨rfl, rfl⟩ := (run_ofExcept_iff _ _ _).mp hsettle
    obtain ⟨outcomes, hlooped, htries, hlast⟩ := run_retryLoop hloop (by omega)
    rw [List.append_nil, hlooped.answersOf hcall hwait, hlast]
    exact ⟨htries, rfl⟩
  · have hloop : Quiet (retryLoop call (retryable classify)
        (waitBeforeRetry policy) policy.maxAttempts.toNat 0) :=
      Quiet.retryLoop hquiet (quiet_waitBeforeRetry policy) 0
    obtain ⟨a, ha⟩ := hloop.run hraised hanswered
    cases ha

theorem settle_leaveGenerator {classify : ε → ProviderErrorCategory}
    {parse : ρ → Except PyException α}
    (hparse : ∀ raw x, parse raw = .error x → leaveGenerator x = x) (outcome : Except ε ρ) :
    (settle classify parse outcome).mapError leaveGenerator = settle classify parse outcome := by
  cases outcome with
  | error exc => rfl
  | ok raw =>
      rw [settle]
      cases hraw : parse raw with
      | ok a => rfl
      | error x => rw [Except.mapError, hparse raw x hraw]

theorem run_startGenerator {body : Prog Clients α} {tr : List (Event Clients)}
    {out : Except PyException α} (h : Run (startGenerator body) tr out) : ∃ o, Run body tr o ∧
      out = o.mapError leaveGenerator := by
  obtain ⟨o, tr₁, tr₂, rfl, hbody, hrest⟩ := (run_attempt_bind_iff _ _ _ _).mp h
  refine ⟨o, ?_⟩
  cases o with
  | error x =>
      obtain ⟨rfl, rfl⟩ := (run_raise_iff _ _ _).mp hrest
      rw [List.append_nil]
      exact ⟨hbody, rfl⟩
  | ok a =>
      obtain ⟨rfl, rfl⟩ := (run_ret_iff _ _ _).mp hrest
      rw [List.append_nil]
      exact ⟨hbody, rfl⟩

theorem run_startGenerator_retried {policy : RetryPolicy} {classify : ε → ProviderErrorCategory}
    {select : Selection ε ρ} {call : Prog Clients (Except ε ρ)} {parse : ρ → Except PyException α}
    {tr : List (Event Clients)} {out : Except PyException α} (hquiet : Quiet call)
    (hcall : ∀ tr o, Run call tr (.ok o) → @answersOf Clients _ select tr = [o])
    (hselect : select.Pauseless)
    (hparse : ∀ raw x, parse raw = .error x → leaveGenerator x = x) (hpos : 1 ≤ policy.maxAttempts)
    (h : Run (startGenerator (retried policy classify call parse)) tr out)
    (hanswered : Answered tr) :
    Tries (retryable classify) policy.maxAttempts.toNat (@answersOf Clients _ select tr) ∧
      (@answersOf Clients _ select tr).getLast?.map (settle classify parse) = some out := by
  obtain ⟨o, hbody, rfl⟩ := run_startGenerator h
  obtain ⟨htries, hsettled⟩ := run_retried hquiet hcall hselect hpos hbody hanswered
  refine ⟨htries, ?_⟩
  obtain ⟨last, hlast, rfl⟩ := Option.map_eq_some_iff.mp hsettled
  rw [hlast, Option.map_some, settle_leaveGenerator hparse]

theorem run_attempted {target : Except PyException τ} {policy : RetryPolicy}
    {classify : ε → ProviderErrorCategory}
    {select : Selection ε ρ} {parse : τ → ρ → Except PyException α} {body : τ → Prog Clients α}
    {tr : List (Event Clients)} {out : Except PyException α}
    (hbody : ∀ target tr, Run (body target) tr out → Answered tr →
      Tries (retryable classify) policy.maxAttempts.toNat (@answersOf Clients _ select tr) ∧
        (@answersOf Clients _ select tr).getLast?.map (settle classify (parse target)) = some out)
    (h : Run (ofExcept target >>= body) tr out) (hanswered : Answered tr) :
    Attempted target policy classify select parse tr out := by
  cases target with
  | error x => exact (run_raise_iff _ _ _).mp h
  | ok target => exact hbody target tr h hanswered

end Candidate

/-! ## The methods of the adapters -/

def converseOutcome : Selection BotoError PyValue
  | .converse _, outcome => some outcome
  | _, _ => none

def converseStreamOutcome : Selection BotoError (Option (RawStream PyValue BotoError))
  | .converseStream _, outcome => some outcome
  | _, _ => none

def chatCompletionOutcome : Selection OpenAIError ChatCompletion
  | .createChatCompletion _, outcome => some outcome
  | _, _ => none

def chatCompletionStreamOutcome : Selection OpenAIError (RawStream ChatCompletionChunk OpenAIError)
  | .streamChatCompletion _, outcome => some outcome
  | _, _ => none

section Methods
variable {req : ProviderRequest} {tr : List (Event Clients)}

theorem BedrockModelProvider.run_invoke {provider : BedrockModelProvider}
    {out : Except PyException ProviderResponse}
    (hpos : 1 ≤ provider.retryPolicy.maxAttempts) (h : Run (provider.invoke req) tr out)
    (hanswered : Answered tr) :
    Attempted (prepare provider.repr req provider.modelCatalogue) provider.retryPolicy
      classifyProviderException
      converseOutcome
      (fun target raw => parseConverseResponse provider.pydantic raw req.modelAlias
        target.1.provider) tr out := by
  refine run_attempted (fun target tr hrun hanswered => ?_) h hanswered
  refine run_retried (Quiet.perform _) (fun tr o ho => ?_) ⟨fun _ => rfl, fun _ =>
    rfl⟩ hpos hrun hanswered
  rw [(run_perform_ok_iff _ _ _).mp ho]
  rfl

theorem OpenAIModelProvider.run_invoke {provider : OpenAIModelProvider}
    {out : Except PyException ProviderResponse}
    (hpos : 1 ≤ provider.retryPolicy.maxAttempts) (h : Run (provider.invoke req) tr out)
    (hanswered : Answered tr) :
    Attempted (prepare provider.repr req provider.modelCatalogue) provider.retryPolicy
      classifyProviderException
      chatCompletionOutcome
      (fun target raw => parseChatCompletionResponse raw req.modelAlias target.1.provider)
        tr out := by
  refine run_attempted (fun target tr hrun hanswered => ?_) h hanswered
  refine run_retried (Quiet.perform _) (fun tr o ho => ?_) ⟨fun _ => rfl, fun _ =>
    rfl⟩ hpos hrun hanswered
  rw [(run_perform_ok_iff _ _ _).mp ho]
  rfl

variable {out : Except PyException ChunkStream}

theorem BedrockModelProvider.run_invokeStream {provider : BedrockModelProvider}
    (hpos : 1 ≤ provider.retryPolicy.maxAttempts) (h : Run (provider.invokeStream req) tr out)
    (hanswered : Answered tr) :
    Attempted (prepare provider.repr req provider.modelCatalogue) provider.retryPolicy
      classifyProviderException
      converseStreamOutcome (fun _ => provider.streamChunks) tr out := by
  have hparse : ∀ raw x, provider.streamChunks raw = .error x → leaveGenerator x = x := by
    intro raw x hx
    cases raw <;> cases hx
    rfl
  refine run_attempted (fun target tr hrun hanswered => ?_) h hanswered
  refine run_startGenerator_retried (Quiet.perform _) (fun tr o ho => ?_) ⟨fun _ => rfl, fun _ =>
    rfl⟩ hparse hpos hrun
    hanswered
  rw [(run_perform_ok_iff _ _ _).mp ho]
  rfl

theorem OpenAIModelProvider.run_invokeStream {provider : OpenAIModelProvider}
    (hpos : 1 ≤ provider.retryPolicy.maxAttempts) (h : Run (provider.invokeStream req) tr out)
    (hanswered : Answered tr) :
    Attempted (prepare provider.repr req provider.modelCatalogue) provider.retryPolicy
      classifyProviderException
      chatCompletionStreamOutcome (fun _ => streamChunks) tr out := by
  refine run_attempted (fun target tr hrun hanswered => ?_) h hanswered
  refine run_startGenerator_retried (Quiet.perform _) (fun tr o ho => ?_) ⟨fun _ => rfl, fun _ =>
    rfl⟩ (fun raw x hx => ?_)
    hpos hrun hanswered
  · rw [(run_perform_ok_iff _ _ _).mp ho]
    rfl
  · cases hx

end Methods

/-! ## The attempts of an orchestrator -/

/-- The policies that an application resolves to allow at most `maximum` attempts. -/
def AttemptsAtMost (maximum : Nat) : (port : Port) → Except PyException port.Answer → Prop
  | .resolve _, reply =>
      ∀ policy, reply = .ok policy → policy.fallbackPolicy.maximumAttempts ≤ maximum
  | _, _ => True

/-- An orchestrator with `n` attempts left. -/
def attemptBudget (maximum : Nat) : Monitor Ports Nat where
  owes n
    | .invoke _ => 0 < n
    | .invokeStream _ => False
    | _ => True
  relies _ := AttemptsAtMost maximum
  next n port _ := match port with
    | .invoke _ => n - 1
    | _ => n

/-- The ports of the model provider. -/
def ProviderPort : Port → Prop
  | .invoke _ | .invokeStream _ => True
  | _ => False

section Attempts
variable {maximum : Nat} {orchestrator : InvocationOrchestrator} {req : InferenceRequest}

theorem spec_aside_attempts {α : Type} {p : Prog Ports α}
    (h : Only (fun port => ¬ ProviderPort port) p) (n : Nat) :
    Spec (attemptBudget maximum) p (fun _ n' => n' = n) n := by
  refine h.spec fun port hport => ?_
  cases port <;> first | exact ⟨trivial, fun _ => rfl⟩ | exact absurd trivial hport

theorem spec_finish {α : Type} {p : Prog Ports α} (h : Only (fun port => ¬ ProviderPort port) p)
    (n : Nat) :
    Spec (attemptBudget maximum) p (fun _ _ => True) n :=
      (spec_aside_attempts h n).mono fun _ _ _ => trivial

theorem only_record_aside (result : InferenceResult) :
    Only (fun port => ¬ ProviderPort port) (orchestrator.record result) := by
  refine (orchestrator.only_record result).mono fun port h => ?_
  cases port <;> first | exact id | exact h.elim

theorem spec_attemptChain_budget (decision : RoutingDecision)
    (effective : EffectiveRoutingRequirements)
    (chain : List String) (st : InvocationOrchestrator.Attempts) {n : Nat} (h : chain.length ≤ n) :
    Spec (attemptBudget maximum) (orchestrator.attemptChain req decision effective chain st)
      (fun _ _ => True) n := by
  have hhealth : ∀ modelAlias status,
      Only (fun port => ¬ ProviderPort port)
        (orchestrator.recordHealthOutcome modelAlias status) := by
    intro modelAlias status
    refine (orchestrator.only_recordHealthOutcome modelAlias status).mono fun port hport => ?_
    cases port <;> first | exact id | exact hport.elim
  induction chain generalizing st n with
  | nil => trivial
  | cons candidateAlias chain ih =>
      have hlen : chain.length + 1 ≤ n := h
      refine Spec.performBind trivial (fun startedAt _ => ?_) fun _ _ => trivial
      refine Spec.tryPerformBind (show 0 < n by omega) fun reply _ => ?_
      split
      · refine Spec.performBind trivial (fun finishedAt _ => ?_) fun _ _ => trivial
        refine Spec.bind (spec_aside_attempts (hhealth _ _) (n - 1)) (fun _ n' hn' =>
          ?_) fun _ _ _ => trivial
        subst hn'
        split
        · trivial
        · exact ih _ (by omega)
      · trivial
      · refine Spec.performBind trivial (fun finishedAt _ => ?_) fun _ _ => trivial
        exact Spec.bind (spec_aside_attempts (hhealth _ _) (n - 1)) (fun _ _ _ =>
          trivial) fun _ _ _ => trivial

theorem spec_invokeUncached_budget :
    Spec (attemptBudget maximum) (orchestrator.invokeUncached req) (fun _ _ => True) maximum := by
  have hevaluate : Only (fun port => ¬ ProviderPort port)
      (orchestrator.routeEvaluationService.evaluate req) := by
    refine (orchestrator.routeEvaluationService.only_evaluate req).mono fun port h => ?_
    cases port <;> first | exact id | exact h.elim
  refine Spec.bind (spec_aside_attempts hevaluate maximum) (fun decision n hn => ?_) fun _ _ _ =>
    trivial
  subst hn
  refine Spec.performBind trivial (fun policy hpolicy => ?_) fun _ _ => trivial
  have hchain : (InvocationOrchestrator.buildCandidateChain decision policy.fallbackPolicy).length ≤
      n := by
    rw [InvocationOrchestrator.buildCandidateChain_eq, List.length_take]
    exact (Nat.min_le_left _ _).trans (hpolicy policy rfl)
  unfold InvocationOrchestrator.invokeDecision
  dsimp only
  split
  · exact spec_finish (only_record_aside _) _
  · refine Spec.bind (spec_attemptChain_budget _ _ _ _ hchain) (fun st n' _ => ?_) fun _ _ _ =>
      trivial
    exact Spec.ofExceptBind (fun _ _ => spec_finish (only_record_aside _) _) fun _ _ => trivial

/-- **`invoke` attempts at most as many models as a policy allows.** -/
theorem spec_invoke_attemptBudget :
    Spec (attemptBudget maximum) (orchestrator.invoke req) (fun _ _ => True) maximum := by
  unfold InvocationOrchestrator.invoke
  split
  · exact spec_invokeUncached_budget
  · split
    · refine Spec.ofExceptBind (fun requestHash _ => ?_) fun _ _ => trivial
      refine Spec.performBind trivial (fun reservation _ => ?_) fun _ _ => trivial
      split
      · trivial
      · trivial
      · split <;> trivial
      · refine Spec.bind (Spec.attempt_true spec_invokeUncached_budget) (fun outcome n _ =>
          ?_) fun _ _ _ => trivial
        split
        · refine spec_finish (Only.bind (Only.perform id) fun _ => ?_) n
          trivial
        · refine spec_finish (Only.bind (Only.perform id) fun policy => ?_) n
          exact Only.bind (Only.perform id) fun _ => trivial
    · exact spec_invokeUncached_budget

end Attempts

/-! ## The calls of the clients -/

/-- What is left to spend. -/
structure RetryBudget where
  calls : Nat
  sleeps : Nat

/-- The replies that the clients, the jitter and the policies are promised to give. -/
def Promised (maximum : Nat) : (call : ClientCall) → Except PyException call.Answer → Prop
  | .application port, reply => AttemptsAtMost maximum port reply
  | .jitter, reply =>
      ∀ jitterFraction, reply = .ok jitterFraction → 0 ≤ jitterFraction ∧ jitterFraction < 1
  | _, _ => True

/-- Every call of a client, and every sleep, is paid for; a sleep lasts at most `longest`
seconds. -/
def retryBudget (maximum : Nat) (longest : ℚ) : Monitor Clients RetryBudget where
  owes budget
    | .converse _ | .converseStream _ | .createChatCompletion _ | .streamChatCompletion _ =>
        0 < budget.calls
    | .sleep seconds => 0 < budget.sleeps ∧ 0 ≤ seconds ∧ seconds ≤ longest
    | _ => True
  relies _ := Promised maximum
  next budget call _ := match call with
    | .converse _ | .converseStream _ | .createChatCompletion _ | .streamChatCompletion _ =>
      { budget with calls := budget.calls - 1 }
    | .sleep _ => { budget with sleeps := budget.sleeps - 1 }
    | _ => budget

/-- A policy of at least one and at most `attempts` calls, with delays that last at most `longest`
seconds. -/
structure RetryPolicy.Within (policy : RetryPolicy) (attempts : Nat) (longest : ℚ) : Prop where
  one_attempt : 1 ≤ policy.maxAttempts
  attempts_le : policy.maxAttempts ≤ attempts
  base_nonneg : 0 ≤ policy.baseDelaySeconds
  max_nonneg : 0 ≤ policy.maxDelaySeconds
  max_le : policy.maxDelaySeconds ≤ longest

section Budget
variable {maximum attempts : Nat} {longest : ℚ} {ε ρ α : Type} {policy : RetryPolicy}

theorem spec_waitBeforeRetry (hpolicy : policy.Within attempts longest) (attempt : Nat)
    {budget : RetryBudget} (hsleeps : 0 < budget.sleeps) :
    Spec (retryBudget maximum longest) (waitBeforeRetry policy attempt)
      (fun _ budget' => budget'.calls = budget.calls ∧
        budget.sleeps - 1 ≤ budget'.sleeps) budget := by
  refine Spec.performBind trivial (fun jitterFraction hjitter => ?_) fun _ _ =>
    ⟨rfl, Nat.sub_le _ _⟩
  obtain ⟨h0, h1⟩ := hjitter jitterFraction rfl
  obtain ⟨hnonneg, hle⟩ :=
    computeBackoffDelay_le hpolicy.base_nonneg hpolicy.max_nonneg h0 h1 attempt
  exact Spec.perform ⟨hsleeps, hnonneg, hle.trans hpolicy.max_le⟩ fun _ _ => ⟨rfl, le_refl _⟩

theorem spec_retried {classify : ε → ProviderErrorCategory} {call : Prog Clients (Except ε ρ)}
    {parse : ρ → Except PyException α} (hpolicy : policy.Within attempts longest)
    (hcall : ∀ budget, 0 < budget.calls → Spec (retryBudget maximum longest) call
      (fun _ budget' => budget' = { budget with calls := budget.calls - 1 }) budget)
    {calls sleeps : Nat} {budget : RetryBudget} (hcalls : calls + attempts ≤ budget.calls)
    (hsleeps : sleeps + (attempts - 1) ≤ budget.sleeps) :
    Spec (retryBudget maximum longest) (retried policy classify call parse)
      (fun _ budget' => calls ≤ budget'.calls ∧ sleeps ≤ budget'.sleeps) budget := by
  have hone := hpolicy.one_attempt
  have hle := hpolicy.attempts_le
  generalize hlimit : policy.maxAttempts.toNat = limit
  -- after `k` calls there is enough left for the other `limit - k`, and for the sleeps before them
  let before (k : Nat) (b : RetryBudget) : Prop :=
    calls + (limit - k) ≤ b.calls ∧ sleeps + (limit - 1 - k) ≤ b.sleeps
  let after (k : Nat) (b : RetryBudget) : Prop :=
    calls + (limit - (k + 1)) ≤ b.calls ∧ sleeps + (limit - 1 - k) ≤ b.sleeps
  have hloop : Spec (retryBudget maximum longest)
      (retryLoop call (retryable classify) (waitBeforeRetry policy) limit 0)
      (fun _ b => calls ≤ b.calls ∧ sleeps ≤ b.sleeps) budget := by
    refine @Spec.retryLoop Clients ε ρ call _ _ limit RetryBudget _ before after _ ?_ ?_ ?_ ?_ 0
      budget (by omega) ?_
    · rintro k b hk ⟨hc, hs⟩
      refine (hcall b (by omega)).mono fun _ b' hb' => ?_
      subst hb'
      exact ⟨by dsimp only; omega, hs⟩
    · rintro k b hk ⟨hc, hs⟩
      refine (spec_waitBeforeRetry hpolicy (k + 1) (by omega)).mono fun _ b' ⟨hc', hs'⟩ => ?_
      exact ⟨by omega, by omega⟩
    · rintro k b ⟨hc, hs⟩
      exact ⟨by omega, by omega⟩
    · rintro k b ⟨hc, hs⟩
      exact ⟨by omega, by omega⟩
    · exact ⟨by omega, by omega⟩
  unfold retried
  rw [hlimit]
  refine Spec.bind hloop (fun outcome b hb => ?_) fun _ _ hb => hb
  cases settle classify parse outcome <;> exact hb

/-- What a part of a use case leaves: `n` attempts are still paid for. -/
def Funds (attempts n : Nat) (budget : RetryBudget) : Prop :=
  n * attempts ≤ budget.calls ∧ n * (attempts - 1) ≤ budget.sleeps

theorem Funds.spend {n : Nat} {budget : RetryBudget} (h : Funds attempts n budget) (hn : 0 < n) :
    (n - 1) * attempts + attempts ≤ budget.calls ∧
    (n - 1) * (attempts - 1) + (attempts - 1) ≤ budget.sleeps := by
  obtain ⟨m, rfl⟩ : ∃ m, n = m + 1 := ⟨n - 1, by omega⟩
  rw [Nat.add_sub_cancel, ← Nat.succ_mul, ← Nat.succ_mul]
  exact h

theorem ProviderAdapter.spec_invoke {adapter : ProviderAdapter}
    (hpolicy : adapter.retryPolicy.Within attempts longest)
    (preq : ProviderRequest) {n : Nat} {budget : RetryBudget} (h : Funds attempts n budget)
    (hn : 0 < n) :
    Spec (retryBudget maximum longest) (adapter.invoke preq) (fun _ =>
      Funds attempts (n - 1)) budget := by
  obtain ⟨hcalls, hsleeps⟩ := h.spend hn
  have hunspent : Funds attempts (n - 1) budget := ⟨by omega, by omega⟩
  cases adapter with
  | bedrock provider =>
      refine Spec.ofExceptBind (fun target _ => ?_) fun _ _ => hunspent
      refine spec_retried hpolicy (fun b hb => ?_) hcalls hsleeps
      refine ⟨hb, fun reply _ => ?_⟩
      cases reply <;> rfl
  | openai provider =>
      refine Spec.ofExceptBind (fun target _ => ?_) fun _ _ => hunspent
      refine spec_retried hpolicy (fun b hb => ?_) hcalls hsleeps
      refine ⟨hb, fun reply _ => ?_⟩
      cases reply <;> rfl

/-- Every adapter retries within the bounds. -/
def CompositeModelProvider.Within (composite : CompositeModelProvider) (attempts : Nat)
    (longest : ℚ) : Prop :=
  ∀ name adapter, composite.providers name = some adapter →
    adapter.retryPolicy.Within attempts longest

variable {composite : CompositeModelProvider}

theorem CompositeModelProvider.spec_invoke (hcomposite : composite.Within attempts longest)
    (preq : ProviderRequest)
    {n : Nat} {budget : RetryBudget} (h : Funds attempts n budget) (hn : 0 < n) :
    Spec (retryBudget maximum longest) (composite.invoke preq) (fun _ =>
      Funds attempts (n - 1)) budget := by
  obtain ⟨hcalls, hsleeps⟩ := h.spend hn
  refine Spec.ofExceptBind (fun adapter hadapter => ?_) fun _ _ => ⟨by omega, by omega⟩
  refine adapter.spec_invoke ?_ preq h hn
  unfold resolveProvider at hadapter
  cases hmodel : resolveModel composite.repr preq.modelAlias composite.modelCatalogue with
  | error x =>
      rw [hmodel] at hadapter
      cases hadapter
  | ok model =>
      rw [hmodel] at hadapter
      dsimp only [Bind.bind, Except.bind] at hadapter
      split at hadapter
      · cases hadapter
      · rename_i hprovider
        cases hadapter
        exact hcomposite _ _ hprovider

/-- A use case that keeps within `n` attempts is served within the funds of `n`. -/
theorem spec_serve (hcomposite : composite.Within attempts longest) {p : Prog Ports α}
    {Q : Except PyException α → Nat → Prop} {n : Nat} (h : Spec (attemptBudget maximum) p Q n)
    {budget : RetryBudget} (hfunds : Funds attempts n budget) :
    Spec (retryBudget maximum longest) (composite.serve p)
      (fun _ budget' => ∃ n', Funds attempts n' budget') budget := by
  refine (@Spec.interpret Ports α Nat (attemptBudget maximum) Q Clients RetryBudget _
    (Funds attempts) id _ ?_ p n budget
    h hfunds).mono fun _ _ ⟨_, n', _, _, hfunds'⟩ => ⟨n', hfunds'⟩
  intro port n budget hfunds howes
  cases port with
  | invoke preq =>
      refine Spec.attempt ((CompositeModelProvider.spec_invoke hcomposite preq hfunds howes).mono
        fun o b hb => ?_)
      exact ⟨o, rfl, trivial, hb⟩
  | invokeStream preq => exact howes.elim
  | _ => exact ⟨trivial, fun reply hreply => ⟨reply, rfl, hreply, hfunds⟩⟩

end Budget

/-! ## The bounds -/

def ClientCall.isClient : ClientCall → Bool
  | .converse _ | .converseStream _ | .createChatCompletion _ | .streamChatCompletion _ => true
  | _ => false

def ClientCall.seconds : ClientCall → Option ℚ
  | .sleep seconds => some seconds
  | _ => none

/-- The number of calls of the clients. -/
def clientCalls (tr : List (Event Clients)) : Nat := tr.countP fun ev => ev.call.isClient

/-- The sleeps, in seconds. -/
def sleeps (tr : List (Event Clients)) : List ℚ := tr.filterMap fun ev => ev.call.seconds

theorem paid_retryBudget {maximum : Nat} {longest : ℚ} {tr : List (Event Clients)}
    {budget : RetryBudget} (h : (retryBudget maximum longest).Paid budget tr) :
    clientCalls tr ≤ budget.calls ∧ (sleeps tr).length ≤ budget.sleeps ∧
      ∀ seconds ∈ sleeps tr, 0 ≤ seconds ∧ seconds ≤ longest := by
  induction tr generalizing budget with
  | nil => exact ⟨Nat.zero_le _, Nat.zero_le _, by simp [sleeps]⟩
  | cons ev tr ih =>
      obtain ⟨call, reply⟩ := ev
      obtain ⟨howes, hpaid⟩ := h
      obtain ⟨hcalls, hsleeps, hlong⟩ := ih hpaid
      cases call with
      | application port => exact ⟨hcalls, hsleeps, hlong⟩
      | jitter => exact ⟨hcalls, hsleeps, hlong⟩
      | sleep seconds =>
          obtain ⟨hpos, hseconds⟩ := howes
          refine ⟨hcalls, ?_, ?_⟩
          · show (sleeps tr).length + 1 ≤ budget.sleeps
            have : (sleeps tr).length ≤ budget.sleeps - 1 := hsleeps
            omega
          · intro seconds' hmem
            rcases List.mem_cons.mp hmem with rfl | hmem
            · exact hseconds
            · exact hlong seconds' hmem
      | converse _ | converseStream _ | createChatCompletion _ | streamChatCompletion _ =>
          have hpos : 0 < budget.calls := howes
          have hrest : clientCalls tr ≤ budget.calls - 1 := hcalls
          refine ⟨?_, hsleeps, hlong⟩
          show List.countP _ (_ :: tr) ≤ _
          rw [List.countP_cons_of_pos rfl]
          exact Nat.le_of_lt_succ (by unfold clientCalls at hrest; omega)

theorem kept_retryBudget {maximum : Nat} {longest : ℚ} {tr : List (Event Clients)}
    (h : ∀ ev ∈ tr, Promised maximum ev.call ev.reply) (budget : RetryBudget) :
    (retryBudget maximum longest).Kept budget tr := by
  induction tr generalizing budget with
  | nil => trivial
  | cons ev tr ih =>
      exact ⟨h ev List.mem_cons_self, ih (fun ev' hev' => h ev' (List.mem_cons_of_mem _ hev')) _⟩

section Bounds
variable (orchestrator : InvocationOrchestrator) (composite : CompositeModelProvider)
  (req : InferenceRequest)

/-- **Retries are bounded.** An invocation over the composite provider ends, whatever the clients
do; it costs at most `maximum_attempts * max_attempts` calls and a sleep between two calls of one
candidate. Each method of the two adapters calls its client until the first outcome that is not
tried again, or as often as allowed, and returns what the last call gave. -/
theorem amplification_bounded {maximum attempts : Nat} {longest : ℚ}
    (hcomposite : composite.Within attempts longest) :
    (∀ (σ : Type) (clients : Handler Clients σ) (s : σ),
      Run (composite.serve (orchestrator.invoke req))
        (trace clients (composite.serve (orchestrator.invoke req)) s)
        (exec clients (composite.serve (orchestrator.invoke req)) s).1) ∧
    (∀ tr, Trace (composite.serve (orchestrator.invoke req)) tr →
      (∀ ev ∈ tr, Promised maximum ev.call ev.reply) →
      clientCalls tr ≤ maximum * attempts ∧ (sleeps tr).length ≤ maximum * (attempts - 1) ∧
        ∀ seconds ∈ sleeps tr, 0 ≤ seconds ∧ seconds ≤ longest) ∧
    (∀ name provider, composite.providers name = some (.bedrock provider) → ∀ preq tr, Answered tr →
      (∀ out, Run (provider.invoke preq) tr out →
        Attempted (prepare provider.repr preq provider.modelCatalogue) provider.retryPolicy
          BedrockModelProvider.classifyProviderException converseOutcome
          (fun target raw => parseConverseResponse provider.pydantic raw preq.modelAlias
            target.1.provider) tr out) ∧
      ∀ out, Run (provider.invokeStream preq) tr out →
        Attempted (prepare provider.repr preq provider.modelCatalogue) provider.retryPolicy
          BedrockModelProvider.classifyProviderException converseStreamOutcome (fun _ =>
            provider.streamChunks) tr out) ∧
    (∀ name provider, composite.providers name = some (.openai provider) → ∀ preq tr, Answered tr →
      (∀ out, Run (provider.invoke preq) tr out →
        Attempted (prepare provider.repr preq provider.modelCatalogue) provider.retryPolicy
          OpenAIModelProvider.classifyProviderException chatCompletionOutcome
          (fun target raw => parseChatCompletionResponse raw preq.modelAlias target.1.provider) tr
            out) ∧
      ∀ out, Run (provider.invokeStream preq) tr out →
        Attempted (prepare provider.repr preq provider.modelCatalogue) provider.retryPolicy
          OpenAIModelProvider.classifyProviderException chatCompletionStreamOutcome
          (fun _ => OpenAIModelProvider.streamChunks) tr out) := by
  refine ⟨fun σ clients s => run_exec clients _ s, fun tr htrace hpromised => ?_,
    fun name provider hname preq tr hanswered => ?_,
    fun name provider hname preq tr hanswered => ?_⟩
  · obtain ⟨q, hsteps⟩ := htrace
    have hfunds : Funds attempts maximum ⟨maximum * attempts, maximum * (attempts - 1)⟩ :=
      ⟨le_refl _, le_refl _⟩
    have hspec := @spec_serve maximum attempts longest _ composite hcomposite _ _ _
      (@spec_invoke_attemptBudget maximum orchestrator req) _ hfunds
    exact paid_retryBudget (hspec.steps hsteps (kept_retryBudget hpromised _)).1
  · have hpos := (hcomposite name _ hname).one_attempt
    exact ⟨fun out h => provider.run_invoke hpos h hanswered, fun out h =>
      provider.run_invokeStream hpos h hanswered⟩
  · have hpos := (hcomposite name _ hname).one_attempt
    exact ⟨fun out h => provider.run_invoke hpos h hanswered, fun out h =>
      provider.run_invokeStream hpos h hanswered⟩

end Bounds

/-! ## A throttled client -/

namespace Scenario
open Json

def converseResponse : PyValue := .object
  [(.text "output", .object [(.text "message", .object
      [(.text "content", .array [.object [(.text "text", .string (.text "hi"))]])])]),
    (.text "stopReason", .string (.text "end_turn")),
    (.text "usage", .object [(.text "inputTokens", .number (.int 2)),
      (.text "outputTokens", .number (.int 1))])]

def bedrock : BedrockModelProvider where
  modelCatalogue := catalogue
  pydantic := .strict
  repr s := "'" ++ s ++ "'"

/-- Only Bedrock is configured. -/
def composite : CompositeModelProvider where
  modelCatalogue := catalogue
  providers
    | .bedrock => some (.bedrock bedrock)
    | .openai => none
  repr s := "'" ++ s ++ "'"

/-- Bedrock throttles the primary model, and answers for every other one. -/
def clients : Handler Clients WorldState
  | .application p, s => throttled.answer p s
  | .converse payload, s =>
    (.ok (if payload.modelId = "primary" then .error (.clientError "ThrottlingException")
      else .ok converseResponse), s)
  | .converseStream _, s => (.ok (.error .botoCoreError), s)
  | .createChatCompletion _, s => (.ok (.error .rateLimitError), s)
  | .streamChatCompletion _, s => (.ok (.error .rateLimitError), s)
  | .jitter, s => (.ok (1 / 2), s)
  | .sleep _, s => (.ok (), s)

/-- The primary model is called as often as the policy of the adapter allows, then the fallback. -/
example : clientCalls (trace clients (composite.serve (orchestrator.invoke request)) fresh) = 4 ∧
    sleeps (trace clients (composite.serve (orchestrator.invoke request)) fresh) =
    [1 / 4, 1 / 2] := by decide +kernel

theorem composite_within : composite.Within 3 8 := by
  intro name adapter hadapter
  cases name with
  | openai => cases hadapter
  | bedrock =>
      cases hadapter
      constructor <;> decide +kernel

theorem clients_promised {α : Type} (p : Prog Clients α) :
    ∀ ev ∈ trace clients p fresh, Promised 2 ev.call ev.reply := by
  intro ev hev
  obtain ⟨s, hreply⟩ := mem_trace hev
  obtain ⟨call, reply⟩ := ev
  dsimp only at hreply
  subst hreply
  cases call with
  | application port =>
      cases port with
      | resolve applicationId =>
          intro policy hpolicy
          cases hpolicy
          decide
      | _ => trivial
  | jitter =>
      intro jitterFraction hjitter
      cases hjitter
      decide +kernel
  | _ => trivial

theorem throttled_amplification :
    clientCalls (trace clients (composite.serve (orchestrator.invoke request)) fresh) ≤ 2 * 3 ∧
      (sleeps (trace clients (composite.serve (orchestrator.invoke request)) fresh)).length ≤
        2 * (3 - 1) ∧
      ∀ seconds ∈ sleeps (trace clients (composite.serve (orchestrator.invoke request)) fresh),
        0 ≤ seconds ∧ seconds ≤ 8 :=
  (amplification_bounded orchestrator composite request composite_within).2.1 _
    (run_exec clients _ fresh).trace (clients_promised _)

end Scenario

end ModelRouter
