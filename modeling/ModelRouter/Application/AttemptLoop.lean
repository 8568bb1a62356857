import ModelRouter.Application.CandidateChain

/-!
# The attempt loop

A finished loop has made the `ProviderCall`s of a prefix of the chain: `Tried chain calls`.
Everything it accumulates is a fold of the calls (`run_attemptChain`, `Attempts.extend`), and
`ShortestPrefix` says which prefix it is.
-/

namespace ModelRouter
open Effects Prog

inductive CallOutcome where
  | response (response : ProviderResponse)
  | failure (message : String) (category : ProviderErrorCategory)

/-- The provider's reply. -/
def CallOutcome.reply : CallOutcome → Except PyException ProviderResponse
  | response r => .ok r
  | failure message category => .error (.providerError message category)

/-- One call of the provider by an attempt loop. -/
structure ProviderCall where
  modelAlias : String
  outcome : CallOutcome
  latency : Nat

namespace ProviderCall

variable (call : ProviderCall)

def status : InvocationAttemptStatus := match call.outcome with
  | .response _ => .succeeded
  | .failure _ category => statusForProviderErrorCategory category

def response : Option ProviderResponse := match call.outcome with
  | .response r => some r
  | .failure _ _ => none

def attempt : InvocationAttempt := ⟨call.modelAlias, call.status, call.latency⟩

/-- The reason codes the loop adds for the call. -/
def codes (decision : RoutingDecision) : List RoutingReasonCode := match call.outcome with
  | .response _ => InvocationOrchestrator.fallbackCode decision call.modelAlias
  | .failure _ category => (reasonCodeForProviderErrorCategory category).toList

/-- A success or a permanent failure ends the loop. -/
def Final : Prop := call.status = .succeeded ∨ call.status = .nonRetryableError

instance : Decidable call.Final := inferInstanceAs (Decidable (_ ∨ _))

end ProviderCall

/-- The loop has made the calls: it ended with the chain or with the first final call. -/
inductive Tried : List String → List ProviderCall → Prop
  | exhausted : Tried [] []
  | final {call : ProviderCall} {chain : List String} (h : call.Final) :
    Tried (call.modelAlias :: chain) [call]
  | next {call : ProviderCall} {chain : List String} {calls : List ProviderCall} (h : ¬ call.Final)
      (ht : Tried chain calls) : Tried (call.modelAlias :: chain) (call :: calls)

/-- The calls cover the shortest prefix of the chain that ends in a final call, or all of it. -/
structure ShortestPrefix (chain : List String) (calls : List ProviderCall) : Prop where
  in_order : calls.map (·.modelAlias) = chain.take calls.length
  not_final : ∀ call ∈ calls.dropLast, ¬ call.Final
  final : calls.length < chain.length → ∃ call, calls.getLast? = some call ∧ call.Final

theorem Tried.shortestPrefix {chain : List String} {calls : List ProviderCall}
    (h : Tried chain calls) :
    ShortestPrefix chain calls := by
  induction h with
  | exhausted => exact ⟨rfl, by simp, by simp⟩
  | final h => exact ⟨rfl, by simp, fun _ => ⟨_, rfl, h⟩⟩
  | @next call chain calls h _ ih =>
      refine ⟨?_, ?_, fun hlen => ?_⟩
      · rw [List.map_cons, List.length_cons, List.take_succ_cons, ih.in_order]
      · cases calls with
        | nil => simp
        | cons call' calls =>
            rw [List.dropLast_cons_cons]
            intro c hc
            rcases List.mem_cons.mp hc with rfl | hc
            · exact h
            · exact ih.not_final c hc
      · obtain ⟨last, hlast, hfinal⟩ := ih.final (by simpa using hlen)
        refine ⟨last, ?_, hfinal⟩
        rw [List.getLast?_cons, hlast]
        rfl

theorem Tried.mem {chain : List String} {calls : List ProviderCall} (h : Tried chain calls)
    {call : ProviderCall} (hcall : call ∈ calls) : call.modelAlias ∈ chain := by
  have hmem : call.modelAlias ∈ calls.map (·.modelAlias) := List.mem_map_of_mem hcall
  rw [h.shortestPrefix.in_order] at hmem
  exact List.mem_of_mem_take hmem

namespace InvocationOrchestrator

/-- The loop's state after one more call. -/
def Attempts.extend (decision : RoutingDecision) (st : Attempts) (call : ProviderCall) :
    Attempts where
  attempts := st.attempts ++ [call.attempt]
  extraReasonCodes := st.extraReasonCodes ++ call.codes decision
  response := call.response <|> st.response
  succeededAlias := (call.response.map fun _ => call.modelAlias) <|> st.succeededAlias

/-! ## What a run shows -/

/-- The requests handed to the provider, with its replies. -/
def providerCalls : List (Event Ports) →
    List (ProviderRequest × Except PyException ProviderResponse)
  | [] => []
  | ⟨.invoke preq, reply⟩ :: tr => (preq, reply) :: providerCalls tr
  | _ :: tr => providerCalls tr

/-- The outcomes recorded with the health repository. -/
def recordedOutcomes : List (Event Ports) → List (String × InvocationAttemptStatus)
  | [] => []
  | ⟨.recordOutcome modelAlias status, _⟩ :: tr => (modelAlias, status) :: recordedOutcomes tr
  | _ :: tr => recordedOutcomes tr

@[simp] theorem providerCalls_append (tr tr' : List (Event Ports)) :
    providerCalls (tr ++ tr') = providerCalls tr ++ providerCalls tr' := by
  induction tr with
  | nil => rfl
  | cons ev tr ih =>
      obtain ⟨port, reply⟩ := ev
      cases port <;> simp [providerCalls, ih]

@[simp] theorem recordedOutcomes_append (tr tr' : List (Event Ports)) :
    recordedOutcomes (tr ++ tr') = recordedOutcomes tr ++ recordedOutcomes tr' := by
  induction tr with
  | nil => rfl
  | cons ev tr ih =>
      obtain ⟨port, reply⟩ := ev
      cases port <;> simp [recordedOutcomes, ih]

theorem providerCalls_eq_nil {tr : List (Event Ports)}
    (h : ∀ ev ∈ tr, ∀ preq, ev.call ≠ .invoke preq) :
    providerCalls tr = [] := by
  induction tr with
  | nil => rfl
  | cons ev tr ih =>
      obtain ⟨port, reply⟩ := ev
      have htail := ih fun ev hev => h ev (List.mem_cons_of_mem _ hev)
      cases port with
      | invoke preq => exact absurd rfl (h _ List.mem_cons_self preq)
      | _ => exact htail

theorem recordedOutcomes_eq_nil {tr : List (Event Ports)}
    (h : ∀ ev ∈ tr, ∀ modelAlias status, ev.call ≠ .recordOutcome modelAlias status) :
    recordedOutcomes tr = [] := by
  induction tr with
  | nil => rfl
  | cons ev tr ih =>
      obtain ⟨port, reply⟩ := ev
      have htail := ih fun ev hev => h ev (List.mem_cons_of_mem _ hev)
      cases port with
      | recordOutcome modelAlias status =>
          exact absurd rfl (h _ List.mem_cons_self modelAlias status)
      | _ => exact htail

variable {orchestrator : InvocationOrchestrator} {request : InferenceRequest}
  {decision : RoutingDecision} {effective : EffectiveRoutingRequirements} {tr : List (Event Ports)}

/-- The outcomes of the calls, if there is a repository to record them with. -/
def recorded (orchestrator : InvocationOrchestrator) (calls : List ProviderCall) :
    List (String × InvocationAttemptStatus) :=
  if orchestrator.hasModelHealthRepository
    then calls.map fun call => (call.modelAlias, call.status) else []

theorem run_recordHealthOutcome {modelAlias : String} {status : InvocationAttemptStatus}
    (h : Run (orchestrator.recordHealthOutcome modelAlias status) tr (.ok ())) :
    providerCalls tr = [] ∧
      recordedOutcomes tr = if orchestrator.hasModelHealthRepository then [(modelAlias, status)]
        else [] := by
  unfold recordHealthOutcome at h
  split at h
  · rename_i hrepository
    rw [(run_perform_ok_iff _ _ _).mp h, if_pos hrepository]
    exact ⟨rfl, rfl⟩
  · rename_i hrepository
    obtain ⟨rfl, -⟩ := (run_ret_iff _ _ _).mp h
    rw [if_neg hrepository]
    exact ⟨rfl, rfl⟩

theorem recorded_cons (call : ProviderCall) (calls : List ProviderCall) :
    orchestrator.recorded (call :: calls) = orchestrator.recorded
    [call] ++ orchestrator.recorded calls := by
  unfold recorded
  split <;> rfl

theorem final_failure_iff (modelAlias message : String) (category : ProviderErrorCategory)
    (latency : Nat) :
    (ProviderCall.mk modelAlias (.failure message category) latency).Final ↔
    category = .permanent := by
  cases category <;> simp [ProviderCall.Final, ProviderCall.status, statusForProviderErrorCategory]

/-- **A finished loop has tried a prefix of the chain**, and accumulated its calls. -/
theorem run_attemptChain {chain : List String} {st st' : Attempts}
    (h : Run (orchestrator.attemptChain request decision effective chain st) tr (.ok st')) :
    ∃ calls, Tried chain calls ∧ st' = calls.foldl (Attempts.extend decision) st ∧
      providerCalls tr =
        calls.map (fun call => (providerRequest request effective call.modelAlias,
          call.outcome.reply)) ∧
      recordedOutcomes tr = orchestrator.recorded calls := by
  induction chain generalizing st tr with
  | nil =>
      obtain ⟨rfl, hst⟩ := (run_ret_iff _ _ _).mp h
      cases hst
      exact ⟨[], Tried.exhausted, rfl, rfl, by simp [recorded, recordedOutcomes]⟩
  | cons modelAlias chain ih =>
      obtain ⟨startedAt, tr₁, rfl, h₁⟩ := (run_perform_bind_ok_iff _ _ _ _).mp h
      obtain ⟨reply, tr₂, rfl, h₂⟩ := (run_tryPerform_bind_iff _ _ _ _).mp h₁
      split at h₂
      · rename_i message category
        obtain ⟨finishedAt, tr₃, rfl, h₃⟩ := (run_perform_bind_ok_iff _ _ _ _).mp h₂
        obtain ⟨_, tr₄, tr₅, rfl, h₄, h₅⟩ := (run_bind_ok_iff _ _ _ _).mp h₃
        obtain ⟨hcalls, houtcomes⟩ := run_recordHealthOutcome h₄
        have hfinal := final_failure_iff modelAlias message category
            (latencyMs startedAt finishedAt)
        split at h₅
        · rename_i hpermanent
          obtain ⟨rfl, hst⟩ := (run_ret_iff _ _ _).mp h₅
          cases hst
          refine ⟨[⟨modelAlias, .failure message category, latencyMs startedAt finishedAt⟩],
            Tried.final (hfinal.mpr hpermanent), rfl, ?_, ?_⟩
          · simp [providerCalls, hcalls, CallOutcome.reply]
          · simp [recordedOutcomes, houtcomes, recorded, ProviderCall.status]
        · rename_i hpermanent
          obtain ⟨calls, htried, hst, hcalls', houtcomes'⟩ := ih h₅
          refine ⟨⟨modelAlias, .failure message category, latencyMs startedAt finishedAt⟩ :: calls,
            Tried.next (fun hf => hpermanent (hfinal.mp hf)) htried, hst, ?_, ?_⟩
          · simp [providerCalls, hcalls, hcalls', CallOutcome.reply]
          · rw [recorded_cons]
            simp [recordedOutcomes, houtcomes, houtcomes', recorded, ProviderCall.status]
      · exact absurd ((run_raise_iff _ _ _).mp h₂).2 (by simp)
      · rename_i response
        obtain ⟨finishedAt, tr₃, rfl, h₃⟩ := (run_perform_bind_ok_iff _ _ _ _).mp h₂
        obtain ⟨_, tr₄, tr₅, rfl, h₄, h₅⟩ := (run_bind_ok_iff _ _ _ _).mp h₃
        obtain ⟨hcalls, houtcomes⟩ := run_recordHealthOutcome h₄
        obtain ⟨rfl, hst⟩ := (run_ret_iff _ _ _).mp h₅
        cases hst
        have hfinal : (ProviderCall.mk modelAlias (.response response)
            (latencyMs startedAt finishedAt)).Final :=
          Or.inl rfl
        refine ⟨_, Tried.final hfinal, rfl, ?_, ?_⟩
        · simp [providerCalls, hcalls, CallOutcome.reply]
        · simp [recordedOutcomes, houtcomes, recorded, ProviderCall.status]

/-! ## What the calls add up to -/

theorem foldl_attempts (calls : List ProviderCall) (st : Attempts) :
    (calls.foldl (Attempts.extend decision) st).attempts = st.attempts ++
      calls.map (·.attempt) := by
  induction calls generalizing st with
  | nil => simp
  | cons call calls ih =>
      rw [List.foldl_cons, ih]
      simp [Attempts.extend]

theorem foldl_extraReasonCodes (calls : List ProviderCall) (st : Attempts) :
    (calls.foldl (Attempts.extend decision) st).extraReasonCodes =
      st.extraReasonCodes ++ calls.flatMap (·.codes decision) := by
  induction calls generalizing st with
  | nil => simp
  | cons call calls ih =>
      rw [List.foldl_cons, ih]
      simp [Attempts.extend]

/-- The last call, if it succeeded. -/
def succeededCall (calls : List ProviderCall) : Option (ProviderCall × ProviderResponse) :=
  calls.getLast?.bind fun call => call.response.map fun response => (call, response)

theorem response_eq_none {call : ProviderCall} (h : ¬ call.Final) : call.response = none := by
  obtain ⟨modelAlias, outcome, latency⟩ := call
  cases outcome with
  | response response => exact absurd (Or.inl rfl) h
  | failure message category => rfl

/-- Only the last call can have succeeded; the loop keeps its response and its alias. -/
theorem foldl_succeeded {chain : List String} {calls : List ProviderCall} (h : Tried chain calls)
    (st : Attempts) (hresponse : st.response = none) (halias : st.succeededAlias = none) :
    (calls.foldl (Attempts.extend decision) st).response = (succeededCall calls).map (·.2) ∧
      (calls.foldl (Attempts.extend decision) st).succeededAlias =
        (succeededCall calls).map (·.1.modelAlias) := by
  induction h generalizing st with
  | exhausted => exact ⟨hresponse, halias⟩
  | @final call _ _ =>
      cases hr : call.response <;> simp [Attempts.extend, succeededCall, hr, hresponse, halias]
  | @next call chain calls hnot ht ih =>
      have hnone := response_eq_none hnot
      obtain ⟨h₁, h₂⟩ := ih (Attempts.extend decision st call)
        (by simp [Attempts.extend, hnone, hresponse]) (by simp [Attempts.extend, hnone, halias])
      rw [List.foldl_cons, h₁, h₂]
      cases calls with
      | nil => simp [succeededCall, hnone]
      | cons call' calls => simp [succeededCall, List.getLast?_cons_cons]

theorem succeededCall_mem {calls : List ProviderCall} {call : ProviderCall}
    {response : ProviderResponse} (h : succeededCall calls = some (call, response)) :
    calls.getLast? = some call ∧ call.response = some response := by
  obtain ⟨last, hlast, hmap⟩ := Option.bind_eq_some_iff.mp h
  obtain ⟨response', hresponse, hpair⟩ := Option.map_eq_some_iff.mp hmap
  cases hpair
  exact ⟨hlast, hresponse⟩

end InvocationOrchestrator

end ModelRouter
