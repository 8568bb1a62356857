import ModelRouter.Application.ReservationProtocol

/-!
# The exits of a reserved invocation

What `invoke` calls after its `reserve` was answered NEW, until it returns or raises (`Exit`): it
releases the reservation where the guarded part raised; else it resolves the policy once more and
completes the reservation, and nothing guards these two calls. `stranded_iff` : the reservation is
neither completed nor released exactly when one of them raised.
-/

namespace ModelRouter
open Effects Prog

/-- The call completed or released a reservation of the key. -/
def Settles (applicationId idempotencyKey : String) (event : Event Ports) : Prop :=
  match event with
  | ⟨.complete applicationId' idempotencyKey' _ _ _ _, .ok _⟩ =>
    (applicationId', idempotencyKey') = (applicationId, idempotencyKey)
  | ⟨.release applicationId' idempotencyKey', .ok _⟩ =>
    (applicationId', idempotencyKey') = (applicationId, idempotencyKey)
  | _ => False

/-- The call is a `reserve`. -/
def Reserves (event : Event Ports) : Prop :=
  match event.call with
  | .reserve _ _ _ => True
  | _ => False

namespace InvocationOrchestrator

variable (orchestrator : InvocationOrchestrator) (request : InferenceRequest)
  (idempotencyKey requestHash : String)

/-- The calls of `invoke` after a reservation that is new. -/
inductive Exit : List (Event Ports) → Prop
  | released {guarded : List (Event Ports)} {x : PyException} {reply : Except PyException Unit}
      (hraised : Run (orchestrator.invokeUncached request) guarded (.error x)) :
      Exit (guarded ++ [⟨.release request.applicationId idempotencyKey, reply⟩])
  | unresolved {guarded : List (Event Ports)} {result : InferenceResult} {x : PyException}
      (hreturned : Run (orchestrator.invokeUncached request) guarded (.ok result)) :
      Exit (guarded ++ [⟨.resolve request.applicationId, .error x⟩])
  | completed {guarded : List (Event Ports)} {result : InferenceResult} {policy : RoutingPolicy}
      {reply : Except PyException Unit}
      (hreturned : Run (orchestrator.invokeUncached request) guarded (.ok result)) :
      Exit (guarded ++ [⟨.resolve request.applicationId, .ok policy⟩,
        ⟨.complete request.applicationId idempotencyKey requestHash result
          policy.idempotencyPolicy.allowResponseCaching policy.idempotencyPolicy.retentionSeconds,
            reply⟩])

/-- The second resolution of the policy raised, or the completion did. -/
inductive Stranded : List (Event Ports) → Prop
  | unresolved {guarded : List (Event Ports)} {result : InferenceResult} {x : PyException}
      (hreturned : Run (orchestrator.invokeUncached request) guarded (.ok result)) :
      Stranded (guarded ++ [⟨.resolve request.applicationId, .error x⟩])
  | uncompleted {guarded : List (Event Ports)} {result : InferenceResult} {policy : RoutingPolicy}
      {x : PyException}
      (hreturned : Run (orchestrator.invokeUncached request) guarded (.ok result)) :
      Stranded (guarded ++ [⟨.resolve request.applicationId, .ok policy⟩,
        ⟨.complete request.applicationId idempotencyKey requestHash result
          policy.idempotencyPolicy.allowResponseCaching policy.idempotencyPolicy.retentionSeconds,
            .error x⟩])

variable {orchestrator request idempotencyKey requestHash} {calls guarded : List (Event Ports)}
  {out : Except PyException InferenceResult}

theorem exit_of_run
    (h : Run (orchestrator.invokeReserved request idempotencyKey requestHash) calls out) :
    Exit orchestrator request idempotencyKey requestHash calls := by
  obtain ⟨outcome, guarded, rest, rfl, hguarded, hrest⟩ := (run_attempt_bind_iff _ _ _ _).mp h
  cases outcome with
  | error x =>
      rcases (run_perform_bind_iff _ _ _ _).mp hrest with ⟨_, rest', rfl, hraise⟩ | ⟨y, rfl, -⟩
      · obtain ⟨rfl, -⟩ := (run_raise_iff _ _ _).mp hraise
        exact .released hguarded
      · exact .released hguarded
  | ok result =>
      rcases (run_perform_bind_iff _ _ _ _).mp hrest with ⟨policy, rest', rfl, hrest'⟩ | ⟨y, rfl, -⟩
      · rcases (run_perform_bind_iff _ _ _ _).mp hrest' with ⟨_, rest'', rfl, hret⟩ | ⟨y, rfl, -⟩
        · obtain ⟨rfl, -⟩ := (run_ret_iff _ _ _).mp hret
          exact .completed hguarded
        · exact .completed hguarded
      · exact .unresolved hguarded

theorem exit_of_reserved {applicationId : String} {reservation : IdempotencyReservation}
    (h : Run (orchestrator.invoke request)
      (⟨.reserve applicationId idempotencyKey requestHash, .ok reservation⟩ :: calls)
      out) (hnew : reservation.outcome = .new) :
    applicationId = request.applicationId ∧
    Exit orchestrator request idempotencyKey requestHash calls := by
  have hhead : ∀ calls', Run (orchestrator.invokeUncached request)
      (⟨.reserve applicationId idempotencyKey requestHash, .ok reservation⟩ :: calls') out →
      False :=
    fun calls' hrun => (orchestrator.only_invokeUncached request).run hrun _
      List.mem_cons_self trivial
  unfold invoke at h
  split at h
  · exact (hhead _ h).elim
  · split at h
    · rcases (run_ofExcept_bind_iff _ _ _ _).mp h with ⟨hash, -, h⟩ | ⟨x, -, htrace, -⟩
      · rcases (run_perform_bind_iff _ _ _ _).mp h with ⟨answer, rest, htrace, hrest⟩ |
          ⟨x, htrace, -⟩
        · cases htrace
          refine ⟨rfl, ?_⟩
          rw [hnew] at hrest
          exact exit_of_run hrest
        · cases htrace
      · cases htrace
    · exact (hhead _ h).elim

theorem not_settles (h : Run (orchestrator.invokeUncached request) guarded out)
    (applicationId idempotencyKey : String) :
    ∀ event ∈ guarded, ¬ Settles applicationId idempotencyKey event := by
  intro event hmem
  have hport := (orchestrator.only_invokeUncached request).run h event hmem
  obtain ⟨port, reply⟩ := event
  cases port with
  | complete => exact absurd trivial hport
  | release => exact absurd trivial hport
  | _ => exact id

theorem not_reserves (h : Run (orchestrator.invokeUncached request) guarded out) :
    ∀ event ∈ guarded, ¬ Reserves event := by
  intro event hmem
  have hport := (orchestrator.only_invokeUncached request).run h event hmem
  obtain ⟨port, reply⟩ := event
  cases port with
  | reserve => exact absurd trivial hport
  | _ => exact id

theorem Exit.not_reserves (h : Exit orchestrator request idempotencyKey requestHash calls) :
    ∀ event ∈ calls, ¬ Reserves event := by
  cases h with
  | released hraised =>
      exact List.forall_mem_append.mpr
        ⟨InvocationOrchestrator.not_reserves hraised, List.forall_mem_singleton.mpr id⟩
  | unresolved hreturned =>
      exact List.forall_mem_append.mpr
        ⟨InvocationOrchestrator.not_reserves hreturned, List.forall_mem_singleton.mpr id⟩
  | completed hreturned =>
      exact List.forall_mem_append.mpr ⟨InvocationOrchestrator.not_reserves hreturned,
        List.forall_mem_cons.mpr ⟨id, List.forall_mem_singleton.mpr id⟩⟩

/-- **The reservation is neither completed nor released exactly when an unguarded call raised**, if
no release did. -/
theorem Exit.stranded_iff (h : Exit orchestrator request idempotencyKey requestHash calls)
    (hrelease : ∀ x, (⟨.release request.applicationId idempotencyKey, .error x⟩ :
      Event Ports) ∉ calls) :
    Stranded orchestrator request idempotencyKey requestHash calls ↔
      ∀ event ∈ calls, ¬ Settles request.applicationId idempotencyKey event := by
  constructor
  · intro hstranded
    cases hstranded with
    | unresolved hreturned =>
        exact List.forall_mem_append.mpr ⟨not_settles hreturned _ _,
          List.forall_mem_singleton.mpr id⟩
    | uncompleted hreturned =>
        exact List.forall_mem_append.mpr
          ⟨not_settles hreturned _ _,
            List.forall_mem_cons.mpr ⟨id, List.forall_mem_singleton.mpr id⟩⟩
  · intro hnone
    cases h with
    | @released guarded x reply hraised =>
        cases reply with
        | ok _ => exact absurd rfl (hnone _ (List.mem_append_right _ List.mem_cons_self))
        | error y => exact absurd (List.mem_append_right _ List.mem_cons_self) (hrelease y)
    | unresolved hreturned => exact .unresolved hreturned
    | @completed guarded result policy reply hreturned =>
        cases reply with
        | ok _ =>
            exact absurd rfl (hnone _
              (List.mem_append_right _ (List.mem_cons_of_mem _ List.mem_cons_self)))
        | error y => exact .uncompleted hreturned

/-- A resolution of the policy or a completion raised. -/
def raisedUnguarded (event : Event Ports) : Bool :=
  match event with
  | ⟨.resolve _, .error _⟩ | ⟨.complete _ _ _ _ _ _, .error _⟩ => true
  | _ => false

theorem Stranded.getLast? (h : Stranded orchestrator request idempotencyKey requestHash calls) :
    calls.getLast?.any raisedUnguarded = true := by
  cases h with
  | unresolved hreturned =>
      rw [List.getLast?_append]
      rfl
  | uncompleted hreturned =>
      rw [List.getLast?_append]
      rfl

end InvocationOrchestrator

end ModelRouter
