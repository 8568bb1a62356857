import ModelRouter.Application.ReservationExits
import ModelRouter.Application.TableExclusivity

/-!
# Settlement over the table

An item is in progress exactly where the lease of a call stands (`marks`). The operations of a call
are those its calls of the store came to (`Carried`), so what its calls settled is what its
operations did (`carried_settles`). The lease of a call that has ended stands when the call was
stranded and no other call has moved the key since (`settled_iff`).
-/

namespace ModelRouter
open Effects Prog DynamoDbIdempotencyStore InvocationOrchestrator

namespace DynamoDbIdempotencyStore

variable {store : DynamoDbIdempotencyStore} {applicationId idempotencyKey requestHash : String}

/-! ## The operations of a call -/

/-- A conditional put that was carried out. -/
def Takes (event : Event Backend) : Prop :=
  match event with
  | ⟨.putItem _ (some _), .ok _⟩ => True
  | _ => False

/-- The operation replaced or deleted the item of the key. -/
def SettlesItem (key : String × String) (event : Event Backend) : Prop :=
  match event with
  | ⟨.putItem item none, .ok _⟩ => item.key = key
  | ⟨.deleteItem pk sk, .ok _⟩ => (pk, sk) = key
  | _ => False

/-- Only the last operation may be a conditional put that was carried out. -/
def TakesLast (low : List (Event Backend)) : Prop :=
  ∀ before event after, low = before ++ event :: after → Takes event → after = []

theorem takesLast_of_none {low : List (Event Backend)} (h : ∀ event ∈ low, ¬ Takes event) :
    TakesLast low := by
  rintro before event after rfl htakes
  exact absurd htakes (h event (List.mem_append_right _ List.mem_cons_self))

theorem TakesLast.cons {event : Event Backend} {low : List (Event Backend)} (h : TakesLast low)
    (hevent : ¬ Takes event) : TakesLast (event :: low) := by
  intro before event' after hlow htakes
  cases before with
  | nil =>
      obtain ⟨rfl, -⟩ := List.cons.inj hlow
      exact absurd htakes hevent
  | cons event'' before => exact h before event' after (List.cons.inj hlow).2 htakes

theorem TakesLast.append {first rest : List (Event Backend)} (h : TakesLast rest)
    (hfirst : ∀ event ∈ first, ¬ Takes event) : TakesLast (first ++ rest) := by
  induction first with
  | nil => exact h
  | cons event first ih =>
      obtain ⟨hevent, hfirst⟩ := List.forall_mem_cons.mp hfirst
      exact (ih hfirst).cons hevent

theorem takesLast_singleton (event : Event Backend) : TakesLast [event] := by
  intro before event' after hlow _
  cases before with
  | nil => exact (List.cons.inj hlow).2.symm
  | cons event'' before => simp at hlow

theorem lookUp_not_takes {low : List (Event Backend)}
    {out : Except PyException (Option IdempotencyReservation)}
    (h : Run (store.lookUp applicationId idempotencyKey requestHash) low out) : ∀ event ∈ low,
      ¬ Takes event := by
  rcases (run_perform_bind_iff _ _ _ _).mp h with ⟨existing, rest, rfl, hrest⟩ | ⟨x, rfl, -⟩
  · have hnil : rest = [] := by
      cases existing with
      | none => exact ((run_ret_iff _ _ _).mp hrest).1
      | some existing =>
          rcases (run_bind_iff _ _ _ _).mp hrest with ⟨answer, tr₁, tr₂, rfl, h₁, h₂⟩ | ⟨x, h₁, -⟩
          · rw [((run_ofExcept_iff _ _ _).mp h₁).1, ((run_ret_iff _ _ _).mp h₂).1]
            rfl
          · exact ((run_ofExcept_iff _ _ _).mp h₁).1
    rw [hnil]
    exact List.forall_mem_singleton.mpr id
  · exact List.forall_mem_singleton.mpr id

theorem tryReserve_takes {low : List (Event Backend)}
    {out : Except PyException (Option IdempotencyReservation)}
    (h : Run (store.tryReserve applicationId idempotencyKey requestHash) low out) :
    (∀ event ∈ low, ¬ Takes event) ∨ TakesLast low ∧ out = .ok (some { outcome := .new }) := by
  rcases (run_perform_bind_iff _ _ _ _).mp h with ⟨clock, rest, rfl, hrest⟩ | ⟨x, rfl, rfl⟩
  · obtain ⟨reply, rest', rfl, hrest'⟩ := (run_tryPerform_bind_iff _ _ _ _).mp hrest
    cases reply with
    | ok _ =>
        obtain ⟨rfl, rfl⟩ := (run_ret_iff _ _ _).mp hrest'
        exact Or.inr ⟨(takesLast_singleton _).cons id, rfl⟩
    | error x =>
        have hnone : ∀ event ∈ rest', ¬ Takes event := by
          dsimp only at hrest'
          split at hrest'
          · exact lookUp_not_takes hrest'
          · rw [((run_raise_iff _ _ _).mp hrest').1]
            simp
        refine Or.inl ?_
        rw [List.forall_mem_cons, List.forall_mem_cons]
        exact ⟨id, id, hnone⟩
  · exact Or.inl (List.forall_mem_singleton.mpr id)

theorem reserve_takes {low : List (Event Backend)} {out : Except PyException IdempotencyReservation}
    (attempts : Nat) (h : Run
      (store.reserveAttempts applicationId idempotencyKey requestHash attempts) low out) :
    (∀ event ∈ low, ¬ Takes event) ∨ TakesLast low ∧ out = .ok { outcome := .new } := by
  induction attempts generalizing low with
  | zero =>
      rw [((run_ret_iff _ _ _).mp h).1]
      exact Or.inl fun event hmem => by cases hmem
  | succ attempts ih =>
      rcases (run_bind_iff _ _ _ _).mp h with ⟨answer, first, rest, rfl, hfirst, hrest⟩ |
        ⟨x, hraised, rfl⟩
      · rcases tryReserve_takes hfirst with hnone | ⟨hlast, hnew⟩
        · cases answer with
          | none =>
              rcases ih hrest with hnone' | ⟨hlast, hnew⟩
              · exact Or.inl (List.forall_mem_append.mpr ⟨hnone, hnone'⟩)
              · exact Or.inr ⟨hlast.append hnone, hnew⟩
          | some answer =>
              rw [((run_ret_iff _ _ _).mp hrest).1, List.append_nil]
              exact Or.inl hnone
        · cases hnew
          obtain ⟨rfl, rfl⟩ := (run_ret_iff _ _ _).mp hrest
          rw [List.append_nil]
          exact Or.inr ⟨hlast, rfl⟩
      · rcases tryReserve_takes hraised with hnone | ⟨-, hnew⟩
        · exact Or.inl hnone
        · cases hnew

theorem reserve_takesLast {low : List (Event Backend)}
    {out : Except PyException IdempotencyReservation}
    (h : Run (store.reserve applicationId idempotencyKey requestHash) low out) : TakesLast low := by
  rcases reserve_takes maxReserveAttempts h with hnone | ⟨hlast, -⟩
  · exact takesLast_of_none hnone
  · exact hlast

theorem run_carryOut_not_error (port : Port) (low : List (Event Backend)) (x : PyException) :
    ¬ Run (store.carryOut port) low (.error x) := by
  have htry : ∀ call : BackendCall, ¬ Run (tryRequest call) low (.error x) := by
    intro call h
    obtain ⟨reply, rest, -, hret⟩ := (run_call_iff _ _ _ _).mp h
    cases ((run_ret_iff _ _ _).mp hret).2
  cases port with
  | reserve => exact run_attempt_not_error _ _ _
  | complete => exact run_attempt_not_error _ _ _
  | release => exact run_attempt_not_error _ _ _
  | _ => exact htry _

theorem carryOut_port {port : Port} {low : List (Event Backend)}
    {reply : Except PyException port.Answer}
    (h : Run (tryRequest (.ofPort port)) low (.ok reply)) : low = [⟨.ofPort port, reply⟩] := by
  obtain ⟨reply', rest, rfl, hret⟩ := (run_call_iff _ _ _ _).mp h
  obtain ⟨rfl, hreply⟩ := (run_ret_iff _ _ _).mp hret
  cases hreply
  rfl

/-- What a call of the store does to the item of the key, other than `reserve`. -/
theorem carryOut_settles {port : Port} {reply : Except PyException port.Answer}
    {low : List (Event Backend)}
    (hreserves : ¬ Reserves ⟨port, reply⟩) (h : Run (store.carryOut port) low (.ok reply)) :
    (∀ event ∈ low, ¬ Takes event) ∧
    ((∀ event ∈ low, ¬ SettlesItem (applicationId, idempotencyKey) event) ↔
      ¬ Settles applicationId idempotencyKey ⟨port, reply⟩) := by
  have hdelete : ∀ (pk sk : String) (reply : Except PyException Unit),
      Run (release pk sk) low reply → low = [⟨.deleteItem pk sk, reply⟩] :=
    fun pk sk reply hrun => (run_perform_iff _ _ _).mp hrun
  cases port with
  | reserve => exact absurd trivial hreserves
  | release pk sk =>
      rw [hdelete pk sk reply ((run_attempt_iff _ _ _).mp h), List.forall_mem_singleton,
        List.forall_mem_singleton]
      cases reply <;> exact ⟨id, Iff.rfl⟩
  | complete pk sk requestHash result cacheResult retentionSeconds =>
      have hcomplete := (run_attempt_iff _ _ _).mp h
      unfold complete at hcomplete
      split at hcomplete
      · rw [hdelete pk sk reply hcomplete, List.forall_mem_singleton, List.forall_mem_singleton]
        cases reply <;> exact ⟨id, Iff.rfl⟩
      · rcases (run_perform_bind_iff _ _ _ _).mp hcomplete with ⟨clock, rest, rfl, hput⟩ |
          ⟨x, rfl, rfl⟩
        · rw [(run_perform_iff _ _ _).mp hput]
          rw [List.forall_mem_cons, List.forall_mem_singleton, List.forall_mem_cons,
            List.forall_mem_singleton]
          cases reply <;> exact ⟨⟨id, id⟩, and_iff_right id⟩
        · rw [List.forall_mem_singleton, List.forall_mem_singleton]
          exact ⟨id, Iff.rfl⟩
  | _ =>
      rw [carryOut_port h, List.forall_mem_singleton, List.forall_mem_singleton]
      exact ⟨id, Iff.rfl⟩

/-- What the operations of a call did to the item of the key, its calls of the store did. -/
theorem carried_settles {calls : List (Event Ports)} {low : List (Event Backend)}
    (hreserves : ∀ event ∈ calls, ¬ Reserves event) (h : Carried store.carryOut calls low) :
    (∀ event ∈ low, ¬ Takes event) ∧
    ((∀ event ∈ low, ¬ SettlesItem (applicationId, idempotencyKey) event) ↔
      ∀ event ∈ calls, ¬ Settles applicationId idempotencyKey event) := by
  induction calls generalizing low with
  | nil =>
      cases h
      simp
  | cons event calls ih =>
      obtain ⟨first, rest, rfl, hfirst, hrest⟩ := h
      obtain ⟨hevent, hcalls⟩ := List.forall_mem_cons.mp hreserves
      obtain ⟨htakes, hsettles⟩ :=
        @carryOut_settles _ applicationId idempotencyKey _ _ _ hevent hfirst
      obtain ⟨htakes', hsettles'⟩ := ih hcalls hrest
      rw [List.forall_mem_append, List.forall_mem_append, List.forall_mem_cons, hsettles, hsettles']
      exact ⟨⟨htakes, htakes'⟩, Iff.rfl⟩

theorem answered_new {orchestrator : InvocationOrchestrator} {request : InferenceRequest}
    {calls : List (Event Ports)}
    {out : Except PyException InferenceResult} {low : List (Event Backend)}
    (hrun : Run (orchestrator.invoke request) calls out)
    (hcarried : @Carried Ports Backend store.carryOut calls low)
    {event : Event Backend} (hmem : event ∈ low) (htakes : Takes event) :
    ∃ idempotencyKey requestHash calls', request.idempotencyKey = some idempotencyKey ∧
      calls = ⟨.reserve request.applicationId idempotencyKey requestHash,
        .ok { outcome := .new }⟩ :: calls' := by
  have huncached : Run (orchestrator.invokeUncached request) calls out → False := fun hrun =>
    (@carried_settles _ "" "" _ _ (not_reserves hrun) hcarried).1 event hmem htakes
  unfold invoke at hrun
  split at hrun
  · exact (huncached hrun).elim
  · rename_i idempotencyKey hkey
    split at hrun
    · rcases (run_ofExcept_bind_iff _ _ _ _).mp hrun with ⟨requestHash, -, hrun⟩ | ⟨x, -, rfl, -⟩
      swap
      · rw [show low = [] from hcarried] at hmem
        cases hmem
      rcases (run_perform_bind_iff _ _ _ _).mp hrun with ⟨reservation, calls', rfl, hrest⟩ |
        ⟨x, rfl, -⟩
      · obtain ⟨first, rest, rfl, hfirst, hcarried'⟩ := hcarried
        have hreserve := (run_attempt_iff _ _ _).mp hfirst
        rcases reserve_takes maxReserveAttempts hreserve with hnone | ⟨-, hnew⟩
        · -- what the call does next are no reservations
          rcases List.mem_append.mp hmem with hmem | hmem
          · exact absurd htakes (hnone event hmem)
          · have hnext : ∀ event ∈ calls', ¬ Reserves event := by
              split at hrest
              · rw [((run_raise_iff _ _ _).mp hrest).1]
                simp
              · rw [((run_raise_iff _ _ _).mp hrest).1]
                simp
              · split at hrest
                · rw [((run_raise_iff _ _ _).mp hrest).1]
                  simp
                · rw [((run_ret_iff _ _ _).mp hrest).1]
                  simp
              · exact (exit_of_run hrest).not_reserves
            exact absurd htakes ((@carried_settles _ "" "" _ _ hnext hcarried').1 event hmem)
        · cases hnew
          exact ⟨idempotencyKey, _, calls', hkey, rfl⟩
      · obtain ⟨first, rest, rfl, hfirst, hcarried'⟩ := hcarried
        have hrest : rest = [] := hcarried'
        rw [hrest, List.append_nil] at hmem
        rcases reserve_takes maxReserveAttempts ((run_attempt_iff _ _ _).mp hfirst) with hnone |
          ⟨-, hnew⟩
        · exact absurd htakes (hnone event hmem)
        · cases hnew
    · exact (huncached hrun).elim

namespace TableState

variable {ι : Type} [DecidableEq ι]

/-! ## Items in progress -/

/-- The item of the key is in progress. -/
def Busy (s : TableState) (key : String × String) : Prop :=
  ∃ item, s.table key = some item ∧ item.status = .inProgress

theorem busy_set {s : TableState} {key : String × String} {left : Option Item}
    (key' : String × String) (hkey : key' ≠ key) : (s.set key left).Busy key' ↔ s.Busy key' := by
  unfold Busy TableState.set
  dsimp only
  rw [Function.update_of_ne hkey]

theorem not_busy_set {s : TableState} {key : String × String} {left : Option Item}
    (hleft : ∀ item ∈ left, item.status = .completed) : ¬ (s.set key left).Busy key := by
  rintro ⟨item, hitem, hprogress⟩
  have hset : (s.set key left).table key = left := Function.update_self ..
  have hstatus := hleft item (hset.symm.trans hitem)
  rw [hprogress] at hstatus
  cases hstatus

variable {s s' s₀ : TableState} {log : List (Entry Backend TableState ι)} {i : ι}
  {call : BackendCall} {reply : Except PyException call.Answer}
  {G : TableState → List (Entry Backend TableState ι) → Prop}

theorem marks_step
    (howes : (tableProtocol store).owes ((tableProtocol store).phase (.ready 0) i log) call)
    (hact : tableMachine.act s call reply s') (h : leasing.Marks s.Busy log) :
    leasing.Marks s'.Busy (⟨i, s, ⟨call, reply⟩⟩ :: log) := by
  have haside : ∀ {reply' : Except PyException call.Answer},
      leasing.event (⟨i, s, ⟨call, reply'⟩⟩ : Entry Backend TableState ι) = none ∨
        leasing.event (⟨i, s, ⟨call, reply'⟩⟩ : Entry Backend TableState ι) = some (.abandon i) →
      leasing.Marks s.Busy (⟨i, s, ⟨call, reply'⟩⟩ :: log) := by
    intro reply' hevent
    refine h.aside (fun key hmoves => ?_) fun _ => Iff.rfl
    obtain ⟨event, hsome, hmoves⟩ := hmoves
    rcases hevent with hnone | habandon
    · cases hnone.symm.trans hsome
    · cases habandon.symm.trans hsome
      exact hmoves
  cases call with
  | ofPort port =>
      cases (show s' = s from hact)
      exact haside (Or.inl rfl)
  | clockSeconds =>
      obtain ⟨rfl, rfl⟩ := hact
      exact haside (Or.inl rfl)
  | putItem item condition =>
      cases condition with
      | some now =>
          obtain ⟨-, hitem⟩ := howes
          rcases hact with hput | ⟨⟨x, rfl, -⟩, rfl⟩
          · unfold putItem at hput
            split at hput
            · obtain ⟨rfl, rfl⟩ := Prod.mk.inj hput
              refine h.take rfl ⟨item, Function.update_self .., ?_⟩ busy_set
              rw [hitem]
              rfl
            · obtain ⟨rfl, rfl⟩ := Prod.mk.inj hput
              exact haside (Or.inl rfl)
          · exact haside (Or.inl rfl)
      | none =>
          obtain ⟨-, hstatus⟩ := howes
          rcases hact with hput | ⟨⟨x, rfl, -⟩, rfl⟩
          · unfold putItem at hput
            rw [if_pos (by simp)] at hput
            obtain ⟨rfl, rfl⟩ := Prod.mk.inj hput
            refine h.settle rfl (not_busy_set ?_) busy_set
            rintro _ ⟨⟩
            exact hstatus
          · exact haside (Or.inr rfl)
  | getItem pk sk =>
      obtain ⟨-, rfl⟩ := hact
      cases reply <;> exact haside (Or.inl rfl)
  | deleteItem pk sk =>
      rcases hact with ⟨rfl, rfl⟩ | ⟨⟨x, rfl, -⟩, rfl⟩
      · refine h.settle rfl (not_busy_set ?_) busy_set
        rintro _ ⟨⟩
      · exact haside (Or.inr rfl)

/-- **An item is in progress where the lease of a call stands**, in every run. -/
theorem marks (hstart : s₀.table = fun _ => none)
    (h : tableMachine.Lawful (tableProtocol store) (.ready 0) G s₀ s log) :
      leasing.Marks s.Busy log := by
  induction h with
  | init =>
      intro key
      refine iff_of_false ?_ fun ⟨i, hstands⟩ => by cases hstands
      rintro ⟨item, hitem, -⟩
      rw [hstart] at hitem
      cases hitem
  | @tick s s' log _ htick _ ih =>
      intro key
      rw [← ih key, Busy, htick.1]
      exact Iff.rfl
  | call _ howes hact _ ih => exact marks_step howes hact ih

/-! ## A call that has ended -/

/-- The table holds no item in progress of the call, and a `reserve` alone with the table that is
answered IN_PROGRESS is so because of another call. -/
structure Settled (store : DynamoDbIdempotencyStore) (i : ι) (applicationId idempotencyKey : String)
    (s : TableState)
    (log : List (Entry Backend TableState ι)) : Prop where
  gone : ¬ (s.Busy (applicationId, idempotencyKey) ∧
    leasing.StandsAt i (applicationId, idempotencyKey) log)
  retried : ∀ ports requestHash reservation s',
    exec (TableState.serve ports) (store.reserve applicationId idempotencyKey requestHash) s =
      (.ok reservation, s') →
    reservation.outcome = .inProgress → ∃ j, j ≠ i ∧
      leasing.StandsAt j (applicationId, idempotencyKey) log

theorem busy_of_inProgress {ports : (port : Port) → Except PyException port.Answer}
    {reservation : IdempotencyReservation} (hexec : exec (TableState.serve ports)
      (store.reserve applicationId idempotencyKey requestHash) s =
      (.ok reservation, s'))
    (hprogress : reservation.outcome = .inProgress) : s.Busy (applicationId, idempotencyKey) := by
  by_cases hallows : TableState.Allows (s.table (applicationId, idempotencyKey))
    (wholeSeconds s.now)
  · rw [exec_reserve_allowed hallows] at hexec
    rw [← Except.ok.inj (Prod.mk.inj hexec).1] at hprogress
    cases hprogress
  · unfold TableState.Allows at hallows
    push Not at hallows
    obtain ⟨item, hitem, hrefused⟩ := hallows
    rw [exec_reserve_refused hitem hrefused] at hexec
    refine ⟨item, hitem, ?_⟩
    have hanswer := (Prod.mk.inj hexec).1
    unfold answerItem at hanswer
    split at hanswer
    · rw [← Except.ok.inj hanswer] at hprogress
      cases hprogress
    · split at hanswer
      · assumption
      · split at hanswer
        · cases hanswer
        · cases hresult : store.modelValidateJson _ with
          | error x =>
              rw [hresult] at hanswer
              cases hanswer
          | ok cachedResult =>
              rw [hresult] at hanswer
              rw [← Except.ok.inj hanswer] at hprogress
              cases hprogress

omit [DecidableEq ι] in
theorem settled_iff_not_standsAt (h : leasing.Marks s.Busy log) :
    Settled store i applicationId idempotencyKey s log ↔
      ¬ leasing.StandsAt i (applicationId, idempotencyKey) log := by
  constructor
  · intro hsettled hstands
    exact hsettled.gone ⟨(h _).mpr ⟨i, hstands⟩, hstands⟩
  · intro hnot
    refine ⟨fun hheld => hnot hheld.2, fun ports requestHash reservation s' hexec hprogress => ?_⟩
    obtain ⟨j, hstands⟩ := (h _).mp (busy_of_inProgress hexec hprogress)
    refine ⟨j, ?_, hstands⟩
    rintro rfl
    exact hnot hstands

omit [DecidableEq ι] in
theorem takes_of_take {entry : Entry Backend TableState ι} {key : String × String} {deadline : Int}
    (h : leasing.event entry = some (.take i key deadline)) : Takes entry.event := by
  obtain ⟨j, s, call, reply⟩ := entry
  cases call with
  | putItem item condition =>
      cases condition <;> cases reply <;> cases h
      exact trivial
  | deleteItem => cases reply <;> cases h
  | _ => cases h

omit [DecidableEq ι] in
theorem moves_iff {entry : Entry Backend TableState ι} {key : String × String}
    (h : ¬ Takes entry.event) :
    leasing.Moves key entry ↔ SettlesItem key entry.event := by
  obtain ⟨j, s, call, reply⟩ := entry
  constructor
  · rintro ⟨event, hevent, hmoves⟩
    cases call with
    | putItem item condition =>
        cases condition <;> cases reply <;> cases hevent
        · exact hmoves
        · exact hmoves
        · exact absurd trivial h
    | deleteItem =>
        cases reply <;> cases hevent
        · exact hmoves
        · exact hmoves
    | _ => cases hevent
  · intro hsettles
    cases call with
    | putItem item condition =>
        cases condition with
        | some now => cases reply <;> exact hsettles.elim
        | none =>
            cases reply with
            | ok _ => exact ⟨_, rfl, hsettles⟩
            | error x => exact hsettles.elim
    | deleteItem =>
        cases reply with
        | ok _ => exact ⟨_, rfl, hsettles⟩
        | error x => exact hsettles.elim
    | _ => exact hsettles.elim

variable {orchestrators : ι → InvocationOrchestrator} {requests : ι → InferenceRequest} {now : Int}
  {c : Config Backend TableState ι InferenceResult} {out : Except PyException InferenceResult}
  {reservation : IdempotencyReservation} {calls : List (Event Ports)}

/-- The operations of a call that has ended carry out the calls of a run of `invoke`. -/
theorem exists_carried (h : tableMachine.Reachable G (start store orchestrators requests now) c)
    (hend : c.threads i = Prog.ofExcept out) :
    ∃ tr, Run ((orchestrators i).invoke (requests i)) tr out ∧
      Carried store.carryOut tr (own i c.log) := by
  have hrun : Run (store.overDynamoDb ((orchestrators i).invoke (requests i)))
      (own i c.log) out := by
    have hsteps := h.steps rfl i
    rw [hend] at hsteps
    exact hsteps
  obtain ⟨tr, out', htr, hcarried, hout⟩ := run_interpret run_carryOut_not_error hrun
  refine ⟨tr, ?_, hcarried⟩
  rw [hout]
  cases out' <;> exact htr

/-- **A call that has ended has settled its reservation unless it was stranded**, or somebody else
has moved the key, if its `release` does not raise. -/
theorem settled_iff (h : tableMachine.Reachable G (start store orchestrators requests now) c)
    (hrun : Run ((orchestrators i).invoke (requests i))
      (⟨.reserve applicationId idempotencyKey requestHash, .ok reservation⟩ :: calls) out)
    (hcarried : @Carried Ports Backend store.carryOut
      (⟨.reserve applicationId idempotencyKey requestHash, .ok reservation⟩ :: calls) (own i c.log))
    (hnew : reservation.outcome = .new)
    (hrelease : ∀ x, (⟨.release applicationId idempotencyKey, .error x⟩ : Event Ports) ∉ calls) :
    Settled store i applicationId idempotencyKey c.shared c.log ↔
      ¬ (Stranded (orchestrators i) (requests i) idempotencyKey requestHash calls ∧
        leasing.Untouched i (applicationId, idempotencyKey) c.log) := by
  obtain ⟨rfl, hexit⟩ := exit_of_reserved hrun hnew
  obtain ⟨first, rest, hown, hfirst, hrest⟩ := hcarried
  obtain ⟨htakes, hsettles⟩ :=
    @carried_settles _ (requests i).applicationId idempotencyKey _ _ hexit.not_reserves hrest
  have hstands := @Lease.Leasing.standsAt_iff_own _ _ _ _ _ _ _ leasing c.log i
    ((requests i).applicationId, idempotencyKey) _ rest
      (SettlesItem ((requests i).applicationId, idempotencyKey)) ?_ ?_
  · rw [settled_iff_not_standsAt (marks rfl (lawful_invoke h)), hstands, hsettles,
      ← hexit.stranded_iff hrelease]
  · intro later entry past deadline hlog htake
    have hthread : entry.thread = i := (leasing.actor entry _ htake).symm
    rw [hlog] at hown
    have hrest' : entry.event ∉ rest := fun hmem => htakes _ hmem (takes_of_take htake)
    obtain ⟨between, hsplit, hlater⟩ := own_after hown hthread hrest'
    have hlast := reserve_takesLast ((run_attempt_iff _ _ _).mp hfirst)
    rw [hlater, hlast _ _ _ hsplit (takes_of_take htake), List.nil_append]
  · intro entry _ hmem
    exact moves_iff (htakes _ hmem)

end TableState

end DynamoDbIdempotencyStore

end ModelRouter
