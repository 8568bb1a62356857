import ModelRouter.Application.Handover
import ModelRouter.Composition.Tenancy

/-!
# One decision, one answer

Events run over the two tables, in any interleaving.

* `spec_overTables_handing` : an event puts one completed item at most, that holds what it answers;
* `source_of_answer` : whoever drew the identifier of an answer has put its result, or is the one
  who answers;
* `answers_agree` : inferences that are answered with one decision are answered with one result;
* `steps_replayed` : an inference whose reservation is refused answers what its item replays.
-/

namespace ModelRouter
open Effects Prog HandlerServices InvocationOrchestrator DynamoDbIdempotencyStore
  DynamoDbRoutingDecisionRepository
open DeployedState

/-! ## Events -/

def apiHanding (Φ : InferenceResult → Prop) : Monitor ApiPorts (Handover InferenceResult) where
  owes st
    | .ofPort port => (handing Φ).owes st port
    | .getDecision _ => True
  relies
    | st, .ofPort port, reply => (handing Φ).relies st port reply
    | _, .getDecision _, _ => True
  next
    | st, .ofPort port, reply => (handing Φ).next st port reply
    | st, .getDecision _, _ => st

theorem spec_dispatch_handing (services : HandlerServices) (event : ProxyEvent)
    (Φ : InferenceResult → Prop) :
    Spec (apiHanding Φ) (services.dispatch event)
      (fun out st => ∃ response, out = .ok response ∧
        ServedWith services event (fun _ => HandedOver Φ) response st) {} :=
  spec_useCases (M := handing Φ) (fun _ _ => id) (fun _ _ _ => id) (fun _ _ _ => rfl)
    (fun _ => trivial)
    (fun _ => spec_invoke_handing) fun _ => (spec_evaluate_handing _ rfl).mono fun _ _ _ => trivial

/-! ## Over the tables -/

/-- A completed item holds the text of a result under the identifier that was drawn, and is the only
one. -/
def Handover.Puts (store : DynamoDbIdempotencyStore) (st : Handover String) (item : Item) : Prop :=
  st.given = none ∧ item.status = .completed ∧
  ∃ result, item.result = some (store.modelDumpJson result) ∧
    st.drawn = some result.decision.decisionId

/-- Items that are looked up satisfy `Ψ`. -/
def deployedHanding (store : DynamoDbIdempotencyStore) (Ψ : Item → Prop) :
    Monitor Deployed (Handover String) where
  owes st
    | .backend (.putItem item none) => st.Puts store item
    | _ => True
  relies
    | _, .backend (.getItem _ _), .ok (some item) => Ψ item
    | _, _, _ => True
  next
    | st, .backend (.ofPort (.newId _)), .ok decisionId => { st with drawn := some decisionId }
    | st, .backend (.putItem item none), _ => { st with given := item.result }
    | st, _, _ => st

/-- The observer of the operations of the idempotency store. -/
def backendHanding (store : DynamoDbIdempotencyStore) (Ψ : Item → Prop) :
    Monitor Backend (Handover String) where
  owes st operation := (deployedHanding store Ψ).owes st (.backend operation)
  relies st operation reply := (deployedHanding store Ψ).relies st (.backend operation) reply
  next st operation reply := (deployedHanding store Ψ).next st (.backend operation) reply

/-- What was put is the text of what was given; nothing may have been put. -/
structure Handover.Put (store : DynamoDbIdempotencyStore) (high : Handover InferenceResult)
    (low : Handover String) : Prop where
  drawn : low.drawn = high.drawn
  given : low.given = none ∨ low.given = high.given.map store.modelDumpJson

section
variable {store : DynamoDbIdempotencyStore} {repository : DynamoDbRoutingDecisionRepository}
  {Ψ : Item → Prop}

/-- A result that the store may replay. -/
def Replayable (store : DynamoDbIdempotencyStore) (Ψ : Item → Prop) (result : InferenceResult) :
    Prop :=
  ∃ item, Ψ item ∧ item.Replays store result

theorem spec_reserve_handing (applicationId idempotencyKey requestHash : String)
    (low : Handover String) :
    Spec (backendHanding store Ψ) (store.reserve applicationId idempotencyKey requestHash)
      (fun out low' => low' = low ∧ ∀ reservation result, out = .ok reservation →
        reservation.outcome = .completed →
        reservation.cachedResult = some result → Replayable store Ψ result) low := by
  refine spec_reserve_replays (fun operation hreserving => ?_) fun _ => id
  cases operation with
  | putItem item condition =>
      obtain ⟨now, -, rfl⟩ := hreserving
      exact ⟨trivial, fun _ => rfl⟩
  | ofPort | deleteItem => exact hreserving.elim
  | _ => exact ⟨trivial, fun _ => rfl⟩

theorem spec_complete_handing {result : InferenceResult} {high : Handover InferenceResult}
    {low : Handover String} (hput : high.Put store low) (hgiven : high.given = none)
    (hdrawn : high.drawn = some result.decision.decisionId)
    (applicationId idempotencyKey requestHash : String) (cacheResult : Bool)
    (retentionSeconds : Nat) :
    Spec (backendHanding store Ψ) (store.complete applicationId idempotencyKey requestHash
      result cacheResult retentionSeconds)
      (fun _ low' => Handover.Put store { high with given := some result } low') low := by
  have hnothing : low.given = none := hput.given.elim id fun h => by rw [h, hgiven, Option.map_none]
  have hstays : Handover.Put store { high with given := some result } low :=
    ⟨hput.drawn, Or.inl hnothing⟩
  unfold complete
  split
  · exact Spec.perform trivial fun _ _ => hstays
  · refine Spec.performBind trivial (fun clock _ => ?_) fun _ _ => hstays
    exact Spec.perform ⟨hnothing, rfl, result, rfl, hput.drawn.trans hdrawn⟩ fun _ _ =>
      ⟨hput.drawn, Or.inr rfl⟩

theorem spec_carryOutTables_handing (port : ApiPort) (high : Handover InferenceResult)
    (low : Handover String)
    (hput : high.Put store low) (howes : (apiHanding (Replayable store Ψ)).owes high port) :
    Spec (deployedHanding store Ψ) (carryOutTables store repository port)
      (fun out low' => ∃ reply, out = .ok reply ∧
        (apiHanding (Replayable store Ψ)).relies high port reply ∧
        ((apiHanding (Replayable store Ψ)).next high port reply).Put store low') low := by
  have hport : ∀ port : Port, ¬ FilingPort port →
      Spec (deployedHanding store Ψ) (onBackend (tryRequest (.ofPort port)))
      (fun out low' => ∃ reply, out = .ok reply ∧
        (handing (Replayable store Ψ)).relies high port reply ∧
        ((handing (Replayable store Ψ)).next high port reply).Put store low') low := by
    intro port hquiet
    cases port with
    | newId | save | complete | reserve => exact absurd trivial hquiet
    | _ => exact ⟨trivial, fun reply _ => ⟨reply, rfl, trivial, hput⟩⟩
  have hstore : ∀ {α : Type} {p : Prog Backend α} {Q : Except PyException α →
      Handover String → Prop},
      Spec (backendHanding store Ψ) p Q low → Spec (deployedHanding store Ψ) (onBackend p.attempt)
        (fun out low' => ∃ reply, out = .ok reply ∧ Q reply low') low :=
    fun h => spec_onBackend (Spec.attempt (h.mono fun out _ hQ => ⟨out, rfl, hQ⟩)) (fun _ _ => id)
      (fun _ _ _ => id)
      fun _ _ _ => rfl
  cases port with
  | getDecision decisionId =>
      show Spec _ (onDecisions (repository.get decisionId).attempt) _ _
      rw [onDecisions_get]
      exact ⟨trivial, fun reply _ => ⟨_, rfl, trivial, hput⟩⟩
  | ofPort port =>
      cases port with
      | newId kind =>
          refine ⟨trivial, fun reply _ => ⟨reply, rfl, trivial, ?_⟩⟩
          cases reply with
          | ok decisionId => exact ⟨rfl, hput.given⟩
          | error x => exact hput
      | save auditRecord =>
          refine ⟨trivial, fun clock _ => ?_⟩
          cases clock with
          | error x => exact ⟨_, rfl, trivial, hput⟩
          | ok clock =>
              refine ⟨trivial, fun reply _ => ?_⟩
              cases reply <;> exact ⟨_, rfl, trivial, hput⟩
      | reserve applicationId idempotencyKey requestHash =>
          refine (hstore (spec_reserve_handing applicationId idempotencyKey requestHash low)).mono
            fun out low' h => ?_
          obtain ⟨reply, rfl, rfl, hreplays⟩ := h
          refine ⟨reply, rfl, ?_, ?_⟩
          · cases reply with
            | error x => trivial
            | ok reservation => exact fun result => hreplays reservation result rfl
          · cases reply <;> exact hput
      | complete applicationId idempotencyKey requestHash result cacheResult retentionSeconds =>
          obtain ⟨hgiven, hdrawn⟩ := howes
          refine (hstore (spec_complete_handing hput hgiven hdrawn applicationId idempotencyKey
            requestHash cacheResult
            retentionSeconds)).mono fun out low' h => ?_
          obtain ⟨reply, rfl, hput'⟩ := h
          exact ⟨reply, rfl, by cases reply <;> trivial, by cases reply <;> exact hput'⟩
      | release applicationId idempotencyKey =>
          have hrelease : Spec (backendHanding store Ψ)
              (DynamoDbIdempotencyStore.release applicationId idempotencyKey)
              (fun _ low' => low' = low) low := Spec.perform trivial fun _ _ => rfl
          refine (hstore hrelease).mono fun out low' h => ?_
          obtain ⟨reply, rfl, rfl⟩ := h
          exact ⟨reply, rfl, by cases reply <;> trivial, by cases reply <;> exact hput⟩
      | _ => exact hport _ id

/-- **Over the tables, an event puts one completed item at most**, that holds what it answers. -/
theorem spec_overTables_handing (services : HandlerServices) (event : ProxyEvent)
    (Ψ : Item → Prop) :
    Spec (deployedHanding store Ψ) (overTables store repository (services.dispatch event))
      (fun out low => ∃ response, out = .ok response ∧
        ServedWith services event (fun _ result low => Replayable store Ψ result ∨
          low.drawn = some result.decision.decisionId ∧
          (low.given = none ∨ low.given = some (store.modelDumpJson result))) response low) {} := by
  have hover := @Spec.interpret ApiPorts HttpReply _ _ _ Deployed (Handover String) _
      (Handover.Put store) id
    (carryOutTables store repository)
    (@spec_carryOutTables_handing store repository Ψ) (services.dispatch event) {} {}
    (spec_dispatch_handing services event (Replayable store Ψ)) ⟨rfl, Or.inl rfl⟩
  refine hover.mono fun out low h => ?_
  obtain ⟨out', high, hout, ⟨response, hresponse, hserved⟩, hput⟩ := h
  subst hresponse
  refine ⟨response, hout, fun hroute hstatus => ?_⟩
  obtain ⟨request, result, hreceived, hreply, hreplayed | ⟨hdrawn, hgiven⟩⟩ :=
    hserved hroute hstatus
  · exact ⟨request, result, hreceived, hreply, Or.inl hreplayed⟩
  · refine ⟨request, result, hreceived, hreply,
      Or.inr ⟨hput.drawn.trans hdrawn, hput.given.elim Or.inl fun hlow => ?_⟩⟩
    rcases hgiven with hgiven | hgiven
    · exact Or.inl (by rw [hlow, hgiven, Option.map_none])
    · exact Or.inr (by rw [hlow, hgiven, Option.map_some])

end

/-! ## The operations of one event -/

section
variable {Ψ : Item → Prop} {st : Handover String} {tr : List (Event Deployed)}
  {event : Event Deployed} {item : Item}

theorem drawn_next (st : Handover String) (event : Event Deployed) :
    ((deployedHanding store Ψ).next st event.call event.reply).drawn =
      (drawnId event).or st.drawn := by
  obtain ⟨operation, reply⟩ := event
  cases operation with
  | decisions operation => rfl
  | backend operation =>
      cases operation with
      | ofPort port => cases port <;> cases reply <;> rfl
      | putItem item condition => cases condition <;> rfl
      | _ => rfl

theorem given_next (st : Handover String) (event : Event Deployed) :
    (∃ item, event.call = .backend (.putItem item none) ∧
      ((deployedHanding store Ψ).next st event.call event.reply).given = item.result) ∨
    ((deployedHanding store Ψ).next st event.call event.reply).given = st.given := by
  obtain ⟨operation, reply⟩ := event
  cases operation with
  | decisions operation => exact Or.inr rfl
  | backend operation =>
      cases operation with
      | ofPort port => exact Or.inr (by cases port <;> cases reply <;> rfl)
      | putItem item condition =>
          cases condition with
          | none => exact Or.inl ⟨item, rfl, rfl⟩
          | some now => exact Or.inr rfl
      | _ => exact Or.inr rfl

theorem drawn_after {decisionId : String}
    (h : ((deployedHanding store Ψ).after st tr).drawn = some decisionId) :
    st.drawn = some decisionId ∨ ∃ event ∈ tr, drawnId event = some decisionId := by
  induction tr generalizing st with
  | nil => exact Or.inl h
  | cons event tr ih =>
      rcases ih h with hnext | ⟨event', hevent', hdrawn⟩
      · rw [drawn_next] at hnext
        cases hdrawn : drawnId event with
        | none =>
            rw [hdrawn] at hnext
            exact Or.inl hnext
        | some name =>
            rw [hdrawn] at hnext
            exact Or.inr ⟨event, List.mem_cons_self, hdrawn.trans hnext⟩
      · exact Or.inr ⟨event', List.mem_cons_of_mem _ hevent', hdrawn⟩

theorem put_of_given {text : String}
    (h : ((deployedHanding store Ψ).after st tr).given = some text) :
    st.given = some text ∨ ∃ event ∈ tr, ∃ item, event.call = .backend (.putItem item none) ∧
      item.result = some text := by
  induction tr generalizing st with
  | nil => exact Or.inl h
  | cons event tr ih =>
      rcases ih h with hnext | ⟨event', hevent', hput⟩
      · rcases given_next st event with ⟨item, hput, hgiven⟩ | hsame
        · exact Or.inr ⟨event, List.mem_cons_self, item, hput, hgiven.symm.trans hnext⟩
        · exact Or.inl (hsame.symm.trans hnext)
      · exact Or.inr ⟨event', List.mem_cons_of_mem _ hevent', hput⟩

theorem given_stays (hpaid : (deployedHanding store Ψ).Paid st tr) (hgiven : st.given ≠ none) :
    ((deployedHanding store Ψ).after st tr).given = st.given := by
  induction tr generalizing st with
  | nil => rfl
  | cons event tr ih =>
      obtain ⟨howes, hpaid⟩ := hpaid
      rcases given_next st event with ⟨item, hput, -⟩ | hsame
      · rw [hput] at howes
        exact absurd howes.1 hgiven
      · exact (ih hpaid (hsame ▸ hgiven)).trans hsame

/-- A completed item that was put is what was given, under an identifier that was drawn. -/
theorem given_of_put (hpaid : (deployedHanding store Ψ).Paid st tr) (hevent : event ∈ tr)
    (hput : event.call = .backend (.putItem item none)) :
    ((deployedHanding store Ψ).after st tr).given = item.result ∧ item.status = .completed ∧
    ∃ result : InferenceResult,
      item.result = some (store.modelDumpJson result) ∧
      (st.drawn = some result.decision.decisionId ∨
        ∃ event ∈ tr, drawnId event = some result.decision.decisionId) := by
  induction tr generalizing st with
  | nil => cases hevent
  | cons event' tr ih =>
      obtain ⟨howes, hpaid⟩ := hpaid
      rcases List.mem_cons.mp hevent with rfl | hevent
      · rw [hput] at howes
        obtain ⟨-, hcompleted, result, hresult, hdrawn⟩ := howes
        have hnext : ((deployedHanding store Ψ).next st event.call event.reply).given =
            item.result := by
          rcases given_next st event with ⟨item', hput', hgiven⟩ | hsame
          · rw [hput] at hput'
            cases hput'
            exact hgiven
          · obtain ⟨operation, reply⟩ := event
            subst hput
            rfl
        refine ⟨(given_stays hpaid ?_).trans hnext, hcompleted, result, hresult, Or.inl hdrawn⟩
        rw [hnext, hresult]
        exact Option.some_ne_none _
      · obtain ⟨hgiven, hcompleted, result, hresult, hdrawn⟩ := ih hpaid hevent
        refine ⟨hgiven, hcompleted, result, hresult, ?_⟩
        rcases hdrawn with hdrawn | ⟨event'', hevent'', hdrawn⟩
        · rcases @drawn_after Ψ st [event'] store _ hdrawn with hdrawn | ⟨event'', hevent'', hdrawn⟩
          · exact Or.inl hdrawn
          · exact Or.inr ⟨event'',
              List.mem_cons.mpr (Or.inl (List.mem_singleton.mp hevent'')), hdrawn⟩
        · exact Or.inr ⟨event'', List.mem_cons_of_mem _ hevent'', hdrawn⟩

end

/-! ## All events -/

variable {ι : Type} [DecidableEq ι]

/-- An item that is found holds a result and has been put, if it is completed. -/
def PutIn (store : DynamoDbIdempotencyStore) (log : List (Entry Deployed DeployedState ι))
    (item : Item) : Prop :=
  HoldsResult store item ∧
  (item.status = .completed → ∃ entry ∈ log, entry.event = ⟨.backend (.putItem item none), .ok ()⟩)

theorem thread_of_drawn {log : List (Entry Deployed DeployedState ι)}
    (hids : (decisionIds log).Nodup) {i j : ι}
    {event event' : Event Deployed} {decisionId : String} (hevent : event ∈ own i log)
    (hevent' : event' ∈ own j log)
    (hdrawn : drawnId event = some decisionId) (hdrawn' : drawnId event' = some decisionId) :
      i = j := by
  obtain ⟨entry, hentry, rfl, rfl⟩ := mem_own.mp hevent
  obtain ⟨entry', hentry', rfl, rfl⟩ := mem_own.mp hevent'
  have hapart := List.pairwise_filterMap.mp hids
  have hsame : entry = entry' := by
    refine List.Pairwise.forall_of_forall_of_flip
      (R := fun entry entry' : Entry Deployed DeployedState ι =>
        drawnId entry.event = some decisionId →
        drawnId entry'.event = some decisionId →
        entry = entry') (fun _ _ _ _ => rfl) ?_ ?_ hentry hentry' hdrawn hdrawn'
    · exact hapart.imp fun h hname hname' => absurd rfl (h decisionId hname decisionId hname')
    · exact hapart.imp fun h hname hname' => absurd rfl (h decisionId hname' decisionId hname)
  exact congrArg Entry.thread hsame

section
variable {services : ι → HandlerServices} {events : ι → ProxyEvent}
  {store : DynamoDbIdempotencyStore} {repository : DynamoDbRoutingDecisionRepository} {now : Int}
  {c : Config Deployed DeployedState ι HttpReply}
  {G : DeployedState → List (Entry Deployed DeployedState ι) → Prop}

/-- What a thread has been given for its reservation. -/
def givenOf (store : DynamoDbIdempotencyStore)
    (log : List (Entry Deployed DeployedState ι)) (i : ι) :
    Option String :=
  ((deployedHanding store (PutIn store log)).after {} (own i log)).given

variable (hreads : store.ReadsBack) (hreads' : repository.ReadsBack)
  (hrepository : ∀ i, (services i).orchestrator.hasDecisionRepository = true)
  (hreach : deployedMachine.Reachable G (start services events store repository now) c)
include hreads hreads' hrepository hreach

theorem putIn_of_found {i : ι} {pk sk : String} {item : Item}
    (hfound : (⟨.backend (.getItem pk sk), .ok (some item)⟩ : Event Deployed) ∈ own i c.log) :
      PutIn store c.log item := by
  have hlawful := (lawful_deployed hreads hreads' hrepository hreach).1
  obtain ⟨entry, hentry, -, hevent⟩ := mem_own.mp hfound
  obtain ⟨later, past, hlog⟩ := List.append_of_mem hentry
  rw [hlog] at hlawful ⊢
  obtain ⟨hpast, -, s', hact, -⟩ := hlawful.split
  rw [hevent] at hact
  obtain ⟨⟨version, hversion, hreply⟩ | ⟨x, hreply, -⟩, -⟩ := hact
  · obtain rfl := Except.ok.inj hreply
    have hstood := found_idempotency rfl hpast hversion
    refine ⟨hstood.holds, fun hcompleted => ?_⟩
    obtain ⟨entry', hmem, hput⟩ := hstood.put hcompleted
    exact ⟨entry', List.mem_append_right _ (List.mem_cons_of_mem _ hmem), hput⟩
  · cases hreply

theorem handed_of_reachable (i : ι) :
    (deployedHanding store (PutIn store c.log)).Paid {} (own i c.log) ∧
    Spec (deployedHanding store (PutIn store c.log)) (c.threads i)
      (fun out low => ∃ response, out = .ok response ∧
        ServedWith (services i) (events i) (fun _ result low =>
          Replayable store (PutIn store c.log) result ∨
            low.drawn = some result.decision.decisionId ∧
          (low.given = none ∨ low.given = some (store.modelDumpJson result))) response low)
      ((deployedHanding store (PutIn store c.log)).after {} (own i c.log)) := by
  refine (spec_overTables_handing (services i) (events i) (PutIn store c.log)).steps
    (hreach.steps rfl i) (Monitor.kept_of_forall fun _ event hevent => ?_)
  obtain ⟨operation, reply⟩ := event
  cases operation with
  | decisions operation => trivial
  | backend operation =>
      cases operation with
      | getItem pk sk =>
          cases reply with
          | error x => trivial
          | ok existing =>
              cases existing with
              | none => trivial
              | some item => exact putIn_of_found hreads hreads' hrepository hreach hevent
      | putItem item condition => cases condition <;> trivial
      | _ => trivial

/-- What a thread was given is the text of a result that can be read back. -/
theorem held_of_given {k : ι} {text : String} (hgiven : givenOf store c.log k = some text) :
    ∃ held : InferenceResult, text = store.modelDumpJson held ∧
      Calendar.FourDigits held.decision.createdAt := by
  have hlawful := (lawful_deployed hreads hreads' hrepository hreach).1
  rcases put_of_given hgiven with hnothing | ⟨event, hevent, item, hput, htext⟩
  · cases hnothing
  · have hcompleted := (given_of_put (handed_of_reachable hreads hreads' hrepository hreach k).1
        hevent hput).2.1
    obtain ⟨entry, hentry, -, rfl⟩ := mem_own.mp hevent
    obtain ⟨later, past, hlog⟩ := List.append_of_mem hentry
    rw [hlog] at hlawful
    obtain ⟨-, howes, -⟩ := hlawful.split
    rw [hput] at howes
    obtain ⟨held, hheld, hmade⟩ := howes.2.2 hcompleted
    exact ⟨held, Option.some.inj (htext.symm.trans hheld), hmade.createdAt⟩

/-- A completed item holds what the one has been given who drew the identifier of its result. -/
theorem source_of_item {item : Item} (hput : PutIn store c.log item)
    (hcompleted : item.status = .completed) :
    ∃ held : InferenceResult, item.result = some (store.modelDumpJson held) ∧
      Calendar.FourDigits held.decision.createdAt ∧
      ∃ k, (∃ event ∈ own k c.log, drawnId event = some held.decision.decisionId) ∧
        givenOf store c.log k = some (store.modelDumpJson held) := by
  obtain ⟨held, hheld, hmade⟩ := hput.1 hcompleted
  obtain ⟨entry, hentry, hevent⟩ := hput.2 hcompleted
  obtain ⟨hgiven, -, drawn, hdrawn, hnamed⟩ :=
    given_of_put (handed_of_reachable hreads hreads' hrepository hreach
    entry.thread).1 (mem_own.mpr ⟨entry, hentry, rfl, rfl⟩) (congrArg Event.call hevent)
  obtain rfl := hreads.injective hmade.createdAt (Option.some.inj (hdrawn.symm.trans hheld))
  exact ⟨_, hheld, hmade.createdAt, entry.thread, hnamed.resolve_left (by rintro ⟨⟩),
    hgiven.trans hheld⟩

/-- Whoever drew the identifier of an answer has been given the text of its result, or is the one
who answers. -/
theorem source_of_answer {i : ι} {response : HttpReply}
    (hroute : (events i).route = some .inference)
    (hreturned : c.threads i = .ret response) (hstatus : response.statusCode = 200) : ∃ result :
      InferenceResult,
    response = respond 200 (serializeInferenceResult result (events i).requestIdText) ∧
      ∃ k, (∃ event ∈ own k c.log, drawnId event = some result.decision.decisionId) ∧
        (k = i ∧ givenOf store c.log k = none ∨
          givenOf store c.log k = some (store.modelDumpJson result)) := by
  have hserved := (handed_of_reachable hreads hreads' hrepository hreach i).2
  rw [hreturned] at hserved
  obtain ⟨response', hsame, hserved⟩ := hserved
  cases hsame
  obtain ⟨-, result, -, hreply, ⟨item, hput, hreplays⟩ | ⟨hdrawn, hgiven⟩⟩ := hserved hroute hstatus
  · -- the result was replayed: its item was put by the thread that drew its identifier
    obtain ⟨held, hheld, hyear, k, hdrawn, hgiven⟩ :=
      source_of_item hreads hreads' hrepository hreach hput hreplays.1
    obtain ⟨htext, -⟩ := replays_held hreads hput.1 hreplays
    obtain rfl := hreads.injective hyear (Option.some.inj (htext.symm.trans hheld))
    exact ⟨_, hreply, k, hdrawn, Or.inr hgiven⟩
  · refine ⟨result, hreply, i, (drawn_after hdrawn).resolve_left (by rintro ⟨⟩), ?_⟩
    exact hgiven.imp (fun hnothing => ⟨rfl, hnothing⟩) id

/-- **Inferences that are answered with one decision are answered with one result.** -/
theorem answers_agree (hids : (decisionIds c.log).Nodup) {i j : ι} {response response' : HttpReply}
    {decisionId : String}
    (hroute : (events i).route = some .inference) (hreturned : c.threads i = .ret response)
    (hstatus : response.statusCode = 200) (hanswered : response.decisionId = some decisionId)
    (hroute' : (events j).route = some .inference) (hreturned' : c.threads j = .ret response')
    (hstatus' : response'.statusCode = 200) (hanswered' : response'.decisionId = some decisionId) :
    ∃ result : InferenceResult, result.decision.decisionId = decisionId ∧
      response = respond 200 (serializeInferenceResult result (events i).requestIdText) ∧
      response' = respond 200 (serializeInferenceResult result (events j).requestIdText) := by
  obtain ⟨result, hreply, k, ⟨event, hevent, hdrawn⟩, hsource⟩ :=
    source_of_answer hreads hreads' hrepository hreach hroute hreturned hstatus
  obtain ⟨result', hreply', k', ⟨event', hevent', hdrawn'⟩, hsource'⟩ :=
    source_of_answer hreads hreads' hrepository hreach hroute' hreturned' hstatus'
  obtain rfl : result.decision.decisionId = decisionId := by
    rw [hreply] at hanswered
    exact Option.some.inj hanswered
  have hid : result'.decision.decisionId = result.decision.decisionId := by
    rw [hreply'] at hanswered'
    exact Option.some.inj hanswered'
  rw [hid] at hdrawn'
  obtain rfl := thread_of_drawn hids hevent hevent' hdrawn hdrawn'
  rcases hsource with ⟨rfl, hnothing⟩ | hgiven
  · rcases hsource' with ⟨rfl, -⟩ | hgiven'
    · -- both are the answer of the one event that drew the identifier
      rw [hreturned] at hreturned'
      cases hreturned'
      exact ⟨result, rfl, hreply, hreply⟩
    · rw [hnothing] at hgiven'
      cases hgiven'
  · rcases hsource' with ⟨rfl, hnothing⟩ | hgiven'
    · rw [hnothing] at hgiven
      cases hgiven
    · obtain ⟨held, htext, hyear⟩ := held_of_given hreads hreads' hrepository hreach hgiven
      have htext' : store.modelDumpJson result' = store.modelDumpJson held :=
        (Option.some.inj (hgiven'.symm.trans hgiven)).trans htext
      obtain rfl := hreads.injective hyear htext
      obtain rfl := hreads.injective hyear htext'
      exact ⟨_, rfl, hreply, hreply'⟩

end

/-! ## A replay -/

omit [DecidableEq ι] in
theorem start_threads {services : ι → HandlerServices} {events : ι → ProxyEvent}
    {store : DynamoDbIdempotencyStore} {repository : DynamoDbRoutingDecisionRepository}
    {now : Int} (i : ι) :
    (start services events store repository now).threads i =
      overTables store repository ((services i).dispatch (events i)) := rfl

section
variable {services : HandlerServices} {event : ProxyEvent} {request : InferenceRequest}
  {idempotencyKey requestHash : String} {store : DynamoDbIdempotencyStore}
  {repository : DynamoDbRoutingDecisionRepository} {result : InferenceResult}

/-- An inference with a key reserves it first, and answers what it is replayed. -/
theorem dispatch_reserves (hinfers : services.Infers event request)
    (hkey : request.idempotencyKey = some idempotencyKey)
    (hhash : services.requestHash request = .ok requestHash)
    (hstore : services.orchestrator.hasIdempotencyStore = true)
    (hselected : result.decision.selectedModelAlias ≠ none) :
    ∃ rest, services.dispatch event = @Prog.call ApiPorts _
        (.ofPort (.reserve request.applicationId idempotencyKey requestHash)) rest ∧
      rest (.ok { outcome := .completed, cachedResult := some result }) =
        ret (respond 200 (serializeInferenceResult result event.requestIdText)) := by
  obtain ⟨hreceived, hroute⟩ := hinfers
  have hparsed : services.parseRequestOr400 event event.requestIdText = .ok (.inl request) := by
    unfold received at hreceived
    split at hreceived
    · rename_i parsed hparsed
      rw [hparsed, Option.some.inj hreceived]
    · cases hreceived
  unfold dispatch handleRoute handleInference
  rw [hroute]
  dsimp only
  rw [hparsed]
  dsimp only
  unfold serveInference invoke
  rw [hkey]
  dsimp only
  rw [if_pos hstore]
  unfold invokeWithIdempotency
  rw [show services.orchestrator.computeRequestHash request = .ok requestHash from hhash]
  refine ⟨_, rfl, ?_⟩
  show @Prog.bind _ _ _ (Prog.attempt
      (Prog.bind (runUseCase (if result.decision.selectedModelAlias = none then
    ret (noSelection result event.requestIdText) else ret (.served result))) _)) _ = _
  rw [if_neg hselected]
  rfl

theorem answerItem_of_replays {item : Item} (hhash : item.requestHash = requestHash)
    (hreplays : item.Replays store result) :
    store.answerItem requestHash item =
      .ok { outcome := .completed, cachedResult := some result } := by
  obtain ⟨hcompleted, json, hjson, hread⟩ := hreplays
  unfold answerItem
  rw [if_neg (not_not.mpr hhash), hcompleted]
  dsimp only
  rw [hjson]
  dsimp only
  rw [hread]
  rfl

/-- An inference whose reservation was refused answers what the item replays that it finds. -/
theorem steps_replayed (hinfers : services.Infers event request)
    (hkey : request.idempotencyKey = some idempotencyKey)
    (hstore : services.orchestrator.hasIdempotencyStore = true)
    (hselected : result.decision.selectedModelAlias ≠ none)
    {clock now : Int} {pk sk : String} {put item : Item} {p : Prog Deployed HttpReply}
    (hhash : services.requestHash request = .ok item.requestHash)
    (hreplays : item.Replays store result)
    (hsteps : Steps (overTables store repository (services.dispatch event))
      [⟨.backend .clockSeconds, .ok clock⟩,
        ⟨.backend (.putItem put (some now)), .error conditionalCheckFailed⟩,
        ⟨.backend (.getItem pk sk), .ok (some item)⟩] p) :
    p = ret (respond 200 (serializeInferenceResult result event.requestIdText)) := by
  obtain ⟨rest, hdispatch, hrest⟩ := dispatch_reserves hinfers hkey hhash hstore hselected
  rw [hdispatch] at hsteps
  have hanswer := answerItem_of_replays rfl hreplays
  cases hsteps with
  | call hsteps =>
      cases hsteps with
      | call hsteps =>
          cases hsteps with
          | call hsteps =>
              have hend : ∀ {p q : Prog Deployed HttpReply}, Steps p [] q → q = p := by
                intro p q h
                cases h
                rfl
              rw [hend hsteps]
              simp only [Prog.ofExcept, Prog.bind, bind_ret, hanswer, Prog.attempt,
                interpret, hrest]

end

/-! ## Two inferences with one key -/

namespace Scenario

/-- One more operation of a thread. -/
def moved (c : Config Deployed DeployedState (Fin 3) HttpReply) (i : Fin 3) :
    Config Deployed DeployedState (Fin 3) HttpReply :=
  c.play (deployedAnswer caching) deployedLater [.call i]

/-- The reservation was refused, and a completed item of the event's request was found. -/
def findsCompleted (event : ProxyEvent) : List (Event Deployed) → Bool
  | [⟨.backend .clockSeconds, .ok _⟩, ⟨.backend (.putItem _ (some _)), .error x⟩,
      ⟨.backend (.getItem _ _), .ok (some item)⟩] =>
    x = conditionalCheckFailed && item.status = .completed &&
      (services.received event).any fun request =>
        services.requestHash request = .ok item.requestHash &&
          request.idempotencyKey = some "key"
  | _ => false

/-- The response names the model that answered. -/
def showsModel (response : HttpReply) : Bool :=
  match (response.body.entry "route").bind (·.entry "modelAlias") with
  | some (.string _) => true
  | _ => false

theorem selected_of_showsModel {result : InferenceResult} {requestId : String}
    (h : showsModel (respond 200 (serializeInferenceResult result requestId)) = true) :
    result.decision.selectedModelAlias ≠ none := by
  intro hnone
  simp [showsModel, respond, serializeInferenceResult, serializeRoute, Body.entry, Body.dictionary,
    Body.optionalText, hnone,
    Json.lookup] at h

theorem of_findsCompleted {event : ProxyEvent} {tr : List (Event Deployed)}
    (h : findsCompleted event tr = true) :
    ∃ clock put now pk sk item request, tr = [⟨.backend .clockSeconds, .ok clock⟩,
        ⟨.backend (.putItem put (some now)), .error conditionalCheckFailed⟩,
          ⟨.backend (.getItem pk sk), .ok (some item)⟩] ∧
      item.status = .completed ∧ services.received event = some request ∧
      services.requestHash request = .ok item.requestHash ∧
      request.idempotencyKey = some "key" := by
  unfold findsCompleted at h
  split at h
  · rename_i clock put now x pk sk item
    rw [Bool.and_eq_true, Bool.and_eq_true, decide_eq_true_eq, decide_eq_true_eq] at h
    obtain ⟨⟨rfl, hcompleted⟩, hrequest⟩ := h
    obtain ⟨request, hreceived, hrequest⟩ := (Option.any_eq_true _ _).mp hrequest
    rw [Bool.and_eq_true, decide_eq_true_eq, decide_eq_true_eq] at hrequest
    exact ⟨clock, put, now, pk, sk, item, request, rfl, hcompleted, hreceived, hrequest⟩
  · cases h

theorem moved_runs :
    ((moved afterInferences 1).threads 0).returned.any (fun posted =>
      posted.statusCode = 200 && posted.decisionId = some "dec_1" && showsModel posted) = true ∧
    findsCompleted (tenantEvents 1) (own 1 (moved afterInferences 1).log) = true ∧
    decisionIds (moved afterInferences 1).log = ["dec_1"] ∧
    (tenantEvents 0).route = some .inference ∧ (tenantEvents 1).route = some .inference := by
  decide +kernel

theorem reachable_moved :
    deployedMachine.Reachable (fun _ _ => True) tenants (moved afterInferences 1) :=
  Machine.Reachable.play (deployedMachine_act caching (by decide +kernel)) deployedMachine_tick
    reachable_afterInferences _
    (Config.playKeeps_true ..)

theorem drawn_moved {i : Fin 3} {event : Event Deployed} {name : String}
    (hids : decisionIds (moved afterInferences 1).log = ["dec_1"])
    (hevent : event ∈ own i (moved afterInferences 1).log) (hname : drawnId event = some name) :
    name = "dec_1" := by
  obtain ⟨entry, hentry, -, rfl⟩ := mem_own.mp hevent
  have hmem : name ∈ decisionIds (moved afterInferences 1).log :=
    List.mem_filterMap.mpr ⟨entry, hentry, hname⟩
  rw [hids] at hmem
  exact List.mem_singleton.mp hmem

/-- The first inference is computed, the second one replayed. -/
theorem replay_agrees : ∃ response response', (moved afterInferences 1).threads 0 = .ret response ∧
    (moved afterInferences 1).threads 1 = .ret response' ∧ ∃ result : InferenceResult,
      result.decision.decisionId = "dec_1" ∧
      response = respond 200 (serializeInferenceResult result (tenantEvents 0).requestIdText) ∧
      response' = respond 200 (serializeInferenceResult result (tenantEvents 1).requestIdText) := by
  obtain ⟨hposted, hfinds, hids, hroute, hroute'⟩ := moved_runs
  obtain ⟨posted, hposted, hshows⟩ := (Option.any_eq_true _ _).mp hposted
  rw [Bool.and_eq_true, Bool.and_eq_true, decide_eq_true_eq, decide_eq_true_eq] at hshows
  obtain ⟨⟨hstatus, hanswered⟩, hshows⟩ := hshows
  obtain ⟨clock, put, now, pk, sk, item, request, hown, hcompleted, hreceived, hhash, hkey⟩ :=
    of_findsCompleted hfinds
  have hnodup : (decisionIds (moved afterInferences 1).log).Nodup := by
    rw [hids]
    decide
  -- the item holds what the first inference has answered
  have hfound : PutIn keptResults (moved afterInferences 1).log item := by
    refine @putIn_of_found _ _ _ _ _ _ _ _ _ keptResults_readsBack savedDecisions_readsBack
      (fun _ => rfl) reachable_moved 1 pk sk item ?_
    rw [hown]
    exact List.mem_cons_of_mem _ (List.mem_cons_of_mem _ List.mem_cons_self)
  obtain ⟨held, hheld, hyear, k', ⟨event', hevent', hdrawn'⟩, hgiven⟩ :=
    source_of_item keptResults_readsBack savedDecisions_readsBack (fun _ => rfl) reachable_moved
      hfound hcompleted
  obtain ⟨result, hreply, k, ⟨event, hevent, hdrawn⟩, hsource⟩ :=
    source_of_answer keptResults_readsBack savedDecisions_readsBack (fun _ => rfl) reachable_moved
      hroute (eq_ret_of_returned hposted) hstatus
  have hid := drawn_moved hids hevent hdrawn
  rw [hid] at hdrawn
  rw [drawn_moved hids hevent' hdrawn'] at hdrawn'
  obtain rfl := thread_of_drawn hnodup hevent hevent' hdrawn hdrawn'
  have hresult : result = held := by
    rcases hsource with ⟨-, hnothing⟩ | hsource
    · cases hgiven.symm.trans hnothing
    · exact keptResults_readsBack.injective hyear (Option.some.inj (hsource.symm.trans hgiven))
  subst hresult
  -- so the second inference replays it
  have hreplays : item.Replays keptResults result :=
    ⟨hcompleted, _, hheld, keptResults_readsBack.reads result hyear⟩
  have hsteps := reachable_moved.steps rfl 1
  rw [hown, tenants, start_threads] at hsteps
  have hreplayed := steps_replayed ⟨hreceived, hroute'⟩ hkey rfl
    (selected_of_showsModel (hreply ▸ hshows)) hhash hreplays hsteps
  exact ⟨posted, _, eq_ret_of_returned hposted, hreplayed,
    answers_agree keptResults_readsBack savedDecisions_readsBack (fun _ => rfl) reachable_moved
      hnodup hroute (eq_ret_of_returned hposted) hstatus hanswered hroute' hreplayed rfl
      (congrArg some hid)⟩

end Scenario

end ModelRouter
