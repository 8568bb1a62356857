import ModelRouter.Composition.Custody
import ModelRouter.Handlers.Answers
import Mathlib.Logic.Equiv.List
import Mathlib.Tactic.DeriveEncodable

/-!
# The tenants of the deployed router

Any number of events, of any applications, are dispatched over the tables, in any interleaving.

* `tenants_isolated` : an event touches what belongs to its request, and nothing else;
* `decisions_private` : a decision is shown to the application that it was made for;
* `decision_found` : a decision that has been answered is found by whoever asks for it afterwards,
  until it expires.
-/

namespace ModelRouter
open Effects Prog HandlerServices InvocationOrchestrator DynamoDbIdempotencyStore
  DynamoDbRoutingDecisionRepository

variable {ι : Type} [DecidableEq ι]

/-- The events before their first operation, over empty tables. -/
def DeployedState.start (services : ι → HandlerServices) (events : ι → ProxyEvent)
    (store : DynamoDbIdempotencyStore) (repository : DynamoDbRoutingDecisionRepository)
    (now : Int) :
    Config Deployed DeployedState ι HttpReply where
  shared := { idempotency := { now } }
  threads i := overTables store repository ((services i).dispatch (events i))
  log := []

open DeployedState

section
variable {services : ι → HandlerServices} {events : ι → ProxyEvent}
  {store : DynamoDbIdempotencyStore} {repository : DynamoDbRoutingDecisionRepository} {now : Int}
  {c c' : Config Deployed DeployedState ι HttpReply}
  {G : DeployedState → List (Entry Deployed DeployedState ι) → Prop}

/-! ## All events -/

section
variable (hreads : store.ReadsBack) (hreads' : repository.ReadsBack)
  (hrepository : ∀ i, (services i).orchestrator.hasDecisionRepository = true)
  (hreach : deployedMachine.Reachable G (start services events store repository now) c)
include hreads hreads' hrepository hreach

theorem lawful_deployed :
    deployedMachine.Lawful (custody store repository) ({}, ()) G
      (start services events store repository now).shared c.shared c.log ∧
    ∀ i, Spec (custody store repository) (c.threads i)
      (fun out st => ∃ response, out = .ok response ∧
        ServedEvent (services i) (events i) response st)
      ((custody store repository).phase ({}, ()) i c.log) := by
  have hspec : ∀ i, Spec (custody store repository)
      ((start services events store repository now).threads i)
      (fun out st => ∃ response, out = .ok response ∧
        ServedEvent (services i) (events i) response st) ({}, ()) :=
    fun i => (spec_overTables hreads hreads' (hrepository i)).weaken
      (fun st operation howes => ⟨howes.1, howes.2.custody⟩) (fun _ _ _ => id) fun _ _ _ => rfl
  exact hreach.lawful rfl hspec fun s log i operation reply s' hlawful _ hact =>
    ⟨trivial, vowed_of_lawful rfl hlawful hact⟩

/-- **Every operation of an event is one that the event may set off.** -/
theorem touches_of_reachable (entry : Entry Deployed DeployedState ι) (hentry : entry ∈ c.log) :
    (services entry.thread).Touches store repository (events entry.thread) entry.event.call := by
  have hlawful := (lawful_deployed hreads hreads' hrepository hreach).1
  have hvowed : ∀ event ∈ own entry.thread c.log, DeployedVowed store event.call event.reply := by
    intro event hevent
    obtain ⟨entry', hentry', -, rfl⟩ := mem_own.mp hevent
    obtain ⟨later, past, hlog⟩ := List.append_of_mem hentry'
    rw [hlog] at hlawful
    obtain ⟨hpast, -, s', hact, -⟩ := hlawful.split
    exact vowed_of_lawful rfl hpast hact
  have htouching := (@spec_overTables _ (events entry.thread) _ _ hreads hreads'
    (hrepository entry.thread)).second fun _ _ _ => trivial
  have hpaid := (htouching.steps (hreach.steps rfl entry.thread) (Monitor.kept_of_forall fun _ =>
      hvowed)).1
  exact paid_stateless hpaid _ (mem_own.mpr ⟨entry, hentry, rfl, rfl⟩)

end

/-! ## Looking a decision up -/

/-- The event asks for a decision. -/
def ProxyEvent.AsksFor (event : ProxyEvent) (decisionId : String) : Prop :=
  event.route = some .getDecision ∧ parameter event.pathParameters "decisionId" = some decisionId

/-- The answer to who asks for a decision of which the audit record is found. -/
def ProxyEvent.shown (event : ProxyEvent) (auditRecord : AuditRecord) : HttpReply :=
  if parameter event.queryStringParameters "applicationId" ≠
    some auditRecord.decision.applicationId then
    respondError 403 event.requestIdText "POLICY_DENIED"
      "You are not authorized to view this decision."
  else respond 200 (serializeAuditRecord auditRecord event.requestIdText)

def ProxyEvent.lookedUp (event : ProxyEvent) : Except PyException (Option AuditRecord) → HttpReply
  | .ok (some auditRecord) => event.shown auditRecord
  | .ok none => respondError 404 event.requestIdText "NOT_FOUND" "No such routing decision."
  | .error _ =>
      respondError 500 event.requestIdText "INTERNAL_ERROR" "An unexpected error occurred."

theorem overTables_asks {services : HandlerServices} {event : ProxyEvent}
    {store : DynamoDbIdempotencyStore}
    {decisionId : String} (hasks : event.AsksFor decisionId) (hsome : decisionId ≠ "") :
    overTables store repository (services.dispatch event) =
      @Prog.call Deployed _ (.decisions (.getItem decisionId))
      fun reply => ret (event.lookedUp (repository.found reply)) := by
  obtain ⟨hroute, hparameter⟩ := hasks
  have hhandle : services.handleRoute event event.requestIdText =
      @Prog.call ApiPorts _ (.getDecision decisionId)
      fun reply => match reply with
        | .ok (some auditRecord) => ret (event.shown auditRecord)
        | .ok none =>
            ret (respondError 404 event.requestIdText "NOT_FOUND" "No such routing decision.")
        | .error x => raise x := by
    unfold handleRoute handleGetDecision
    rw [hroute, hparameter]
    dsimp only
    split
    · rename_i hnone
      cases hnone
    · rename_i hempty
      exact absurd (Option.some.inj hempty) hsome
    · rename_i found _ hfound
      cases hfound
      show @Prog.call ApiPorts _ (.getDecision decisionId) _ = _
      congr 1
      funext reply
      cases reply with
      | error x => rfl
      | ok existing =>
          cases existing with
          | none => rfl
          | some auditRecord =>
              show (if _ then _ else _) = ret (event.shown auditRecord)
              unfold ProxyEvent.shown
              split <;> rfl
  unfold dispatch overTables
  rw [hhandle]
  show (onDecisions (repository.get decisionId).attempt >>= _) = _
  rw [onDecisions_get]
  show @Prog.call Deployed _ (.decisions (.getItem decisionId)) _ = _
  congr 1
  funext reply
  show @Prog.interpret _ _ _ _ _ (_ >>= _) = _
  cases repository.found reply with
  | error x => rfl
  | ok existing => cases existing <;> rfl

theorem overTables_asksNothing {services : HandlerServices} {event : ProxyEvent}
    {store : DynamoDbIdempotencyStore} (hroute : event.route = some .getDecision)
    (hnothing : ∀ decisionId, event.AsksFor decisionId → decisionId = "") :
    overTables store repository (services.dispatch event) =
      ret (respondError 400 event.requestIdText "INVALID_REQUEST" "decisionId is required.") := by
  have hhandle : services.handleRoute event event.requestIdText =
      ret (respondError 400 event.requestIdText "INVALID_REQUEST" "decisionId is required.") := by
    unfold handleRoute handleGetDecision
    rw [hroute]
    dsimp only
    split
    · rfl
    · rfl
    · rename_i hfound
      exact absurd (hnothing _ ⟨hroute, hfound⟩) ‹_›
  unfold dispatch overTables
  rw [hhandle]
  rfl

theorem lookedUp_of_returned (hreach : deployedMachine.Reachable G
    (start services events store repository now) c) {i : ι} {decisionId : String}
    (hasks : (events i).AsksFor decisionId) (hsome : decisionId ≠ "") {response : HttpReply}
    (hreturned : c.threads i = .ret response) :
      ∃ reply, own i c.log = [⟨.decisions (.getItem decisionId), reply⟩] ∧
      response = (events i).lookedUp (repository.found reply) := by
  have hsteps := hreach.steps rfl i
  rw [hreturned] at hsteps
  have hrun : Run (overTables store repository ((services i).dispatch (events i)))
      (own i c.log) (.ok response) := hsteps
  rw [overTables_asks hasks hsome, run_call_iff] at hrun
  obtain ⟨reply, tr, hown, hanswer⟩ := hrun
  obtain ⟨rfl, hresponse⟩ := (run_ret_iff _ _ _).mp hanswer
  exact ⟨reply, hown, Except.ok.inj hresponse⟩

theorem found_eq_some {reply : Except PyException (Option DecisionItem)} {auditRecord : AuditRecord}
    (h : repository.found reply = .ok (some auditRecord)) :
    ∃ item, reply = .ok (some item) ∧ repository.readItem item = .ok auditRecord := by
  cases reply with
  | error x => cases h
  | ok version =>
      cases version with
      | none => cases h
      | some item =>
          refine ⟨item, rfl, ?_⟩
          cases hread : repository.readItem item with
          | error x =>
              rw [found, hread] at h
              cases h
          | ok auditRecord' =>
              rw [found, hread] at h
              cases h
              rfl

theorem lookedUp_status {event : ProxyEvent} {found : Except PyException (Option AuditRecord)}
    (h : (event.lookedUp found).statusCode = 200) : ∃ auditRecord, found = .ok (some auditRecord) ∧
      event.lookedUp found = respond 200 (serializeAuditRecord auditRecord event.requestIdText) ∧
      parameter event.queryStringParameters "applicationId" =
        some auditRecord.decision.applicationId := by
  cases found with
  | error x => cases h
  | ok existing =>
      cases existing with
      | none => cases h
      | some auditRecord =>
          refine ⟨auditRecord, rfl, ?_⟩
          unfold ProxyEvent.lookedUp ProxyEvent.shown at h ⊢
          dsimp only at h ⊢
          split at h
          · cases h
          · rename_i happlication
            rw [if_neg happlication]
            exact ⟨rfl, not_not.mp happlication⟩

/-- A version of an item was put by an event, for the application of its request. -/
theorem put_of_version (hreads' : repository.ReadsBack) {s : DeployedState}
    {log : List (Entry Deployed DeployedState ι)}
    (hlawful : deployedMachine.Lawful (custody store repository) ({}, ()) G
      (start services events store repository now).shared s log)
    (htouches : ∀ entry ∈ log,
      (services entry.thread).Touches store repository (events entry.thread) entry.event.call)
    {decisionId : String} {item : DecisionItem} (hversion : some item ∈ s.versions decisionId) :
    ∃ auditRecord : AuditRecord, repository.readItem item = .ok auditRecord ∧
      auditRecord.decision.decisionId = decisionId ∧
      auditRecord.decision.MadeFor item.applicationId ∧
      ∃ entry ∈ log, ∃ request, (services entry.thread).Infers (events entry.thread) request ∧
        item.applicationId = request.applicationId ∧
        entry.event = ⟨.decisions (.putItem item), .ok ()⟩ ∧
        item.record = repository.modelDumpJson auditRecord := by
  obtain ⟨rfl, entry, hentry, hput⟩ := found_decisions rfl hlawful hversion
  have hput' := htouches entry hentry
  rw [hput] at hput'
  obtain ⟨request, hinfers, happlication, auditRecord, hmade, hid, hrecord⟩ := hput'
  refine ⟨auditRecord, readItem_savedItem hreads' hrecord hmade.createdAt, hid.symm, ?_, entry,
    hentry, request, hinfers,
    happlication, hput, hrecord⟩
  rw [happlication]
  exact hmade

/-! ## What tenants see -/

/-- The operation is on the item with the key. -/
def DeployedCall.Reaches (key : String × String) : DeployedCall → Prop
  | .backend (.putItem item _) => item.key = key
  | .backend (.getItem pk sk) | .backend (.deleteItem pk sk) => (pk, sk) = key
  | _ => False

omit [DecidableEq ι] in
theorem infers_of_reaches {services : HandlerServices} {event : ProxyEvent}
    {operation : DeployedCall}
    {key : String × String} (htouches : services.Touches store repository event operation)
    (hreaches : operation.Reaches key) :
    ∃ request, services.Infers event request ∧ key.1 = request.applicationId ∧
      request.idempotencyKey = some key.2 := by
  cases operation with
  | decisions operation => exact hreaches.elim
  | backend operation =>
      cases operation with
      | putItem item condition =>
          obtain ⟨request, hinfers, hpk, hsk, -⟩ := htouches
          cases hreaches
          exact ⟨request, hinfers, hpk, hsk⟩
      | getItem pk sk =>
          cases hreaches
          exact htouches
      | deleteItem pk sk =>
          cases hreaches
          exact htouches
      | _ => exact hreaches.elim

variable (hreads : store.ReadsBack) (hreads' : repository.ReadsBack)
  (hrepository : ∀ i, (services i).orchestrator.hasDecisionRepository = true)
  (hreach : deployedMachine.Reachable G (start services events store repository now) c)
include hreads hreads' hrepository hreach

/-- **A decision is shown to the application that it was made for**: an inference of that
application put it. -/
theorem decisions_private {i : ι} (hroute : (events i).route = some .getDecision)
    {response : HttpReply}
    (hreturned : c.threads i = .ret response) (hstatus : response.statusCode = 200) :
    ∃ auditRecord, response =
      respond 200 (serializeAuditRecord auditRecord (events i).requestIdText) ∧
      parameter (events i).queryStringParameters "applicationId" =
        some auditRecord.decision.applicationId ∧
      ∃ entry ∈ c.log, ∃ request item,
        (services entry.thread).Infers (events entry.thread) request ∧
        request.applicationId = auditRecord.decision.applicationId ∧
        entry.event = ⟨.decisions (.putItem item), .ok ()⟩ ∧
        item.record = repository.modelDumpJson auditRecord := by
  by_cases hnothing : ∀ decisionId, (events i).AsksFor decisionId → decisionId = ""
  · have hthread := hreach.steps rfl i
    rw [hreturned] at hthread
    have hrun : Run (overTables store repository
        ((services i).dispatch (events i))) (own i c.log) (.ok response) := hthread
    rw [overTables_asksNothing hroute hnothing, run_ret_iff] at hrun
    cases hrun.2
    cases hstatus
  · obtain ⟨decisionId, hnothing⟩ := not_forall.mp hnothing
    obtain ⟨hasks, hsome⟩ := Classical.not_imp.mp hnothing
    obtain ⟨reply, hown, rfl⟩ := lookedUp_of_returned hreach hasks hsome hreturned
    obtain ⟨auditRecord, hfound, hshown, happlication⟩ := lookedUp_status hstatus
    obtain ⟨item, rfl, hread⟩ := found_eq_some hfound
    refine ⟨auditRecord, hshown, happlication, ?_⟩
    -- the item was put before it was looked up
    have hlooked : (⟨.decisions (.getItem decisionId), .ok (some item)⟩ :
        Event Deployed) ∈ own i c.log := by
      rw [hown]
      exact List.mem_singleton.mpr rfl
    obtain ⟨looked, hlooked, -, hevent⟩ := mem_own.mp hlooked
    obtain ⟨later, past, hlog⟩ := List.append_of_mem hlooked
    have hlawful := (lawful_deployed hreads hreads' hrepository hreach).1
    rw [hlog] at hlawful
    obtain ⟨hpast, -, s', hact, -⟩ := hlawful.split
    rw [hevent] at hact
    have hversion : some item ∈ looked.before.versions decisionId := by
      rcases hact.1 with ⟨version, hreply, hversion⟩ | ⟨x, hreply, -⟩
      · obtain rfl := Except.ok.inj hreply
        exact hversion.resolve_left (by simp)
      · cases hreply
    obtain ⟨auditRecord', hread', -, hmade, entry, hentry, request, hinfers, happlication', hput,
      hrecord⟩ :=
      put_of_version hreads' hpast (fun entry hentry =>
        touches_of_reachable hreads hreads' hrepository hreach entry (by
          rw [hlog]
          exact List.mem_append_right _ (List.mem_cons_of_mem _ hentry))) hversion
    rw [hread] at hread'
    cases hread'
    refine ⟨entry, ?_, request, item, hinfers, happlication'.symm.trans hmade.applicationId.symm,
      hput, hrecord⟩
    rw [hlog]
    exact List.mem_append_right _ (List.mem_cons_of_mem _ hentry)

/-- **An event touches what belongs to its request, and nothing else**: events that touch one item
of the idempotency table are inferences of one application, with one key. -/
theorem tenants_isolated :
    (∀ entry ∈ c.log, (services entry.thread).Touches store repository
      (events entry.thread) entry.event.call) ∧
    ∀ entry ∈ c.log, ∀ entry' ∈ c.log, ∀ key, entry.event.call.Reaches key →
      entry'.event.call.Reaches key →
      ∃ request request', (services entry.thread).Infers (events entry.thread) request ∧
        (services entry'.thread).Infers (events entry'.thread) request' ∧
        request.applicationId = request'.applicationId ∧
        request.idempotencyKey = request'.idempotencyKey := by
  have htouches := touches_of_reachable hreads hreads' hrepository hreach
  refine ⟨htouches, fun entry hentry entry' hentry' key hreaches hreaches' => ?_⟩
  obtain ⟨request, hinfers, hkey⟩ := infers_of_reaches (htouches entry hentry) hreaches
  obtain ⟨request', hinfers', hkey'⟩ := infers_of_reaches (htouches entry' hentry') hreaches'
  refine ⟨request, request', hinfers, hinfers', ?_, ?_⟩
  · exact hkey.1.symm.trans hkey'.1
  · exact hkey.2.trans hkey'.2.symm

/-- The decision that a response names. -/
def HttpReply.decisionId (response : HttpReply) : Option String :=
  match response.body.entry "decisionId" with
  | some (.string (.text decisionId)) => some decisionId
  | _ => none

/-- **A decision that has been answered is found by whoever asks for it afterwards**: it is shown to
the application that it was made for, and refused to the others. It is not found only where the
look-up does not see the last write, or the item has expired, and nothing is told where the table
fails. -/
theorem decision_found {j i : ι} {posted response : HttpReply} {decisionId : String}
    (hroute : (events j).route = some .inference) (hposted : c.threads j = .ret posted)
    (hstatus : posted.statusCode = 200)
    (hanswered : posted.decisionId = some decisionId) (hsome : decisionId ≠ "")
    (hlater : deployedMachine.Reachable G c c')
    (hids : (decisionIds c'.log).Nodup)
    (hunasked : own i c.log = []) (hasks : (events i).AsksFor decisionId)
    (hreturned : c'.threads i = .ret response) :
    ∃ request result, (services j).received (events j) = some request ∧
      posted = respond 200 (serializeInferenceResult result (events j).requestIdText) ∧
      result.decision.MadeFor request.applicationId ∧ ∃ entry ∈ c'.log, entry.thread = i ∧
        (response = (events i).shown result.auditRecord ∨
         response = (events i).lookedUp (.ok none) ∧
         (∃ item, repository.readItem item = .ok result.auditRecord ∧
           (entry.before.current decisionId = some item ∨ item.expiresAt < entry.before.seconds)) ∨
         ∃ x, response = (events i).lookedUp (.error x) ∧
           entry.event = ⟨.decisions (.getItem decisionId), .error x⟩) := by
  have hnames : ((deployedAuditing store repository).names c'.log).Nodup := by
    rw [names_eq_decisionIds]
    exact hids
  obtain ⟨hlawful, hthreads⟩ := lawful_deployed hreads hreads' hrepository hreach
  have hserved := hthreads j
  rw [hposted, Monitor.phase_both] at hserved
  obtain ⟨posted', hsame, hserved⟩ := hserved
  cases hsame
  obtain ⟨request, result, hreceived, hreply, hvouched, hmade⟩ := hserved hroute hstatus
  obtain rfl : result.decision.decisionId = decisionId := by
    rw [hreply] at hanswered
    exact Option.some.inj hanswered
  refine ⟨request, result, hreceived, hreply, hmade, ?_⟩
  obtain ⟨reply, hown, rfl⟩ := lookedUp_of_returned (hreach.trans hlater) hasks hsome hreturned
  -- the look-up comes after the answer
  obtain ⟨after, hafter⟩ := hlater.log_suffix
  rw [hafter] at hown
  obtain ⟨later, looked, between, hsplit, hthread, hevent⟩ := later_of_own hown hunasked
  have hlog : c'.log = later ++ looked :: (between ++ c.log) := hafter.trans hsplit
  refine ⟨looked, by rw [hlog]; exact List.mem_append_right _ List.mem_cons_self, hthread, ?_⟩
  have hlawful' := (lawful_deployed hreads hreads' hrepository (hreach.trans hlater)).1
  rw [hlog] at hlawful' hnames
  obtain ⟨hpast, -, s', hact, -⟩ := hlawful'.split
  rw [hevent] at hact
  have hnames' : ((deployedAuditing store repository).names (between ++ c.log)).Nodup :=
    Registry.nodup_names_of_append (later ++ [looked])
      (by rw [List.append_assoc]; exact hnames)
  have honFile : (deployedAuditing store repository).contents (between ++ c.log)
      result.decision.decisionId = some result.auditRecord :=
    Registry.onFile_later hlawful.first hpast.first hnames' (faithful_deployed rfl hpast) hvouched
  have hholds := holds_contents hreads' rfl rfl hpast hnames' result.decision.decisionId
  rw [honFile] at hholds
  obtain ⟨item, hitem⟩ := hholds
  obtain ⟨⟨version, rfl, hversion⟩ | ⟨x, rfl, -⟩, -⟩ := hact
  · rcases hversion.imp_right (hitem.versions version) with rfl | rfl | rfl
    · exact Or.inr (Or.inl ⟨rfl, item, hitem.read, hitem.current⟩)
    · exact Or.inr (Or.inl ⟨rfl, item, hitem.read, hitem.current⟩)
    · left
      rw [found, hitem.read]
      rfl
  · exact Or.inr (Or.inr ⟨x, rfl, hevent⟩)

end

/-! ## Three events -/

namespace Scenario

/-! ### Texts that are read back -/

instance encodableChar : Encodable Char :=
  Encodable.ofLeftInverse Char.toNat Char.ofNat Char.ofNat_toNat

instance encodableString : Encodable String :=
  Encodable.ofLeftInverse String.toList String.ofList fun _ => String.ofList_toList

deriving instance Encodable for Usage, ProviderName, RoutingReasonCode, Arith.Decimal,
  EstimatedCost, RouteCandidate, RoutingDecision, InvocationAttemptStatus, InvocationAttempt,
  AuditRecord

deriving instance Encodable for Role, Message, StopReason, ProviderResponse, InferenceResult

section
variable {α : Type} [Encodable α] (known : α) (json : String)

/-- The text of one value is its JSON, that of another one is its number in unary. -/
def writeText [DecidableEq α] (a : α) : String :=
  if a = known then json else String.ofList (List.replicate (Encodable.encode a) 'x')

def readText (text : String) : Except PyException α :=
  if text = json then .ok known
  else match Encodable.decode text.length with
    | some a => .ok a
    | none => .error (.other "ValidationError")

variable {known json} [DecidableEq α]

theorem readText_writeText (hjson : json.toList.head? = some '\x7b') (a : α) :
    readText known json (writeText known json a) = .ok a := by
  unfold writeText
  split
  · rename_i hknown
    rw [hknown]
    exact if_pos rfl
  · have hother : String.ofList (List.replicate (Encodable.encode a) 'x') ≠ json := by
      rintro rfl
      rw [String.toList_ofList] at hjson
      cases hnumber : Encodable.encode a with
      | zero => simp [hnumber] at hjson
      | succ number => simp [hnumber, List.replicate_succ] at hjson
    rw [readText, if_neg hother, String.length_ofList, List.length_replicate, Encodable.encodek]

theorem readsBack_texts (hjson : json.toList.head? = some '\x7b') (createdAt : α → Nat) :
    ReadsBack (writeText known json) (readText known json) createdAt where
  same a a' h := by
    rw [readText_writeText hjson] at h
    exact (Except.ok.inj h).symm
  reads a _ := readText_writeText hjson a

end

/-! ### The decision of the first event -/

def cheaply : List RoutingReasonCode :=
  [.capabilityMatch, .modelAllowed, .withinCostLimit, .qualityTierMatch]

def servedCandidate (modelAlias : String) (coefficient : Nat) : RouteCandidate where
  modelAlias := modelAlias
  provider := .bedrock
  eligible := true
  reasonCodes := cheaply
  estimatedUsage := { inputTokens := 2, outputTokens := 500 }
  estimatedCost := { amountUsd := { negative := false, coefficient := coefficient, exponent := -6 } }

/-- The preferred model was throttled. -/
def servedResult : InferenceResult where
  decision := { decisionId := "dec_1", applicationId := "app", createdAt := 0, policyId := "pol"
                policyVersion := 1, capability := "chat", selectedModelAlias := some "fallback"
                provider := some .bedrock, fallbackUsed := true
                reasonCodes := cheaply ++ [.modelThrottled, .fallbackSelected]
                consideredCandidates := [servedCandidate "primary" 1506,
                  servedCandidate "fallback" 502]
                estimatedUsage := some (servedCandidate "fallback" 502).estimatedUsage
                estimatedCost := some (servedCandidate "fallback" 502).estimatedCost }
  response := some { modelAlias := "fallback", provider := .bedrock, stopReason := .endTurn
                     message := { role := .assistant, content := "hi" }
                     usage := { inputTokens := 2, outputTokens := 1 } }
  invocationAttempts := [{ modelAlias := "primary", status := .throttled, latencyMs := 0 },
    { modelAlias := "fallback", status := .succeeded, latencyMs := 0 }]

def estimateJson (amountUsd : String) : String :=
  "\"estimated_usage\":\x7b\"input_tokens\":2,\"output_tokens\":500\x7d,\"estimated_cost\":\x7b\"amount_usd\":\"" ++
  amountUsd ++ "\",\"is_estimate\":true\x7d\x7d"

def candidateJson (modelAlias amountUsd : String) : String :=
  "\x7b\"model_alias\":\"" ++ modelAlias ++
    "\",\"provider\":\"bedrock\",\"eligible\":true,\"reason_codes\":" ++
  "[\"CAPABILITY_MATCH\",\"MODEL_ALLOWED\",\"WITHIN_COST_LIMIT\",\"QUALITY_TIER_MATCH\"]," ++
    estimateJson amountUsd

def decisionJson : String :=
  "\"decision\":\x7b\"decision_id\":\"dec_1\",\"application_id\":\"app\",\"created_at\":\"1970-01-01T00:00:00Z\"," ++
  "\"policy_id\":\"pol\",\"policy_version\":1,\"capability\":\"chat\",\"selected_model_alias\":\"fallback\"," ++
  "\"provider\":\"bedrock\",\"fallback_used\":true,\"reason_codes\":[\"CAPABILITY_MATCH\",\"MODEL_ALLOWED\"," ++
  "\"WITHIN_COST_LIMIT\",\"QUALITY_TIER_MATCH\",\"MODEL_THROTTLED\",\"FALLBACK_SELECTED\"]," ++
  "\"considered_candidates\":[" ++ candidateJson "primary" "0.001506" ++ "," ++
  candidateJson "fallback" "0.000502" ++ "]," ++ estimateJson "0.000502"

def responseJson : String :=
  "\"response\":\x7b\"model_alias\":\"fallback\",\"provider\":\"bedrock\",\"message\":\x7b\"role\":\"assistant\"," ++
  "\"content\":\"hi\"\x7d,\"stop_reason\":\"end_turn\",\"usage\":\x7b\"input_tokens\":2,\"output_tokens\":1\x7d\x7d"

def attemptsJson : String :=
  "\"invocation_attempts\":[\x7b\"model_alias\":\"primary\",\"status\":\"throttled\",\"latency_ms\":0\x7d," ++
  "\x7b\"model_alias\":\"fallback\",\"status\":\"succeeded\",\"latency_ms\":0\x7d]"

def resultJson : String :=
  "\x7b" ++ decisionJson ++ "," ++ responseJson ++ "," ++ attemptsJson ++ "\x7d"

def recordJson : String := "\x7b" ++ decisionJson ++ "," ++ attemptsJson ++ "\x7d"

def keptResults : DynamoDbIdempotencyStore where
  modelDumpJson := writeText servedResult resultJson
  modelValidateJson := readText servedResult resultJson

def savedDecisions : DynamoDbRoutingDecisionRepository where
  modelDumpJson := writeText servedResult.auditRecord recordJson
  modelValidateJson := readText servedResult.auditRecord recordJson

theorem keptResults_readsBack : keptResults.ReadsBack := by
  refine readsBack_texts ?_ _
  simp only [resultJson, String.toList_append]
  rfl

theorem savedDecisions_readsBack : savedDecisions.ReadsBack := by
  refine readsBack_texts ?_ _
  simp only [recordJson, String.toList_append]
  rfl

/-! ### The run -/

/-- A look-up sees the last write. -/
def deployedAnswer (world : World) : Handler Deployed DeployedState
  | .backend (.getItem pk sk), s => (.ok (s.idempotency.table (pk, sk)), s)
  | .backend operation, s =>
    let (reply, idempotency) := tableAnswer world operation s.idempotency
    (reply, { s with idempotency, earlier := s.seen })
  | .decisions .clockSeconds, s => (.ok s.idempotency.now, s)
  | .decisions (.putItem item), s => (.ok (), s.write item.decisionId (some item))
  | .decisions (.getItem decisionId), s => (.ok (s.current decisionId), s)

def deployedLater (duration : Nat) (s : DeployedState) : DeployedState :=
  { s with idempotency := laterBy duration s.idempotency, earlier := s.seen }

theorem current_mem (s : DeployedState) (decisionId : String) :
    s.current decisionId = none ∨ s.current decisionId ∈ s.versions decisionId := by
  unfold DeployedState.current
  cases s.versions decisionId with
  | nil => exact Or.inl rfl
  | cons version versions => exact Or.inr List.mem_cons_self

theorem deployedMachine_act (world : World) (hnow : Calendar.FourDigits world.now)
    (operation : DeployedCall) (s : DeployedState) :
    deployedMachine.act s operation (deployedAnswer world operation s).1
      (deployedAnswer world operation s).2 := by
  cases operation with
  | backend operation =>
      cases operation with
      | getItem pk sk => exact ⟨Or.inl ⟨_, List.mem_cons_self, rfl⟩, rfl⟩
      | ofPort port =>
          refine ⟨rfl, rfl, rfl, ?_⟩
          cases port with
          | now => exact hnow
          | _ => trivial
      | clockSeconds =>
          exact ⟨tableMachine_act world .clockSeconds s.idempotency, rfl, rfl, trivial⟩
      | putItem item condition =>
          exact ⟨tableMachine_act world (.putItem item condition) s.idempotency, rfl, rfl, trivial⟩
      | deleteItem pk sk =>
          exact ⟨tableMachine_act world (.deleteItem pk sk) s.idempotency, rfl, rfl, trivial⟩
  | decisions operation =>
      cases operation with
      | clockSeconds => exact ⟨rfl, rfl⟩
      | putItem item => exact Or.inl ⟨rfl, rfl⟩
      | getItem decisionId => exact ⟨Or.inl ⟨_, rfl, current_mem s decisionId⟩, rfl⟩

theorem deployedMachine_tick (duration : Nat) (s : DeployedState) :
    deployedMachine.tick s (deployedLater duration s) := by
  refine ⟨?_, rfl, fun _ => Or.inl rfl, fun _ => Or.inl rfl⟩
  show s.idempotency.now ≤ s.idempotency.now + duration
  omega

def keyedBody : String :=
  "\x7b\"applicationId\": \"app\", \"idempotencyKey\": \"key\", \"messages\": [\x7b\"role\": \"user\", " ++
  "\"content\": \"hello\"\x7d], \"requirements\": \x7b\"capability\": \"chat\"\x7d\x7d"

def askDecision : ProxyEvent where
  httpMethod := "GET"
  resource := "/v1/decisions/\x7bdecisionId\x7d"
  pathParameters := some [("decisionId", "dec_1")]
  queryStringParameters := some [("applicationId", "app")]
  requestId := some "req"

/-- Two inferences with one key, and who asks for their decision. -/
def tenantEvents : Fin 3 → ProxyEvent
  | 0 | 1 => { postInference with body := some keyedBody }
  | 2 => askDecision

def tenants : Config Deployed DeployedState (Fin 3) HttpReply :=
  DeployedState.start (fun _ => services) tenantEvents keptResults savedDecisions 0

section
local instance neZero_three : NeZero 3 := ⟨by decide⟩

/-- The first inference has been answered, and the second one was refused the reservation. -/
def afterInferences : Config Deployed DeployedState (Fin 3) HttpReply :=
  tenants.play (deployedAnswer caching) deployedLater (alone 0 23 ++ alone 1 2)

/-- The third event looks the decision up. -/
def lookUp (c : Config Deployed DeployedState (Fin 3) HttpReply) :
    Config Deployed DeployedState (Fin 3) HttpReply :=
  c.play (deployedAnswer caching) deployedLater [.call 2]

end

theorem afterInferences_waits : afterInferences.threads 2 = tenants.threads 2 := by
  have hplay : afterInferences =
      tenants.play (deployedAnswer caching) deployedLater (alone 0 23 ++ alone 1 2) := rfl
  rw [hplay]
  refine Config.play_threads_of_ne fun move hmove => ?_
  rcases List.mem_append.mp hmove with hmove | hmove
  · rw [List.eq_of_mem_replicate hmove]
    exact fun h => absurd (Move.call.inj h) (by decide)
  · rw [List.eq_of_mem_replicate hmove]
    exact fun h => absurd (Move.call.inj h) (by decide)

theorem reachable_afterInferences :
    deployedMachine.Reachable (fun _ _ => True) tenants afterInferences :=
  Machine.Reachable.play (deployedMachine_act caching (by decide +kernel))
    deployedMachine_tick .refl _
    (Config.playKeeps_true ..)

section
variable {c : Config Deployed DeployedState (Fin 3) HttpReply}

theorem reachable_lookUp : deployedMachine.Reachable (fun _ _ => True) c (lookUp c) :=
  Machine.Reachable.play (deployedMachine_act caching (by decide +kernel))
    deployedMachine_tick .refl _
    (Config.playKeeps_true ..)

theorem asksFor_dec_1 : (tenantEvents 2).AsksFor "dec_1" := ⟨by decide +kernel, by decide +kernel⟩

theorem tenants_waits : tenants.threads 2 = @Prog.call Deployed _ (.decisions (.getItem "dec_1"))
    fun reply => ret ((tenantEvents 2).lookedUp (savedDecisions.found reply)) :=
  overTables_asks asksFor_dec_1 (by decide)

theorem lookUp_shows (hreach : deployedMachine.Reachable (fun _ _ => True) tenants c)
    (hwaits : c.threads 2 = tenants.threads 2)
    (hcurrent : (c.shared.current "dec_1").map (·.applicationId) = some "app") :
    ∃ auditRecord : AuditRecord,
      (lookUp c).threads 2 = .ret (respond 200 (serializeAuditRecord auditRecord "req")) := by
  obtain ⟨item, hitem, happlication⟩ := Option.map_eq_some_iff.mp hcurrent
  have hversion : some item ∈ c.shared.versions "dec_1" := by
    rcases current_mem c.shared "dec_1" with hnone | hmem
    · rw [hnone] at hitem
      cases hitem
    · rw [hitem] at hmem
      exact hmem
  obtain ⟨auditRecord, hread, -, hmade, -⟩ := put_of_version savedDecisions_readsBack
    (lawful_deployed keptResults_readsBack savedDecisions_readsBack (fun _ => rfl) hreach).1
    (touches_of_reachable keptResults_readsBack savedDecisions_readsBack (fun _ => rfl) hreach)
      hversion
  have happ : auditRecord.decision.applicationId = "app" := hmade.applicationId.trans happlication
  refine ⟨auditRecord, ?_⟩
  rw [lookUp, Config.play, Config.play, Config.move_call (hwaits.trans tenants_waits)]
  show ret ((tenantEvents 2).lookedUp (savedDecisions.found (.ok (c.shared.current "dec_1")))) = _
  rw [hitem, found, hread]
  show ret ((tenantEvents 2).shown auditRecord) = _
  rw [ProxyEvent.shown, if_neg]
  · rfl
  · rw [happ]
    decide

end

/-- The items that have been reached, with the threads. -/
def reached (log : List (Entry Deployed DeployedState (Fin 3))) :
    List (Fin 3 × (String × String)) :=
  log.filterMap fun entry => match entry.event.call with
    | .backend (.putItem item _) => some (entry.thread, item.key)
    | _ => none

theorem mem_reached {log : List (Entry Deployed DeployedState (Fin 3))} {i : Fin 3}
    {key : String × String} (h : (i, key) ∈ reached log) : ∃ entry ∈ log, entry.thread = i ∧
      entry.event.call.Reaches key := by
  obtain ⟨entry, hentry, hreached⟩ := List.mem_filterMap.mp h
  split at hreached
  · rename_i item condition hput
    cases hreached
    refine ⟨entry, hentry, rfl, ?_⟩
    rw [hput]
    rfl
  · cases hreached

theorem afterInferences_runs :
    ((0, ("app", "key")) ∈ reached afterInferences.log ∧
      (1, ("app", "key")) ∈ reached afterInferences.log) ∧
    (afterInferences.shared.current "dec_1").map (·.applicationId) = some "app" ∧
    (afterInferences.threads 0).returned.map (fun posted =>
      (posted.statusCode, posted.decisionId)) =
      some (200, some "dec_1") ∧
    decisionIds (lookUp afterInferences).log = ["dec_1"] ∧ own 2 afterInferences.log = [] := by
  decide +kernel

/-- Two inferences with one key reach one item. -/
theorem key_shared : ∃ request request', services.Infers (tenantEvents 0) request ∧
    services.Infers (tenantEvents 1) request' ∧ request.applicationId = request'.applicationId ∧
    request.idempotencyKey = request'.idempotencyKey := by
  obtain ⟨-, hshared⟩ := tenants_isolated keptResults_readsBack savedDecisions_readsBack
    (fun _ => rfl)
    reachable_afterInferences
  obtain ⟨entry, hentry, hthread, hreaches⟩ := mem_reached afterInferences_runs.1.1
  obtain ⟨entry', hentry', hthread', hreaches'⟩ := mem_reached afterInferences_runs.1.2
  have h := hshared entry hentry entry' hentry' ("app", "key") hreaches hreaches'
  rw [hthread, hthread'] at h
  exact h

theorem decision_shown : ∃ response, (lookUp afterInferences).threads 2 = .ret response ∧
    response.statusCode = 200 ∧
    ∃ auditRecord : AuditRecord, response = respond 200 (serializeAuditRecord auditRecord "req") ∧
      parameter (tenantEvents 2).queryStringParameters "applicationId" =
        some auditRecord.decision.applicationId ∧
      ∃ entry ∈ (lookUp afterInferences).log, ∃ request item,
        services.Infers (tenantEvents entry.thread) request ∧
        request.applicationId = auditRecord.decision.applicationId ∧
        entry.event = ⟨.decisions (.putItem item), .ok ()⟩ ∧
        item.record = savedDecisions.modelDumpJson auditRecord := by
  obtain ⟨-, hcurrent, -⟩ := afterInferences_runs
  obtain ⟨auditRecord, hshown⟩ :=
    lookUp_shows reachable_afterInferences afterInferences_waits hcurrent
  exact ⟨_, hshown, rfl, decisions_private keptResults_readsBack savedDecisions_readsBack
    (fun _ => rfl)
    (reachable_afterInferences.trans reachable_lookUp) (by decide +kernel) hshown rfl⟩

/-- The first inference is answered, and its decision is found afterwards. -/
theorem decision_looked_up : ∃ posted response, afterInferences.threads 0 = .ret posted ∧
    (lookUp afterInferences).threads 2 = .ret response ∧ response.statusCode = 200 ∧
    ∃ request result,
      services.received (tenantEvents 0) = some request ∧
      posted = respond 200 (serializeInferenceResult result (tenantEvents 0).requestIdText) ∧
      result.decision.MadeFor request.applicationId ∧
      ∃ entry ∈ (lookUp afterInferences).log, entry.thread = 2 ∧
        (response = (tenantEvents 2).shown result.auditRecord ∨
         response = (tenantEvents 2).lookedUp (.ok none) ∧
         (∃ item, savedDecisions.readItem item = .ok result.auditRecord ∧
           (entry.before.current "dec_1" = some item ∨ item.expiresAt < entry.before.seconds)) ∨
         ∃ x, response = (tenantEvents 2).lookedUp (.error x) ∧
           entry.event = ⟨.decisions (.getItem "dec_1"), .error x⟩) := by
  obtain ⟨-, hcurrent, hposted, hids, hunasked⟩ := afterInferences_runs
  obtain ⟨auditRecord, hshown⟩ :=
    lookUp_shows reachable_afterInferences afterInferences_waits hcurrent
  obtain ⟨posted, hreturned, hposted⟩ := Option.map_eq_some_iff.mp hposted
  obtain ⟨hstatus, hanswered⟩ := Prod.mk.inj hposted
  exact ⟨posted, _, eq_ret_of_returned hreturned, hshown, rfl, decision_found keptResults_readsBack
    savedDecisions_readsBack (fun _ => rfl) reachable_afterInferences (by decide +kernel)
      (eq_ret_of_returned hreturned) hstatus hanswered (by decide)
    reachable_lookUp (by rw [hids]; decide) hunasked asksFor_dec_1 hshown⟩

end Scenario

end ModelRouter
