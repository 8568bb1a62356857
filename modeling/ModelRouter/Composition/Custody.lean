import ModelRouter.Composition.DeployedRouter

/-!
# What the tables hold

Events run over the two tables, in any interleaving.

* `found_idempotency` : an item of the idempotency table holds a result that is made for its
  application, and a result was put when it was completed;
* `found_decisions` : an item of the decisions' table was put by an event;
* `holds_contents` : a record that is on file stands in the decisions' table until it expires.
-/

namespace ModelRouter
open Effects Prog HandlerServices InvocationOrchestrator DynamoDbIdempotencyStore
  DynamoDbRoutingDecisionRepository

variable {ι : Type} [DecidableEq ι]

/-! ## The operations of all events -/

/-- What every event keeps to. -/
def CustodyCall (store : DynamoDbIdempotencyStore)
    (repository : DynamoDbRoutingDecisionRepository) :
    DeployedCall → Prop
  | .backend (.ofPort port) => ∀ auditRecord, port ≠ .save auditRecord
  | .backend (.putItem item condition) =>
    (condition ≠ none → item.status = .inProgress) ∧ HoldsResult store item
  | .decisions (.putItem item) => ∃ auditRecord, auditRecord.decision.MadeFor item.applicationId ∧
    item.decisionId = auditRecord.decision.decisionId ∧
    item.record = repository.modelDumpJson auditRecord
  | _ => True

theorem HandlerServices.Touches.custody {services : HandlerServices}
    {store : DynamoDbIdempotencyStore}
    {repository : DynamoDbRoutingDecisionRepository} {event : ProxyEvent} {operation : DeployedCall}
    (h : services.Touches store repository event operation) :
      CustodyCall store repository operation := by
  cases operation with
  | backend operation =>
      cases operation with
      | ofPort port => exact h.2.2
      | putItem item condition =>
          obtain ⟨request, -, -, -, -, hreserved, hholds⟩ := h
          exact ⟨hreserved, hholds⟩
      | _ => trivial
  | decisions operation =>
      cases operation with
      | putItem item =>
          obtain ⟨request, -, happlication, hrecord⟩ := h
          rw [CustodyCall, happlication]
          exact hrecord
      | _ => trivial

abbrev custody (store : DynamoDbIdempotencyStore) (repository : DynamoDbRoutingDecisionRepository) :
    Monitor Deployed (AuditPhase × Unit) :=
  (deployedAuditing store repository).monitor.both
    (.stateless (CustodyCall store repository) (DeployedVowed store))

section
variable {store : DynamoDbIdempotencyStore} {repository : DynamoDbRoutingDecisionRepository}
  {s s₀ s' : DeployedState} {log : List (Entry Deployed DeployedState ι)}
  {G : DeployedState → List (Entry Deployed DeployedState ι) → Prop}

/-! ## The idempotency table -/

omit [DecidableEq ι] in
theorem found_of_act {t t' : TableState} {operation : BackendCall}
    {reply : Except PyException operation.Answer}
    (hact : tableMachine.act t operation reply t') {key : String × String} {item : Item}
    (hitem : t'.table key = some item) : t.table key = some item ∨
      item.key = key ∧ ∃ condition,
      (⟨operation, reply⟩ : Event Backend) = ⟨.putItem item condition, .ok ()⟩ := by
  cases operation with
  | ofPort port =>
      cases (show t' = t from hact)
      exact Or.inl hitem
  | clockSeconds =>
      obtain ⟨-, rfl⟩ := hact
      exact Or.inl hitem
  | getItem pk sk =>
      obtain ⟨-, rfl⟩ := hact
      exact Or.inl hitem
  | deleteItem pk sk =>
      rcases hact with ⟨-, rfl⟩ | ⟨-, rfl⟩
      · by_cases hkey : key = (pk, sk)
        · subst hkey
          rw [TableState.set_table_self] at hitem
          cases hitem
        · rw [TableState.set_table_of_ne hkey] at hitem
          exact Or.inl hitem
      · exact Or.inl hitem
  | putItem put condition =>
      rcases hact with hput | ⟨-, rfl⟩
      · unfold TableState.putItem at hput
        split at hput
        · obtain ⟨rfl, rfl⟩ := Prod.mk.inj hput
          by_cases hkey : key = put.key
          · subst hkey
            rw [TableState.set_table_self] at hitem
            obtain rfl := Option.some.inj hitem
            exact Or.inr ⟨rfl, condition, rfl⟩
          · rw [TableState.set_table_of_ne hkey] at hitem
            exact Or.inl hitem
        · obtain ⟨-, rfl⟩ := Prod.mk.inj hput
          exact Or.inl hitem
      · exact Or.inl hitem

omit [DecidableEq ι] in
theorem seen_of_act {operation : DeployedCall} {reply : Except PyException operation.Answer}
    (hact : deployedMachine.act s operation reply s') {key : String × String} {item : Item}
    (hitem : some item ∈ s'.seen key) : some item ∈ s.seen key ∨ item.key = key ∧ ∃ condition,
      (⟨operation, reply⟩ : Event Deployed) = ⟨.backend (.putItem item condition), .ok ()⟩ := by
  cases operation with
  | decisions operation =>
      left
      cases operation with
      | clockSeconds => exact hact.2 ▸ hitem
      | putItem put =>
          rcases hact with ⟨-, rfl⟩ | ⟨-, rfl⟩
          · exact hitem
          · exact hitem
      | getItem decisionId => exact hact.2 ▸ hitem
  | backend operation =>
      have hchanged : tableMachine.act s.idempotency operation reply s'.idempotency →
          s'.earlier = s.seen →
          some item ∈ s.seen key ∨ item.key = key ∧
          ∃ condition, (⟨.backend operation, reply⟩ : Event Deployed) =
            ⟨.backend (.putItem item condition), .ok ()⟩ := by
        intro hact hearlier
        rw [DeployedState.seen, List.mem_cons, hearlier] at hitem
        rcases hitem with hstands | hbefore
        · rcases found_of_act hact hstands.symm with hbefore | ⟨hkey, condition, hput⟩
          · exact Or.inl (List.mem_cons.mpr (Or.inl hbefore.symm))
          · obtain ⟨rfl, hreply⟩ := Event.mk.inj hput
            cases hreply
            exact Or.inr ⟨hkey, condition, rfl⟩
        · exact Or.inl hbefore
      cases operation with
      | getItem pk sk => exact Or.inl (hact.2 ▸ hitem)
      | _ => exact hchanged hact.1 hact.2.1

/-- What is known of an item that a look-up may answer. -/
structure FoundItem (store : DynamoDbIdempotencyStore) (log : List (Entry Deployed DeployedState ι))
    (key : String × String) (item : Item) : Prop where
  key : item.key = key
  holds : HoldsResult store item
  put : item.status = .completed →
    ∃ entry ∈ log, entry.event = ⟨.backend (.putItem item none), .ok ()⟩

omit [DecidableEq ι] in
theorem FoundItem.cons {key : String × String} {item : Item} (h : FoundItem store log key item)
    (entry : Entry Deployed DeployedState ι) : FoundItem store (entry :: log) key item where
  key := h.key
  holds := h.holds
  put hcompleted := (h.put hcompleted).imp fun _ h => ⟨List.mem_cons_of_mem _ h.1, h.2⟩

theorem found_idempotency (hempty : s₀.seen = fun _ => [none])
    (h : deployedMachine.Lawful (custody store repository) ({}, ()) G s₀ s log)
    {key : String × String} {item : Item} (hitem : some item ∈ s.seen key) :
      FoundItem store log key item := by
  induction h with
  | init => simp [hempty] at hitem
  | tick _ htick _ ih =>
      rw [DeployedState.seen, List.mem_cons, htick.2.1] at hitem
      rcases hitem with hstands | hbefore
      · rcases htick.2.2.1 key with hsame | ⟨hnone, -⟩
        · exact ih (List.mem_cons.mpr (Or.inl (hstands.trans hsame)))
        · rw [hnone] at hstands
          cases hstands
      · exact ih hbefore
  | @call s s' log i operation reply _ howes hact _ ih =>
      rcases seen_of_act hact hitem with hbefore | ⟨rfl, condition, hput⟩
      · exact (ih hbefore).cons _
      · obtain ⟨rfl, hreply⟩ := Event.mk.inj hput
        cases hreply
        obtain ⟨hreserved, hholds⟩ := howes.2
        refine ⟨rfl, hholds, fun hcompleted => ⟨_, List.mem_cons_self, ?_⟩⟩
        cases condition with
        | none => rfl
        | some now =>
            rw [hreserved (by simp)] at hcompleted
            cases hcompleted

/-- What is looked up in the idempotency table is as vowed. -/
theorem vowed_of_lawful (hempty : s₀.seen = fun _ => [none])
    (h : deployedMachine.Lawful (custody store repository) ({}, ()) G s₀ s log)
    {operation : DeployedCall} {reply : Except PyException operation.Answer}
    (hact : deployedMachine.act s operation reply s') : DeployedVowed store operation reply := by
  cases operation with
  | decisions operation => trivial
  | backend operation =>
      cases operation with
      | ofPort port => exact hact.2.2.2
      | getItem pk sk =>
          rcases hact.1 with ⟨version, hversion, rfl⟩ | ⟨x, rfl, -⟩
          · cases version with
            | none => trivial
            | some item =>
                have hfound := found_idempotency hempty h hversion
                exact ⟨congrArg Prod.fst hfound.key, hfound.holds⟩
          · trivial
      | _ => trivial

theorem faithful_deployed (hempty : s₀.seen = fun _ => [none])
    (h : deployedMachine.Lawful (custody store repository) ({}, ()) G s₀ s log) :
    (deployedAuditing store repository).Faithful log := by
  induction h with
  | init => trivial
  | tick _ _ _ ih => exact ih
  | @call s s' log i operation reply h _ hact _ ih =>
      refine ⟨fun auditRecord hreplay => ?_, ih⟩
      cases operation with
      | decisions operation =>
          cases operation with
          | putItem item =>
              cases reply with
              | error x => cases hreplay
              | ok _ =>
                  obtain ⟨_, _, hfile⟩ := Option.map_eq_some_iff.mp hreplay
                  cases hfile
          | _ => cases hreplay
      | backend operation =>
          cases operation with
          | getItem pk sk =>
              rcases hact.1 with ⟨version, hversion, rfl⟩ | ⟨x, rfl, -⟩
              · cases version with
                | none => cases hreplay
                | some item =>
                    obtain ⟨auditRecord', hsame, hcompleted, hstored⟩ := Item.replay_eq_some hreplay
                    obtain rfl := Filing.replay.inj hsame
                    obtain ⟨entry, hentry, hput⟩ :=
                      (found_idempotency hempty h hversion).put hcompleted
                    refine ⟨entry, hentry, ?_⟩
                    rw [hput]
                    show (store.storedRecord item).map Filing.keep = _
                    rw [hstored]
                    rfl
              · cases hreplay
          | putItem item condition =>
              cases condition with
              | some now => cases reply <;> cases hreplay
              | none =>
                  cases reply with
                  | error x => cases hreplay
                  | ok _ =>
                      obtain ⟨_, _, hkeep⟩ := Option.map_eq_some_iff.mp hreplay
                      cases hkeep
          | ofPort port => cases port <;> cases reply <;> cases hreplay
          | clockSeconds | deleteItem => cases reply <;> cases hreplay

/-! ## The decisions' table -/

omit [DecidableEq ι] in
theorem versions_of_act {operation : DeployedCall} {reply : Except PyException operation.Answer}
    (hact : deployedMachine.act s operation reply s') :
    (s'.versions = s.versions ∧
      ∀ item, (⟨operation, reply⟩ : Event Deployed) ≠ ⟨.decisions (.putItem item), .ok ()⟩) ∨
      ∃ item, (⟨operation, reply⟩ : Event Deployed) = ⟨.decisions (.putItem item), .ok ()⟩ ∧
        s' = s.write item.decisionId (some item) := by
  cases operation with
  | backend operation =>
      refine Or.inl ⟨?_, fun item h => by cases h⟩
      cases operation with
      | getItem pk sk => exact congrArg _ hact.2
      | _ => exact hact.2.2.1
  | decisions operation =>
      cases operation with
      | clockSeconds => exact Or.inl ⟨congrArg _ hact.2, fun item h => by cases h⟩
      | getItem decisionId => exact Or.inl ⟨congrArg _ hact.2, fun item h => by cases h⟩
      | putItem item =>
          rcases hact with ⟨rfl, rfl⟩ | ⟨⟨x, rfl, -⟩, rfl⟩
          · exact Or.inr ⟨item, rfl, rfl⟩
          · exact Or.inl ⟨rfl, fun item h => by cases h⟩

omit [DecidableEq ι] in
theorem seconds_of_act {operation : DeployedCall} {reply : Except PyException operation.Answer}
    (hact : deployedMachine.act s operation reply s') : s'.seconds = s.seconds := by
  cases operation with
  | backend operation =>
      cases operation with
      | getItem pk sk => exact congrArg _ hact.2
      | _ => exact congrArg wholeSeconds (TableState.act_now hact.1)
  | decisions operation =>
      cases operation with
      | clockSeconds => exact congrArg _ hact.2
      | getItem decisionId => exact congrArg _ hact.2
      | putItem item => rcases hact with ⟨-, rfl⟩ | ⟨-, rfl⟩ <;> rfl

theorem found_decisions (hempty : s₀.versions = fun _ => [])
    (h : deployedMachine.Lawful (custody store repository) ({}, ()) G s₀ s log)
    {decisionId : String} {item : DecisionItem} (hitem : some item ∈ s.versions decisionId) :
    item.decisionId = decisionId ∧
    ∃ entry ∈ log, entry.event = ⟨.decisions (.putItem item), .ok ()⟩ := by
  induction h with
  | init =>
      rw [hempty] at hitem
      cases hitem
  | tick _ htick _ ih =>
      rcases htick.2.2.2 decisionId with hsame | ⟨hdeleted, -⟩
      · exact ih (hsame ▸ hitem)
      · rw [hdeleted, List.mem_cons] at hitem
        exact ih (hitem.resolve_left (by simp))
  | @call s s' log i operation reply _ _ hact _ ih =>
      have hearlier : some item ∈ s.versions decisionId → item.decisionId = decisionId ∧
          ∃ entry ∈ (⟨i, s, ⟨operation, reply⟩⟩ :: log : List (Entry Deployed DeployedState ι)),
            entry.event = ⟨.decisions (.putItem item), .ok ()⟩ := by
        intro hbefore
        obtain ⟨hid, entry, hentry, hput⟩ := ih hbefore
        exact ⟨hid, entry, List.mem_cons_of_mem _ hentry, hput⟩
      rcases versions_of_act hact with ⟨hsame, -⟩ | ⟨put, hput, rfl⟩
      · exact hearlier (hsame ▸ hitem)
      · by_cases hid : decisionId = put.decisionId
        · subst hid
          rw [DeployedState.versions_write_self, List.mem_cons] at hitem
          rcases hitem with hitem | hbefore
          · obtain rfl := Option.some.inj hitem
            exact ⟨rfl, _, List.mem_cons_self, hput⟩
          · exact hearlier hbefore
        · rw [DeployedState.versions_write_of_ne hid] at hitem
          exact hearlier hitem

/-- The record of an item stands in the table, or has expired. -/
structure OnTable (repository : DynamoDbRoutingDecisionRepository) (s : DeployedState)
    (decisionId : String) (auditRecord : AuditRecord) (item : DecisionItem) : Prop where
  read : repository.readItem item = .ok auditRecord
  versions : ∀ version ∈ s.versions decisionId, version = none ∨ version = some item
  current : s.current decisionId = some item ∨ item.expiresAt < s.seconds

theorem OnTable.tick {decisionId : String} {auditRecord : AuditRecord} {item : DecisionItem}
    (h : OnTable repository s decisionId auditRecord item) (htick : deployedMachine.tick s s') :
    OnTable repository s' decisionId auditRecord item := by
  have hseconds : s.seconds ≤ s'.seconds := TableState.wholeSeconds_mono htick.1
  rcases htick.2.2.2 decisionId with hsame | ⟨hdeleted, expired, hcurrent, hexpired⟩
  · refine ⟨h.read, hsame ▸ h.versions, h.current.imp (fun hcurrent => ?_) fun hexpired => by omega⟩
    rw [DeployedState.current, hsame]
    exact hcurrent
  · refine ⟨h.read, fun version hversion => ?_, Or.inr ?_⟩
    · rw [hdeleted, List.mem_cons] at hversion
      exact hversion.elim Or.inl (h.versions version)
    · rcases h.current with hstands | hexpired
      · rw [hcurrent] at hstands
        obtain rfl := Option.some.inj hstands
        exact hexpired
      · omega

omit [DecidableEq ι] in
/-- What an operation is to the registry of the decisions. -/
theorem filing_cases {event : Event Deployed} {filing : Filing String AuditRecord}
    (h : (deployedAuditing store repository).filing event = some filing) :
    (∃ kind decisionId, event = ⟨.backend (.ofPort (.newId kind)), .ok decisionId⟩ ∧
      filing = .draw decisionId) ∨
    (∃ auditRecord reply, event = ⟨.backend (.ofPort (.save auditRecord)), reply⟩) ∨
    (∃ item auditRecord, event = ⟨.decisions (.putItem item), .ok ()⟩ ∧
      filing = .file auditRecord) ∨
    ∃ auditRecord, filing = .keep auditRecord ∨ filing = .replay auditRecord := by
  obtain ⟨operation, reply⟩ := event
  cases operation with
  | decisions operation =>
      cases operation with
      | putItem item =>
          cases reply with
          | error x => cases h
          | ok _ =>
              obtain ⟨auditRecord, -, rfl⟩ := Option.map_eq_some_iff.mp h
              exact Or.inr (Or.inr (Or.inl ⟨item, auditRecord, rfl, rfl⟩))
      | _ => cases h
  | backend operation =>
      cases operation with
      | ofPort port =>
          cases port with
          | newId kind =>
              cases reply with
              | error x => cases h
              | ok decisionId => exact Or.inl ⟨kind, decisionId, rfl, (Option.some.inj h).symm⟩
          | save auditRecord => exact Or.inr (Or.inl ⟨auditRecord, reply, rfl⟩)
          | _ => cases reply <;> cases h
      | getItem pk sk =>
          cases reply with
          | error x => cases h
          | ok existing =>
              cases existing with
              | none => cases h
              | some item =>
                  obtain ⟨auditRecord, hreplay⟩ := item.replays _ h
                  exact Or.inr (Or.inr (Or.inr ⟨auditRecord, Or.inr hreplay⟩))
      | putItem item condition =>
          cases condition with
          | some now => cases reply <;> cases h
          | none =>
              cases reply with
              | error x => cases h
              | ok _ =>
                  obtain ⟨auditRecord, -, rfl⟩ := Option.map_eq_some_iff.mp h
                  exact Or.inr (Or.inr (Or.inr ⟨auditRecord, Or.inl rfl⟩))
      | clockSeconds | deleteItem => cases reply <;> cases h

omit [DecidableEq ι] in
theorem not_file {operation : DeployedCall} {reply : Except PyException operation.Answer}
    (hcustody : CustodyCall store repository operation)
    (hput : ∀ item, (⟨operation, reply⟩ : Event Deployed) ≠ ⟨.decisions (.putItem item), .ok ()⟩)
    (auditRecord : AuditRecord) :
    (deployedAuditing store repository).filing ⟨operation, reply⟩ ≠ some (.file auditRecord) := by
  intro hfile
  obtain ⟨kind, decisionId, -, hdraw⟩ | ⟨auditRecord', reply', hsave⟩ | ⟨item, -, hitem, -⟩ |
    ⟨_, hkeep | hreplay⟩ := filing_cases hfile
  · cases hdraw
  · cases hsave
    exact hcustody auditRecord' rfl
  · exact hput item hitem
  · cases hkeep
  · cases hreplay

/-- What the table holds under a name, for what is on file under it. -/
def Holds (repository : DynamoDbRoutingDecisionRepository) (s : DeployedState)
    (decisionId : String) :
    Option AuditRecord → Prop
  | some auditRecord => ∃ item, OnTable repository s decisionId auditRecord item
  | none => s.versions decisionId = []

theorem Holds.tick {decisionId : String} {onFile : Option AuditRecord}
    (h : Holds repository s decisionId onFile)
    (htick : deployedMachine.tick s s') : Holds repository s' decisionId onFile := by
  cases onFile with
  | some auditRecord => exact h.imp fun item hitem => hitem.tick htick
  | none =>
      rcases htick.2.2.2 decisionId with hsame | ⟨-, item, hcurrent, -⟩
      · exact hsame.trans h
      · rw [DeployedState.current, show s.versions decisionId = [] from h] at hcurrent
        cases hcurrent

theorem Holds.same {decisionId : String} {onFile : Option AuditRecord}
    (h : Holds repository s decisionId onFile)
    (hversions : s'.versions decisionId = s.versions decisionId)
    (hseconds : s'.seconds = s.seconds) :
    Holds repository s' decisionId onFile := by
  cases onFile with
  | none => exact hversions.trans h
  | some auditRecord =>
      obtain ⟨item, hread, hall, hcurrent⟩ := h
      refine ⟨item, hread, hversions ▸ hall, ?_⟩
      rw [DeployedState.current, hversions, hseconds]
      exact hcurrent

/-- **A record that is on file stands in the table until it expires**, and under other names nothing
does. -/
theorem holds_contents (hreads : repository.ReadsBack) (hempty : s₀.seen = fun _ => [none])
    (hempty' : s₀.versions = fun _ => [])
    (h : deployedMachine.Lawful (custody store repository) ({}, ()) G s₀ s log)
    (hnames : ((deployedAuditing store repository).names log).Nodup)
    (decisionId : String) : Holds repository s decisionId
      ((deployedAuditing store repository).contents log decisionId) := by
  induction h with
  | init => exact congrFun hempty' decisionId
  | tick _ htick _ ih => exact (ih hnames).tick htick
  | @call s s' log i operation reply h howes hact _ ih =>
      have hstood := ih (Registry.nodup_names_of_cons hnames)
      rw [Monitor.phase_both] at howes
      rcases versions_of_act hact with ⟨hsame, hput⟩ | ⟨item, hput, rfl⟩
      · have hcontents : (deployedAuditing store repository).contents
            (⟨i, s, ⟨operation, reply⟩⟩ :: log) =
              (deployedAuditing store repository).contents log := by
          rw [Registry.contents]
          split
          · rename_i auditRecord hfile
            exact absurd hfile (not_file howes.2 hput auditRecord)
          · rfl
        rw [hcontents]
        exact hstood.same (congrFun hsame decisionId) (seconds_of_act hact)
      · obtain ⟨rfl, hreply⟩ := Event.mk.inj hput
        cases hreply
        obtain ⟨auditRecord, hmade, hid, hrecord⟩ := howes.2
        have hread : repository.readItem item = .ok auditRecord :=
          readItem_savedItem hreads hrecord hmade.createdAt
        have hfile := @filing_putItem repository store item auditRecord hread
        have hdrawn : ((deployedAuditing store repository).monitor.phase {} i log).own =
            .drawn auditRecord.decision.decisionId := by
          have hallows := howes.1 (.ok ())
          rw [hfile] at hallows
          exact hallows
        have hkempt := Registry.kempt h.first (Registry.nodup_names_of_cons hnames)
            (faithful_deployed hempty h)
        have hfree := (hkempt.drawn i _ hdrawn).2.1
        have hname : (deployedAuditing store repository).name auditRecord = item.decisionId :=
          hid.symm
        rw [Registry.contents, hfile]
        dsimp only
        rw [hname]
        by_cases hsame : decisionId = item.decisionId
        · -- the first record under its name
          subst hsame
          rw [hid, hfree, ← hid] at hstood
          have hversions : (s.write item.decisionId (some item)).versions item.decisionId =
              [some item] := by
            rw [DeployedState.versions_write_self]
            exact congrArg _ hstood
          rw [Function.update_self]
          refine ⟨item, hread, fun version hversion => ?_, Or.inl ?_⟩
          · rw [hversions] at hversion
            exact Or.inr (List.mem_singleton.mp hversion)
          · rw [DeployedState.current, hversions]
            rfl
        · rw [Function.update_of_ne hsame]
          exact hstood.same (DeployedState.versions_write_of_ne hsame ..) rfl

/-! ## The identifiers -/

/-- The identifier that an event was given for its decision. -/
def drawnId : Event Deployed → Option String
  | ⟨.backend (.ofPort (.newId _)), .ok decisionId⟩ => some decisionId
  | _ => none

/-- The identifiers of the decisions, the last first. -/
def decisionIds (log : List (Entry Deployed DeployedState ι)) : List String :=
  log.filterMap fun entry => drawnId entry.event

omit [DecidableEq ι] in
theorem filing_eq_draw {store : DynamoDbIdempotencyStore} {event : Event Deployed}
    {decisionId : String} :
    (deployedAuditing store repository).filing event = some (.draw decisionId) ↔
    drawnId event = some decisionId := by
  constructor
  · intro h
    obtain ⟨kind, name, rfl, hdraw⟩ | ⟨auditRecord, reply, rfl⟩ | ⟨_, _, -, hfile⟩ |
      ⟨_, hkeep | hreplay⟩ := filing_cases h
    · cases hdraw
      rfl
    · cases reply <;> cases h
    · cases hfile
    · cases hkeep
    · cases hreplay
  · intro h
    unfold drawnId at h
    split at h
    · obtain rfl := Option.some.inj h
      rfl
    · cases h

omit [DecidableEq ι] in
theorem names_eq_decisionIds {store : DynamoDbIdempotencyStore}
    (log : List (Entry Deployed DeployedState ι)) :
    (deployedAuditing store repository).names log = decisionIds log := by
  induction log with
  | nil => rfl
  | cons entry log ih =>
      rw [Registry.names, decisionIds, List.filterMap_cons]
      cases hdrawn : drawnId entry.event with
      | some decisionId =>
          rw [filing_eq_draw.mpr hdrawn]
          exact congrArg _ ih
      | none =>
          split
          · rename_i name hname
            rw [filing_eq_draw.mp hname] at hdrawn
            cases hdrawn
          · exact ih

end

end ModelRouter
