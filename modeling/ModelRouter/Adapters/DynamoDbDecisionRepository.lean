import ModelRouter.Adapters.DynamoDbIdempotencyStore

/-!
# The DynamoDB decision repository

The repository is a client of a table, of which an item holds the text of an audit record. An item
expires `retentionSeconds` after it was put; the table deletes it some time later.
-/

namespace ModelRouter
open Effects Prog

namespace DynamoDbRoutingDecisionRepository

structure DecisionItem where
  decisionId : String
  applicationId : String
  record : String
  expiresAt : Int
deriving DecidableEq, Repr

inductive DecisionCall where
  | clockSeconds
  | putItem (item : DecisionItem)
  | getItem (decisionId : String)
deriving DecidableEq

@[reducible] def DecisionCall.Answer : DecisionCall → Type
  | .clockSeconds => Int
  | .putItem _ => Unit
  | .getItem _ => Option DecisionItem

abbrev Decisions : Sig :=
  { Call := DecisionCall, Answer := DecisionCall.Answer, Exc := PyException }

end DynamoDbRoutingDecisionRepository

open DynamoDbRoutingDecisionRepository

/-- `_DEFAULT_RETENTION_SECONDS` is 30 days; `modelDumpJson` and `modelValidateJson` are pydantic's,
of `AuditRecord`. -/
structure DynamoDbRoutingDecisionRepository where
  retentionSeconds : Int := 30 * 24 * 60 * 60
  modelDumpJson : AuditRecord → String
  modelValidateJson : String → Except PyException AuditRecord

namespace DynamoDbRoutingDecisionRepository

variable (repository : DynamoDbRoutingDecisionRepository)

abbrev ReadsBack : Prop :=
  ModelRouter.ReadsBack repository.modelDumpJson repository.modelValidateJson fun auditRecord =>
    auditRecord.decision.createdAt

def savedItem (auditRecord : AuditRecord) (now : Int) : DecisionItem where
  decisionId := auditRecord.decision.decisionId
  applicationId := auditRecord.decision.applicationId
  record := repository.modelDumpJson auditRecord
  expiresAt := now + repository.retentionSeconds

def save (auditRecord : AuditRecord) : Prog Decisions Unit := do
  let clock ← @Prog.perform Decisions .clockSeconds
  @Prog.perform Decisions (.putItem
    (repository.savedItem auditRecord (DynamoDbIdempotencyStore.wholeSeconds clock)))

/-- The audit record of an item. -/
def readItem (item : DecisionItem) : Except PyException AuditRecord :=
  repository.modelValidateJson item.record

def get (decisionId : String) : Prog Decisions (Option AuditRecord) := do
  match ← @Prog.perform Decisions (.getItem decisionId) with
  | none => ret none
  | some item =>
    let auditRecord ← ofExcept (repository.readItem item)
    ret (some auditRecord)

end DynamoDbRoutingDecisionRepository

end ModelRouter
