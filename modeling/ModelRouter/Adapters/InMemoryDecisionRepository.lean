import ModelRouter.Domain.Invocation
import Mathlib.Logic.Function.Basic

/-!
# The in-memory decision repository

`_records` is a function from decision identifiers to at most one audit record. Each operation is
atomic (the lock).
-/

namespace ModelRouter

structure InMemoryRoutingDecisionRepository where
  records : String → Option AuditRecord := fun _ => none

namespace InMemoryRoutingDecisionRepository

variable (repository : InMemoryRoutingDecisionRepository)

def save (auditRecord : AuditRecord) : InMemoryRoutingDecisionRepository where
  records := Function.update repository.records auditRecord.decision.decisionId (some auditRecord)

def get (decisionId : String) : Option AuditRecord := repository.records decisionId

end InMemoryRoutingDecisionRepository

end ModelRouter
