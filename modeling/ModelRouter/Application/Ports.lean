import ModelRouter.Domain.Invocation
import ModelRouter.Lib.Prog

/-!
# The ports

What the application layer calls (`domain/ports.py`, the clock of `time.monotonic`, and the consumer
of a stream). A program over `Ports` is a use case whose ports are still abstract.
-/

namespace ModelRouter
open Effects

inductive Port where
  | resolve (applicationId : String)
  | getHealth (modelAlias : String)
  | recordOutcome (modelAlias : String) (status : InvocationAttemptStatus)
  | newId (kind : String)
  | now
  | monotonic
  | invoke (request : ProviderRequest)
  | invokeStream (request : ProviderRequest)
  | yieldChunk (chunk : ProviderResponseChunk)
  | save (auditRecord : AuditRecord)
  | publishMetrics (result : InferenceResult)
  | publishEvent (result : InferenceResult)
  | reserve (applicationId idempotencyKey requestHash : String)
  | complete (applicationId idempotencyKey requestHash : String) (result : InferenceResult)
      (cacheResult : Bool) (retentionSeconds : Nat)
  | release (applicationId idempotencyKey : String)
deriving DecidableEq

/-- What a port returns. `now` is in microseconds, `monotonic` in nanoseconds. -/
@[reducible] def Port.Answer : Port → Type
  | .resolve _ => RoutingPolicy
  | .getHealth _ => ModelHealthStatus
  | .newId _ => String
  | .now => Nat
  | .monotonic => Nat
  | .invoke _ => ProviderResponse
  | .invokeStream _ => ChunkStream
  | .reserve _ _ _ => IdempotencyReservation
  | .recordOutcome _ _ | .yieldChunk _ | .save _ | .publishMetrics _ | .publishEvent _
  | .complete _ _ _ _ _ _ | .release _ _ => Unit

abbrev Ports : Sig := { Call := Port, Answer := Port.Answer, Exc := PyException }

/-- Call a port; its exception is raised here. -/
abbrev ask (port : Port) : Prog Ports port.Answer := @Prog.perform Ports port

/-- Call a port inside a `try`. -/
abbrev tryAsk (port : Port) : Prog Ports (Except PyException port.Answer) :=
  @Prog.tryPerform Ports port

/-- `int((monotonic() - started_at) * 1000)`. The clock never goes back. -/
def latencyMs (startedAt finishedAt : Nat) : Nat := (finishedAt - startedAt) / 1000000

end ModelRouter
