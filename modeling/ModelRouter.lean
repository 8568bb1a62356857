import ModelRouter.Application.Governance
import ModelRouter.Application.Coherence
import ModelRouter.Application.StreamParity
import ModelRouter.Application.HealthExclusion
import ModelRouter.Application.LateHolders
import ModelRouter.Application.Explanation
import ModelRouter.Application.StreamCoherence
import ModelRouter.Handlers.ApiHandler
import ModelRouter.Application.TableAuditability
import ModelRouter.Composition.StoreEquivalence
import ModelRouter.Composition.RetryAmplification
import ModelRouter.Composition.ContentIsolation
import ModelRouter.Adapters.LocalPolicyRepository
import ModelRouter.Infrastructure.BedrockGrants
import ModelRouter.Composition.CatalogueOrder
import ModelRouter.Composition.DeclaredCapabilities
import ModelRouter.Handlers.ErrorMapping
import ModelRouter.Domain.RequestHash
import ModelRouter.Handlers.RequestLog
import ModelRouter.Composition.EligibilityMonotone
import ModelRouter.Handlers.RequestSpellings
import ModelRouter.Composition.ExactCosts
import ModelRouter.Domain.Cohorts
import ModelRouter.Domain.SubjectKeys
import ModelRouter.Adapters.MalformedReplies
import ModelRouter.Adapters.Conversations
import ModelRouter.Composition.HealthHistory
import ModelRouter.Composition.CapabilityIndex
import ModelRouter.Handlers.ResponseBodies
import ModelRouter.Handlers.EncodedBodies
import ModelRouter.Handlers.ClientErrors
import ModelRouter.Composition.CallAccounts
import ModelRouter.Composition.Replays
import ModelRouter.Shared.LogStream
