import TraceSampling.Proofs.Dyeing.BloomRules
import TraceSampling.Proofs.Sampler.Chain
import TraceSampling.Proofs.Sampler.Header
import TraceSampling.Proofs.TokenBucket.Cap
import TraceSampling.Proofs.TokenBucket.Reservoir
import TraceSampling.Proofs.Workflow.SeenEdges
import TraceSampling.Registry
import TraceSampling.Sampler.Script
import TraceSampling.Settings.Source
import TraceSampling.Tracer
import TraceSampling.Proofs.MinCount.Floor
import TraceSampling.Proofs.Sampler.Trail
import TraceSampling.Proofs.Tracer.Verdicts
import TraceSampling.Proofs.Sampler.Renewal
import TraceSampling.Proofs.Sampler.Roots
import TraceSampling.Proofs.Sampler.Spending
import TraceSampling.Proofs.Tracer.Processors
import TraceSampling.Proofs.Dyeing.History
import TraceSampling.Proofs.RateLimiter.Order
import TraceSampling.Proofs.Sampler.Beneath
import TraceSampling.Proofs.Sampler.Forwarding
import TraceSampling.Proofs.RateLimiter.Routing
import TraceSampling.Proofs.Sampler.ParentFlag
import TraceSampling.Proofs.Sampler.Replacement
import TraceSampling.Proofs.Registry.LifeCycle
import TraceSampling.Proofs.HopState.Leaving
import TraceSampling.Proofs.TokenBucket.Refill
import TraceSampling.Proofs.HopState.Item
import TraceSampling.Proofs.HopState.LastWins
import TraceSampling.Proofs.Fraction
import TraceSampling.Proofs.Dyeing.ExactRules
import TraceSampling.Proofs.Dyeing.Shipping
import TraceSampling.Proofs.Dyeing.Interchange
import TraceSampling.Proofs.Binary64.Unit
import TraceSampling.Proofs.Settings.Range
import TraceSampling.Proofs.Sampler.Callee
import TraceSampling.Proofs.Workflow.PathShape
