import EmailVerifier.Api.Forgotten
import EmailVerifier.Api.Recognition
import EmailVerifier.Api.Stamped
import EmailVerifier.Iphealth.Clearing
import EmailVerifier.Iphealth.Complaints
import EmailVerifier.Iphealth.Redaction
import EmailVerifier.Limiter.Holders
import EmailVerifier.Pacer.Bounds
import EmailVerifier.Pacer.Eviction
import EmailVerifier.Pacer.Grants
import EmailVerifier.Pacer.Promotion
import EmailVerifier.Pacer.Signals
import EmailVerifier.Pacer.Waiting
import EmailVerifier.Prober.Budget
import EmailVerifier.Prober.Completeness
import EmailVerifier.Prober.Discipline
import EmailVerifier.Prober.Evidence
import EmailVerifier.Prober.Hints
import EmailVerifier.Prober.Occupancy
import EmailVerifier.Prober.PolicyStop
import EmailVerifier.Prober.Reruns
import EmailVerifier.Prober.Throttles
import EmailVerifier.Redis.InStep
import EmailVerifier.Relay.Attempts
import EmailVerifier.Relay.Backoff
import EmailVerifier.Relay.Checked
import EmailVerifier.Relay.Punctuality
import EmailVerifier.Relay.Readers
import EmailVerifier.Relay.Refusal
import EmailVerifier.Relay.Signals
import EmailVerifier.Relay.Verification
import EmailVerifier.Resolver.Contexts
import EmailVerifier.Standdown.Refusers
