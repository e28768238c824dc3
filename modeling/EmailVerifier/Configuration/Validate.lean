import Mathlib.Algebra.Order.Ring.Rat
import EmailVerifier.Text.Bytes

/-! What `internal/config/config.go` refuses to boot on.

The fields are those `Validate` reads. Durations are nanoseconds in 64 bits, floats are
rationals. How Go writes a duration, a float or a quoted string in a message, and what
`net` takes for an address, is a class.
-/

set_option autoImplicit false

namespace EmailVerifier.Configuration
open Text

class Format where
  duration : Int → Str
  float : ℚ → Str
  quote : Str → Str
  parseIP : Str → Bool
  -- The error of `net.SplitHostPort`, if it has one.
  splitHostPort : Str → Option Str

def second : Int := 1000000000

def minute : Int := 60 * second

def hour : Int := 60 * minute

structure HTTP where
  addr : Str := lit "127.0.0.1:8080"
  readTimeout : Int := 10 * second
  writeTimeout : Int := 30 * second
  idleTimeout : Int := 60 * second
  shutdownTimeout : Int := 30 * second

structure TLS where
  certFile : Str := []
  keyFile : Str := []
  clientCAFile : Str := []

structure Redis where
  addr : Str := lit "unix:/run/redis/redis-server.sock"
  dialTimeout : Int := 2 * second

structure DNS where
  servers : List Str := []
  timeout : Int := 5 * second
  cacheTTL : Int := 5 * minute
  negativeTTL : Int := minute
  cacheSize : Int := 4096

structure Pacer where
  idleTTL : Int := 30 * minute
  maxTracked : Int := 512
  promoteAfter : Int := 500
  promoteStep : ℚ := 3 / 2
  promoteCeiling : ℚ := 20
  sessionLease : Int := 50 * second
  leaseWait : Int := 60 * second

structure StandDown where
  hosts : Int := 3
  window : Int := 30 * minute
  pause : Int := 6 * hour

structure IPHealth where
  resolvers : List Str := []
  interval : Int := 15 * minute
  timeout : Int := 5 * second

structure Suppress where
  salt : Str := []
  stale : Int := 24 * hour
  maxHashesPerImport : Int := 200000
  enabled : Bool := false

structure Probe where
  helo : Str := []
  mailFrom : Str := []
  sourceIP : Str := []
  dialNetwork : Str := lit "tcp4"
  port : Str := lit "25"
  timeout : Int := 20 * second
  maxRCPTPerSession : Int := 50
  catchAllProbes : Int := 2
  catchAllAuditRate : ℚ := 1 / 20
  startTLS : Str := lit "opportunistic"
  tlsHandshakeTimeout : Int := 10 * second
  policyStop : Int := 5
  policyStopMax : Int := 10
  randomiserTTL : Int := 24 * hour
  deferralRetry : Int := 15 * minute
  maxEmailsPerRequest : Int := 500

structure Auth where
  enabled : Bool := true
  apiKey : Str := []

structure Relay where
  enabled : Bool := false
  dkimKeyFile : Str := []
  dkimSelector : Str := []
  domain : Str := []
  returnPathDomain : Str := []
  maxAttempts : Int := 5
  retryBase : Int := 5 * minute

structure Log where
  level : Str := lit "info"
  format : Str := lit "json"

/-- The defaults are those of `defaults()`. -/
structure Config where
  http : HTTP := {}
  tls : TLS := {}
  redis : Redis := {}
  dns : DNS := {}
  pacer : Pacer := {}
  standDown : StandDown := {}
  ipHealth : IPHealth := {}
  suppress : Suppress := {}
  probe : Probe := {}
  auth : Auth := {}
  relay : Relay := {}
  log : Log := {}

def TLS.Enabled (t : TLS) : Bool := t.certFile ≠ [] || t.keyFile ≠ []

def dataScoutProbeTimeout : Int := 90 * second

/-- One way not to boot, and how it is reported. -/
structure Check where
  bad : Bool
  report : Str

section
variable [Format]

def positive (name : String) (value : Int) : Check :=
  ⟨value ≤ 0, lit name ++ lit " must be positive, got " ++ Format.duration value⟩

def hostPort (name : String) (server : Str) : Check :=
  ⟨(Format.splitHostPort server).isSome, lit name ++ lit " entry " ++ Format.quote server ++
    lit " must be host:port: " ++ (Format.splitHostPort server).getD []⟩

def integer (n : Int) : Str := lit (toString n)

def edgeChecks (c : Config) : List Check := [
  ⟨c.http.addr = [], lit "http.addr must be set"⟩,
  ⟨c.redis.addr = [], lit "redis.addr must be set"⟩,
  positive "http.read_timeout" c.http.readTimeout,
  positive "http.write_timeout" c.http.writeTimeout,
  positive "http.idle_timeout" c.http.idleTimeout,
  positive "http.shutdown_timeout" c.http.shutdownTimeout,
  positive "redis.dial_timeout" c.redis.dialTimeout,
  ⟨c.auth.enabled && c.auth.apiKey = [], lit "auth.enabled is true but auth.api_key is empty"⟩]

def identityChecks (c : Config) : List Check := [
  ⟨c.probe.dialNetwork ≠ lit "tcp4",
    lit "probe.dial_network must be tcp4, got " ++ Format.quote c.probe.dialNetwork ++ lit " (invariant 3)"⟩,
  ⟨c.probe.helo = [], lit "probe.helo must be set — it must FCrDNS to the sending IP"⟩,
  ⟨c.probe.mailFrom = [], lit "probe.mail_from must be set"⟩,
  ⟨c.probe.sourceIP ≠ [] && !Format.parseIP c.probe.sourceIP,
    lit "probe.source_ip is not an IP address: " ++ Format.quote c.probe.sourceIP⟩,
  positive "probe.timeout" c.probe.timeout,
  ⟨c.suppress.enabled && c.suppress.salt = [],
    lit "suppress.enabled is true but suppress.salt is empty — every lookup would silently miss"⟩,
  ⟨c.suppress.stale ≤ 0 || c.suppress.maxHashesPerImport ≤ 0,
    lit "suppress.stale and suppress.max_hashes_per_import must be positive"⟩,
  ⟨c.ipHealth.interval ≤ 0 || c.ipHealth.timeout ≤ 0,
    lit "ip_health.interval and ip_health.timeout must be positive"⟩] ++
  c.ipHealth.resolvers.map (hostPort "ip_health.resolvers") ++ [
  ⟨c.ipHealth.resolvers ≠ [] && c.probe.sourceIP = [],
    lit "ip_health.resolvers is set but probe.source_ip is empty — there is no address to check"⟩]

def leaseOutlives (c : Config) : Check :=
  ⟨c.pacer.sessionLease ≤ c.probe.timeout,
    lit "pacer.session_lease (" ++ Format.duration c.pacer.sessionLease ++ lit ") must exceed probe.timeout (" ++
      Format.duration c.probe.timeout ++
      lit "): a lease that expires under a live session hands its room out twice"⟩

-- The sum of two durations wraps like any other.
def pacerChecks (c : Config) : List Check := [
  ⟨c.pacer.idleTTL ≤ 0 || c.pacer.maxTracked ≤ 0, lit "pacer.idle_ttl and pacer.max_tracked must be positive"⟩,
  ⟨c.pacer.promoteAfter < 0, lit "pacer.promote_after must be 0 (disabled) or positive"⟩,
  ⟨c.pacer.promoteStep ≤ 1 || c.pacer.promoteCeiling ≤ 0,
    lit "pacer.promote_step must exceed 1 and pacer.promote_ceiling must be positive"⟩,
  leaseOutlives c,
  ⟨c.standDown.hosts < 2, lit "standdown.hosts must be at least 2, got " ++ integer c.standDown.hosts⟩,
  positive "standdown.window" c.standDown.window,
  positive "standdown.pause" c.standDown.pause,
  positive "pacer.lease_wait" c.pacer.leaseWait,
  ⟨0 < c.pacer.leaseWait && dataScoutProbeTimeout ≤ (c.pacer.leaseWait + c.probe.timeout).bmod (2 ^ 64),
    lit "pacer.lease_wait (" ++ Format.duration c.pacer.leaseWait ++ lit ") + probe.timeout (" ++
      Format.duration c.probe.timeout ++ lit ") must stay under Data Scout's probe timeout (" ++
      Format.duration dataScoutProbeTimeout ++ lit ")"⟩,
  positive "dns.timeout" c.dns.timeout,
  ⟨c.dns.cacheTTL ≤ 0 || c.dns.negativeTTL ≤ 0 || c.dns.cacheSize ≤ 0,
    lit "dns.cache_ttl, dns.negative_ttl and dns.cache_size must be positive"⟩] ++
  c.dns.servers.map (hostPort "dns.servers")

def probeChecks (c : Config) : List Check := [
  ⟨c.probe.port = [], lit "probe.port must be set"⟩,
  ⟨c.probe.catchAllProbes < 2, lit "probe.catch_all_probes must be at least 2, got " ++ integer c.probe.catchAllProbes⟩,
  ⟨c.probe.catchAllAuditRate < 0 || 1 < c.probe.catchAllAuditRate,
    lit "probe.catch_all_audit_rate must be in [0, 1], got " ++ Format.float c.probe.catchAllAuditRate⟩,
  ⟨c.probe.startTLS ≠ lit "opportunistic" && c.probe.startTLS ≠ lit "off",
    lit "probe.starttls must be \"opportunistic\" or \"off\", got " ++ Format.quote c.probe.startTLS⟩,
  ⟨c.probe.tlsHandshakeTimeout ≤ 0 || c.probe.timeout ≤ c.probe.tlsHandshakeTimeout,
    lit "probe.tls_handshake_timeout must be positive and below probe.timeout (" ++
      Format.duration c.probe.timeout ++ lit "), got " ++ Format.duration c.probe.tlsHandshakeTimeout⟩,
  ⟨c.probe.randomiserTTL ≤ 0, lit "probe.randomiser_ttl must be positive"⟩,
  ⟨c.probe.policyStop < 0 || c.probe.policyStop = 1,
    lit "probe.policy_stop must be 0 (disabled) or at least 2, got " ++ integer c.probe.policyStop⟩]

def relayChecks (c : Config) : List Check := [
  ⟨c.relay.enabled && c.relay.domain = [], lit "relay.domain is required when relay.enabled is true"⟩,
  ⟨c.relay.enabled && (c.relay.dkimKeyFile = [] || c.relay.dkimSelector = []),
    lit "relay.dkim_key_file and relay.dkim_selector are required when relay.enabled is true"⟩,
  ⟨c.relay.enabled && c.relay.returnPathDomain = [],
    lit "relay.return_path_domain is required when relay.enabled is true — " ++
      lit "a message whose bounces nobody reads spends the IP's reputation blind"⟩,
  ⟨c.relay.enabled && c.relay.maxAttempts ≤ 0, lit "relay.max_attempts must be positive"⟩,
  ⟨c.relay.enabled && c.relay.retryBase ≤ 0, lit "relay.retry_base must be positive"⟩]

def limitChecks (c : Config) : List Check := [
  ⟨c.probe.policyStopMax < 0,
    lit "probe.policy_stop_max must not be negative, got " ++ integer c.probe.policyStopMax⟩,
  ⟨0 < c.probe.policyStopMax && 0 < c.probe.policyStop && c.probe.policyStopMax < c.probe.policyStop,
    lit "probe.policy_stop_max (" ++ integer c.probe.policyStopMax ++
      lit ") must not be below probe.policy_stop (" ++ integer c.probe.policyStop ++ lit ")"⟩,
  ⟨c.probe.deferralRetry ≤ 0, lit "probe.deferral_retry must be positive"⟩,
  ⟨c.probe.maxRCPTPerSession ≤ 0, lit "probe.max_rcpt_per_session must be positive"⟩,
  ⟨c.probe.maxEmailsPerRequest ≤ 0, lit "probe.max_emails_per_request must be positive"⟩]

def listenerChecks (c : Config) : List Check := [
  ⟨decide (c.tls.certFile = []) ≠ decide (c.tls.keyFile = []), lit "tls.cert_file and tls.key_file must be set together"⟩,
  ⟨c.tls.clientCAFile ≠ [] && !c.tls.Enabled, lit "tls.client_ca_file requires tls.cert_file and tls.key_file"⟩,
  ⟨c.log.level ∉ [lit "debug", lit "info", lit "warn", lit "error"],
    lit "log.level must be one of debug|info|warn|error, got " ++ Format.quote c.log.level⟩,
  ⟨c.log.format ∉ [lit "json", lit "text"], lit "log.format must be json or text, got " ++ Format.quote c.log.format⟩]

def checks (c : Config) : List Check :=
  edgeChecks c ++ identityChecks c ++ pacerChecks c ++ probeChecks c ++ relayChecks c ++ limitChecks c ++
    listenerChecks c

def Config.Validate (c : Config) : List Str :=
  ((checks c).filter Check.bad).map fun check => lit "invalid configuration: " ++ check.report

lemma validate_nil_iff (c : Config) : c.Validate = [] ↔ ∀ check ∈ checks c, check.bad = false := by
  simp [Config.Validate]

lemma accepted_times {c : Config} (accepted : c.Validate = []) :
    0 < c.probe.timeout ∧ c.probe.timeout < c.pacer.sessionLease := by
  have passes := (validate_nil_iff c).mp accepted
  constructor
  · have check := passes (positive "probe.timeout" c.probe.timeout) (by simp [checks, identityChecks])
    simpa [positive] using check
  · have check := passes (leaseOutlives c) (by simp [checks, pacerChecks])
    simpa [leaseOutlives] using check

end

-- Messages without their values, and `net` at its most lenient.
instance plainFormat : Format where
  duration _ := []
  float _ := []
  quote s := s
  parseIP _ := true
  splitHostPort _ := none

def nodeConfig : Config where
  probe := { helo := lit "mail.node.test", mailFrom := lit "verify@node.test" }
  auth := { apiKey := lit "key" }

lemma nodeConfig_accepted : nodeConfig.Validate = [] := by decide +kernel

end EmailVerifier.Configuration
