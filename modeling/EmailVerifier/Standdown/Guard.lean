import EmailVerifier.Data.Scored
import EmailVerifier.Pacer.Spelling
import EmailVerifier.Redis.Resp
import EmailVerifier.Semantics.Player
import EmailVerifier.Semantics.Triple
import EmailVerifier.Text.Pattern

/-! The guard that stands a pace key down when refusals of us pile up in it:
`internal/standdown/standdown.go`.

The guard that is not there and does nothing is left out. Milliseconds are whole numbers: those of an instant fit in 64 bits for as long as anybody
will ask.
-/

set_option autoImplicit false

namespace EmailVerifier.Standdown
open Text Data Semantics
open Pacer (PaceKey normaliseHost)

def benignRe : Pattern := .words false
  ["5.4.1", "access denied", "5.7.4", "5.4.4", "5.7.64", "starttls", "tls connection is required", "tls is required",
    "tls required", "requires tls", "session encryption is required", "encryption is required", "encryption required",
    "encryption needed", "requires encryption", "tls encryption", "must use tls", "tls version", "relay access denied",
    "relaying denied", "unable to relay", "not permitted to relay", "exceeded storage allocation", "quota exceeded",
    "mailbox full", "mailbox is full", "over quota"]

def blocklistRe : Pattern :=
  let listOf (color : String) : Pattern := .inOrder [.word false color, .optional (.word false " "), .word false "list"]
  let whole (w : String) : Pattern := .inOrder [.wordBoundary, .word false w, .wordBoundary]
  .anyOf [.word false "blocked using", listOf "block", listOf "black", whole "listed",
    .words false ["spamhaus", "abusix", "spamcop", "barracudacentral", "uceprotect", "dnsbl"], whole "rbl",
    .words false ["rbl.", "magicspam", "spam-source", "(s3150)", "(s3140)", "poor reputation", "bad reputation"]]

def separates (r : Nat) : Bool := isPerlSpace r || r = 60 || r = 62

def addressRe : Pattern := .joined (inWord separates 64) '@'

section
variable [Unicode]

def Benign (reply : Str) : Bool := benignRe.isMatch (toLower reply)

def NamesBlocklist (reply : Str) : Bool := blocklistRe.isMatch (toLower reply)

end

def RefusalsKey (key : Str) : Str := lit "rt:mx:" ++ key ++ lit ":refusals"

def unixMilli (t : Time) : Int := t.nanos / 1000000 - Time.epoch * 1000

inductive Rule where
  | A
  | B
  deriving DecidableEq, Repr

def Rule.name : Rule → Str
  | .A => lit "A"
  | .B => lit "B"

/-- The `stood_down` line. -/
structure LogLine where
  paceKey : Str
  rule : Rule
  hosts : Int
  till : Time
  triggerHost : Str
  reply : Str
  deriving DecidableEq

/-! ## What the code calls -/

inductive Op where
  | now
  | refusalOfUs (key : Str)
  /-- `g.stood`, read under the lock; the next two write it. -/
  | stood
  | standDown (key : Str) (till : Time)
  | forget (key : Str)
  | zadd (rk : Str) (score : Int) (member : Str)
  /-- `ZREMRANGEBYSCORE` from the very beginning to right below a score. -/
  | zremRangeBelow (rk : Str) (score : Int)
  | zcard (rk : Str)
  | pexpire (rk : Str) (ms : Int)
  | del (rk : Str)
  | pauseKey (mxHost : Str) (till : Time) (reason : Str)
  | resumeKey (mxHost : Str)
  | log (line : LogLine)
  deriving DecidableEq

def Op.Answer : Op → Type
  | .now => Time
  | .refusalOfUs _ | .standDown _ _ | .forget _ | .log _ => Unit
  | .stood => Table Str Time
  | .zadd _ _ _ | .zremRangeBelow _ _ | .zcard _ | .pexpire _ _ | .del _ => Except Redis.Err Redis.Reply
  | .pauseKey _ _ _ | .resumeKey _ => Except Str Unit

abbrev calls : Interface := ⟨Op, Op.Answer⟩

abbrev Act := Prog calls

def now : Act Time := Prog.ask (I := calls) .now
def refusalOfUs (key : Str) : Act Unit := Prog.ask (I := calls) (.refusalOfUs key)
def stood : Act (Table Str Time) := Prog.ask (I := calls) .stood
def standDown (key : Str) (till : Time) : Act Unit := Prog.ask (I := calls) (.standDown key till)
def forget (key : Str) : Act Unit := Prog.ask (I := calls) (.forget key)
def zadd (rk : Str) (score : Int) (member : Str) : Act (Except Redis.Err Redis.Reply) :=
  Prog.ask (I := calls) (.zadd rk score member)
def zremRangeBelow (rk : Str) (score : Int) : Act (Except Redis.Err Redis.Reply) :=
  Prog.ask (I := calls) (.zremRangeBelow rk score)
def zcard (rk : Str) : Act (Except Redis.Err Redis.Reply) := Prog.ask (I := calls) (.zcard rk)
def pexpire (rk : Str) (ms : Int) : Act (Except Redis.Err Redis.Reply) := Prog.ask (I := calls) (.pexpire rk ms)
def del (rk : Str) : Act (Except Redis.Err Redis.Reply) := Prog.ask (I := calls) (.del rk)
def pauseKey (mxHost : Str) (till : Time) (reason : Str) : Act (Except Str Unit) :=
  Prog.ask (I := calls) (.pauseKey mxHost till reason)
def resumeKey (mxHost : Str) : Act (Except Str Unit) := Prog.ask (I := calls) (.resumeKey mxHost)
def Log (line : LogLine) : Act Unit := Prog.ask (I := calls) (.log line)

/-! ## The guard -/

structure Options where
  hosts : Int := 0
  window : Int := 0
  pause : Int := 0
  recorder : Bool := false
  log : Bool := false

/-- A guard's thresholds, none of which is idle. -/
structure Guard where
  hosts : Int
  window : Int
  pause : Int
  recorder : Bool
  log : Bool
  several : 2 ≤ hosts
  wide : 0 < window
  lasting : 0 < pause

def New (o : Options) : Guard where
  hosts := if o.hosts < 2 then 3 else o.hosts
  window := if o.window ≤ 0 then 30 * 60 * second else o.window
  pause := if o.pause ≤ 0 then 6 * 60 * 60 * second else o.pause
  recorder := o.recorder
  log := o.log
  several := by split <;> omega
  wide := by
    split
    · decide
    · omega
  lasting := by
    split
    · decide
    · omega

def isDown (stood : Table Str Time) (key : Str) (now : Time) : Bool := (stood.lookup key).any now.Before

namespace Guard

/-- `Window.Milliseconds()`. -/
def windowMs (g : Guard) : Int := g.window / 1000000

/-- Note the host as a refuser of the key, and count the refusers of the window. -/
def count (g : Guard) (key host : Str) (now : Time) : Act (Except Redis.Err Int) := do
  let rk := RefusalsKey key
  let nowMs := unixMilli now
  let cutoff := nowMs - g.windowMs
  match ← zadd rk nowMs host with
  | .error err => return .error err
  | .ok _ =>
    match ← zremRangeBelow rk cutoff with
    | .error err => return .error err
    | .ok _ =>
      match ← zcard rk with
      | .error err => return .error err
      | .ok n =>
        let _ ← pexpire rk (2 * g.windowMs)
        match n with
        | .int v => return .ok v
        | _ => return .ok 0

def stand (g : Guard) (key host reply : Str) (hosts : Int) (now : Time) (rule : Rule) : Act (Option Rule) := do
  let till := now.Add g.pause
  match ← pauseKey key till (lit "refusals of us: rule " ++ rule.name) with
  | .error _ => return none
  | .ok () =>
    standDown key till
    if g.log then
      Log { paceKey := key, rule, hosts, till, triggerHost := host, reply := addressRe.replaceAll (lit "<redacted>") reply }
    return some rule

section
variable [Unicode]

def ruleFor (g : Guard) (reply : Str) (hosts : Int) : Option Rule :=
  if NamesBlocklist reply then some .A
  else if g.hosts ≤ hosts then some .B
  else none

/-- `Observe` from the reading of the clock on. -/
def weigh (g : Guard) (key host reply : Str) : Act (Option Rule) := do
  let now ← now
  if isDown (← stood) key now then return none
  match ← g.count key host now with
  | .error _ => return none
  | .ok hosts =>
    match g.ruleFor reply hosts with
    | some rule => g.stand key host reply hosts now rule
    | none => return none

def Observe (g : Guard) (mxHost reply : Str) : Act (Option Rule) := do
  if mxHost = [] ∨ Benign reply then return none
  let key := PaceKey mxHost
  if g.recorder then refusalOfUs key
  g.weigh key (normaliseHost mxHost) reply

end

end Guard

def Resume [Unicode] (mxHost : Str) : Act (Except Str Unit) := do
  let key := PaceKey mxHost
  match ← resumeKey key with
  | .error err => return .error err
  | .ok () =>
    let _ ← del (RefusalsKey key)
    forget key
    return .ok ()

/-! ## A guard that is served -/

/-- The guard's map, the store's refusers and the pauses the pacer keeps, at a moment. -/
structure Node where
  clock : Time
  stood : Table Str Time := ∅
  refusals : Str → Scored Str := fun _ => {}
  paused : Table Str Time := ∅

namespace Node

def read (s : Node) (rk : Str) : Scored Str := (s.refusals rk).alive (unixMilli s.clock)

def write (s : Node) (rk : Str) (set : Scored Str) : Node := { s with refusals := Function.update s.refusals rk set }

end Node

/-- Nothing fails. The pacer pauses and resumes the key of the host it is given. -/
def serve [Unicode] : Player calls Node := fun s o =>
  match o with
  | .now => (s.clock, s)
  | .refusalOfUs _ => ((), s)
  | .stood => (s.stood, s)
  | .standDown key till => ((), { s with stood := s.stood.insert key till })
  | .forget key => ((), { s with stood := s.stood.erase key })
  | .zadd rk score member =>
    (.ok (.int (if member ∈ (s.read rk).members then 0 else 1)), s.write rk ((s.read rk).add member score))
  | .zremRangeBelow rk score =>
    let kept := (s.read rk).dropBelow score
    (.ok (.int ((s.read rk).card - kept.card)), s.write rk kept)
  | .zcard rk => (.ok (.int (s.read rk).card), s)
  | .pexpire rk ms =>
    (.ok (.int (if (s.read rk).card = 0 then 0 else 1)), s.write rk ((s.read rk).expireIn ms (unixMilli s.clock)))
  | .del rk => (.ok (.int (if (s.read rk).card = 0 then 0 else 1)), s.write rk {})
  | .pauseKey mxHost till _ => (.ok (), { s with paused := s.paused.insert (PaceKey mxHost) till })
  | .resumeKey mxHost => (.ok (), { s with paused := s.paused.erase (PaceKey mxHost) })
  | .log _ => ((), s)

def Unfailing [Unicode] : World calls Node := fun s e s' =>
  match e with
  | ⟨.zadd _ _ _, r⟩ | ⟨.zremRangeBelow _ _, r⟩ | ⟨.zcard _, r⟩ | ⟨.pexpire _ _, r⟩ | ⟨.del _, r⟩ =>
    (∃ reply, r = .ok reply) ∧ ∃ refusals, s' = { s with refusals }
  | ⟨o, a⟩ => (a, s') = serve s o

section
variable [Unicode]

lemma serve_unfailing (s : Node) (o : Op) : Unfailing s ⟨o, (serve s o).1⟩ (serve s o).2 := by
  cases o with
  | zadd rk score member => exact ⟨⟨_, rfl⟩, _, rfl⟩
  | zremRangeBelow rk score => exact ⟨⟨_, rfl⟩, _, rfl⟩
  | zcard rk => exact ⟨⟨_, rfl⟩, _, rfl⟩
  | pexpire rk ms => exact ⟨⟨_, rfl⟩, _, rfl⟩
  | del rk => exact ⟨⟨_, rfl⟩, _, rfl⟩
  | _ => rfl

/-! ## A named blocklist -/

namespace Guard

variable {g : Guard} {s : Node}

lemma count_ensures (key host : Str) (t : Time) :
    (g.count key host t).Ensures Unfailing
      (fun r s' => (∃ n, r = .ok n) ∧ ∃ refusals, s' = { s with refusals }) s := by
  rintro _ _ ⟨⟨_, rfl⟩, _, rfl⟩ _ _ ⟨⟨_, rfl⟩, _, rfl⟩ _ _ ⟨⟨n, rfl⟩, _, rfl⟩ _ _ ⟨-, _, rfl⟩
  cases n <;> exact ⟨⟨_, rfl⟩, _, rfl⟩

lemma stand_ensures (mxHost host reply : Str) (n : Int) (t : Time) (rule : Rule) :
    (g.stand (PaceKey mxHost) host reply n t rule).Ensures Unfailing
      (fun out s' => out = some rule ∧ s'.paused = s.paused.insert (PaceKey mxHost) (t.Add g.pause)) s := by
  have paused : (s.paused.insert (PaceKey (PaceKey mxHost)) (t.Add g.pause)) =
      s.paused.insert (PaceKey mxHost) (t.Add g.pause) := by
    rw [Pacer.PaceKey_PaceKey]
  rintro _ _ ⟨⟩ _ _ ⟨⟩
  dsimp only
  split
  · rintro _ _ ⟨⟩
    exact ⟨rfl, paused⟩
  · exact ⟨rfl, paused⟩

lemma weigh_named {mxHost host reply : Str} (named : NamesBlocklist reply = true)
    (up : isDown s.stood (PaceKey mxHost) s.clock = false) :
    (g.weigh (PaceKey mxHost) host reply).Ensures Unfailing
      (fun out s' => out = some .A ∧ s'.paused = s.paused.insert (PaceKey mxHost) (s.clock.Add g.pause)) s := by
  rintro _ _ ⟨⟩ _ _ ⟨⟩
  change (ite (isDown s.stood (PaceKey mxHost) s.clock = true) _ _ : Act _).Ensures _ _ _
  rw [up]
  refine (count_ensures (s := s) _ _ _).andThen ?_
  rintro _ _ ⟨⟨n, rfl⟩, refusals, rfl⟩
  have rule : g.ruleFor reply n = some .A := if_pos named
  dsimp only
  rw [rule]
  exact stand_ensures mxHost host reply n s.clock .A

lemma Observe_named {mxHost reply : Str} (counts : ¬ (mxHost = [] ∨ Benign reply = true))
    (named : NamesBlocklist reply = true) (up : isDown s.stood (PaceKey mxHost) s.clock = false) :
    (g.Observe mxHost reply).Ensures Unfailing
      (fun out s' => out = some .A ∧ s'.paused = s.paused.insert (PaceKey mxHost) (s.clock.Add g.pause)) s := by
  unfold Observe
  rw [if_neg counts]
  dsimp only
  split
  · rintro _ _ ⟨⟩
    exact weigh_named named up
  · exact weigh_named named up

lemma Observe_passes {mxHost reply : Str} (passed : mxHost = [] ∨ Benign reply = true) :
    g.Observe mxHost reply = .done none := if_pos passed

end Guard

/-- A named blocklist stands the key down, and no other, exactly when the refusal comes from a
host at all and says nothing that excuses it. Otherwise nothing happens. -/
theorem named_blocklist_stands_down_iff (g : Guard) {s t : Node} {mxHost reply : Str} {tr : Trace calls}
    {out : Option Rule} (named : NamesBlocklist reply = true) (up : isDown s.stood (PaceKey mxHost) s.clock = false)
    (run : Runs Unfailing (g.Observe mxHost reply) s tr (.done out) t) :
    (out = some .A ∧ t.paused = s.paused.insert (PaceKey mxHost) (s.clock.Add g.pause) ↔
      mxHost ≠ [] ∧ Benign reply = false) ∧
    (¬ (mxHost ≠ [] ∧ Benign reply = false) → out = none ∧ t = s) := by
  have counted : mxHost ≠ [] ∧ Benign reply = false ↔ ¬ (mxHost = [] ∨ Benign reply = true) := by
    rw [not_or, Bool.not_eq_true]
  rw [counted, not_not]
  by_cases passed : mxHost = [] ∨ Benign reply = true
  · have stays : out = none ∧ t = s := by
      rw [Guard.Observe_passes passed] at run
      cases run
      exact ⟨rfl, rfl⟩
    refine ⟨iff_of_false ?_ (not_not.mpr passed), fun _ => stays⟩
    rw [stays.1]
    nofun
  · have ends := (Guard.Observe_named passed named up).result run
    exact ⟨iff_of_true ends passed, fun excused => absurd excused passed⟩

end

def epochNode : Node := { clock := Time.ofUnix 0 }

theorem listed_stands_down :
    NamesBlocklist (lit "554 blocked using spamhaus") = true ∧
    ∃ tr t, Runs Unfailing ((New {}).Observe (lit "mx.test") (lit "554 blocked using spamhaus"))
      epochNode tr (.done (some .A)) t ∧
      t.paused = epochNode.paused.insert (PaceKey (lit "mx.test")) (epochNode.clock.Add (New {}).pause) := by
  have named : NamesBlocklist (lit "554 blocked using spamhaus") = true := by decide +kernel
  have fresh : Benign (lit "554 blocked using spamhaus") = false := by decide +kernel
  have run := Prog.play_runs id serve_unfailing
    ((New {}).Observe (lit "mx.test") (lit "554 blocked using spamhaus")) epochNode
  obtain ⟨result, pauses⟩ := (named_blocklist_stands_down_iff (New {}) named rfl run).1.mpr ⟨by decide, fresh⟩
  rw [result] at run
  exact ⟨named, _, _, run, pauses⟩

/-- A relay that is listed as well as unwelcome: the refusal is not even counted. -/
theorem listed_relay_excused :
    NamesBlocklist (lit "554 relay access denied: blocked using spamhaus") = true ∧
    isDown epochNode.stood (PaceKey (lit "mx.test")) epochNode.clock = false ∧
    ∃ tr, Runs Unfailing ((New {}).Observe (lit "mx.test") (lit "554 relay access denied: blocked using spamhaus"))
      epochNode tr (.done none) epochNode := by
  refine ⟨by decide +kernel, by decide +kernel, [], ?_⟩
  rw [Guard.Observe_passes (.inr (by decide +kernel))]
  exact .stop

end EmailVerifier.Standdown
