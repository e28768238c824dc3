import EmailVerifier.Prober.CatchAll

/-! The books a bystander keeps of a request.

Every complete reply to a real recipient is entered, with what kind of transaction it
fell into, and every mishap by its kind. The books tell what a session may hand back:
the answers in the order they came, a non-answer for what it had to give up, and the
rest of its addresses where grouping was refused.
-/

set_option autoImplicit false

namespace EmailVerifier.Prober
open Text Data Semantics

structure Heard where
  addr : Str
  reply : Reply
  /-- A further domain's transaction of a grouped session was open. -/
  further : Bool
  deriving DecidableEq, Repr

def Heard.relay (h : Heard) : Bool := h.further && relayRefusal h.reply.code h.reply.text

/-- A further domain refused as one too many: the address will be asked again. -/
def Heard.limit (h : Heard) : Bool :=
  h.further && !relayRefusal h.reply.code h.reply.text && domainLimitRefusal h.reply.code h.reply.text

inductive Mishap where
  /-- A token, a lease, a connection or the random source failed. -/
  | failed
  /-- The host cannot be used or turned the session away. -/
  | turnedAway
  /-- Too many policy replies in a row. -/
  | stopped
  /-- Grouping was refused inside a domain that had an address accepted already. -/
  | split
  deriving DecidableEq, Repr

structure Ledger extends Dialogue where
  /-- The policy replies in a row. -/
  policyRun : Nat := 0
  /-- An address was accepted in the open transaction. -/
  accepted : Bool := false
  heard : List Heard := []
  mishaps : List Mishap := []

namespace Ledger

def suffers (l : Ledger) (mishap : Mishap) (happened : Bool) : Ledger :=
  if happened then { l with mishaps := l.mishaps ++ [mishap] } else l

def write (l : Ledger) (command : Command) : Ledger :=
  { l with
    toDialogue := l.asks command
    accepted := l.accepted && !isMailFrom command }

section
variable [Unicode]

def book (o : Options) (l : Ledger) (reply : Reply) : Ledger :=
  { l with
    policyRun := if o.classOf reply = .policy then l.policyRun + 1 else 0
    accepted := l.accepted || o.classOf reply = .valid }

/-- The reply to a real recipient. A relay or domain limit refusal ends the session. -/
def answer (o : Options) (stop : Int) (l : Ledger) (addr : Str) (reply : Reply) : Ledger :=
  let h : Heard := { addr := addr, reply := reply, further := l.further }
  let noted : Ledger := { l with heard := l.heard ++ [h] }
  if h.relay || h.limit then noted.suffers .split l.accepted
  else (noted.book o reply).suffers .stopped (0 < stop && stop ≤ (noted.book o reply).policyRun)

def turnsAway (o : Options) (l : Ledger) (reply : Reply) : Bool :=
  match l.due with
  | none => reply.code ≠ 220
  | some (.ehlo _) => reply.code ≠ 250
  | some (.mailFrom _) =>
    reply.code ≠ 250 && (l.mails ≤ 1 || reply.code = 421 || (o.classOf reply).isThrottle)
  | some .rset => reply.code ≠ 250 && (reply.code = 421 || (o.classOf reply).isThrottle)
  | _ => false

def hear (o : Options) (stop : Int) (l : Ledger) (reply : Reply) : Ledger :=
  match l.due with
  | some (.rcpt addr) => l.answer o stop addr reply
  | _ => l.suffers .turnedAway (l.turnsAway o reply)

def next (o : Options) (stop : Int) (l : Ledger) : Event calls → Ledger
  | ⟨.enter _ grouped, _⟩ => { grouped := grouped, heard := l.heard, mishaps := l.mishaps }
  | ⟨.burned, (yes, _)⟩ => l.suffers .turnedAway yes
  | ⟨.resolve _, .error _⟩ => l.suffers .turnedAway true
  | ⟨.resolve _, .ok ips⟩ => l.suffers .turnedAway (ips = [])
  | ⟨.acquireSession _ _, .error _⟩ => l.suffers .failed true
  | ⟨.acquire _ _, .error _⟩ => l.suffers .failed true
  | ⟨.dialContext _ _ _, .error _⟩ => l.suffers .failed true
  | ⟨.dialContext _ _ _, .ok _⟩ => { l with due := none, mails := 0 }
  | ⟨.write _ command, .error _⟩ => (l.write command).suffers .failed true
  | ⟨.write _ command, .ok _⟩ => l.write command
  | ⟨.readReply _, .error _⟩ => l.suffers .failed true
  | ⟨.readReply _, .ok reply⟩ => l.hear o stop reply
  | ⟨.randRead, .error _⟩ => l.suffers .failed true
  | _ => l

end

/-- Nothing went wrong but, at the most, that a session was turned away. -/
structure Smooth (l : Ledger) : Prop where
  granted : .failed ∉ l.mishaps
  unstopped : .stopped ∉ l.mishaps
  whole : .split ∉ l.mishaps

end Ledger

section
variable [Unicode]

def Heard.result (o : Options) (h : Heard) : Result := answerResult o h.reply h.relay

def booked (o : Options) (done : List Heard) : Results :=
  done.foldl (fun out h => out.insert h.addr (h.result o)) ∅

def booksOf (o : Options) (req : Request) (tr : Trace calls) : Ledger :=
  tr.foldl (Ledger.next o (o.policyStopFor req)) {}

end

lemma Result.SameAnswer.rfl {r : Result} : r.SameAnswer r := by
  unfold Result.SameAnswer
  cases r
  exact Eq.refl _

lemma Result.SameAnswer.connected {r base : Result} (same : r.SameAnswer base) : r.connected = base.connected := by
  rw [same]

lemma Result.SameAnswer.cls {r base : Result} (same : r.SameAnswer base) : r.cls = base.cls := by
  rw [same]

lemma optionRel_refl (x : Option Result) : Option.Rel Result.SameAnswer x x := by
  cases x with
  | none => exact .none
  | some r => exact .some .rfl

def ValidIn (out : Results) (addr : Str) : Prop := ∃ r, out.lookup addr = some r ∧ r.cls = .valid

section
variable [Unicode] {o : Options} {done more : List Heard} {lost : List Str} {results : Results} {addr : Str}
  {r : Result}

lemma booked_snoc (done : List Heard) (h : Heard) :
    booked o (done ++ [h]) = (booked o done).insert h.addr (h.result o) := by
  simp [booked]

lemma booked_from (found : (booked o done).lookup addr = some r) : ∃ h ∈ done, h.addr = addr ∧ r = h.result o := by
  induction done using List.reverseRecOn with
  | nil => simp [booked] at found
  | append_singleton done h ih =>
    rw [booked_snoc, Table.lookup_insert_ite] at found
    split at found
    · rename_i same
      exact ⟨h, by simp, same.symm, (Option.some.inj found).symm⟩
    · obtain ⟨h', member, same⟩ := ih found
      exact ⟨h', by simp [member], same⟩

lemma booked_other (other : addr ∉ more.map Heard.addr) :
    (booked o (done ++ more)).lookup addr = (booked o done).lookup addr := by
  induction more using List.reverseRecOn with
  | nil => rw [List.append_nil]
  | append_singleton more h ih =>
    rw [List.map_append, List.mem_append, not_or, List.map_singleton, List.mem_singleton] at other
    rw [← List.append_assoc, booked_snoc, Table.lookup_insert_ite, if_neg other.2, ih other.1]

/-- The table holds the answers booked, and a non-answer for each address lost. -/
structure Recorded (o : Options) (done : List Heard) (lost : List Str) (results : Results) : Prop where
  given_up : ∀ addr ∈ lost, ∃ r, results.lookup addr = some r ∧ Unanswered r
  kept : ∀ addr, addr ∉ lost → Option.Rel Result.SameAnswer (results.lookup addr) ((booked o done).lookup addr)

lemma Recorded.booked (done : List Heard) : Recorded o done [] (booked o done) :=
  ⟨by simp, fun addr _ => optionRel_refl _⟩

lemma Recorded.giveUp (none : Unanswered r) : Recorded o done lost (Table.setAll lost r (Prober.booked o done)) := by
  constructor
  · intro addr member
    exact ⟨r, by rw [Table.lookup_setAll, if_pos member], none⟩
  · intro addr other
    rw [Table.lookup_setAll, if_neg other]
    exact optionRel_refl _

lemma Recorded.mapVals {f : Str → Result → Result} (recorded : Recorded o done lost results)
    (still : ∀ addr r, Unanswered r → Unanswered (f addr r))
    (same : ∀ addr r, r.connected = some true → (f addr r).SameAnswer r) : Recorded o done lost (results.mapVals f) := by
  constructor
  · intro addr member
    obtain ⟨r, found, none⟩ := recorded.given_up addr member
    exact ⟨f addr r, by rw [Table.lookup_mapVals, found]; rfl, still addr r none⟩
  · intro addr other
    have kept := recorded.kept addr other
    rw [Table.lookup_mapVals]
    generalize results.lookup addr = here at kept
    generalize booking : (Prober.booked o done).lookup addr = there at kept
    cases kept with
    | none => exact .none
    | @some r base answer =>
      obtain ⟨h, -, -, rfl⟩ := booked_from booking
      have connected : r.connected = some true := by rw [answer.connected, Heard.result, answerResult_connected]
      exact .some ((same addr r connected).trans answer)

lemma Recorded.validIn (recorded : Recorded o done lost results) (valid : ValidIn results addr) :
    ValidIn (Prober.booked o done) addr := by
  obtain ⟨r, found, accepted⟩ := valid
  by_cases member : addr ∈ lost
  · obtain ⟨r', found', none⟩ := recorded.given_up addr member
    rw [found] at found'
    cases found'
    exact absurd (.inl accepted) none.cls
  · have kept := recorded.kept addr member
    rw [found] at kept
    generalize booking : (Prober.booked o done).lookup addr = there at kept
    cases kept with
    | some answer => exact ⟨_, booking, answer.cls ▸ accepted⟩

end

end EmailVerifier.Prober
