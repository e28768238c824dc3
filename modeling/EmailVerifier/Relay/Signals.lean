import EmailVerifier.Relay.Course
import EmailVerifier.Relay.Drainers
import EmailVerifier.Relay.Sender

/-! What the relay tells the pacer that it shares with the prober.

The relay goes by the code of the reply that ended an attempt, the prober by its class.
-/

set_option autoImplicit false

namespace EmailVerifier.Relay
open Text Semantics
open Prober (classify hasAny throttleHints tlsRe)

section
variable [Unicode]

/-- A temporary refusal that speaks of our rate, and neither of greylisting nor of TLS. -/
def Throttling (code : Int) (text : Str) : Prop :=
  400 ≤ code ∧ code < 500 ∧
  contains (toLower text) (lit "greylist") = false ∧ contains (toLower text) (lit "grey list") = false ∧
  tlsRe.isMatch (toLower text) = false ∧ (code = 421 ∨ hasAny (toLower text) throttleHints = true)

lemma classifyPermanent_clean (t : Str) (id : Prober.Identity) : (Prober.classifyPermanent t id).isThrottle = false :=
  (by decide : ∀ c ∈ [Prober.Class.valid, .invalid, .policy], c.isThrottle = false) _ (Prober.classifyPermanent_mem t id)

lemma classify_isThrottle (code : Int) (text : Str) : (classify code text).isThrottle = true ↔ Throttling code text := by
  unfold classify Prober.classifyAs Throttling
  dsimp only
  split
  · rename_i outside
    exact ⟨nofun, fun holds => by omega⟩
  split
  · rename_i grey
    rw [Bool.or_eq_true] at grey
    refine ⟨nofun, fun holds => ?_⟩
    rcases grey with grey | grey
    · cases grey.symm.trans holds.2.2.1
    · cases grey.symm.trans holds.2.2.2.1
  rename_i coloured
  simp only [Bool.or_eq_true, not_or, Bool.not_eq_true] at coloured
  split
  · rename_i tls
    exact ⟨nofun, fun holds => absurd tls.2.2 (by rw [holds.2.2.2.2.1]; decide)⟩
  rename_i plain
  have plain (temporary : 400 ≤ code ∧ code < 500) : tlsRe.isMatch (toLower text) = false :=
    Bool.eq_false_iff.mpr fun tls => plain ⟨temporary.1, temporary.2, tls⟩
  split
  · rename_i closing
    exact ⟨fun _ => ⟨by omega, by omega, coloured.1, coloured.2, plain (by omega), .inl closing⟩, fun _ => rfl⟩
  split
  · exact ⟨nofun, fun holds => by omega⟩
  split
  · exact ⟨nofun, fun holds => by omega⟩
  split
  · rename_i temporary
    split
    · rename_i hinted
      exact ⟨fun _ => ⟨temporary.1, temporary.2, coloured.1, coloured.2, plain temporary, .inr hinted⟩, fun _ => rfl⟩
    · rename_i closing _ _ silent
      refine ⟨nofun, fun holds => ?_⟩
      rcases holds.2.2.2.2.2 with closes | hinted
      · exact absurd closes closing
      · exact absurd hinted silent
  split
  · exact ⟨nofun, fun holds => by omega⟩
  · rw [classifyPermanent_clean]
    exact ⟨nofun, fun holds => by omega⟩

end

inductive Note where
  | sent (opt : SendOptions) (out : Outcome)
  | observed (mxHost : Str) (throttled : Bool)
  deriving DecidableEq

def noteOf : Event calls → List Note
  | ⟨.send _ opt, out⟩ => [.sent opt out]
  | ⟨.observe mxHost throttled, _⟩ => [.observed mxHost throttled]
  | _ => []

def notes (tr : Trace calls) : List Note := tr.flatMap noteOf

abbrev Noting : World calls (List Note) := World.noting fun m e => m ++ noteOf e

section
variable [Library]

/-- What `DeliverNext` makes of an outcome. -/
def throttles (out : Outcome) : Bool := !out.delivered && !out.permanent

/-- Nothing was sent, or one message, and then the pacer was told once. -/
def Told (m : List Note) : Prop :=
  m = [] ∨ (∃ mxHost, m = [.observed mxHost true]) ∨
    ∃ opt out, m = [.sent opt out, .observed opt.mxHost (throttles out)]

def Noted (m : List Note) : Point → Prop
  | .tried _ host out => ∃ opt, opt.mxHost = host ∧ m = [.sent opt out]
  | .failed _ | .stored _ | .settled _ _ | .over => Told m
  | _ => m = []

omit [Library] in
lemma noteOf_aside {op : Op} (aside : op.aside = true) (a : op.Answer) : noteOf ⟨op, a⟩ = [] := by
  cases op with
  | store _ | enforcing | sent _ | queueDepth _ _ _ => rfl
  | _ => cases aside

lemma Noted.arrow {o : Options} {m : List Note} {p p' : Point} {e : Event calls} (step : Course o p e p')
    (here : Noted m p) : Noted (m ++ noteOf e) p' := by
  cases step with
  | aside quiet _ =>
    rw [noteOf_aside quiet, List.append_nil]
    exact here
  | @sent item f conn opt out =>
    rw [show m = [] from here]
    exact ⟨opt, rfl, rfl⟩
  | @slowed item host =>
    rw [show m = [] from here]
    exact .inr (.inl ⟨host, rfl⟩)
  | @delivered item host out done =>
    obtain ⟨opt, rfl, rfl⟩ := here
    exact .inr (.inr ⟨opt, out, by simp [noteOf, throttles, done]⟩)
  | @undelivered item host out undone =>
    obtain ⟨opt, rfl, rfl⟩ := here
    exact .inr (.inr ⟨opt, out, by simp [noteOf, throttles, undone]⟩)
  | unkept | kept | buried | later | scheduled | deleted | unlisted | unpaused | clock | due | gone | removed | pushed
    | popped | fetched | fresh | allowed | hosted | paid | resolved | undialled | dialled =>
    exact (List.append_nil m).symm ▸ here
  | _ => exact .inl ((List.append_nil m).trans here)

lemma DeliverNext_tells [Unicode] (o : Options) : o.DeliverNext.Follows Noting (fun _ m => Told m) [] := by
  refine (DeliverNext_course.simulated (R := fun p m => Noted m p) (fun p m e p' here step => ?_) rfl).mono ?_
  · exact ⟨_, rfl, here.arrow step⟩
  · rintro _ m ⟨_, told, rfl⟩
    exact told

/-- The calls of the pacer's `Observe`. -/
def observations (tr : Trace calls) : List (Str × Bool) :=
  (notes tr).filterMap fun
    | .observed mxHost throttled => some (mxHost, throttled)
    | .sent _ _ => none

lemma notes_told [Unicode] {S : Type} {W : World calls S} {o : Options} {s t : S} {tr : Trace calls}
    {r : Bool × Except Err Unit} (run : Runs W o.DeliverNext s tr (.done r) t) : Told (notes tr) := by
  obtain ⟨m, path, told⟩ := (DeliverNext_tells o).path run
  have noted : m = [] ++ notes tr := by
    rw [Path.noted path]
    clear * -
    generalize ([] : List Note) = before
    induction tr generalizing before with
    | nil => simp [notes]
    | cons e more ih =>
      rw [List.foldl_cons, ih]
      simp [notes]
  rw [List.nil_append] at noted
  rw [← noted]
  exact told

/-- The pacer is told once per attempt, and it is told what the prober would tell it
exactly if the message was delivered, the refusal is permanent, or it is a throttle. -/
theorem signals_agree_iff [Unicode] {S T : Type} {W : World calls S} {V : World wire T} {o : Options} {s t : S} {u v : T}
    {tr : Trace calls} {r : Bool × Except Err Unit} (run : Runs W o.DeliverNext s tr (.done r) t)
    {opt : SendOptions} {out : Outcome} (sent : .sent opt out ∈ notes tr)
    {said : Trace wire} (attempt : Runs V (Send opt) u said (.done out) v)
    {code : Int} {text : Str} (ended : ending said = some (.ok (code, text))) :
    ∃ throttled, observations tr = [(opt.mxHost, throttled)] ∧
      ((throttled = true ↔ (classify code text).isThrottle = true) ↔
        out.delivered = true ∨ 500 ≤ code ∨ Throttling code text) := by
  have concludes := Send_concludes attempt
  unfold ending at ended
  simp only [Concludes, ended] at concludes
  obtain ⟨-, -, accepted, permanent⟩ := concludes
  have told : notes tr = [.sent opt out, .observed opt.mxHost (throttles out)] := by
    rcases notes_told run with none | ⟨mxHost, dialled⟩ | ⟨opt', out', once⟩
    · rw [none] at sent
      cases sent
    · rw [dialled] at sent
      simp at sent
    · rw [once] at sent ⊢
      simp only [List.mem_cons, Note.sent.injEq, reduceCtorEq, List.not_mem_nil, or_false] at sent
      rw [sent.1, sent.2]
  refine ⟨throttles out, by rw [observations, told]; rfl, ?_⟩
  rw [classify_isThrottle]
  have slow : throttles out = true ↔ ¬ out.delivered = true ∧ ¬ 500 ≤ code := by
    rw [throttles, permanent]
    cases out.delivered <;> simp
  rw [slow]
  have temporary (throttling : Throttling code text) : ¬ out.delivered = true ∧ ¬ 500 ≤ code := by
    refine ⟨fun delivered => ?_, fun high => ?_⟩
    · have := accepted delivered
      have := throttling.1
      omega
    · have := throttling.2.1
      omega
  constructor
  · intro agree
    by_cases delivered : out.delivered = true
    · exact .inl delivered
    by_cases high : 500 ≤ code
    · exact .inr (.inl high)
    · exact .inr (.inr (agree.mp ⟨delivered, high⟩))
  · rintro (delivered | high | throttling)
    · exact ⟨fun slow => absurd delivered slow.1, temporary⟩
    · exact ⟨fun slow => absurd high slow.2, temporary⟩
    · exact ⟨fun _ => throttling, fun _ => temporary throttling⟩

end

/-- A server whose replies are written down; each is read as `readFullReply` reads it. -/
def scripted : Player wire (List Str) := fun chunks op =>
  match op with
  | .readFullReply =>
    match chunks with
    | [] => (.error (lit "EOF"), [])
    | chunk :: more =>
      match readFullReply chunk with
      | .reply code text _ => (.ok (code, text), more)
      | _ => (.error (lit "relay: bad reply"), more)
  | .writeString _ | .handshake _ | .write _ => (.ok (), chunks)
  | .setDeadline _ | .close => ((), chunks)

def mailing (script : List Str) : Player calls Shared := fun s op =>
  match op with
  | .send _ opt => (((Send opt).play scripted script).2.1, s)
  | op => redis s op

-- One message stands in the queue.
def queued : Shared := ((taking oneRelay oneMessage).play redis {}).2.2

def mailed (script : List Str) : Trace calls × (Bool × Except Err Unit) × Shared :=
  oneRelay.DeliverNext.play (mailing script) queued

def oneItem : Item :=
  match (queued.store.bodies.lookup (base64RawURL (List.replicate 18 7))).map Library.unmarshal with
  | some (.ok item) => item
  | _ => { id := [] }

def oneSending : SendOptions :=
  { mxHost := lit "mx.test", helo := oneRelay.helo, mailFrom := oneItem.mailFrom, rcptTo := oneItem.rcptTo
    data := oneItem.data, timeout := oneRelay.timeout }

def sending (script : List Str) : Trace wire × Outcome × List Str := (Send oneSending).play scripted script

lemma mailed_runs (script : List Str) :
    Runs World.free oneRelay.DeliverNext () (mailed script).1 (.done (mailed script).2.1) () :=
  Prog.play_runs (fun _ => ()) (fun _ _ => trivial) oneRelay.DeliverNext queued

lemma sending_runs (script : List Str) :
    Runs World.free (Send oneSending) () (sending script).1 (.done (sending script).2.1) () :=
  Prog.play_runs (fun _ => ()) (fun _ _ => trivial) (Send oneSending) script

def busy : List Str := [lit "421 4.7.0 Too many connections\r\n"]

/-- Turned away at the banner: both readings are a throttle. -/
theorem busy_agrees : ∃ throttled, observations (mailed busy).1 = [(lit "mx.test", throttled)] ∧
    (throttled = true ↔ (classify 421 (lit "421 4.7.0 Too many connections")).isThrottle = true) := by
  have sent : .sent oneSending (sending busy).2.1 ∈ notes (mailed busy).1 := by decide +kernel
  have ended : ending (sending busy).1 = some (.ok (421, lit "421 4.7.0 Too many connections")) := by decide +kernel
  have throttling : Throttling 421 (lit "421 4.7.0 Too many connections") := by
    refine ⟨by decide, by decide, ?_, ?_, ?_, .inl rfl⟩
    all_goals decide +kernel
  obtain ⟨throttled, observed, agree⟩ := signals_agree_iff (mailed_runs busy) sent (sending_runs busy) ended
  exact ⟨throttled, observed, agree.mpr (.inr (.inr throttling))⟩

def greylisting : List Str :=
  [lit "220 mx.test\r\n", lit "250 mx.test\r\n", lit "250 OK\r\n", lit "450 4.2.0 Greylisted\r\n"]

/-- A recipient that is greylisted slows down the server for everyone. -/
theorem greylisting_throttles :
    Runs World.free oneRelay.DeliverNext () (mailed greylisting).1 (.done (mailed greylisting).2.1) () ∧
    .sent oneSending (sending greylisting).2.1 ∈ notes (mailed greylisting).1 ∧
    Runs World.free (Send oneSending) () (sending greylisting).1 (.done (sending greylisting).2.1) () ∧
    ending (sending greylisting).1 = some (.ok (450, lit "450 4.2.0 Greylisted")) ∧
    observations (mailed greylisting).1 = [(lit "mx.test", true)] ∧
    (classify 450 (lit "450 4.2.0 Greylisted")).isThrottle = false := by
  refine ⟨mailed_runs _, ?_, sending_runs _, ?_, ?_, ?_⟩
  all_goals decide +kernel

end EmailVerifier.Relay
