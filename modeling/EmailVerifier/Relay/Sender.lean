import EmailVerifier.Prober.ReadReply
import EmailVerifier.Relay.Queue
import EmailVerifier.Semantics.Protocol
import EmailVerifier.Text.Lines

/-! One delivery over a connection that is already open: `internal/relay/sender.go`.

The connection is an interface of its own. Whether the deadline comes from the caller's
context or from the timeout is left to it; what `Send` reads of a reply is what
`readFullReply` takes off the bytes of the peer.
-/

set_option autoImplicit false

namespace EmailVerifier.Relay
open Text Semantics
open Prober (Read readString stripLine continues)

/-! ## Replies -/

/-- The loop of `readFullReply` with the lines read so far. Every round takes a line off
the stream, so its length bounds the rounds. -/
def readFullReplyFrom : Nat → List Str → Str → Read
  | 0, _, _ => .cut
  | fuel + 1, all, s =>
    match readString s with
    | none => .cut
    | some (raw, rest) =>
      let line := stripLine raw
      if line.length < 3 then .short line rest
      -- Any number that `Atoi` reads off three bytes is a code here.
      else match atoi (line.take 3) with
        | none => .bad line rest
        | some code =>
          if continues line then readFullReplyFrom fuel (all ++ [line]) rest
          else .reply code (List.intercalate [10] (all ++ [line])) rest

def readFullReply (s : Str) : Read := readFullReplyFrom (s.length + 1) [] s

/-- `strings.ReplaceAll(text, "\r\n", "\n")`. -/
def unixLines : Str → Str
  | 13 :: 10 :: rest => 10 :: unixLines rest
  | b :: rest => b :: unixLines rest
  | [] => []

/-- A line that starts with a dot gets a second one; the text ends with a dot alone. -/
def dotStuff (data : Str) : Str :=
  let lines := (split 10 (unixLines data)).map fun l => if hasPrefix l (lit ".") then 46 :: l else l
  let out := List.intercalate crlf lines
  (if hasSuffix out crlf then out else out ++ crlf) ++ lit ".\r\n"

/-! ## The connection -/

inductive Wire where
  | setDeadline (timeout : Int)
  | writeString (s : Str)
  | readFullReply
  | handshake (serverName : Str)
  | write (data : Str)
  | close
  deriving DecidableEq, Repr

def Wire.Answer : Wire → Type
  | .writeString _ | .handshake _ | .write _ => Except Str Unit
  | .readFullReply => Except Str (Int × Str)
  | _ => Unit

def wire : Interface := ⟨Wire, Wire.Answer⟩

abbrev Talk := Prog wire

def setDeadline (timeout : Int) : Talk Unit := Prog.ask (I := wire) (.setDeadline timeout)
def writeString (s : Str) : Talk (Except Str Unit) := Prog.ask (I := wire) (.writeString s)
def nextReply : Talk (Except Str (Int × Str)) := Prog.ask (I := wire) .readFullReply
def handshake (serverName : Str) : Talk (Except Str Unit) := Prog.ask (I := wire) (.handshake serverName)
def write (data : Str) : Talk (Except Str Unit) := Prog.ask (I := wire) (.write data)
def close : Talk Unit := Prog.ask (I := wire) .close

/-- `step`: a command, if there is one, and the reply to it. -/
def step (cmd : Str) : Talk (Except Str (Int × Str)) :=
  if cmd = [] then nextReply
  else do
    match ← writeString (cmd ++ crlf) with
    | .error err => return .error err
    | .ok () => nextReply

/-- `reply`: the outcome that a reply stands for if it ends the attempt. -/
def replied (code : Int) (text : Str) : Outcome := { permanent := 500 ≤ code, code, reply := text }

def withTLS (o : Outcome) (used : Bool) : Outcome := { o with tls := used }

/-- One command of the attempt: it goes on after the expected codes only. -/
def stage (cmd : Str) (expected : List Int) (used : Bool) (next : Str → Talk Outcome) : Talk Outcome := do
  match ← step cmd with
  | .error err => return { err }
  | .ok (code, text) => if code ∈ expected then next text else return withTLS (replied code text) used

/-- From `MAIL FROM` on. -/
def transfer (opt : SendOptions) (used : Bool) : Talk Outcome :=
  -- Neither before nor at `MAIL FROM` does a refusal say whether TLS was used.
  stage (lit "MAIL FROM:<" ++ opt.mailFrom ++ lit ">") [250] false fun _ =>
  stage (lit "RCPT TO:<" ++ opt.rcptTo ++ lit ">") [250, 251] used fun _ =>
  stage (lit "DATA") [354] used fun _ => do
    match ← write (dotStuff opt.data) with
    | .error err => return { err }
    | .ok () =>
      match ← step [] with
      | .error err => return { err }
      | .ok (code, text) =>
        let _ ← step (lit "QUIT")
        return if code = 250 then { delivered := true, code, reply := text, tls := used }
          else withTLS (replied code text) used

section
variable [Unicode]

def converse (opt : SendOptions) : Talk Outcome :=
  stage [] [220] false fun _ =>
  stage (lit "EHLO " ++ opt.helo) [250] false fun text =>
    if contains (toUpper text) (lit "STARTTLS") then
      stage (lit "STARTTLS") [220] false fun _ => do
        match ← handshake opt.mxHost with
        | .error err => return { err }
        -- What the server said before TLS does not count.
        | .ok () => stage (lit "EHLO " ++ opt.helo) [250] false fun _ => transfer opt true
    else transfer opt false

def Send (opt : SendOptions) : Talk Outcome := do
  setDeadline (if opt.timeout ≤ 0 then 60 * second else opt.timeout)
  let out ← converse opt
  close
  return out

end

/-! ## What ended an attempt -/

/-- What was heard last, or what failed, until we take our leave. -/
structure Attempt where
  last : Option (Except Str (Int × Str)) := none
  quit : Bool := false
  deriving DecidableEq

namespace Attempt

def hear (m : Attempt) (said : Except Str (Int × Str)) : Attempt := if m.quit then m else { m with last := some said }

def fail (m : Attempt) : Except Str Unit → Attempt
  | .error err => m.hear (.error err)
  | .ok () => m

def note (m : Attempt) : Event wire → Attempt
  | ⟨.writeString line, a⟩ => if line = lit "QUIT\r\n" then { m with quit := true } else m.fail a
  | ⟨.readFullReply, a⟩ => m.hear a
  | ⟨.handshake _, a⟩ => m.fail a
  | ⟨.write _, a⟩ => m.fail a
  | _ => m

end Attempt

def ending (tr : Trace wire) : Option (Except Str (Int × Str)) := (tr.foldl Attempt.note {}).last

/-- The outcome says what the end of the attempt was. -/
def Concludes (out : Outcome) (m : Attempt) : Prop :=
  match m.last with
  | none => False
  | some (.error err) => out = { err }
  | some (.ok (code, text)) => out.code = code ∧ out.reply = text ∧ (out.delivered = true → code = 250) ∧
      out.permanent = (!out.delivered && decide (500 ≤ code))

abbrev Following : World wire Attempt := World.noting Attempt.note

variable {m : Attempt} {cmd : Str}

lemma ask_follows {A : Type} {op : Wire} {f : op.Answer → Talk A} {post : A → Attempt → Prop}
    (rest : ∀ a, (f a).Follows Following post (m.note ⟨op, a⟩)) : (Prog.ask (I := wire) op >>= f).Follows Following post m :=
  fun a => ⟨_, rfl, rest a⟩

lemma Attempt.hear_stays (stays : m.quit = false) (said : Except Str (Int × Str)) :
    m.hear said = { m with last := some said } := by
  simp only [Attempt.hear, stays, Bool.false_eq_true, if_false]

lemma step_follows (stays : m.quit = false) (other : cmd ++ crlf ≠ lit "QUIT\r\n") :
    (step cmd).Follows Following (fun said m' => m' = { m with last := some said }) m := by
  have reads : nextReply.Follows Following (fun said m' => m' = { m with last := some said }) m :=
    fun said => ⟨_, rfl, m.hear_stays stays said⟩
  unfold step
  split
  · exact reads
  · apply ask_follows
    intro written
    simp only [Attempt.note, if_neg other]
    cases written with
    | error err => exact m.hear_stays stays _
    | ok _ => exact reads

lemma stage_follows {expected : List Int} {used : Bool} {next : Str → Talk Outcome}
    (stays : m.quit = false) (other : cmd ++ crlf ≠ lit "QUIT\r\n")
    (rest : ∀ text m', m'.quit = false → (next text).Follows Following Concludes m') :
    (stage cmd expected used next).Follows Following Concludes m := by
  apply (step_follows stays other).andThen
  rintro said m' rfl
  rcases said with err | ⟨code, text⟩
  · rfl
  · dsimp only
    split
    · exact rest text _ stays
    · exact ⟨rfl, rfl, nofun, rfl⟩

-- Of the commands only the last begins with a Q.
lemma other_command {rest : Str} {first : UInt8} (same : cmd = first :: rest) (other : first ≠ 81) :
    cmd ++ crlf ≠ lit "QUIT\r\n" := by
  intro quit
  have head := congrArg List.head? quit
  rw [same] at head
  exact other (Option.some.inj head)

-- What we hear after that is no part of the attempt.
lemma quit_follows : (step (lit "QUIT")).Follows Following (fun _ m' => m' = { m with quit := true }) m := by
  apply ask_follows
  intro written
  cases written with
  | error err => rfl
  | ok _ => exact fun said => ⟨_, rfl, rfl⟩

lemma transfer_follows (opt : SendOptions) (used : Bool) (stays : m.quit = false) :
    (transfer opt used).Follows Following Concludes m := by
  refine stage_follows stays (other_command rfl (by decide)) fun _ m₁ stays => ?_
  refine stage_follows stays (other_command rfl (by decide)) fun _ m₂ stays => ?_
  refine stage_follows stays (other_command rfl (by decide)) fun _ m₃ stays => ?_
  apply ask_follows
  intro written
  cases written with
  | error err =>
    change Concludes _ (m₃.hear _)
    rw [m₃.hear_stays stays]
    rfl
  | ok _ =>
    apply (step_follows stays (by decide)).andThen
    rintro said m₄ rfl
    rcases said with err | ⟨code, text⟩
    · rfl
    · apply quit_follows.andThen
      rintro _ m₅ rfl
      change Concludes (if code = 250 then _ else _) _
      split
      · rename_i accepted
        exact ⟨rfl, rfl, fun _ => accepted, rfl⟩
      · exact ⟨rfl, rfl, nofun, rfl⟩

section
variable [Unicode]

lemma converse_follows (opt : SendOptions) : (converse opt).Follows Following Concludes {} := by
  refine stage_follows rfl (by decide) fun _ m₁ stays => ?_
  refine stage_follows stays (other_command rfl (by decide)) fun text m₂ stays => ?_
  split
  · refine stage_follows stays (other_command rfl (by decide)) fun _ m₃ stays => ?_
    apply ask_follows
    intro shaken
    cases shaken with
    | error err =>
      change Concludes _ (m₃.hear _)
      rw [m₃.hear_stays stays]
      rfl
    | ok _ =>
      refine stage_follows stays (other_command rfl (by decide)) fun _ m₄ stays => ?_
      exact transfer_follows opt true stays
  · exact transfer_follows opt false stays

/-- An attempt that returned says what ended it. -/
lemma Send_concludes {S : Type} {W : World wire S} {opt : SendOptions} {s t : S} {tr : Trace wire} {out : Outcome}
    (run : Runs W (Send opt) s tr (.done out) t) : Concludes out (tr.foldl Attempt.note {}) := by
  have follows : (Send opt).Follows Following Concludes {} := by
    refine ask_follows fun _ => ?_
    exact (converse_follows opt).andThen fun out m concludes => ask_follows fun _ => concludes
  obtain ⟨m, path, done⟩ := follows.path run
  rw [← Path.noted path]
  exact done

end

end EmailVerifier.Relay
