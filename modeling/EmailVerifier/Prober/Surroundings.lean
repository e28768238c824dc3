import EmailVerifier.Prober.Interface
import EmailVerifier.Prober.ReadReply
import EmailVerifier.Semantics.Player

/-! The surroundings of a request.

`anyone` is all of them at once: any health, resolver, pacer, store, network and
server, as long as replies are read off some stream of bytes. The players are two of
them that decide every answer.
-/

set_option autoImplicit false

namespace EmailVerifier.Prober
open Text Semantics

def Reply.Formed (reply : Reply) : Prop :=
  ∃ stream rest, readReply stream = .reply reply.code reply.text rest

def Readable : Event calls → Prop
  | ⟨.readReply _, .ok reply⟩ => reply.Formed
  | _ => True

def anyone : World calls Unit := fun _ e _ => Readable e

def broken : Failure where
  text := lit "unreachable"

def greeting : Reply where
  code := 220
  text := lit "220"

def welcome : Reply where
  code := 250
  text := lit "250"

/-- Surroundings in which everything is granted and every command gets the same reply.
The state says whether the banner is still due. -/
def answering (reply : Reply) : Player calls Bool := fun fresh o => match o with
  | .burned => ((false, []), fresh)
  | .resolve _ => (.ok [⟨lit "192.0.2.1"⟩], fresh)
  | .acquireSession _ _ => (.ok ⟨0, 0⟩, fresh)
  | .acquire _ _ => (.ok (), fresh)
  | .dialContext _ _ _ => (.ok 0, true)
  | .write _ _ => (.ok (), fresh)
  | .readReply _ => (.ok (if fresh then greeting else reply), false)
  | .handshake _ _ _ => (.ok true, fresh)
  | .isRandomiser _ => (false, fresh)
  | .tlsBroken _ => (true, fresh)
  | .enforcing => (false, fresh)
  | .suppressed _ => (.ok (false, []), fresh)
  | .fallenLoad _ => (true, fresh)
  | .fallenLoadOrStore _ => (true, fresh)
  | .randRead => (.ok ⟨List.replicate 12 0, rfl⟩, fresh)
  | .randFloat => ((0 : ℚ), fresh)
  | .enter _ _ | .leave _ | .release _ | .setDeadline _ _ | .setWriteDeadline _ _ | .close _
  | .markRandomiser _ | .markTLSBroken _ | .notify _ => ((), fresh)

def granting : Player calls Bool := answering welcome

/-- Whom the surroundings have on a list that is enforced, and the name they draw for
bogus addresses. -/
structure Host where
  list : Option (Str → Bool × Str) := none
  nonce : Nonce := ⟨List.replicate 12 0, rfl⟩

def hosting (h : Host) : Player calls Bool := fun fresh o => match o with
  | .enforcing => (h.list.isSome, fresh)
  | .suppressed email => (.ok (h.list.elim (false, []) fun find => find email), fresh)
  | .randRead => (.ok h.nonce, fresh)
  | o => granting fresh o

/-- Surroundings in which everything is granted and each reply is told by the commands
of the session so far, none of them for the banner. The state holds those commands. -/
def replying (replies : List Command → Reply) : Player calls (List Command) := fun sent o => match o with
  | .burned => ((false, []), sent)
  | .resolve _ => (.ok [⟨lit "192.0.2.1"⟩], sent)
  | .acquireSession _ _ => (.ok ⟨0, 0⟩, sent)
  | .acquire _ _ => (.ok (), sent)
  | .dialContext _ _ _ => (.ok 0, [])
  | .write _ command => (.ok (), sent ++ [command])
  | .readReply _ => (.ok (replies sent), sent)
  | .handshake _ _ _ => (.ok true, sent)
  | .isRandomiser _ => (false, sent)
  | .tlsBroken _ => (false, sent)
  | .enforcing => (false, sent)
  | .suppressed _ => (.ok (false, []), sent)
  | .fallenLoad _ => (false, sent)
  | .fallenLoadOrStore _ => (false, sent)
  | .randRead => (.ok ⟨List.replicate 12 0, rfl⟩, sent)
  | .randFloat => ((0 : ℚ), sent)
  | .enter _ _ | .leave _ | .release _ | .setDeadline _ _ | .setWriteDeadline _ _ | .close _
  | .markRandomiser _ | .markTLSBroken _ | .notify _ => ((), sent)

lemma greeting_formed : greeting.Formed := ⟨lit "220\r\n", [], by decide⟩

lemma welcome_formed : welcome.Formed := ⟨lit "250\r\n", [], by decide⟩

lemma answering_readable {reply : Reply} (formed : reply.Formed) (fresh : Bool) (o : Op) :
    Readable ⟨o, (answering reply fresh o).1⟩ := by
  cases o with
  | readReply conn =>
    cases fresh with
    | true => exact greeting_formed
    | false => exact formed
  | _ => trivial

lemma replying_readable {replies : List Command → Reply} (formed : ∀ sent, (replies sent).Formed)
    (sent : List Command) (o : Op) : Readable ⟨o, (replying replies sent o).1⟩ := by
  cases o with
  | readReply conn => exact formed sent
  | _ => trivial

lemma granting_readable : ∀ fresh o, Readable ⟨o, (granting fresh o).1⟩ := answering_readable welcome_formed

lemma hosting_readable (h : Host) (fresh : Bool) (o : Op) : Readable ⟨o, (hosting h fresh o).1⟩ := by
  cases o with
  | readReply conn => exact granting_readable fresh (.readReply conn)
  | _ => trivial

def hospitable (sent : List Command) : Reply := if sent = [] then greeting else welcome

lemma hospitable_formed (sent : List Command) : (hospitable sent).Formed := by
  unfold hospitable
  split
  · exact greeting_formed
  · exact welcome_formed

def oneAddress : Request where
  mxHost := lit "mx"
  emails := [lit "a@b"]

lemma play_anyone {S A : Type} {player : Player calls S}
    (readable : ∀ s o, Readable ⟨o, (player s o).1⟩) (p : Act A) (s : S) :
    Runs anyone p () (p.play player s).1 (.done (p.play player s).2.1) () :=
  p.play_runs (fun _ => ()) readable s

end EmailVerifier.Prober
