import EmailVerifier.Relay.Deliver
import EmailVerifier.Semantics.Player
import EmailVerifier.Semantics.Pool

/-! Any number of relays over one Redis.

Callers hand messages to `Accept` and drainers run `DeliverNext`, over and over. Every
store command is one atomic step. A command that reports a failure may have taken
effect or not, and any process may die between two steps.
-/

set_option autoImplicit false

namespace EmailVerifier.Relay
open Text Semantics

structure Shared where
  store : Store := {}
  clock : Int := 0
  -- The tokens drawn so far: 18 random bytes are taken never to repeat.
  issued : List Str := []

def Shared.after (s : Shared) (c : Cmd) : Shared := { s with store := (c.run s.store).2 }

def Op.elsewhere : Op → Bool
  | .store _ | .now | .randRead _ => false
  | _ => true

inductive Serve : World calls Shared where
  | done (s : Shared) (c : Cmd) : Serve s ⟨.store c, .ok (c.run s.store).1⟩ (s.after c)
  | lost (s : Shared) (c : Cmd) (err : Err) : Serve s ⟨.store c, .error err⟩ s
  | unheard (s : Shared) (c : Cmd) (err : Err) : Serve s ⟨.store c, .error err⟩ (s.after c)
  | time (s : Shared) : Serve s ⟨.now, s.clock⟩ s
  | token (s : Shared) (n : Nat) (bytes : { bytes : Str // bytes.length = n }) :
      base64RawURL bytes.val ∉ s.issued →
      Serve s ⟨.randRead n, .ok bytes⟩ { s with issued := base64RawURL bytes.val :: s.issued }
  | noToken (s : Shared) (n : Nat) (err : Err) : Serve s ⟨.randRead n, .error err⟩ s
  | other (s : Shared) (e : Event calls) : e.op.elsewhere = true → Serve s e s

-- Time passes, in either direction: nothing here rests on the clock.
def Ticks (s s' : Shared) : Prop := ∃ clock, s' = { s with clock }

inductive Returned where
  | accept (result : Except Err Str)
  | deliverNext (did : Bool) (result : Except Err Unit)
  deriving DecidableEq

section
variable [Unicode] [Library]

def taking (o : Options) (m : Message) : Act Returned := do
  return .accept (← o.Accept m)

def draining (o : Options) : Act Returned := do
  let (did, result) ← o.DeliverNext
  return .deliverNext did result

def Job (domain : Str) (p : Act Returned) : Prop :=
  ∃ o : Options, o.domain = domain ∧ (p = draining o ∨ ∃ m, p = taking o m)

def relays (domain : Str) : Rules calls Returned Shared where
  world := Serve
  job := Job domain
  drift pool s' := Ticks pool.shared s'

end

abbrev Relays := Pool calls Returned Shared

def empty : Relays := { shared := {} }

lemma empty_orderly {M : Type} {guard : M → Event calls → Prop} {note : M → Event calls → M}
    {post : Returned → M → Prop} {m : M} : empty.Orderly guard note post m :=
  ⟨by simp [empty], by simp [empty]⟩

def redis : Player calls Shared := fun s o =>
  match o with
  | .store c => (.ok (c.run s.store).1, s.after c)
  | .now => (s.clock, s)
  | .randRead n =>
    let token := base64RawURL (List.replicate n 7)
    if token ∈ s.issued then (.error (errorsNew "entropy"), s)
    else (.ok ⟨List.replicate n 7, List.length_replicate⟩, { s with issued := token :: s.issued })
  | .burned => ((false, []), s)
  | .sendingPaused => ((false, []), s)
  | .enforcing => (true, s)
  | .stale => (false, s)
  | .suppressed _ => (.ok (false, []), s)
  | .sign _ _ => (.ok (lit "DKIM-Signature: v=1\r\n"), s)
  | .mx _ => (.ok [lit "mx.test"], s)
  | .acquire _ _ => (.ok (), s)
  | .resolve _ => (.ok [lit "192.0.2.1"], s)
  | .dialContext _ _ => (.ok 0, s)
  | .send _ _ => ({ delivered := true, code := 250 }, s)
  | .observe _ _ => ((), s)
  | .sent _ => ((), s)
  | .queueDepth _ _ _ => ((), s)

lemma redis_serves (s : Shared) (o : Op) : Serve s ⟨o, (redis s o).1⟩ (redis s o).2 := by
  cases o with
  | store c => exact .done s c
  | now => exact .time s
  | randRead n =>
    unfold redis
    dsimp only
    split
    · exact .noToken s n _
    · rename_i fresh
      exact .token s n _ fresh
  | _ => exact .other s _ rfl

def oneRelay : Options := new { queue := newQueue 0, domain := lit "node.test", suppress := true }

def oneMessage : Message :=
  { from_ := lit "no-reply@node.test", to_ := lit "Jo <jo@example.test>", subject := lit "Hello", text := lit "Hi" }

end EmailVerifier.Relay
