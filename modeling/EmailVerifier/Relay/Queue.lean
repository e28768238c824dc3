import EmailVerifier.Relay.Message

/-! The durable outbound queue: `internal/relay/queue.go`. -/

set_option autoImplicit false

namespace EmailVerifier.Relay
open Text Semantics

def second : Int := 1000000000

def unix (t : Int) : Int := t / second

structure Queue where
  maxAttempts : Int

def newQueue (maxAttempts : Int) : Queue := ⟨if maxAttempts ≤ 0 then 5 else maxAttempts⟩

/-- One command whose reply is not looked at, its failure reported with what it was for. -/
def storing (c : Cmd) (failed : String) : Act (Except Err Unit) := do
  match ← command c with
  | .error err => return .error (err.wrap (lit failed))
  | .ok _ => return .ok ()

/-- `base << (attempts - 1)` in 64 bits. -/
def backoff (base : Int) (attempts : Nat) : Int := (base * 2 ^ (attempts - 1)).bmod (2 ^ 64)

section
variable [Library]

-- The item is encoded and stored; what comes after it depends on the caller.
def storeItem (item : Item) (rest : Act (Except Err Unit)) : Act (Except Err Unit) := do
  match Library.marshal item with
  | .error err => return .error (err.wrap (lit "relay: encoding item: "))
  | .ok blob =>
    match ← storing (.set item.id blob) "relay: storing item: " with
    | .error err => return .error err
    | .ok () => rest

-- The body first, so that an id never reaches the ready list pointing at nothing.
def Queue.Enqueue (_q : Queue) (item : Item) : Act (Except Err Unit) := do
  if item.id = [] then return .error (errorsNew "relay: an item needs an id")
  storeItem item (storing (.lpush .ready item.id) "relay: queueing item: ")

def promoteAll : List Str → Act (Except Err Unit)
  | [] => return .ok ()
  | id :: more => do
    match ← command (.zrem id) with
    | .error err => return .error (err.wrap (lit "relay: promoting " ++ id ++ lit ": "))
    | .ok removed =>
      -- None removed: another drainer got there first.
      if (show Int from removed) = 0 then promoteAll more
      else
        match ← command (.lpush .ready id) with
        | .error err => return .error (err.wrap (lit "relay: requeueing " ++ id ++ lit ": "))
        | .ok _ => promoteAll more

def Queue.promote (_q : Queue) : Act (Except Err Unit) := do
  let time ← now
  match ← command (.zrangeByScore (unix time)) with
  | .error err => return .error (err.wrap (lit "relay: reading the retry set: "))
  | .ok ids => promoteAll ids

-- The body of an id that was just taken off the ready list.
def fetch (id : Str) : Act (Except Err (Option Item)) := do
  match ← command (.get id) with
  | .error err => return .error (err.wrap (lit "relay: reading item: "))
  | .ok body =>
    match (show Option Str from body) with
    | none => return .ok none
    | some blob =>
      match Library.unmarshal blob with
      | .error err => return .error (err.wrap (lit "relay: decoding item " ++ id ++ lit ": "))
      | .ok item => return .ok (some item)

/-- The oldest ready message, after everything that is due was promoted. -/
def Queue.Next (q : Queue) : Act (Except Err (Option Item)) := do
  match ← q.promote with
  | .error err => return .error err
  | .ok () =>
    match ← command .rpop with
    | .error err => return .error (err.wrap (lit "relay: reading queue: "))
    | .ok popped =>
      match (show Option Str from popped) with
      | none => return .ok none
      | some id => if id = [] then return .ok none else fetch id

def Queue.bury (_q : Queue) (item : Item) : Act (Except Err Unit) :=
  storeItem item (storing (.lpush .dead item.id) "relay: burying item: ")

def Item.tried (item : Item) (reason : Str) : Item :=
  { item with attempts := item.attempts + 1, lastErr := reason }

def Queue.Retry (q : Queue) (item : Item) (base : Int) (reason : Str) : Act (Except Err Unit) :=
  if q.maxAttempts ≤ (item.tried reason).attempts then q.bury (item.tried reason)
  else storeItem (item.tried reason) do
    let time ← now
    storing (.zadd (unix (time + backoff base (item.tried reason).attempts)) item.id) "relay: scheduling retry: "

end

def Queue.Done (_q : Queue) (id : Str) : Act (Except Err Unit) := storing (.del id) "relay: removing item: "

-- A count that cannot be read is reported as zero.
def counted (answer : Except Err Int) : Int :=
  match answer with
  | .ok n => n
  | .error _ => 0

def Queue.Depth (_q : Queue) : Act (Int × Int × Int) := do
  let ready ← command (.llen .ready)
  let later ← command .zcard
  let dead ← command (.llen .dead)
  return (counted ready, counted later, counted dead)

end EmailVerifier.Relay
