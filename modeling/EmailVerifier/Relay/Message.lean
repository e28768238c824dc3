import EmailVerifier.Relay.Interface
import EmailVerifier.Text.Fields

/-! Assembling a message: `internal/relay/message.go`.

What it takes from the Go library beyond bytes stands as a class: address parsing, word
encoding, the date format and the JSON form of a queued item. JSON rewrites bytes that
are not UTF-8, so a text comes back as it was only if it is plain ASCII; everything
else about an item comes back as it was.
-/

set_option autoImplicit false

namespace EmailVerifier.Relay
open Text Semantics

/-- The item decoded from what was encoded. -/
structure Item.CameBack (item back : Item) : Prop where
  id : Ascii item.id → back.id = item.id
  mailFrom : Ascii item.mailFrom → back.mailFrom = item.mailFrom
  rcptTo : Ascii item.rcptTo → back.rcptTo = item.rcptTo
  data : back.data = item.data
  attempts : back.attempts = item.attempts
  queued : back.queued = item.queued
  lastErr : Ascii item.lastErr → back.lastErr = item.lastErr

class Library where
  parseAddress : Str → Except Err Unit
  qEncode : Str → Str
  -- `time.RFC1123Z`
  formatDate : Int → Str
  -- The `%q` verb.
  quote : Str → Str
  marshal : Item → Except Err Str
  unmarshal : Str → Except Err Item
  cameBack : ∀ item blob, marshal item = .ok blob → ∃ back, unmarshal blob = .ok back ∧ item.CameBack back
  -- A decoded item is UTF-8 throughout and of a year that can be written.
  recoded : ∀ blob item, unmarshal blob = .ok item → ∀ attempts lastErr, ∃ again back,
    marshal { item with attempts, lastErr } = .ok again ∧ unmarshal again = .ok back ∧
      back = { item with attempts, lastErr := back.lastErr }

/-! A library to run with, in the first second of the epoch: it takes every address, encodes
nothing and writes an item field by field. -/

def writeItem (item : Item) : Str :=
  writeStr item.id ++ (writeStr item.mailFrom ++ (writeStr item.rcptTo ++ (writeStr item.data ++
    (writeNat item.attempts ++ (writeInt item.queued ++ writeStr item.lastErr)))))

def readItem (s : Str) : Option Item := do
  let (id, s) ← readStr s
  let (mailFrom, s) ← readStr s
  let (rcptTo, s) ← readStr s
  let (data, s) ← readStr s
  let (attempts, s) ← readNat s
  let (queued, s) ← readInt s
  let (lastErr, _) ← readStr s
  return { id, mailFrom, rcptTo, data, attempts, queued, lastErr }

lemma readItem_writeItem (item : Item) : readItem (writeItem item) = some item := by
  have last : readStr (writeStr item.lastErr) = some (item.lastErr, []) := by
    simpa using readStr_writeStr item.lastErr []
  simp only [readItem, writeItem, readStr_writeStr, readNat_writeNat, readInt_writeInt, last,
    Option.bind_eq_bind, Option.bind_some]
  rfl

def decodeItem (s : Str) : Except Err Item :=
  match readItem s with
  | some item => .ok item
  | none => .error (errorsNew "unexpected end of input")

lemma decodeItem_writeItem (item : Item) : decodeItem (writeItem item) = .ok item := by
  unfold decodeItem
  rw [readItem_writeItem]

def epoch : Str := lit "Thu, 01 Jan 1970 00:00:00 +0000"

instance plainLibrary : Library where
  parseAddress _ := .ok ()
  qEncode s := s
  formatDate _ := epoch
  quote s := s
  marshal item := .ok (writeItem item)
  unmarshal := decodeItem
  cameBack item blob encoded := by
    cases encoded
    exact ⟨item, decodeItem_writeItem item, fun _ => rfl, fun _ => rfl, fun _ => rfl, rfl, rfl, rfl, fun _ => rfl⟩
  recoded _ _ _ _ _ := ⟨_, _, rfl, decodeItem_writeItem _, rfl⟩

def reservedHeaders : List Str :=
  [lit "from", lit "to", lit "subject", lit "date", lit "message-id", lit "mime-version", lit "content-type",
    lit "content-transfer-encoding", lit "dkim-signature", lit "return-path", lit "received"]

def extraValues (hs : List Header) : List Str := hs.flatMap fun h => [h.name, h.value]

def normaliseNewlines (s : Str) : Str :=
  let rec lf : Str → Str
    | 13 :: 10 :: rest => 10 :: lf rest
    | b :: rest => b :: lf rest
    | [] => []
  (lf s).flatMap fun b => if b = 10 then [13, 10] else [b]

def render (headers : List Header) (body : Str) : Str :=
  (headers.flatMap fun h => h.name ++ lit ": " ++ h.value ++ lit "\r\n") ++ lit "\r\n" ++ body

def randomToken (n : Nat) : Act (Except Err Str) := do
  match ← randRead n with
  | .error err => return .error (err.wrap (lit "relay: entropy: "))
  | .ok bytes => return .ok (base64RawURL bytes.val)

section
variable [Unicode] [Library]

def Message.validate (m : Message) : Except Err Unit := do
  if trimSpace m.from_ = [] then throw (errorsNew "relay: from is required")
  if trimSpace m.to_ = [] then throw (errorsNew "relay: to is required")
  if trimSpace m.subject = [] then throw (errorsNew "relay: subject is required")
  if m.text = [] ∧ m.html = [] then throw (errorsNew "relay: a message needs a text or html body")
  for addr in [m.from_, m.to_] do
    match Library.parseAddress addr with
    | .error err =>
      throw (err.wrap (lit "relay: " ++ Library.quote addr ++ lit " is not a usable address: "))
    | .ok () => pure ()
  for value in [m.subject, m.from_, m.to_] ++ extraValues m.extra do
    if value.any fun b => b = 13 || b = 10 then
      throw (errorsNew "relay: header values may not contain CR or LF")

def encodeSubject (s : Str) : Str := Library.qEncode s

def addExtra (headers : List Header) : List Header → Except Err (List Header)
  | [] => .ok headers
  | h :: more =>
    if toLower (trimSpace h.name) ∈ reservedHeaders then
      .error ⟨lit "relay: header " ++ Library.quote h.name ++
        lit " is set by this service and may not be supplied", []⟩
    else addExtra (headers ++ [h]) more

-- Both forms of the text, the plain one first.
def alternatives (boundary text html : Str) : Str :=
  lit "--" ++ boundary ++ lit "\r\n" ++ lit "Content-Type: text/plain; charset=utf-8\r\n\r\n" ++
    normaliseNewlines text ++ lit "\r\n" ++
    lit "--" ++ boundary ++ lit "\r\n" ++ lit "Content-Type: text/html; charset=utf-8\r\n\r\n" ++
    normaliseNewlines html ++ lit "\r\n" ++
    lit "--" ++ boundary ++ lit "--\r\n"

/-- The headers and the body, apart, so that the signer need not parse them again. -/
def Message.Build (m : Message) (now : Int) (messageID : Str) : Act (Except Err (List Header × Str)) := do
  match m.validate with
  | .error err => return .error err
  | .ok () =>
    let headers : List Header :=
      [⟨lit "From", m.from_⟩, ⟨lit "To", m.to_⟩, ⟨lit "Subject", encodeSubject m.subject⟩,
        ⟨lit "Date", Library.formatDate now⟩, ⟨lit "Message-ID", lit "<" ++ messageID ++ lit ">"⟩,
        ⟨lit "MIME-Version", lit "1.0"⟩]
    let finish (contentType body : Str) : Except Err (List Header × Str) :=
      (addExtra (headers ++ [⟨lit "Content-Type", contentType⟩]) m.extra).map fun all => (all, body)
    if m.html ≠ [] ∧ m.text ≠ [] then
      match ← randomToken 16 with
      | .error err => return .error err
      | .ok boundary =>
        return finish (lit "multipart/alternative; boundary=\"" ++ boundary ++ lit "\"")
          (alternatives boundary m.text m.html)
    else if m.html ≠ [] then
      return finish (lit "text/html; charset=utf-8") (normaliseNewlines m.html)
    else
      return finish (lit "text/plain; charset=utf-8") (normaliseNewlines m.text)

def domainOf (addr : Str) : Str :=
  match afterLast 64 addr with
  | some domain => toLower domain
  | none => []

end

def addressOnly (s : Str) : Str :=
  match afterLast 60 s with
  | some rest =>
    match cut rest 62 with
    | some (inside, _) => inside
    | none => trimSpace s
  | none => trimSpace s

def firstLine (s : Str) : Str := s.takeWhile (· ≠ 10)

end EmailVerifier.Relay
