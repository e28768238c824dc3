import EmailVerifier.Relay.Sender
import EmailVerifier.Text.Decimal

/-! Signing a message: `internal/relay/dkim.go`.

The clock, the digest and the key are an interface of its own, so that a run shows which
byte strings were hashed. The standard base64 encoding is left open but for its alphabet.
-/

set_option autoImplicit false

namespace EmailVerifier.Relay
open Text Semantics

def base64StdAlphabet : Str := lit "ABCDEFGHIJKLMNOPQRSTUVWXYZabcdefghijklmnopqrstuvwxyz0123456789+/="

/-- `base64.StdEncoding`. -/
class Base64 where
  encode : Str → Str
  letters : ∀ s, ∀ b ∈ encode s, b ∈ base64StdAlphabet

instance plainBase64 : Base64 where
  encode s := s.map fun _ => 65
  letters s b member := by
    obtain ⟨_, -, rfl⟩ := List.mem_map.mp member
    decide

structure Signer where
  domain : Str
  selector : Str
  deriving DecidableEq, Repr

inductive Seal where
  | now
  | sum256 (data : Str)
  | signPKCS1v15 (digest : Str)
  deriving DecidableEq, Repr

def Seal.Answer : Seal → Type
  | .now => Int
  | .sum256 _ => Str
  | .signPKCS1v15 _ => Except Err Str

def seals : Interface := ⟨Seal, Seal.Answer⟩

abbrev Sealing := Prog seals

/-- `Now().Unix()`. -/
def unixNow : Sealing Int := Prog.ask (I := seals) .now
def sum256 (data : Str) : Sealing Str := Prog.ask (I := seals) (.sum256 data)
def signPKCS1v15 (digest : Str) : Sealing (Except Err Str) := Prog.ask (I := seals) (.signPKCS1v15 digest)

def signedHeaders : List Str :=
  [lit "from", lit "to", lit "subject", lit "date", lit "message-id", lit "mime-version", lit "content-type"]

/-- `strings.ReplaceAll(value, "\r\n", "")`. -/
def withoutCRLF : Str → Str
  | 13 :: 10 :: rest => withoutCRLF rest
  | b :: rest => b :: withoutCRLF rest
  | [] => []

-- The text written so far, and whether blanks stand between it and the next rune.
def headerRune (out : Str × Bool) (r : Rune) : Str × Bool :=
  if r.code = 32 ∨ r.code = 9 then (out.1, true)
  else ((if out.2 ∧ out.1 ≠ [] then out.1 ++ [32] else out.1) ++ encodeRune r.code, false)

-- In a body, blanks that start a line count.
def lineRune (out : Str × Bool) (r : Rune) : Str × Bool :=
  if r.code = 32 ∨ r.code = 9 then (out.1, true)
  else ((if out.2 then out.1 ++ [32] else out.1) ++ encodeRune r.code, false)

def canonicalizeBody (body : Str) : Str :=
  let lines := (split 10 (unixLines body)).map fun line => ((runes line).foldl lineRune ([], false)).1
  let kept := (lines.reverse.dropWhile (· = [])).reverse
  if kept = [] then [] else List.intercalate crlf kept ++ crlf

section
variable [Unicode]

def canonicalizeHeaderNoCRLF (name value : Str) : Str :=
  let unfolded := (withoutCRLF value).filter (· ≠ 10)
  toLower (trimSpace name) ++ lit ":" ++ ((runes unfolded).foldl headerRune ([], false)).1

def canonicalizeHeader (name value : Str) : Str := canonicalizeHeaderNoCRLF name value ++ crlf

/-- The map from lower-case names to headers: of two with one name the later one stays. -/
def present (headers : List Header) (name : Str) : Option Header :=
  headers.reverse.find? fun h => toLower h.name = name

def Signer.tag [Base64] (s : Signer) (unix : Int) (hList : List Str) (bodyHash : Str) : Str :=
  lit "v=1; a=rsa-sha256; c=relaxed/relaxed; d=" ++ s.domain ++ lit "; s=" ++ s.selector ++ lit "; t=" ++
    formatInt unix ++ lit "; h=" ++ List.intercalate (lit ":") hList ++ lit "; bh=" ++ Base64.encode bodyHash ++
    lit "; b="

def Signer.Sign [Base64] (s : Signer) (headers : List Header) (body : Str) : Sealing (Except Err Str) := do
  let bodyHash ← sum256 (canonicalizeBody body)
  let found := signedHeaders.filterMap fun name => (present headers name).map (name, ·)
  let canon := found.flatMap fun (_, h) => canonicalizeHeader h.name h.value
  let tag := s.tag (← unixNow) (found.map Prod.fst) bodyHash
  let digest ← sum256 (canon ++ canonicalizeHeaderNoCRLF (lit "DKIM-Signature") tag)
  match ← signPKCS1v15 digest with
  | .error err => return .error (err.wrap (lit "dkim: signing: "))
  | .ok sig => return .ok (lit "DKIM-Signature: " ++ tag ++ Base64.encode sig ++ crlf)

end

end EmailVerifier.Relay
