import EmailVerifier.Prober.Classify

/-! When to come back: `internal/prober/retry.go`. Durations are nanoseconds. -/

set_option autoImplicit false

namespace EmailVerifier.Prober
open Text

def second : Nat := 1000000000

def minRetryHint : Nat := 60 * second

def maxRetryHint : Nat := 6 * 3600 * second

/-- `(?i)(?:try again|retry|come back)(?:\s+\w+){0,3}?\s+(\d{1,5})\s*(seconds?|…|s|m|h)\b` -/
def explicitHint : Pattern :=
  let spaces := Pattern.times true 1 none .space
  -- Folding case adds the long s and the Kelvin sign to the word class.
  let wordRune := Pattern.one fun r => isWord r || r = 0x17F || r = 0x212A
  let plural (w : String) := Pattern.inOrder [.word true w, .optional (.word true "s")]
  .inOrder [
    .words true ["try again", "retry", "come back"],
    .times false 0 (some 3) (.inOrder [spaces, .times true 1 none wordRune]),
    spaces, .group 1 (.times true 1 (some 5) .digit), .times true 0 none .space,
    .group 2 (.anyOf [plural "second", plural "sec", plural "minute", plural "min", plural "hour",
      plural "hr", .word true "s", .word true "m", .word true "h"]),
    .wordBoundary]

def clampHint (d : Nat) : Nat := min maxRetryHint (max minRetryHint d)

section
variable [Unicode]

def hintUnit (word : Str) : Option Nat :=
  let stem := trimSuffix (toLower word) (lit "s")
  if stem = lit "second" ∨ stem = lit "sec" ∨ stem = [] then some second
  else if stem = lit "minute" ∨ stem = lit "min" ∨ stem = lit "m" then some (60 * second)
  else if stem = lit "hour" ∨ stem = lit "hr" ∨ stem = lit "h" then some (3600 * second)
  else none

def parseHint (reply : Str) : Option Nat := do
  let found ← explicitHint.find reply
  let n ← digitsValue (found.captured 1)
  if n = 0 then none
  else
    let unit ← hintUnit (found.captured 2)
    some (n * unit)

/-- Seconds to wait before asking again, 0 for a class that is an answer. -/
def retryHint (c : Class) (reply : Str) (fallback : Nat) : Nat :=
  match c with
  | .deferred | .throttled | .noBudget | .paused | .tlsFailed =>
    clampHint ((parseHint reply).getD fallback) / second
  | _ => 0

/-- The hint for a refusal that never reached the server: exact for a paused MX. -/
def retryAfterFor (err : Failure) (reply : Str) (fallback : Nat) : Nat :=
  match err.paused with
  | some left => clampHint left / second
  | none => retryHint .noBudget reply fallback

end

end EmailVerifier.Prober
