import EmailVerifier.Prober.ProbeConduct
import EmailVerifier.Prober.Surroundings

/-! What a prober puts on the wire, read back line by line.

The caller's strings stand in the commands as they are: the HELO name, the sender,
the addresses, and the domains that bogus recipients are made up for. A stretch of a
run is read back as the commands it wrote exactly when none of those hides a CRLF.
-/

set_option autoImplicit false

namespace EmailVerifier.Prober
open Text Data Semantics

def Command.argument : Command → Option Str
  | .ehlo helo => some helo
  | .mailFrom sender => some sender
  | .rcpt addr => some addr
  | .bogus addr => some addr
  | .startTLS | .rset | .quit => none

def commandBy : Op → List Command
  | .write _ command => [command]
  | _ => []

def commandsIn (tr : Trace calls) : List Command := tr.flatMap fun e => commandBy e.op

def wire (tr : Trace calls) : Str := (commandsIn tr).flatMap Command.bytes

def AsIntended (tr : Trace calls) : Prop :=
  splitCRLF (wire tr) = (commandsIn tr).map Command.line ++ [[]]

structure Scope.Clean (c : Scope) : Prop where
  helo : ¬ crlf <:+: c.helo
  sender : ¬ crlf <:+: c.sender
  addrs : ∀ addr ∈ c.addrs, ¬ crlf <:+: addr
  domains : ∀ domain ∈ c.domains, ¬ crlf <:+: domain

lemma crlf_infix_trimSuffix (domain : Str) : crlf <:+: trimSuffix domain (lit ".") ↔ crlf <:+: domain := by
  rcases trimSuffix_eq_or domain (lit ".") with same | same
  · rw [same]
  · have dotted := crlf_infix_between [] (trimSuffix domain (lit ".")) (lit ".") (by simp) (by decide)
    rw [List.nil_append, ← same] at dotted
    exact dotted.symm

lemma hexDigit_ne_cr {n : Nat} (small : n < 16) : hexDigit n ≠ 13 := by
  have all : ∀ n < 16, hexDigit n ≠ 13 := by decide
  exact all n small

lemma cr_not_mem_hexEncode (s : Str) : 13 ∉ hexEncode s := by
  intro member
  obtain ⟨b, -, digit⟩ := List.mem_flatMap.mp member
  have small : b.toNat / 16 < 16 := by
    have := b.toNat_lt
    omega
  rcases List.mem_cons.mp digit with high | low
  · exact hexDigit_ne_cr small high.symm
  · exact hexDigit_ne_cr (Nat.mod_lt _ (by decide)) (List.mem_singleton.mp low).symm

lemma crlf_infix_bogusFor (nonce : Nonce) (domain : Str) : crlf <:+: bogusFor nonce domain ↔ crlf <:+: domain := by
  have noCR : 13 ∉ hexEncode nonce.val ++ lit "@" := by
    intro member
    rcases List.mem_append.mp member with hex | at_
    · exact cr_not_mem_hexEncode _ hex
    · exact absurd at_ (by decide)
  have between := crlf_infix_between (hexEncode nonce.val ++ lit "@") (trimSuffix domain (lit ".")) [] noCR (by simp)
  rw [List.append_nil, crlf_infix_trimSuffix] at between
  exact between

lemma Command.crlf_infix_line (command : Command) :
    crlf <:+: command.line ↔ ∃ said ∈ command.argument, crlf <:+: said := by
  cases command with
  | ehlo helo => simpa [Command.line, Command.argument] using crlf_infix_between (lit "EHLO ") helo [] (by decide) (by simp)
  | mailFrom sender =>
    simpa [Command.line, Command.argument] using
      crlf_infix_between (lit "MAIL FROM:<") sender (lit ">") (by decide) (by decide)
  | rcpt addr =>
    simpa [Command.line, Command.argument] using
      crlf_infix_between (lit "RCPT TO:<") addr (lit ">") (by decide) (by decide)
  | bogus addr =>
    simpa [Command.line, Command.argument] using
      crlf_infix_between (lit "RCPT TO:<") addr (lit ">") (by decide) (by decide)
  | startTLS | rset | quit =>
    simp only [Command.line, Command.argument]
    decide

/-- Read back faithfully means no line break inside any argument. -/
lemma asIntended_iff (tr : Trace calls) :
    AsIntended tr ↔ ∀ command ∈ commandsIn tr, ∀ said ∈ command.argument, ¬ crlf <:+: said := by
  have joined : wire tr = joinCRLF ((commandsIn tr).map Command.line) := by
    simp only [wire, joinCRLF, List.flatMap_map]
    rfl
  rw [AsIntended, joined, splitCRLF_joinCRLF_iff]
  simp [Command.crlf_infix_line]

lemma Command.line_ne_data (command : Command) : command.line ≠ lit "DATA" := by
  intro same
  have first : command.line.head? = some 68 := same ▸ rfl
  cases command <;> cases first

lemma AsIntended.no_data {tr : Trace calls} (intended : AsIntended tr) : lit "DATA" ∉ splitCRLF (wire tr) := by
  rw [show splitCRLF (wire tr) = _ from intended]
  intro member
  rcases List.mem_append.mp member with line | last
  · obtain ⟨command, -, same⟩ := List.mem_map.mp line
    exact command.line_ne_data same
  · exact absurd (List.mem_singleton.mp last) (by decide)

inductive Scope.Utters (c : Scope) : Str → Prop where
  | helo : c.Utters c.helo
  | sender : c.Utters c.sender
  | addr {addr : Str} : addr ∈ c.addrs → c.Utters addr
  | bogus {nonce : Nonce} {domain : Str} : domain ∈ c.domains → c.Utters (bogusFor nonce domain)

variable {c : Scope} {w w' : Watch} {e : Event calls} {tr : Trace calls}

lemma Scope.Clean.utters (clean : c.Clean) {said : Str} (utters : c.Utters said) : ¬ crlf <:+: said := by
  cases utters with
  | helo => exact clean.helo
  | sender => exact clean.sender
  | addr member => exact clean.addrs _ member
  | bogus member =>
    rw [crlf_infix_bogusFor]
    exact clean.domains _ member

lemma Aside.commandBy {op : Op} (aside : Aside op) : commandBy op = [] := by
  cases op <;> first | rfl | cases aside

lemma Step.utters (step : Step c w e w') : ∀ command ∈ commandBy e.op, ∀ said ∈ command.argument, c.Utters said := by
  intro command written said argument
  cases step with
  | aside aside => rw [aside.commandBy] at written; cases written
  | write _ sends =>
    cases List.mem_singleton.mp written
    cases sends with
    | ehlo _ => cases argument; exact .helo
    | mailFrom _ => cases argument; exact .sender
    | rcpt _ _ member => cases argument; exact .addr member
    | bogus _ _ member => cases argument; exact .bogus member
    | startTLS _ | rset _ _ => cases argument
  | bye _ _ farewell =>
    cases List.mem_singleton.mp written
    rcases farewell with rfl | rfl <;> cases argument
  | _ => cases written

lemma commandsIn_uttered (path : Path (Step c) {} tr w) :
    ∀ command ∈ commandsIn tr, ∀ said ∈ command.argument, c.Utters said := by
  refine path.traced (fun seen _ => ∀ command ∈ commandsIn seen, ∀ said ∈ command.argument, c.Utters said)
    (by simp [commandsIn]) fun seen w e w' earlier step command member => ?_
  rw [commandsIn, List.flatMap_append] at member
  rcases List.mem_append.mp member with old | new
  · exact earlier command old
  · exact step.utters command (by simpa using new)

/-- Any stretch of a run that keeps to a clean scope is read back as it was meant. -/
lemma asIntended_of_clean (clean : c.Clean) (path : Path (Step c) {} tr w) {stretch : Trace calls}
    (part : stretch <:+: tr) : AsIntended stretch := by
  rw [asIntended_iff]
  intro command member said argument
  obtain ⟨e, inside, here⟩ := List.mem_flatMap.mp member
  exact clean.utters (commandsIn_uttered path command (List.mem_flatMap.mpr ⟨e, part.subset inside, here⟩) said argument)

end EmailVerifier.Prober
