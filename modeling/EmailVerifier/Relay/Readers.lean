import EmailVerifier.Prober.Framing
import EmailVerifier.Relay.Sender
import EmailVerifier.Text.Relaxed

/-! The two SMTP readers.

`readReply` of the prober takes three digits from 200 on as a code, `readFullReply` of the
relay whatever `Atoi` reads off three bytes. Both take the same lines off a stream, if they
take any.
-/

set_option autoImplicit false

namespace EmailVerifier.Relay
open Text
open Prober (Read readReply readReplyFrom readReplyFrom_sound readString readString_line readString_some ReplyText
  stripLine stripLine_lf replyCode replyCode_length continues keepLine keepLine_intercalate intercalate_snoc maxReplyBytes)

/-- The lines of a stream that were ended, without their ends. -/
def completeLines (s : Str) : List Str := (split 10 s).dropLast.map stripLine

/-- The lines up to the first that is not to be continued. -/
def firstReply : List Str → Option (List Str)
  | [] => none
  | l :: more => if continues l then (firstReply more).map (l :: ·) else some [l]

def digit (b : UInt8) : Bool := 48 ≤ b && b ≤ 57

/-- Led by three bytes that `Atoi` reads as a number. -/
def Numbered (line : Str) : Prop := 3 ≤ line.length ∧ (atoi (line.take 3)).isSome

/-- Led by three digits, the first of them from 2 to 5. -/
def Coded : Str → Bool
  | a :: b :: c :: _ => 50 ≤ a && a ≤ 53 && digit b && digit c
  | _ => false

variable {code : Int} {line s text rest : Str} {fuel : Nat} {lines : List Str}

lemma completeLines_line (unbroken : 10 ∉ line) (rest : Str) :
    completeLines (line ++ 10 :: rest) = stripLine line :: completeLines rest := by
  unfold completeLines
  rw [split_append unbroken, List.dropLast_cons_of_ne_nil (split_ne_nil 10 rest), List.map_cons]

lemma replyCode_isSome (line : Str) : (replyCode line).isSome = Coded line := by
  match line with
  | [] | [_] | [_, _] => rfl
  | a :: b :: c :: _ =>
    simp only [replyCode, Coded, digit]
    grind

lemma atoi_of_replyCode (coded : replyCode line = some code) : atoi (line.take 3) = some code := by
  match line, coded with
  | a :: b :: c :: _, coded =>
    simp only [replyCode] at coded
    split at coded
    · cases coded
    · rename_i digits
      simp only [not_or, UInt8.not_lt] at digits
      obtain ⟨low, high, low₁, high₁, low₂, high₂⟩ := digits
      have notMinus : a ≠ 45 := by
        rintro rfl
        exact absurd low (by decide)
      have notPlus : a ≠ 43 := by
        rintro rfl
        exact absurd low (by decide)
      have first : 48 ≤ a ∧ a ≤ 57 := ⟨UInt8.le_trans (by decide) low, UInt8.le_trans high (by decide)⟩
      simp only [List.take_succ_cons, List.take_zero, atoi, notMinus, notPlus, if_false, digitsValue, List.foldl_cons,
        List.foldl_nil, Option.bind_some, first, low₁, high₁, low₂, high₂, and_self, if_true]
      rw [← Option.some.inj coded]
      exact congrArg (fun n : Nat => some (n : Int)) (by omega)

lemma numbered_of_coded (coded : Coded line) : Numbered line := by
  obtain ⟨code, read⟩ := Option.isSome_iff_exists.mp ((replyCode_isSome line).trans coded)
  exact ⟨not_lt.mp (replyCode_length (by rw [read]; rfl)), by rw [atoi_of_replyCode read]; rfl⟩

lemma readFullReplyFrom_sound {all : List Str} (read : readFullReplyFrom fuel all s = .reply code text rest) :
    ∃ lines, firstReply (completeLines s) = some lines ∧ ∀ l ∈ lines, Numbered l := by
  induction fuel generalizing all s with
  | zero => cases read
  | succ fuel ih =>
    simp only [readFullReplyFrom] at read
    split at read
    · cases read
    rename_i raw tail taken
    obtain ⟨line, unbroken, rfl, rfl⟩ := readString_some taken
    rw [stripLine_lf] at read
    rw [completeLines_line unbroken, firstReply]
    split at read
    · cases read
    rename_i long
    split at read
    · cases read
    rename_i number
    have here : Numbered (stripLine line) := ⟨not_lt.mp long, by rw [number]; rfl⟩
    split at read
    · rename_i goesOn
      obtain ⟨lines, framed, others⟩ := ih read
      exact ⟨stripLine line :: lines, by rw [if_pos goesOn, framed]; rfl, List.forall_mem_cons.mpr ⟨here, others⟩⟩
    · rename_i ends
      exact ⟨[stripLine line], if_neg ends, by simpa using here⟩

lemma ReplyText.framed {reply : Str} (formed : ReplyText reply) (rest : Str) :
    ∃ lines, firstReply (completeLines (reply ++ rest)) = some lines ∧ ∀ l ∈ lines, Coded l := by
  induction formed with
  | @last line formed ends =>
    refine ⟨[stripLine line], ?_, by simpa [← replyCode_isSome] using formed.coded⟩
    rw [List.append_assoc, List.singleton_append, completeLines_line formed.unbroken, firstReply, ends]
    rfl
  | @more line next formed goesOn _ ih =>
    obtain ⟨lines, framed, others⟩ := ih
    refine ⟨stripLine line :: lines, ?_, List.forall_mem_cons.mpr ⟨replyCode_isSome _ ▸ formed.coded, others⟩⟩
    rw [List.append_assoc, List.cons_append, completeLines_line formed.unbroken, firstReply, if_pos goesOn, framed]
    rfl

-- By induction on the rounds: both readers take the next line, and go on or end alike.
lemma readers_complete (enough : s.length < fuel) (framed : firstReply (completeLines s) = some lines)
    (numbered : ∀ l ∈ lines, Numbered l) (all : List Str) (kept : Str) : ∃ code rest,
      readFullReplyFrom fuel all s = .reply code (List.intercalate [10] (all ++ lines)) rest ∧
      ((∀ l ∈ lines, Coded l) → readReplyFrom fuel kept s = .reply code (lines.foldl keepLine kept) rest) := by
  induction fuel generalizing s lines all kept with
  | zero => omega
  | succ fuel ih =>
    by_cases ended : 10 ∈ s
    · obtain ⟨line, tail, rfl, unbroken⟩ := List.eq_append_cons_of_mem ended
      have taken := readString_line unbroken tail
      have shorter : tail.length < fuel := by
        simp only [List.length_append, List.length_cons] at enough
        omega
      rw [completeLines_line unbroken, firstReply] at framed
      obtain ⟨more, rfl⟩ : ∃ more, lines = stripLine line :: more := by
        split at framed
        · obtain ⟨more, -, rfl⟩ := Option.map_eq_some_iff.mp framed
          exact ⟨more, rfl⟩
        · exact ⟨[], (Option.some.inj framed).symm⟩
      obtain ⟨here, others⟩ := List.forall_mem_cons.mp numbered
      have long := not_lt.mpr here.1
      obtain ⟨n, number⟩ := Option.isSome_iff_exists.mp here.2
      have coded (is : Coded (stripLine line)) : replyCode (stripLine line) = some n := by
        obtain ⟨m, read⟩ := Option.isSome_iff_exists.mp ((replyCode_isSome _).trans is)
        rw [read, ← atoi_of_replyCode read, number]
      simp only [readFullReplyFrom, readReplyFrom, taken, stripLine_lf, if_neg long, number]
      by_cases goesOn : continues (stripLine line) = true
      · rw [if_pos goesOn] at framed
        obtain ⟨_, framed, same⟩ := Option.map_eq_some_iff.mp framed
        cases same
        obtain ⟨code, rest, relay, prober⟩ := ih shorter framed others (all ++ [stripLine line]) (keepLine kept (stripLine line))
        refine ⟨code, rest, by rw [if_pos goesOn, relay]; simp, fun each => ?_⟩
        obtain ⟨first, each⟩ := List.forall_mem_cons.mp each
        simp only [coded first, goesOn, if_true]
        exact prober each
      · rw [if_neg goesOn] at framed
        cases framed
        refine ⟨n, tail, by rw [if_neg goesOn], fun each => ?_⟩
        simp only [coded (each _ List.mem_cons_self), goesOn]
        rfl
    · rw [completeLines, split_bare ended] at framed
      cases framed

lemma keepLines_whole (filled : ∀ l ∈ lines, l ≠ []) (short : (List.intercalate [10] lines).length ≤ maxReplyBytes) :
    lines.foldl keepLine [] = List.intercalate [10] lines := by
  induction lines using List.reverseRecOn with
  | nil => rfl
  | append_singleton front l ih =>
    have others := fun l member => filled l (List.mem_append_left _ member)
    rw [List.foldl_append, List.foldl_cons, List.foldl_nil]
    by_cases single : front = []
    · subst single
      exact keepLine_intercalate others (by decide) l
    · have length := congrArg List.length (intercalate_snoc single l)
      simp only [List.length_append, List.length_cons, List.length_nil] at length
      rw [ih others (by omega)]
      exact keepLine_intercalate others (by omega) l

/-- Both give the same code and leave the same bytes unread, and the same text if it is within
the limit; or neither gives a code. -/
def Agree (s : Str) : Prop :=
  match readFullReply s, readReply s with
  | .reply code text rest, .reply code' text' rest' =>
    code = code' ∧ rest = rest' ∧ (text.length ≤ maxReplyBytes → text = text')
  | .reply _ _ _, _ => False
  | _, .reply _ _ _ => False
  | _, _ => True

/-- The readers agree on a stream exactly when its first reply, if all its lines are led by
numbers, has all of them led by three digits, the first of them from 2 to 5. -/
theorem readers_agree_iff (s : Str) : Agree s ↔ ∀ lines, firstReply (completeLines s) = some lines →
    (∀ l ∈ lines, Numbered l) → ∀ l ∈ lines, Coded l := by
  have spoken {code : Int} {text rest : Str} (heard : readReply s = .reply code text rest) :
      ∃ lines, firstReply (completeLines s) = some lines ∧ ∀ l ∈ lines, Coded l := by
    obtain ⟨reply, formed, rfl⟩ := readReplyFrom_sound heard
    exact ReplyText.framed formed rest
  unfold Agree
  constructor
  · intro agree lines framed numbered
    obtain ⟨code, rest, read, -⟩ := readers_complete (Nat.lt_succ_self _) framed numbered [] []
    rw [readFullReply, read] at agree
    cases heard : readReply s with
    | reply code' text' rest' =>
      obtain ⟨lines', framed', coded⟩ := spoken heard
      rw [framed] at framed'
      exact Option.some.inj framed' ▸ coded
    | short _ _ | bad _ _ | cut =>
      rw [heard] at agree
      exact agree.elim
  · intro coded
    cases read : readFullReply s with
    | reply code text rest =>
      obtain ⟨lines, framed, numbered⟩ := readFullReplyFrom_sound read
      have coded := coded lines framed numbered
      obtain ⟨code', rest', relay, prober⟩ := readers_complete (Nat.lt_succ_self _) framed numbered [] []
      rw [readFullReply, relay] at read
      cases read
      have filled : ∀ l ∈ lines, l ≠ [] := by
        rintro l member rfl
        cases coded [] member
      rw [readReply, prober coded]
      exact ⟨rfl, rfl, fun short => (keepLines_whole filled short).symm⟩
    | short _ _ | bad _ _ | cut =>
      cases heard : readReply s with
      | reply code text rest =>
        obtain ⟨lines, framed, coded⟩ := spoken heard
        obtain ⟨code, rest, relay, -⟩ := readers_complete (Nat.lt_succ_self _) framed
          (fun l member => numbered_of_coded (coded l member)) [] []
        rw [readFullReply, relay] at read
        cases read
      | short _ _ | bad _ _ | cut => trivial

/-- A signed number and one above 599 are codes to the relay alone. -/
theorem odd_codes_disagree : readFullReply (lit "+25 ok\r\n") = .reply 25 (lit "+25 ok") [] ∧
    readReply (lit "+25 ok\r\n") = .bad (lit "+25 ok") [] ∧
    readFullReply (lit "999 no\r\n") = .reply 999 (lit "999 no") [] ∧
    readReply (lit "999 no\r\n") = .bad (lit "999 no") [] := by
  decide +kernel

end EmailVerifier.Relay
