import Mathlib.Data.List.TakeWhile
import EmailVerifier.Prober.Classify

/-! Reading one SMTP reply off a byte stream: `replyCode` and `readReply` of
`internal/prober/classify.go`.

`ReplyText` is the grammar of a complete reply, stated without the reader:
continuation lines, then one final line, each ended by LF and led by a code from
200 to 599. The reader accepts a stream exactly when it begins with such a text,
takes exactly that text off it, and its code and kept text depend on nothing else.
-/

set_option autoImplicit false

namespace EmailVerifier.Prober
open Text

def maxReplyBytes : Nat := 4096

def replyCode : Str → Option Int
  | a :: b :: c :: _ =>
    if a < 50 ∨ a > 53 ∨ b < 48 ∨ b > 57 ∨ c < 48 ∨ c > 57 then none
    else some ((a.toNat - 48) * 100 + (b.toNat - 48) * 10 + (c.toNat - 48) : Nat)
  | _ => none

/-- `bufio.Reader.ReadString('\n')` on what the peer sends before it stops:
the line with its LF and what is left, or nothing when no line is complete. -/
def readString (s : Str) : Option (Str × Str) :=
  match s.dropWhile (· ≠ 10) with
  | [] => none
  | lf :: rest => some (s.takeWhile (· ≠ 10) ++ [lf], rest)

/-- How one read ends, with the bytes still unread. -/
inductive Read where
  | reply (code : Int) (text rest : Str)
  | short (line rest : Str)
  | bad (line rest : Str)
  /-- The stream ended or stalled inside a line; everything was consumed. -/
  | cut
  deriving DecidableEq, Repr

def continues (l : Str) : Bool := l[3]? = some 45

def stripLine (line : Str) : Str := trimRight line [13, 10]

def keepLine (text line : Str) : Str :=
  if text.length < maxReplyBytes then (if text.length > 0 then text ++ [10] else text) ++ line else text

/-- The loop of `readReply` with the text kept so far. Every round takes a line off
the stream, so its length bounds the rounds. -/
def readReplyFrom : Nat → Str → Str → Read
  | 0, _, _ => .cut
  | fuel + 1, text, s =>
    match readString s with
    | none => .cut
    | some (raw, rest) =>
      let line := stripLine raw
      if line.length < 3 then .short line rest
      else match replyCode line with
        | none => .bad line rest
        | some code =>
          if continues line then readReplyFrom fuel (keepLine text line) rest
          else .reply code (keepLine text line) rest

def readReply (s : Str) : Read := readReplyFrom (s.length + 1) [] s

/-- A line of a reply, without its LF. -/
structure ReplyLine (line : Str) : Prop where
  unbroken : 10 ∉ line
  coded : (replyCode (stripLine line)).isSome

/-- The bytes of one complete reply. -/
inductive ReplyText : Str → Prop where
  | last {line : Str} : ReplyLine line → continues (stripLine line) = false → ReplyText (line ++ [10])
  | more {line rest : Str} : ReplyLine line → continues (stripLine line) = true → ReplyText rest →
      ReplyText (line ++ 10 :: rest)

/-- A stream that begins with a complete reply. -/
def BeginsWithReply (s : Str) : Prop := ∃ text rest, ReplyText text ∧ s = text ++ rest

lemma readString_line {line : Str} (unbroken : 10 ∉ line) (rest : Str) :
    readString (line ++ 10 :: rest) = some (line ++ [10], rest) := by
  have keep : ∀ b ∈ line, decide (b ≠ 10) = true := by
    intro b member
    exact decide_eq_true fun same => unbroken (same ▸ member)
  unfold readString
  rw [List.dropWhile_append_of_pos keep, List.takeWhile_append_of_pos keep]
  simp

lemma readString_some {s raw rest : Str} (read : readString s = some (raw, rest)) :
    ∃ line, 10 ∉ line ∧ raw = line ++ [10] ∧ s = line ++ 10 :: rest := by
  unfold readString at read
  split at read
  · cases read
  · rename_i lf tail found
    obtain ⟨rfl, rfl⟩ := Prod.mk.inj (Option.some.inj read)
    have isLF : lf = 10 := by
      have head := List.head?_dropWhile_not (fun b : UInt8 => decide (b ≠ 10)) s
      rw [found] at head
      simpa using head
    subst isLF
    refine ⟨s.takeWhile (· ≠ 10), ?_, rfl, ?_⟩
    · intro member
      simpa using List.mem_takeWhile_imp member
    · rw [← found, List.takeWhile_append_dropWhile]

lemma stripLine_lf (line : Str) : stripLine (line ++ [10]) = stripLine line := by
  simp [stripLine, trimRight]

lemma replyCode_length {line : Str} (coded : (replyCode line).isSome) : ¬ line.length < 3 := by
  match line, coded with
  | _ :: _ :: _ :: _, _ => simp

lemma replyCode_range {line : Str} {code : Int} (read : replyCode line = some code) : 200 ≤ code ∧ code ≤ 599 := by
  match line, read with
  | a :: b :: c :: _, read =>
    simp only [replyCode] at read
    split at read
    · cases read
    · rename_i digits
      simp only [not_or, UInt8.not_lt, UInt8.le_iff_toNat_le, UInt8.toNat_ofNat, Nat.reducePow,
        Nat.reduceMod] at digits
      have value := Option.some.inj read
      omega

lemma readReplyFrom_line {line : Str} (formed : ReplyLine line) (fuel : Nat) (text rest : Str) :
    ∃ code, replyCode (stripLine line) = some code ∧
      readReplyFrom (fuel + 1) text (line ++ 10 :: rest) =
        if continues (stripLine line) then readReplyFrom fuel (keepLine text (stripLine line)) rest
        else .reply code (keepLine text (stripLine line)) rest := by
  obtain ⟨code, coded⟩ := Option.isSome_iff_exists.mp formed.coded
  refine ⟨code, coded, ?_⟩
  have long := replyCode_length formed.coded
  simp only [readReplyFrom, readString_line formed.unbroken rest, stripLine_lf, coded, if_neg long]

lemma readReplyFrom_reply {reply : Str} (formed : ReplyText reply) (text : Str) :
    ∃ code kept, (200 ≤ code ∧ code ≤ 599) ∧ ∀ rest fuel, (reply ++ rest).length < fuel →
      readReplyFrom fuel text (reply ++ rest) = .reply code kept rest := by
  induction formed generalizing text with
  | @last line formed ends =>
    obtain ⟨code, coded⟩ := Option.isSome_iff_exists.mp formed.coded
    refine ⟨code, keepLine text (stripLine line), replyCode_range coded, fun rest fuel enough => ?_⟩
    obtain ⟨fuel, rfl⟩ := Nat.exists_eq_add_one_of_ne_zero (Nat.ne_of_gt (Nat.zero_lt_of_lt enough))
    obtain ⟨code', coded', read⟩ := readReplyFrom_line formed fuel text rest
    rw [coded] at coded'
    rw [List.append_assoc, List.singleton_append, read, ends, Option.some.inj coded']
    rfl
  | @more line next formed goesOn _ ih =>
    obtain ⟨code, kept, range, read⟩ := ih (keepLine text (stripLine line))
    refine ⟨code, kept, range, fun rest fuel enough => ?_⟩
    obtain ⟨fuel, rfl⟩ := Nat.exists_eq_add_one_of_ne_zero (Nat.ne_of_gt (Nat.zero_lt_of_lt enough))
    obtain ⟨_, -, round⟩ := readReplyFrom_line formed fuel text (next ++ rest)
    rw [List.append_assoc, List.cons_append, round, if_pos goesOn]
    apply read
    simp only [List.append_assoc, List.cons_append, List.length_append, List.length_cons] at enough ⊢
    omega

lemma readReply_reply {reply : Str} (formed : ReplyText reply) :
    ∃ code kept, (200 ≤ code ∧ code ≤ 599) ∧ ∀ rest, readReply (reply ++ rest) = .reply code kept rest := by
  obtain ⟨code, kept, range, read⟩ := readReplyFrom_reply formed []
  exact ⟨code, kept, range, fun rest => read rest _ (Nat.lt_succ_self _)⟩

lemma readReplyFrom_sound {fuel : Nat} {text s kept rest : Str} {code : Int}
    (read : readReplyFrom fuel text s = .reply code kept rest) : ∃ reply, ReplyText reply ∧ s = reply ++ rest := by
  induction fuel generalizing text s with
  | zero => cases read
  | succ fuel ih =>
    simp only [readReplyFrom] at read
    split at read
    · cases read
    · rename_i raw tail taken
      obtain ⟨line, unbroken, rfl, rfl⟩ := readString_some taken
      rw [stripLine_lf] at read
      split at read
      · cases read
      · split at read
        · cases read
        · rename_i first coded
          have formed : ReplyLine line := ⟨unbroken, by rw [coded]; rfl⟩
          split at read
          · rename_i goesOn
            obtain ⟨reply, formedRest, rfl⟩ := ih read
            exact ⟨line ++ 10 :: reply, .more formed goesOn formedRest, by simp⟩
          · rename_i ends
            cases read
            exact ⟨line ++ [10], .last formed (Bool.eq_false_iff.mpr ends), by simp⟩

/-- The reader returns a code exactly on the streams that begin with a reply. -/
lemma readReply_iff (s : Str) : (∃ code kept rest, readReply s = .reply code kept rest) ↔ BeginsWithReply s := by
  constructor
  · rintro ⟨code, kept, rest, read⟩
    obtain ⟨reply, formed, same⟩ := readReplyFrom_sound read
    exact ⟨reply, rest, formed, same⟩
  · rintro ⟨reply, rest, formed, rfl⟩
    obtain ⟨code, kept, -, read⟩ := readReply_reply formed
    exact ⟨code, kept, rest, read rest⟩

end EmailVerifier.Prober
