import EmailVerifier.Prober.ReadReply
import EmailVerifier.Text.Decimal

/-! Which bytes of a stream are a reply, what is kept of them and what is left unread.

A reply is written here line by line: three digits, the rest of the line and LF. A hyphen
after the digits announces another line. What `readReply` keeps is the first lines, up to
the one with which the text reaches the limit.
-/

set_option autoImplicit false

namespace EmailVerifier.Prober
open Text

structure CodeLine where
  code : Nat
  tail : Str
  low : 200 ≤ code
  high : code ≤ 599
  unbroken : 10 ∉ tail

namespace CodeLine

def text (l : CodeLine) : Str :=
  digitByte (l.code / 100) :: digitByte (l.code / 10 % 10) :: digitByte (l.code % 10) :: l.tail

def goesOn (l : CodeLine) : Bool := l.tail.head? = some 45

def stripped (l : CodeLine) : Str := stripLine l.text

end CodeLine

def wired (lines : List CodeLine) : Str := lines.flatMap fun l => l.text ++ [10]

def joined (lines : List CodeLine) : Str := List.intercalate [10] (lines.map CodeLine.stripped)

def Complete (lines : List CodeLine) (last : CodeLine) : Prop :=
  (∀ l ∈ lines, l.goesOn = true) ∧ last.goesOn = false

lemma toNat_digitByte {d : Nat} (small : d < 10) : (digitByte d).toNat = 48 + d := by
  have all : ∀ d < 10, (digitByte d).toNat = 48 + d := by decide
  exact all d small

lemma digitByte_toNat {b : UInt8} {d : Nat} (small : d < 10) (value : b.toNat = 48 + d) : b = digitByte d :=
  UInt8.toNat_inj.mp (value.trans (toNat_digitByte small).symm)

lemma stripLine_append {front : Str} (plain : ∀ b ∈ front, b ≠ 13 ∧ b ≠ 10) (tail : Str) :
    stripLine (front ++ tail) = front ++ stripLine tail := by
  have kept : front.reverse.dropWhile (fun b => [13, 10].contains b) = front.reverse := by
    cases same : front.reverse with
    | nil => rfl
    | cons b more =>
      have member : b ∈ front := List.mem_reverse.mp (same ▸ List.mem_cons_self)
      exact List.dropWhile_cons_of_neg (by simp [plain b member])
  unfold stripLine trimRight
  rw [List.reverse_append, List.dropWhile_append, kept]
  split
  · rename_i empty
    rw [List.isEmpty_iff.mp empty]
    simp
  · simp

lemma stripLine_start (line : Str) : stripLine line <+: line := by
  obtain ⟨front, same⟩ := List.dropWhile_suffix (l := line.reverse) fun b => [13, 10].contains b
  refine ⟨front.reverse, ?_⟩
  rw [stripLine, trimRight, ← List.reverse_append, same, List.reverse_reverse]

lemma head_stripLine (tail : Str) : (stripLine tail).head? = some 45 ↔ tail.head? = some 45 := by
  constructor
  · intro leads
    obtain ⟨more, same⟩ := stripLine_start tail
    rw [← same, List.head?_append, leads]
    rfl
  · intro leads
    obtain ⟨rest, rfl⟩ := List.head?_eq_some_iff.mp leads
    rw [show 45 :: rest = [45] ++ rest from rfl, stripLine_append (by simp)]
    rfl

namespace CodeLine
variable (l : CodeLine)

lemma stripped_eq : l.stripped = digitByte (l.code / 100) :: digitByte (l.code / 10 % 10) :: digitByte (l.code % 10) ::
    stripLine l.tail := by
  have digit : ∀ d < 10, digitByte d ≠ 13 ∧ digitByte d ≠ 10 := by decide
  have high := l.high
  have plain : ∀ b ∈ [digitByte (l.code / 100), digitByte (l.code / 10 % 10), digitByte (l.code % 10)], b ≠ 13 ∧ b ≠ 10 := by
    simp only [List.forall_mem_cons, List.not_mem_nil, false_imp_iff, implies_true, and_true]
    exact ⟨digit _ (by omega), digit _ (by omega), digit _ (by omega)⟩
  exact stripLine_append plain l.tail

lemma code_stripped : replyCode l.stripped = some (l.code : Int) := by
  have low := l.low
  have high := l.high
  have first := toNat_digitByte (show l.code / 100 < 10 by omega)
  have second := toNat_digitByte (show l.code / 10 % 10 < 10 by omega)
  have third := toNat_digitByte (show l.code % 10 < 10 by omega)
  rw [l.stripped_eq, replyCode, if_neg]
  · rw [first, second, third]
    congr 1
    omega
  · simp only [UInt8.lt_iff_toNat_lt, first, second, third, UInt8.toNat_ofNat, Nat.reducePow, Nat.reduceMod]
    omega

lemma continues_stripped : continues l.stripped = l.goesOn := by
  have fourth : continues l.stripped = decide ((stripLine l.tail).head? = some 45) := by
    rw [l.stripped_eq]
    cases stripLine l.tail <;> rfl
  rw [fourth, goesOn]
  exact decide_eq_decide.mpr (head_stripLine l.tail)

lemma formed : ReplyLine l.text where
  unbroken := by
    have digit : ∀ d < 10, 10 ≠ digitByte d := by decide
    have high := l.high
    simp only [text, List.mem_cons, not_or]
    exact ⟨digit _ (by omega), digit _ (by omega), digit _ (by omega), l.unbroken⟩
  coded := by
    change (replyCode l.stripped).isSome
    rw [l.code_stripped]
    rfl

end CodeLine

lemma exists_codeLine {line : Str} (formed : ReplyLine line) : ∃ l : CodeLine, l.text = line := by
  obtain ⟨code, coded⟩ := Option.isSome_iff_exists.mp formed.coded
  obtain ⟨more, same⟩ := stripLine_start line
  match stripLine line, coded, same with
  | a :: b :: c :: t, coded, same =>
    simp only [replyCode] at coded
    split at coded
    · cases coded
    · rename_i digits
      simp only [not_or, UInt8.not_lt, UInt8.le_iff_toNat_le, UInt8.toNat_ofNat, Nat.reducePow,
        Nat.reduceMod] at digits
      have unbroken := formed.unbroken
      rw [← same] at unbroken ⊢
      refine ⟨⟨(a.toNat - 48) * 100 + (b.toNat - 48) * 10 + (c.toNat - 48), t ++ more, by omega, by omega, ?_⟩, ?_⟩
      · exact fun member => unbroken (by simp [List.mem_append.mp member])
      · simp only [CodeLine.text, List.cons_append]
        rw [← digitByte_toNat (b := a) (by omega) (by omega), ← digitByte_toNat (b := b) (by omega) (by omega),
          ← digitByte_toNat (b := c) (by omega) (by omega)]

lemma wire_append (lines : List CodeLine) (last : CodeLine) (rest : Str) :
    wired (lines ++ [last]) ++ rest = wired lines ++ (last.text ++ 10 :: rest) := by
  simp [wired]

lemma readReplyFrom_wire {lines : List CodeLine} {last : CodeLine} (complete : Complete lines last) (kept rest : Str)
    {fuel : Nat} (enough : (wired (lines ++ [last]) ++ rest).length < fuel) :
    readReplyFrom fuel kept (wired (lines ++ [last]) ++ rest) =
      .reply last.code (((lines ++ [last]).map CodeLine.stripped).foldl keepLine kept) rest := by
  obtain ⟨announced, ends⟩ := complete
  induction lines generalizing kept fuel with
  | nil =>
    obtain ⟨fuel, rfl⟩ := Nat.exists_eq_add_one_of_ne_zero (Nat.ne_of_gt (Nat.zero_lt_of_lt enough))
    obtain ⟨code, coded, read⟩ := readReplyFrom_line last.formed fuel kept rest
    change replyCode last.stripped = _ at coded
    change _ = if continues last.stripped then _ else _ at read
    rw [last.code_stripped] at coded
    rw [last.continues_stripped, ends, ← Option.some.inj coded] at read
    rw [wire_append]
    exact read
  | cons l lines ih =>
    obtain ⟨fuel, rfl⟩ := Nat.exists_eq_add_one_of_ne_zero (Nat.ne_of_gt (Nat.zero_lt_of_lt enough))
    obtain ⟨here, others⟩ := List.forall_mem_cons.mp announced
    have stream : wired (l :: lines ++ [last]) ++ rest = l.text ++ 10 :: (wired (lines ++ [last]) ++ rest) := by
      simp [wired]
    obtain ⟨code, -, read⟩ := readReplyFrom_line l.formed fuel kept (wired (lines ++ [last]) ++ rest)
    change _ = if continues l.stripped then readReplyFrom fuel (keepLine kept l.stripped) _ else _ at read
    rw [stream] at enough ⊢
    rw [l.continues_stripped, here, if_pos rfl] at read
    rw [read]
    refine ih _ ?_ others
    simp only [List.length_append, List.length_cons] at enough ⊢
    omega

lemma foldl_keepLine_full {text : Str} (full : ¬ text.length < maxReplyBytes) (lines : List Str) :
    lines.foldl keepLine text = text := by
  induction lines with
  | nil => rfl
  | cons l lines ih => rw [List.foldl_cons, keepLine, if_neg full, ih]

lemma intercalate_snoc {front : List Str} (some : front ≠ []) (last : Str) :
    List.intercalate [10] (front ++ [last]) = List.intercalate [10] front ++ [10] ++ last := by
  induction front with
  | nil => exact absurd rfl some
  | cons l front ih =>
    cases front with
    | nil => simp [List.intercalate_cons_cons]
    | cons next front =>
      rw [List.cons_append, List.cons_append, List.intercalate_cons_cons, ← List.cons_append, ih (List.cons_ne_nil _ _),
        List.intercalate_cons_cons]
      simp

lemma keepLine_intercalate {front : List Str} (filled : ∀ l ∈ front, l ≠ [])
    (room : (List.intercalate [10] front).length < maxReplyBytes) (l : Str) :
    keepLine (List.intercalate [10] front) l = List.intercalate [10] (front ++ [l]) := by
  unfold keepLine
  rw [if_pos room]
  cases front with
  | nil => simp
  | cons first more =>
    have started : (List.intercalate [10] (first :: more)).length > 0 := by
      have := List.length_pos_of_ne_nil (filled first List.mem_cons_self)
      cases more <;> simp only [List.intercalate_cons_cons, List.intercalate_singleton, List.length_append] <;> omega
    rw [if_pos started]
    exact (intercalate_snoc (List.cons_ne_nil _ _) l).symm

lemma stripped_filled (lines : List CodeLine) : ∀ l ∈ lines.map CodeLine.stripped, l ≠ [] := by
  intro l member
  obtain ⟨line, -, rfl⟩ := List.mem_map.mp member
  rw [line.stripped_eq]
  exact List.cons_ne_nil _ _

/-- What is kept of some lines: the first ones, up to the one that reaches the limit. -/
structure KeptLines (lines kept dropped : List CodeLine) : Prop where
  split : lines = kept ++ dropped
  room : ∀ before, before <+: kept → before ≠ kept → (joined before).length < maxReplyBytes
  full : dropped ≠ [] → maxReplyBytes ≤ (joined kept).length

lemma keepLines_kept (front lines : List CodeLine)
    (room : ∀ before, before <+: front → before ≠ front → (joined before).length < maxReplyBytes) :
    ∃ kept dropped, KeptLines (front ++ lines) kept dropped ∧
      (lines.map CodeLine.stripped).foldl keepLine (joined front) = joined kept := by
  induction lines generalizing front with
  | nil => exact ⟨front, [], ⟨rfl, room, fun some => absurd rfl some⟩, rfl⟩
  | cons l lines ih =>
    by_cases open_ : (joined front).length < maxReplyBytes
    · have wider : ∀ before, before <+: front ++ [l] → before ≠ front ++ [l] →
          (joined before).length < maxReplyBytes := by
        intro before start proper
        rcases List.prefix_concat_iff.mp start with same | start
        · exact absurd same proper
        · by_cases same : before = front
          · exact same ▸ open_
          · exact room before start same
      obtain ⟨kept, dropped, keeps, same⟩ := ih (front ++ [l]) wider
      refine ⟨kept, dropped, ?_, ?_⟩
      · simpa using keeps
      · rw [List.map_cons, List.foldl_cons, joined, keepLine_intercalate (stripped_filled front) open_, ← same, joined,
          List.map_append]
        rfl
    · refine ⟨front, l :: lines, ⟨rfl, room, fun _ => Nat.le_of_not_lt open_⟩, ?_⟩
      exact foldl_keepLine_full open_ _

lemma exists_wire {reply : Str} (formed : ReplyText reply) :
    ∃ lines last, Complete lines last ∧ reply = wired (lines ++ [last]) := by
  induction formed with
  | @last line formed ends =>
    obtain ⟨l, rfl⟩ := exists_codeLine formed
    refine ⟨[], l, ⟨by simp, ?_⟩, by simp [wired]⟩
    rw [← l.continues_stripped]
    exact ends
  | @more line _ formed goesOn _ ih =>
    obtain ⟨l, rfl⟩ := exists_codeLine formed
    obtain ⟨lines, last, ⟨announced, ends⟩, rfl⟩ := ih
    refine ⟨l :: lines, last, ⟨List.forall_mem_cons.mpr ⟨?_, announced⟩, ends⟩, by simp [wired]⟩
    rw [← l.continues_stripped]
    exact goesOn

/-- A complete reply in front of other bytes is read as the code of its last line and the lines it
keeps, with what follows it left unread. Every other stream gives no code. -/
theorem readReply_framing :
    (∀ lines last rest, Complete lines last → ∃ kept dropped, KeptLines (lines ++ [last]) kept dropped ∧
      readReply (wired (lines ++ [last]) ++ rest) = .reply last.code (joined kept) rest) ∧
    ∀ s, (∀ lines last rest, Complete lines last → s ≠ wired (lines ++ [last]) ++ rest) →
      ∀ code text rest, readReply s ≠ .reply code text rest := by
  constructor
  · intro lines last rest complete
    obtain ⟨kept, dropped, keeps, same⟩ := keepLines_kept [] (lines ++ [last]) (by simp)
    refine ⟨kept, dropped, keeps, ?_⟩
    rw [readReply, readReplyFrom_wire complete [] rest (Nat.lt_succ_self _), ← same]
    rfl
  · intro s other code text rest read
    obtain ⟨reply, formed, same⟩ := readReplyFrom_sound read
    obtain ⟨lines, last, complete, rfl⟩ := exists_wire formed
    exact other lines last rest complete same

end EmailVerifier.Prober
