import EmailVerifier.Text.Bytes

/-! Splitting a byte stream at CRLF.

The reader's view of a stream of command lines: what stands between two CRLF
pairs is a line. A writer that ends each of its lines with CRLF is read back
line for line exactly when no line carries a CRLF inside.
-/

set_option autoImplicit false

namespace EmailVerifier.Text

def crlf : Str := [13, 10]

def extendFirst (b : UInt8) : List Str → List Str
  | [] => [[b]]
  | first :: more => (b :: first) :: more

/-- The pieces of a stream between its CRLF pairs; the last one is what follows
the last pair. -/
def splitCRLF : Str → List Str
  | [] => [[]]
  | [b] => [[b]]
  | b :: c :: more =>
    if b = 13 ∧ c = 10 then [] :: splitCRLF more else extendFirst b (splitCRLF (c :: more))

def joinCRLF (lines : List Str) : Str := lines.flatMap (· ++ crlf)

/-- Neither CR nor LF. -/
def Plain (s : Str) : Prop := ∀ b ∈ s, b ≠ 13 ∧ b ≠ 10

instance (s : Str) : Decidable (Plain s) := List.decidableBAll _ s

lemma Plain.append {s t : Str} (left : Plain s) (right : Plain t) : Plain (s ++ t) :=
  List.forall_mem_append.mpr ⟨left, right⟩

lemma Plain.clean {s : Str} (plain : Plain s) : ¬ crlf <:+: s := by
  intro inside
  exact (plain 13 (inside.subset (by simp [crlf]))).1 rfl

lemma splitCRLF_apart {b : UInt8} {rest : Str} (some : rest ≠ []) (apart : ∀ more, rest = 10 :: more → b ≠ 13) :
    splitCRLF (b :: rest) = extendFirst b (splitCRLF rest) := by
  cases rest with
  | nil => exact absurd rfl some
  | cons c more =>
    have notPair : ¬(b = 13 ∧ c = 10) := fun pair => apart more (by rw [pair.2]) pair.1
    rw [splitCRLF, if_neg notPair]

lemma splitCRLF_line (line rest : Str) (clean : ¬ crlf <:+: line) :
    splitCRLF (line ++ crlf ++ rest) = line :: splitCRLF rest := by
  induction line with
  | nil => simp [crlf, splitCRLF]
  | cons b line ih =>
    have apart : ∀ more, line ++ crlf ++ rest = 10 :: more → b ≠ 13 := by
      rintro more same rfl
      cases line with
      | nil => simp [crlf] at same
      | cons c line =>
        have second : c = 10 := by simpa using (List.cons.inj same).1
        exact clean ⟨[], line, by rw [second]; rfl⟩
    rw [List.cons_append, List.cons_append, splitCRLF_apart (by simp [crlf]) apart,
      ih fun inside => clean (List.infix_cons inside)]
    rfl

lemma splitCRLF_joinCRLF (lines : List Str) (clean : ∀ line ∈ lines, ¬ crlf <:+: line) :
    splitCRLF (joinCRLF lines) = lines ++ [[]] := by
  induction lines with
  | nil => rfl
  | cons line lines ih =>
    have first := splitCRLF_line line (joinCRLF lines) (clean line (by simp))
    have rest := ih fun other member => clean other (List.mem_cons_of_mem line member)
    rw [rest] at first
    exact first

lemma splitCRLF_pieces (s : Str) :
    ∃ first more, splitCRLF s = first :: more ∧ first <+: s ∧
      ∀ piece ∈ first :: more, ¬ crlf <:+: piece := by
  induction s using splitCRLF.induct with
  | case1 => exact ⟨[], [], rfl, List.nil_prefix, by simp [crlf]⟩
  | case2 b =>
    refine ⟨[b], [], rfl, List.prefix_rfl, ?_⟩
    intro piece member inside
    rw [List.mem_singleton.mp member] at inside
    simpa [crlf] using inside.length_le
  | case3 b c more pair ih =>
    obtain ⟨first, others, same, -, clean⟩ := ih
    refine ⟨[], first :: others, by rw [splitCRLF, if_pos pair, same], List.nil_prefix, ?_⟩
    intro piece member
    rcases List.mem_cons.mp member with rfl | member
    · simp [crlf]
    · exact clean piece member
  | case4 b c more notPair ih =>
    obtain ⟨first, others, same, leads, clean⟩ := ih
    refine ⟨b :: first, others, by rw [splitCRLF, if_neg notPair, same]; rfl,
      List.cons_prefix_cons.mpr ⟨rfl, leads⟩, ?_⟩
    intro piece member inside
    rcases List.mem_cons.mp member with rfl | member
    · rcases List.infix_cons_iff.mp inside with starts | inside
      · obtain ⟨isCR, starts⟩ := List.cons_prefix_cons.mp starts
        obtain ⟨isLF, -⟩ := List.cons_prefix_cons.mp (starts.trans leads)
        exact notPair ⟨isCR.symm, isLF.symm⟩
      · exact clean first (by simp) inside
    · exact clean piece (List.mem_cons_of_mem first member) inside

lemma splitCRLF_clean {s piece : Str} (member : piece ∈ splitCRLF s) : ¬ crlf <:+: piece := by
  obtain ⟨first, more, same, -, clean⟩ := splitCRLF_pieces s
  rw [same] at member
  exact clean piece member

lemma intercalate_splitCRLF (s : Str) : List.intercalate crlf (splitCRLF s) = s := by
  induction s using splitCRLF.induct with
  | case1 => rfl
  | case2 b => rfl
  | case3 b c more pair ih =>
    obtain ⟨first, others, same, -, -⟩ := splitCRLF_pieces more
    rw [splitCRLF, if_pos pair]
    rw [same] at ih ⊢
    rw [List.intercalate_cons_cons, ih, pair.1, pair.2]
    rfl
  | case4 b c more notPair ih =>
    obtain ⟨first, others, same, -, -⟩ := splitCRLF_pieces (c :: more)
    rw [splitCRLF, if_neg notPair]
    rw [same] at ih ⊢
    rw [← ih]
    cases others with
    | nil => simp [extendFirst]
    | cons second others => simp [extendFirst, List.intercalate_cons_cons]

/-- Reading back is faithful exactly when no line hides a CRLF. -/
lemma splitCRLF_joinCRLF_iff (lines : List Str) :
    splitCRLF (joinCRLF lines) = lines ++ [[]] ↔ ∀ line ∈ lines, ¬ crlf <:+: line := by
  constructor
  · intro same line member
    apply splitCRLF_clean (s := joinCRLF lines)
    rw [same]
    exact List.mem_append_left _ member
  · exact splitCRLF_joinCRLF lines

lemma crlf_infix_append (s t : Str) : crlf <:+: s ++ t ↔ crlf <:+: s ∨ crlf <:+: t ∨ [13] <:+ s ∧ [10] <+: t := by
  rw [List.infix_append_iff_ne_nil]
  constructor
  · rintro (left | right | ⟨cr, lf, someCR, someLF, pair, ends, starts⟩)
    · exact .inl left
    · exact .inr (.inl right)
    · match cr, lf, pair with
      | [], _, _ => exact absurd rfl someCR
      | [_], [_], rfl => exact .inr (.inr ⟨ends, starts⟩)
      | [_, _], [], _ => exact absurd rfl someLF
  · rintro (left | right | ⟨ends, starts⟩)
    · exact .inl left
    · exact .inr (.inl right)
    · exact .inr (.inr ⟨[13], [10], by simp, by simp, rfl, ends, starts⟩)

lemma crlf_infix_between (before s after : Str) (noCR : 13 ∉ before) (noLF : 10 ∉ after) :
    crlf <:+: before ++ s ++ after ↔ crlf <:+: s := by
  have inBefore : ¬ crlf <:+: before := fun inside => noCR (inside.subset (by simp [crlf]))
  have inAfter : ¬ crlf <:+: after := fun inside => noLF (inside.subset (by simp [crlf]))
  have endsBefore : ¬ [13] <:+ before := fun ends => noCR (ends.subset (by simp))
  have startsAfter : ¬ [10] <+: after := fun starts => noLF (starts.subset (by simp))
  simp [crlf_infix_append, inBefore, inAfter, endsBefore, startsAfter]

end EmailVerifier.Text
