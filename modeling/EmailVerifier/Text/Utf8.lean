import EmailVerifier.Text.Runes

/-! Texts that are UTF-8, and ASCII among them.

On ASCII the runes are the bytes and the case tables are the usual ones. In any other rune
every byte is above ASCII, so a text may be taken apart at an ASCII byte.
-/

set_option autoImplicit false

namespace EmailVerifier.Text

/-! ## ASCII -/

instance (s : Str) : Decidable (Ascii s) := List.decidableBAll _ s

variable {s a : Str} {b sep : UInt8}

lemma decodeRune_ascii (small : b < 0x80) (rest : Str) : decodeRune b rest = (b.toNat, 1) := by
  unfold decodeRune
  rw [if_pos small]

lemma runes_ascii (ascii : Ascii s) : runes s = s.map fun b => ⟨b.toNat, [b]⟩ := by
  induction s with
  | nil => rfl
  | cons b rest ih =>
    obtain ⟨small, others⟩ := List.forall_mem_cons.mp ascii
    rw [runes_cons, decodeRune_ascii small]
    simp [ih others]

def lowerByte (b : UInt8) : UInt8 := if 65 ≤ b ∧ b ≤ 90 then b + 32 else b

lemma encodeRune_lower [Unicode] (small : b < 0x80) : encodeRune (Unicode.lower b.toNat) = [lowerByte b] := by
  have below : b.toNat < 0x80 := small
  rw [Unicode.lower_ascii _ below]
  have all : ∀ n < 0x80, encodeRune (if 65 ≤ n ∧ n ≤ 90 then n + 32 else n) = [lowerByte n.toUInt8] := by
    decide +kernel
  have here := all b.toNat below
  rwa [show b.toNat.toUInt8 = b from UInt8.ofNat_toNat] at here

lemma toLower_ascii [Unicode] (ascii : Ascii s) : toLower s = s.map lowerByte := by
  unfold toLower
  rw [runes_ascii ascii, List.flatMap_map]
  induction s with
  | nil => rfl
  | cons b rest ih =>
    obtain ⟨small, others⟩ := List.forall_mem_cons.mp ascii
    rw [List.flatMap_cons, encodeRune_lower small, ih others]
    rfl

/-! ## UTF-8 -/

inductive Utf8 : Str → Prop where
  | nil : Utf8 []
  | cons {code : Nat} {s : Str} : Scalar code → Utf8 s → Utf8 (encodeRune code ++ s)

lemma encodeRune_ascii (small : b < 0x80) : encodeRune b.toNat = [b] := by
  have below : b.toNat < 0x80 := small
  simp [encodeRune, below]

lemma encodeRune_ne_nil (code : Nat) : encodeRune code ≠ [] := by
  unfold encodeRune
  dsimp only
  split_ifs <;> simp

lemma encodeRune_wide {code : Nat} (wide : 0x80 ≤ code) : ∀ b ∈ encodeRune code, ¬ b < 0x80 := by
  unfold encodeRune
  dsimp only
  split_ifs with one two three four
  · omega
  all_goals
    intro b member
    simp only [List.mem_cons, List.not_mem_nil, or_false] at member
  · rcases member with rfl | rfl <;> exact toUInt8_wide (by omega) (by omega)
  · rcases member with rfl | rfl | rfl <;> exact toUInt8_wide (by omega) (by omega)
  · rcases member with rfl | rfl | rfl | rfl <;> exact toUInt8_wide (by omega) (by omega)
  · rcases member with rfl | rfl | rfl <;> decide

lemma encodeRune_apart (small : b < 0x80) (code : Nat) :
    code = b.toNat ∧ encodeRune code = [b] ∨ code ≠ b.toNat ∧ b ∉ encodeRune code := by
  by_cases same : code = b.toNat
  · left
    exact ⟨same, same ▸ encodeRune_ascii small⟩
  · right
    refine ⟨same, fun member => ?_⟩
    by_cases wide : 0x80 ≤ code
    · exact encodeRune_wide wide b member small
    · have written : encodeRune code = [code.toUInt8] := if_pos (by omega)
      rw [written, List.mem_singleton] at member
      rw [member, toNat_toUInt8 (by omega)] at same
      exact same rfl

lemma Utf8.cons_ascii (small : b < 0x80) (utf8 : Utf8 s) : Utf8 (b :: s) := by
  have below : b.toNat < 0x80 := small
  have whole : Utf8 (encodeRune b.toNat ++ s) := .cons (.inl (by omega)) utf8
  rwa [encodeRune_ascii small] at whole

lemma Ascii.utf8 (ascii : Ascii s) : Utf8 s := by
  induction s with
  | nil => exact .nil
  | cons b rest ih =>
    obtain ⟨small, others⟩ := List.forall_mem_cons.mp ascii
    exact .cons_ascii small (ih others)

lemma Utf8.append {t : Str} (left : Utf8 s) (right : Utf8 t) : Utf8 (s ++ t) := by
  induction left with
  | nil => exact right
  | cons scalar _ ih =>
    rw [List.append_assoc]
    exact .cons scalar ih

lemma Utf8.codes (utf8 : Utf8 s) :
    ∃ codes : List Nat, runes s = codes.map (fun code => ⟨code, encodeRune code⟩) ∧ codes.flatMap encodeRune = s := by
  suffices written : ∃ codes : List Nat, (∀ code ∈ codes, Scalar code) ∧ codes.flatMap encodeRune = s by
    obtain ⟨codes, scalars, rfl⟩ := written
    exact ⟨codes, runes_encoded codes scalars, rfl⟩
  induction utf8 with
  | nil => exact ⟨[], List.forall_mem_nil _, rfl⟩
  | cons scalar _ ih =>
    obtain ⟨codes, scalars, rfl⟩ := ih
    exact ⟨_ :: codes, List.forall_mem_cons.mpr ⟨scalar, scalars⟩, rfl⟩

/-! ## Splitting -/

lemma split_ne_nil (sep : UInt8) (s : Str) : split sep s ≠ [] := by
  cases s with
  | nil => simp [split]
  | cons b rest =>
    rw [split]
    split
    · simp
    · split_ifs <;> simp

lemma split_cons (sep b : UInt8) (rest : Str) : ∃ first more, split sep rest = first :: more ∧
    split sep (b :: rest) = if b = sep then [] :: first :: more else (b :: first) :: more := by
  obtain ⟨first, more, same⟩ := List.exists_cons_of_ne_nil (split_ne_nil sep rest)
  exact ⟨first, more, same, by rw [split, same]⟩

lemma split_sep (sep : UInt8) (rest : Str) : split sep (sep :: rest) = [] :: split sep rest := by
  obtain ⟨first, more, same, here⟩ := split_cons sep sep rest
  rw [here, if_pos rfl, same]

lemma mem_split (sep : UInt8) (s : Str) : ∀ piece ∈ split sep s, sep ∉ piece := by
  induction s with
  | nil => simp [split]
  | cons b rest ih =>
    obtain ⟨first, more, same, here⟩ := split_cons sep b rest
    rw [same] at ih
    rw [here]
    split_ifs with isSep
    · simpa using ih
    · obtain ⟨bare, others⟩ := List.forall_mem_cons.mp ih
      refine List.forall_mem_cons.mpr ⟨fun member => ?_, others⟩
      exact (List.mem_cons.mp member).elim (fun same => isSep same.symm) bare

lemma split_bare_append (bare : sep ∉ a) (rest : Str) : ∃ first more,
    split sep rest = first :: more ∧ split sep (a ++ rest) = (a ++ first) :: more := by
  induction a with
  | nil =>
    obtain ⟨first, more, same⟩ := List.exists_cons_of_ne_nil (split_ne_nil sep rest)
    exact ⟨first, more, same, same⟩
  | cons b a ih =>
    have other : b ≠ sep := fun same => bare (same ▸ List.mem_cons_self)
    obtain ⟨first, more, same, there⟩ := ih fun member => bare (List.mem_cons_of_mem b member)
    obtain ⟨first', more', same', here⟩ := split_cons sep b (a ++ rest)
    rw [there] at same'
    cases same'
    refine ⟨first, more, same, ?_⟩
    rw [List.cons_append, here, if_neg other]
    rfl

lemma split_bare (bare : sep ∉ a) : split sep a = [a] := by
  obtain ⟨first, more, same, here⟩ := split_bare_append bare []
  cases same
  simpa using here

lemma split_append (bare : sep ∉ a) (rest : Str) : split sep (a ++ sep :: rest) = a :: split sep rest := by
  obtain ⟨first, more, same, here⟩ := split_bare_append bare (sep :: rest)
  rw [split_sep] at same
  cases same
  simpa using here

lemma Utf8.split (small : sep < 0x80) (utf8 : Utf8 s) : ∀ piece ∈ Text.split sep s, Utf8 piece := by
  induction utf8 with
  | nil => simp [Text.split, Utf8.nil]
  | @cons code s scalar _ ih =>
    rcases encodeRune_apart small code with ⟨-, same⟩ | ⟨-, bare⟩
    · rw [same, List.singleton_append, split_sep]
      intro piece member
      rcases List.mem_cons.mp member with rfl | member
      · exact .nil
      · exact ih piece member
    · obtain ⟨first, more, same, here⟩ := split_bare_append bare s
      rw [same] at ih
      rw [here]
      intro piece member
      rcases List.mem_cons.mp member with rfl | member
      · exact .cons scalar (ih first List.mem_cons_self)
      · exact ih piece (List.mem_cons_of_mem first member)

end EmailVerifier.Text
