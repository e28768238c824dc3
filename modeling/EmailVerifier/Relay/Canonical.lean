import EmailVerifier.Relay.Dkim
import EmailVerifier.Text.Relaxed

/-! The canonical forms and the stuffed text are those of the RFCs.

`normaliseNewlines`, the canonical forms and `dotStuff` each go through the lines of a
text in a loop of their own. Every LF that `normaliseNewlines` leaves follows a CR, and on
such a text the loops agree with what the other side does.
-/

set_option autoImplicit false

namespace EmailVerifier.Relay
open Text Semantics

/-! ## Line ends -/

lemma unixLines_cons {b : UInt8} {rest : Str} (apart : ∀ more, rest = 10 :: more → b ≠ 13) :
    unixLines (b :: rest) = b :: unixLines rest := by
  rw [unixLines]
  rintro more rfl rfl
  exact apart more rfl rfl

lemma split_unixLines_flat (s : Str) : split 10 (unixLines s) = (splitCRLF s).flatMap (split 10) := by
  induction s using splitCRLF.induct with
  | case1 => rfl
  | case2 b =>
    rw [unixLines_cons (by simp)]
    simp [splitCRLF, unixLines]
  | case3 b c more pair ih =>
    obtain ⟨rfl, rfl⟩ := pair
    rw [splitCRLF, if_pos ⟨rfl, rfl⟩, unixLines, split_sep, ih]
    rfl
  | case4 b c more notPair ih =>
    have apart : ∀ more', c :: more = 10 :: more' → b ≠ 13 := fun _ same isCR => notPair ⟨isCR, (List.cons.inj same).1⟩
    obtain ⟨first, others, same, -, -⟩ := splitCRLF_pieces (c :: more)
    rw [splitCRLF, if_neg notPair, unixLines_cons apart]
    rw [same] at ih ⊢
    obtain ⟨start, tails, splits, here⟩ := split_cons 10 b first
    obtain ⟨start', tails', splits', here'⟩ := split_cons 10 b (unixLines (c :: more))
    rw [here']
    rw [ih, List.flatMap_cons, splits, List.cons_append] at splits'
    cases splits'
    simp only [extendFirst, List.flatMap_cons, here]
    split <;> rfl

variable {name last s line : Str} {front lines : List Str}

lemma split_unixLines (pairs : paired false s = true) : split 10 (unixLines s) = splitCRLF s := by
  have bare := bare_of_paired pairs
  rw [split_unixLines_flat]
  generalize splitCRLF s = pieces at bare
  induction pieces with
  | nil => rfl
  | cons piece more ih =>
    obtain ⟨here, others⟩ := List.forall_mem_cons.mp bare
    rw [List.flatMap_cons, split_bare here, ih others]
    rfl

lemma unixLines_append {a : Str} (bare : 13 ∉ a) (rest : Str) : unixLines (a ++ rest) = a ++ unixLines rest := by
  induction a with
  | nil => rfl
  | cons b a ih =>
    have other : b ≠ 13 := fun same => bare (same ▸ List.mem_cons_self)
    rw [List.cons_append, unixLines_cons fun _ _ => other, ih fun member => bare (List.mem_cons_of_mem b member)]
    rfl

lemma unixLines_utf8 (utf8 : Utf8 s) : Utf8 (unixLines s) := by
  induction utf8 with
  | nil => exact .nil
  | @cons code s scalar _ ih =>
    rcases encodeRune_apart (b := 13) (by decide) code with ⟨-, same⟩ | ⟨-, bare⟩
    · rw [same, List.singleton_append]
      by_cases next : ∃ more, s = 10 :: more
      · -- The CR goes, the LF stays.
        obtain ⟨more, rfl⟩ := next
        rw [unixLines_cons (by simp)] at ih
        exact ih
      · rw [unixLines_cons fun more starts => absurd ⟨more, starts⟩ next]
        exact .cons_ascii (by decide) ih
    · rw [unixLines_append bare]
      exact .cons scalar ih

def pairLF (b : UInt8) : Str := if b = 10 then [13, 10] else [b]

lemma normaliseNewlines_eq (s : Str) : normaliseNewlines s = (unixLines s).flatMap pairLF := by
  have same : ∀ s, normaliseNewlines.lf s = unixLines s := by
    intro s
    induction s using unixLines.induct with
    | case1 rest ih => rw [normaliseNewlines.lf, unixLines, ih]
    | case2 b rest apart ih => rw [normaliseNewlines.lf, unixLines, ih] <;> exact apart
    | case3 => rfl
  unfold normaliseNewlines
  rw [same]
  rfl

lemma normaliseNewlines_paired (s : Str) : paired false (normaliseNewlines s) = true := by
  rw [normaliseNewlines_eq]
  generalize unixLines s = t
  induction t with
  | nil => rfl
  | cons b rest ih =>
    rw [List.flatMap_cons]
    apply paired_append _ ih
    unfold pairLF
    split
    · rfl
    · rename_i other
      simp [paired, other]

lemma flatMap_pairLF_bare {a : Str} (bare : 10 ∉ a) : a.flatMap pairLF = a := by
  induction a with
  | nil => rfl
  | cons b a ih =>
    have other : b ≠ 10 := fun same => bare (same ▸ List.mem_cons_self)
    rw [List.flatMap_cons, ih fun member => bare (List.mem_cons_of_mem b member), pairLF, if_neg other]
    rfl

lemma normaliseNewlines_utf8 (utf8 : Utf8 s) : Utf8 (normaliseNewlines s) := by
  rw [normaliseNewlines_eq]
  have lines := unixLines_utf8 utf8
  generalize unixLines s = t at lines
  induction lines with
  | nil => exact .nil
  | @cons code t scalar _ ih =>
    rw [List.flatMap_append]
    rcases encodeRune_apart (b := 10) (by decide) code with ⟨-, same⟩ | ⟨-, bare⟩
    · rw [same]
      exact Utf8.append (Ascii.utf8 (by decide)) ih
    · rw [flatMap_pairLF_bare bare]
      exact .cons scalar ih

/-! ## Runs of blanks -/

lemma isBlank_rune (code : Nat) : ((code = 32 ∨ code = 9) ∧ ∃ b, encodeRune code = [b] ∧ isBlank b = true) ∨
    ¬(code = 32 ∨ code = 9) ∧ ∀ b ∈ encodeRune code, isBlank b = false := by
  rcases encodeRune_apart (b := 32) (by decide) code with ⟨same, written⟩ | ⟨noSpace, space⟩
  · exact .inl ⟨.inl same, 32, written, rfl⟩
  rcases encodeRune_apart (b := 9) (by decide) code with ⟨same, written⟩ | ⟨noTab, tab⟩
  · exact .inl ⟨.inr same, 9, written, rfl⟩
  · refine .inr ⟨fun either => either.elim noSpace noTab, fun b member => ?_⟩
    have apart : b ≠ 32 ∧ b ≠ 9 := ⟨fun same => space (same ▸ member), fun same => tab (same ▸ member)⟩
    simp [isBlank, apart]

lemma lineRune_tidy (codes : List Nat) (out : Str × Bool) :
    ((codes.map fun code => (⟨code, encodeRune code⟩ : Rune)).foldl lineRune out).1 =
      out.1 ++ tidy out.2 (codes.flatMap encodeRune) := by
  induction codes generalizing out with
  | nil => simp [tidy]
  | cons code codes ih =>
    rw [List.map_cons, List.foldl_cons, ih, List.flatMap_cons]
    rcases isBlank_rune code with ⟨blank, b, written, isB⟩ | ⟨visible, others⟩
    · rw [written, lineRune, if_pos blank, List.singleton_append, tidy, if_pos isB]
    · rw [lineRune, if_neg visible, tidy_visible (encodeRune_ne_nil code) others]
      obtain ⟨text, space⟩ := out
      cases space <;> simp

lemma canonicalLine (utf8 : Utf8 line) : ((runes line).foldl lineRune ([], false)).1 = relaxedLine line := by
  obtain ⟨codes, decoded, same⟩ := utf8.codes
  rw [decoded, lineRune_tidy, same, (relaxedLine_tidy line).1]
  rfl

-- Once something is written the two loops are one.
lemma foldl_headerRune (l : List Rune) {out : Str × Bool} (some : out.1 ≠ []) :
    l.foldl headerRune out = l.foldl lineRune out := by
  induction l generalizing out with
  | nil => rfl
  | cons r l ih =>
    have same : headerRune out r = lineRune out r := by simp [headerRune, lineRune, some]
    have goesOn : (lineRune out r).1 ≠ [] := by
      unfold lineRune
      split
      · exact some
      · simp [encodeRune_ne_nil]
    rw [List.foldl_cons, List.foldl_cons, same, ih goesOn]

lemma headerRune_tidy (codes : List Nat) (space : Bool) :
    ((codes.map fun code => (⟨code, encodeRune code⟩ : Rune)).foldl headerRune ([], space)).1 =
      tidy false ((codes.flatMap encodeRune).dropWhile isBlank) := by
  induction codes generalizing space with
  | nil => rfl
  | cons code codes ih =>
    rw [List.map_cons, List.foldl_cons, List.flatMap_cons]
    rcases isBlank_rune code with ⟨blank, b, written, isB⟩ | ⟨visible, others⟩
    · have skipped : headerRune ([], space) ⟨code, encodeRune code⟩ = ([], true) := if_pos blank
      rw [written, List.singleton_append, List.dropWhile_cons_of_pos isB, ← ih true, ← skipped, written]
    · have first : headerRune ([], space) ⟨code, encodeRune code⟩ = (encodeRune code, false) := by
        simp [headerRune, visible]
      have stays : (encodeRune code ++ codes.flatMap encodeRune).dropWhile isBlank =
          encodeRune code ++ codes.flatMap encodeRune := by
        obtain ⟨b, more, written⟩ := List.exists_cons_of_ne_nil (encodeRune_ne_nil code)
        rw [written] at others ⊢
        exact List.dropWhile_cons_of_neg (by simp [others b List.mem_cons_self])
      rw [first, foldl_headerRune _ (encodeRune_ne_nil code), lineRune_tidy, stays,
        tidy_visible (encodeRune_ne_nil code) others]
      rfl

lemma withoutCRLF_plain (plain : Plain s) : (withoutCRLF s).filter (· ≠ 10) = s := by
  have kept : withoutCRLF s = s := by
    induction s with
    | nil => rfl
    | cons b rest ih =>
      obtain ⟨here, others⟩ := List.forall_mem_cons.mp plain
      rw [withoutCRLF, ih others]
      rintro more rfl
      exact absurd rfl here.1
  rw [kept, List.filter_eq_self]
  intro b member
  simpa using (plain b member).2

def FieldName (name : Str) : Prop := name ≠ [] ∧ ∀ b ∈ name, 33 ≤ b ∧ b ≤ 126 ∧ b ≠ 58

instance (name : Str) : Decidable (FieldName name) := @instDecidableAnd _ _ _ (List.decidableBAll _ name)

lemma FieldName.ascii (valid : FieldName name) : Ascii name := by
  intro b member
  have high : b.toNat ≤ 126 := (valid.2 b member).2.1
  exact Nat.lt_of_le_of_lt high (by decide)

lemma trim_visible {A : Type} {p : A → Bool} {l : List A} (visible : ∀ a ∈ l, p a = false) :
    ((l.dropWhile p).reverse.dropWhile p).reverse = l := by
  have stays (l : List A) (visible : ∀ a ∈ l, p a = false) : l.dropWhile p = l := by
    cases l with
    | nil => rfl
    | cons a more => exact List.dropWhile_cons_of_neg (by simp [visible a List.mem_cons_self])
  rw [stays l visible, stays l.reverse fun a member => visible a (List.mem_reverse.mp member), List.reverse_reverse]

section
variable (valid : FieldName name)
include valid

lemma FieldName.visible : ∀ b ∈ name, isBlank b = false := by
  intro b member
  have low := (valid.2 b member).1
  have apart : b ≠ 32 ∧ b ≠ 9 := ⟨fun same => absurd (same ▸ low) (by decide), fun same => absurd (same ▸ low) (by decide)⟩
  simp [isBlank, apart]

lemma FieldName.trimBlanks : Text.trimBlanks name = name :=
  trim_visible valid.visible

lemma FieldName.trimSpace : Text.trimSpace name = name := by
  have letters : ∀ n < 127, 33 ≤ n → isSpace n = false := by decide +kernel
  have visible : ∀ r ∈ runes name, isSpace r.code = false := by
    rw [runes_ascii valid.ascii]
    intro r member
    obtain ⟨b, listed, rfl⟩ := List.mem_map.mp member
    obtain ⟨low, high, -⟩ := valid.2 b listed
    exact letters b.toNat (Nat.lt_succ_of_le high) low
  have kept : trimRunes (runes name) = runes name := trim_visible visible
  rw [trimSpace_eq, kept, flatMap_bytes_runes]

lemma FieldName.relaxedName [Unicode] : Text.relaxedName name = toLower name := by
  rw [Text.relaxedName, valid.trimBlanks, toLower_ascii valid.ascii]

lemma canonicalizeHeaderNoCRLF_eq [Unicode] {value : Str} (plain : Plain value)
    (utf8 : Utf8 value) : canonicalizeHeaderNoCRLF name value = relaxedField (name, 32 :: value) := by
  obtain ⟨codes, decoded, same⟩ := utf8.codes
  have leading : (32 :: value).dropWhile isBlank = value.dropWhile isBlank := List.dropWhile_cons_of_pos rfl
  unfold canonicalizeHeaderNoCRLF relaxedField
  dsimp only
  rw [withoutCRLF_plain plain, decoded, headerRune_tidy, same, valid.trimSpace, valid.relaxedName,
    trimBlanks_squeeze, leading]
  simp [lit]
  rfl

end

/-! ## The body -/

lemma intercalate_crlf (lines : List Str) (last : Str) :
    List.intercalate crlf (lines ++ [last]) = joinCRLF lines ++ last := by
  induction lines with
  | nil => simp [joinCRLF]
  | cons line lines ih =>
    obtain ⟨next, more, same⟩ := List.exists_cons_of_ne_nil (List.append_ne_nil_of_right_ne_nil lines (List.cons_ne_nil last []))
    rw [List.cons_append, same, List.intercalate_cons_cons, ← same, ih]
    simp [joinCRLF]

lemma canonicalizeBody_eq {body : Str} (utf8 : Utf8 body) (pairs : paired false body = true) :
    canonicalizeBody body = relaxedBody body := by
  have lines : (split 10 (unixLines body)).map (fun line => ((runes line).foldl lineRune ([], false)).1) =
      (splitCRLF body).map relaxedLine := by
    have each : ∀ line ∈ split 10 (unixLines body), Utf8 line := Utf8.split (by decide) (unixLines_utf8 utf8)
    rw [← split_unixLines pairs]
    exact List.map_congr_left fun line member => canonicalLine (each line member)
  unfold canonicalizeBody relaxedBody
  rw [lines]
  dsimp only
  change (if List.rdropWhile _ _ = [] then _ else List.intercalate crlf (List.rdropWhile _ _) ++ crlf) = _
  generalize ((splitCRLF body).map relaxedLine).rdropWhile (· = []) = kept
  rcases List.eq_nil_or_concat kept with rfl | ⟨front, last, rfl⟩
  · rfl
  · rw [if_neg (by simp), List.concat_eq_append, intercalate_crlf]
    simp [joinCRLF]

/-! ## Transparency -/

def stuffed (line : Str) : Str := if hasPrefix line (lit ".") then 46 :: line else line

lemma stuffed_cases (line : Str) : (∃ rest, line = 46 :: rest ∧ stuffed line = 46 :: 46 :: rest) ∨
    (∀ rest, line ≠ 46 :: rest) ∧ stuffed line = line := by
  cases line with
  | nil => exact .inr ⟨by simp, rfl⟩
  | cons b rest =>
    by_cases dot : b = 46
    · subst dot
      exact .inl ⟨rest, rfl, rfl⟩
    · refine .inr ⟨fun _ same => dot (List.cons.inj same).1, if_neg ?_⟩
      change ¬ (([46] : Str).isPrefixOf (b :: rest) = true)
      simpa using Ne.symm dot

lemma dataLines_stuffed (lines : List Str) (rest : List Str) :
    dataLines (lines.map stuffed ++ [46] :: rest) = some lines := by
  induction lines with
  | nil => rfl
  | cons line lines ih =>
    rw [List.map_cons, List.cons_append, dataLines, ih]
    rcases stuffed_cases line with ⟨more, rfl, same⟩ | ⟨noDot, same⟩
    · rw [same, if_neg (by simp)]
      rfl
    · rw [same, if_neg (noDot [])]
      have kept : undot line = line := by
        unfold undot
        split
        · rename_i more
          exact absurd rfl (noDot more)
        · rfl
      rw [kept]
      rfl

lemma mem_stuffed (bare : 10 ∉ line) : 10 ∉ stuffed line := by
  rcases stuffed_cases line with ⟨more, rfl, same⟩ | ⟨-, same⟩ <;> rw [same]
  · simpa using bare
  · exact bare

def lastLine (line : Str) : List Str := if line = [] then [] else [line]

/-- The lines a text is sent as: an empty last one is no line, unless it is the only one. -/
def closedLines (front : List Str) (last : Str) : List Str := front ++ if front = [] then [last] else lastLine last

lemma open_of_bare (bare : 10 ∉ last) (before : Str) (some : before = [] ∨ last ≠ []) :
    hasSuffix (before ++ last) crlf = false := by
  apply Bool.eq_false_iff.mpr
  intro ends
  obtain ⟨start, same⟩ := List.isSuffixOf_iff_suffix.mp ends
  have byte := congrArg List.getLast? same
  rw [List.getLast?_append_of_ne_nil _ (by simp [crlf])] at byte
  have member : (10 : UInt8) ∈ last := by
    rcases some with rfl | some
    · exact List.mem_of_getLast? byte.symm
    · rw [List.getLast?_append_of_ne_nil _ some] at byte
      exact List.mem_of_getLast? byte.symm
  exact bare member

lemma terminated (front : List Str) (bare : 10 ∉ last) :
    (if hasSuffix (joinCRLF front ++ last) crlf then joinCRLF front ++ last else joinCRLF front ++ last ++ crlf) =
      joinCRLF (closedLines front last) := by
  unfold closedLines lastLine
  by_cases single : front = []
  · subst single
    rw [open_of_bare bare (joinCRLF []) (.inl rfl), if_pos rfl]
    simp [joinCRLF]
  rw [if_neg single]
  by_cases empty : last = []
  · subst empty
    obtain ⟨before, line, rfl⟩ := (List.eq_nil_or_concat front).resolve_left single
    have ends : hasSuffix (joinCRLF (before.concat line) ++ []) crlf = true := by
      apply List.isSuffixOf_iff_suffix.mpr
      refine ⟨joinCRLF before ++ line, ?_⟩
      simp [joinCRLF]
    rw [if_pos ends, if_pos rfl]
    simp
  · rw [open_of_bare bare _ (.inr empty), if_neg empty]
    simp [joinCRLF]

lemma closedLines_stuffed (front : List Str) (last : Str) :
    closedLines (front.map stuffed) (stuffed last) = (closedLines front last).map stuffed := by
  unfold closedLines lastLine
  rcases stuffed_cases last with ⟨more, rfl, same⟩ | ⟨-, same⟩
  · simp [same]
  · rw [same]
    split_ifs <;> simp_all

lemma clean_of_bare (bare : 10 ∉ line) : ¬ crlf <:+: line :=
  fun inside => bare (inside.subset (by simp [crlf]))

lemma closedLines_subset (member : line ∈ closedLines front last) : line ∈ front ++ [last] := by
  unfold closedLines lastLine at member
  split_ifs at member
  · exact member
  · exact List.mem_append_left _ (by simpa using member)
  · exact member

lemma dotStuff_lines {data : Str} (lines : split 10 (unixLines data) = front ++ [last]) :
    dotStuff data = joinCRLF ((closedLines front last).map stuffed ++ [[46]]) ∧
      ∀ line ∈ closedLines front last, 10 ∉ line := by
  have bare : ∀ line ∈ front ++ [last], 10 ∉ line := lines ▸ mem_split 10 (unixLines data)
  refine ⟨?_, fun line member => bare line (closedLines_subset member)⟩
  have stuffing : (split 10 (unixLines data)).map (fun l => if hasPrefix l (lit ".") then 46 :: l else l) =
      front.map stuffed ++ [stuffed last] := by
    rw [lines, List.map_append]
    rfl
  unfold dotStuff
  dsimp only
  rw [stuffing, intercalate_crlf, terminated _ (mem_stuffed (bare last (by simp))), closedLines_stuffed]
  simp only [joinCRLF, List.flatMap_append]
  rfl

lemma clean_stuffed (bare : ∀ line ∈ lines, 10 ∉ line) : ∀ line ∈ lines.map stuffed, ¬ crlf <:+: line := by
  intro line member
  obtain ⟨plain, listed, rfl⟩ := List.mem_map.mp member
  exact clean_of_bare (mem_stuffed (bare plain listed))

lemma received_dotStuff {data : Str} (lines : split 10 (unixLines data) = front ++ [last]) :
    received (dotStuff data) = some (joinCRLF (closedLines front last)) := by
  obtain ⟨written, bare⟩ := dotStuff_lines lines
  unfold received
  rw [written, joinCRLF, List.flatMap_append]
  change Option.map joinCRLF (dataLines (splitCRLF (joinCRLF _ ++ _))) = _
  rw [splitCRLF_lines _ (clean_stuffed bare)]
  change Option.map joinCRLF (dataLines (_ ++ [46] :: [[]])) = _
  rw [dataLines_stuffed]
  rfl

lemma flatMap_pairLF (t : Str) : t.flatMap pairLF = List.intercalate crlf (split 10 t) := by
  induction t with
  | nil => rfl
  | cons b rest ih =>
    obtain ⟨first, more, same, here⟩ := split_cons 10 b rest
    rw [List.flatMap_cons, ih, same, here, pairLF]
    split_ifs
    · rw [List.intercalate_cons_cons]
      rfl
    · cases more <;> simp [List.intercalate_cons_cons]

def canonicalText (data : Str) : Str :=
  let text := normaliseNewlines data
  if hasSuffix text crlf then text else text ++ crlf

def unstuff (text : Str) : Str := List.intercalate crlf ((splitCRLF text).map undot)

lemma undot_stuffed (line : Str) : undot (stuffed line) = line := by
  rcases stuffed_cases line with ⟨more, rfl, same⟩ | ⟨noDot, same⟩
  · rw [same]
    rfl
  · rw [same]
    unfold undot
    split
    · rename_i more
      exact absurd rfl (noDot more)
    · rfl

lemma cr_of_paired {before after : Str} {cr : Bool} (pairs : paired cr (before ++ 10 :: after) = true) :
    [13] <:+ before ∨ before = [] ∧ cr = true := by
  induction before generalizing cr with
  | nil =>
    simp only [List.nil_append, paired, Bool.and_eq_true] at pairs
    exact .inr ⟨rfl, by simpa using pairs.1⟩
  | cons b before ih =>
    simp only [List.cons_append, paired, Bool.and_eq_true] at pairs
    rcases ih pairs.2 with ends | ⟨rfl, isCR⟩
    · exact .inl (ends.trans (List.suffix_cons b before))
    · rw [of_decide_eq_true isCR]
      exact .inl (List.suffix_refl _)

lemma joinCRLF_paired (bare : ∀ line ∈ lines, 10 ∉ line) : paired false (joinCRLF lines) = true := by
  induction lines with
  | nil => rfl
  | cons line lines ih =>
    obtain ⟨here, others⟩ := List.forall_mem_cons.mp bare
    exact paired_append (paired_append (paired_bare here false) rfl) (ih others)

lemma splitCRLF_last (s : Str) : ∃ front last, splitCRLF s = front ++ [last] := by
  obtain ⟨first, more, same, -, -⟩ := splitCRLF_pieces s
  rw [same, ← List.dropLast_append_getLast (List.cons_ne_nil first more)]
  exact ⟨_, _, rfl⟩

lemma lines_of_ended {before : Str} (ended : before = [] ∨ crlf <:+ before) :
    ∃ lines, before = joinCRLF lines ∧ ∀ line ∈ lines, ¬ crlf <:+: line := by
  rcases ended with rfl | ⟨text, rfl⟩
  · exact ⟨[], rfl, by simp⟩
  · refine ⟨splitCRLF text, ?_, fun line member => splitCRLF_clean member⟩
    obtain ⟨front, last, same⟩ := splitCRLF_last text
    have whole := intercalate_splitCRLF text
    rw [same, intercalate_crlf] at whole
    rw [same, ← whole]
    simp [joinCRLF]

/-- Without its last line the stuffed text is unstuffed to the text with its line ends made CRLF.
Every LF in it follows a CR, and a dot alone on a line is its last line. -/
theorem dotStuff_transparent (data : Str) :
    (∃ text, dotStuff data = text ++ lit ".\r\n" ∧ unstuff text = canonicalText data) ∧
    (∀ before after, dotStuff data = before ++ 10 :: after → [13] <:+ before) ∧
    ∀ before after, dotStuff data = before ++ lit ".\r\n" ++ after → before = [] ∨ crlf <:+ before → after = [] := by
  obtain ⟨front, last, lines⟩ : ∃ front last, split 10 (unixLines data) = front ++ [last] := by
    rw [← List.dropLast_append_getLast (split_ne_nil 10 (unixLines data))]
    exact ⟨_, _, rfl⟩
  obtain ⟨written, bare⟩ := dotStuff_lines lines
  have ended : joinCRLF ((closedLines front last).map stuffed ++ [[46]]) =
      joinCRLF ((closedLines front last).map stuffed) ++ lit ".\r\n" := by
    simp only [joinCRLF, List.flatMap_append]
    rfl
  have clean := clean_stuffed bare
  refine ⟨⟨joinCRLF ((closedLines front last).map stuffed), written.trans ended, ?_⟩, ?_, ?_⟩
  · have text : canonicalText data = joinCRLF (closedLines front last) := by
      have bareLast : 10 ∉ last := mem_split 10 (unixLines data) last (by simp [lines])
      unfold canonicalText
      rw [normaliseNewlines_eq, flatMap_pairLF, lines, intercalate_crlf]
      exact terminated front bareLast
    rw [unstuff, splitCRLF_joinCRLF _ clean, List.map_append, List.map_map, text]
    have plain : undot ∘ stuffed = id := funext undot_stuffed
    rw [plain, List.map_id]
    change List.intercalate crlf (_ ++ [[]]) = _
    rw [intercalate_crlf, List.append_nil]
  · intro before after same
    have bare' : ∀ line ∈ (closedLines front last).map stuffed ++ [[46]], 10 ∉ line := by
      intro line member
      rcases List.mem_append.mp member with member | member
      · obtain ⟨plain, listed, rfl⟩ := List.mem_map.mp member
        exact mem_stuffed (bare plain listed)
      · rw [List.mem_singleton.mp member]
        decide
    have pairs := joinCRLF_paired bare'
    rw [← written, same] at pairs
    exact (cr_of_paired pairs).resolve_right (by simp)
  · intro before after same start
    obtain ⟨lines', rfl, clean'⟩ := lines_of_ended start
    have pieces := congrArg splitCRLF same
    have dot : splitCRLF (lit ".\r\n" ++ after) = [46] :: splitCRLF after := splitCRLF_line [46] after (by decide)
    rw [written, ended, splitCRLF_lines _ clean, List.append_assoc, splitCRLF_lines _ clean', dot] at pieces
    have alone : [46] ∉ (closedLines front last).map stuffed := by
      intro member
      obtain ⟨line, -, same⟩ := List.mem_map.mp member
      rcases stuffed_cases line with ⟨more, rfl, is⟩ | ⟨noDot, is⟩ <;> rw [is] at same
      · simp at same
      · exact noDot [] same
    change _ ++ [[46], []] = _ at pieces
    have rest : splitCRLF after = [[]] := by
      rcases List.append_eq_append_iff.mp pieces with ⟨more, -, same⟩ | ⟨more, whole, same⟩
      · rcases more with _ | ⟨first, _ | ⟨second, more⟩⟩
        · exact (List.cons.inj same).2.symm
        · simp at same
        · simp at same
      · cases more with
        | nil => exact (List.cons.inj same).2
        | cons line more =>
          rw [whole, ← (List.cons.inj same).1] at alone
          simp at alone
    rw [← intercalate_splitCRLF after, rest]
    rfl

/-- Of a whole message a receiver gets the header lines, and a body that is hashed like the
one sent. -/
lemma received_message {body : Str} (plain : ∀ line ∈ lines, Plain line) (pairs : paired false body = true) :
    ∃ body', received (dotStuff (joinCRLF lines ++ crlf ++ body)) = some (joinCRLF lines ++ crlf ++ body') ∧
      relaxedBody body' = relaxedBody body := by
  have clean : ∀ line ∈ lines, ¬ crlf <:+: line := fun line member => (plain line member).clean
  have whole : paired false (joinCRLF lines ++ crlf ++ body) = true := by
    have bare : ∀ line ∈ lines, 10 ∉ line := fun line member inside => (plain line member 10 inside).2 rfl
    exact paired_append (paired_append (joinCRLF_paired bare) rfl) pairs
  obtain ⟨front, last, split⟩ := splitCRLF_last body
  have bare := bare_of_paired pairs
  rw [split] at bare
  refine ⟨joinCRLF (front ++ lastLine last), ?_, ?_⟩
  · have pieces : splitCRLF (joinCRLF lines ++ crlf ++ body) = (lines ++ [] :: front) ++ [last] := by
      rw [splitCRLF_message lines clean, split]
      simp
    rw [← split_unixLines whole] at pieces
    rw [received_dotStuff pieces, closedLines, if_neg (by simp)]
    simp [joinCRLF]
  · have free : ∀ line ∈ front ++ lastLine last, ¬ crlf <:+: line := by
      intro line member
      apply clean_of_bare
      apply bare
      unfold lastLine at member
      split at member
      · exact List.mem_append_left _ (by simpa using member)
      · exact member
    rw [relaxedBody_lines _ free, relaxedBody, split]
    unfold lastLine
    split
    · rename_i empty
      rw [empty, List.append_nil, List.map_append]
      congr 1
      exact (List.rdropWhile_concat_pos _ _ _ rfl).symm
    · rfl

end EmailVerifier.Relay
