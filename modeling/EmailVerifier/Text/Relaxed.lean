import EmailVerifier.Text.Headers
import EmailVerifier.Text.Utf8
import Mathlib.Data.List.Find

/-! What the receiver of a message gets, and what it hashes to verify a signature.

A line of DATA that starts with a dot loses it, and a dot alone ends the message. A
verifier hashes the body and the signed fields in the relaxed form of RFC 6376: runs of
blanks are one space, none end a line and no empty lines end the body.
-/

set_option autoImplicit false

namespace EmailVerifier.Text

/-! ## Transparency -/

def undot : Str → Str
  | 46 :: rest => rest
  | line => line

def dataLines : List Str → Option (List Str)
  | [] => none
  | line :: more => if line = [46] then some [] else (dataLines more).map (undot line :: ·)

def received (stream : Str) : Option Str := (dataLines (splitCRLF stream)).map joinCRLF

/-! ## The relaxed form -/

def squeeze : Str → Str
  | [] => []
  | b :: rest =>
    if isBlank b then
      if folded rest then squeeze rest else 32 :: squeeze rest
    else b :: squeeze rest

def relaxedLine (line : Str) : Str := (squeeze line).rdropWhile isBlank

def relaxedBody (body : Str) : Str :=
  joinCRLF (((splitCRLF body).map relaxedLine).rdropWhile (· = []))

def relaxedName (name : Str) : Str := (trimBlanks name).map lowerByte

def relaxedField (field : Str × Str) : Str := relaxedName field.1 ++ 58 :: trimBlanks (squeeze field.2)

/-! ## The verifier -/

def tagged (name piece : Str) : Bool := (cut piece 61).any fun tag => trimBlanks tag.1 = name

def tagValue (name value : Str) : Option Str :=
  ((split 59 value).find? (tagged name)).bind fun piece => (cut piece 61).map fun tag => trimBlanks tag.2

def unsigned (value : Str) : Str :=
  List.intercalate [59] ((split 59 value).map fun piece =>
    if tagged (lit "b") piece then piece.takeWhile (· ≠ 61) ++ [61] else piece)

def fieldNamed (fields : List (Str × Str)) (name : Str) : Option (Str × Str) :=
  fields.find? fun field => relaxedName field.1 = name

/-- For every name its last field that is not taken yet; the fields stand last to first. -/
def select : List Str → List (Str × Str) → List (Str × Str)
  | [], _ => []
  | name :: names, fields =>
    match fieldNamed fields name with
    | none => select names fields
    | some field => field :: select names (fields.eraseP fun field => relaxedName field.1 = name)

def signedFields (fields : List (Str × Str)) : Option Str := do
  let own ← fieldNamed fields (lit "dkim-signature")
  let names ← tagValue (lit "h") own.2
  let chosen := select ((split 58 names).map relaxedName) fields.reverse
  return (chosen.flatMap fun field => relaxedField field ++ crlf) ++ relaxedField (own.1, unsigned own.2)

/-- The body and the fields of a message as a verifier hashes them. -/
def verifierInput (message : Str) : Option (Str × Str) := do
  let (fields, body) ← parseMessage message
  return (relaxedBody body, ← signedFields fields)

/-! ## Line ends -/

/-- Every LF follows a CR; the flag says whether one stands before the text. -/
def paired : Bool → Str → Bool
  | _, [] => true
  | cr, b :: rest => (b ≠ 10 || cr) && paired (b = 13) rest

variable {s : Str} {b : UInt8} {tags : List (Str × Str)}

lemma paired_mono (alone : paired false s = true) (cr : Bool) : paired cr s = true := by
  cases s with
  | nil => rfl
  | cons b rest =>
    simp only [paired, Bool.or_false, Bool.and_eq_true] at alone ⊢
    exact ⟨by simp [alone.1], alone.2⟩

lemma paired_append {t : Str} {cr : Bool} (left : paired cr s = true) (right : paired false t = true) :
    paired cr (s ++ t) = true := by
  induction s generalizing cr with
  | nil => exact paired_mono right cr
  | cons b rest ih =>
    simp only [paired, Bool.and_eq_true, List.cons_append] at left ⊢
    exact ⟨left.1, ih left.2⟩

lemma paired_bare (bare : 10 ∉ s) (cr : Bool) : paired cr s = true := by
  induction s generalizing cr with
  | nil => rfl
  | cons b rest ih =>
    have other : b ≠ 10 := fun same => bare (same ▸ List.mem_cons_self)
    simp [paired, other, ih fun member => bare (List.mem_cons_of_mem b member)]

lemma bare_of_paired (pairs : paired false s = true) : ∀ piece ∈ splitCRLF s, 10 ∉ piece := by
  induction s using splitCRLF.induct with
  | case1 => simp [splitCRLF]
  | case2 b =>
    have other : b ≠ 10 := by simpa [paired] using pairs
    simpa [splitCRLF] using other.symm
  | case3 b c more pair ih =>
    obtain ⟨rfl, rfl⟩ := pair
    rw [splitCRLF, if_pos ⟨rfl, rfl⟩]
    intro piece member
    rcases List.mem_cons.mp member with rfl | member
    · simp
    · exact ih (by simpa [paired] using pairs) piece member
  | case4 b c more notPair ih =>
    simp only [paired, Bool.or_false, Bool.and_eq_true, decide_eq_true_eq] at pairs
    have apart : c ≠ 10 := by
      rintro rfl
      exact notPair ⟨by simpa using pairs.2.1, rfl⟩
    have rest := ih (by simp [paired, apart, pairs.2.2])
    obtain ⟨first, others, same, -, -⟩ := splitCRLF_pieces (c :: more)
    rw [splitCRLF, if_neg notPair]
    rw [same] at rest ⊢
    intro piece member
    rcases List.mem_cons.mp member with rfl | member
    · have here := rest first List.mem_cons_self
      simp [here, Ne.symm pairs.1]
    · exact rest piece (List.mem_cons_of_mem first member)

/-! ## Blanks -/

def tidy : Bool → Str → Str
  | _, [] => []
  | space, b :: rest =>
    if isBlank b then tidy true rest
    else if space then 32 :: b :: tidy false rest else b :: tidy false rest

lemma rdropWhile_append_cons {p : UInt8 → Bool} (keep : p b = false) (before s : Str) :
    (before ++ b :: s).rdropWhile p = before ++ b :: s.rdropWhile p := by
  induction s using List.reverseRecOn with
  | nil => rw [List.rdropWhile_concat_neg _ _ _ (by simp [keep])]; rfl
  | append_singleton s c ih =>
    rw [← List.cons_append, ← List.append_assoc, List.rdropWhile_concat, List.rdropWhile_concat, ih]
    split <;> simp

lemma squeeze_blank (blank : isBlank b = true) (rest : Str) : squeeze (b :: rest) = squeeze (32 :: rest) := by
  have space : isBlank 32 = true := rfl
  rw [squeeze, squeeze, if_pos blank, if_pos space]

lemma squeeze_blanks (blank : isBlank b = true) (rest : Str) : squeeze (32 :: b :: rest) = squeeze (b :: rest) := by
  have space : isBlank 32 = true := rfl
  have goesOn : folded (b :: rest) = true := by simpa [folded] using blank
  rw [squeeze, if_pos space, if_pos goesOn]

lemma relaxedLine_tidy (s : Str) : tidy false s = relaxedLine s ∧ tidy true s = relaxedLine (32 :: s) := by
  unfold relaxedLine
  induction s with
  | nil => exact ⟨rfl, rfl⟩
  | cons b rest ih =>
    by_cases blank : isBlank b = true
    · rw [tidy, tidy, if_pos blank, if_pos blank, squeeze_blanks blank, squeeze_blank blank]
      exact ⟨ih.2, ih.2⟩
    · have visible : isBlank b = false := by simpa using blank
      have single : squeeze (b :: rest) = b :: squeeze rest := by rw [squeeze, if_neg blank]
      have pair : squeeze (32 :: b :: rest) = 32 :: b :: squeeze rest := by
        have space : isBlank 32 = true := rfl
        have ends : ¬ folded (b :: rest) = true := by simpa [folded] using visible
        rw [squeeze, if_pos space, if_neg ends, single]
      rw [tidy, tidy, if_neg blank, if_neg blank, single, pair, ih.1]
      exact ⟨(rdropWhile_append_cons visible [] _).symm, (rdropWhile_append_cons visible [32] _).symm⟩

lemma dropWhile_squeeze (s : Str) : (squeeze s).dropWhile isBlank = squeeze (s.dropWhile isBlank) := by
  induction s with
  | nil => rfl
  | cons b rest ih =>
    rw [squeeze]
    by_cases blank : isBlank b = true
    · rw [if_pos blank, List.dropWhile_cons_of_pos blank, ← ih]
      split
      · rfl
      · exact List.dropWhile_cons_of_pos rfl
    · rw [if_neg blank, List.dropWhile_cons_of_neg blank, List.dropWhile_cons_of_neg blank, squeeze, if_neg blank]

lemma trimBlanks_squeeze (s : Str) : trimBlanks (squeeze s) = tidy false (s.dropWhile isBlank) := by
  rw [(relaxedLine_tidy _).1, relaxedLine, ← dropWhile_squeeze]
  rfl

lemma tidy_visible {a : Str} (some : a ≠ []) (visible : ∀ b ∈ a, isBlank b = false) (space : Bool) (rest : Str) :
    tidy space (a ++ rest) = (if space then [32] else []) ++ a ++ tidy false rest := by
  induction a generalizing space with
  | nil => exact absurd rfl some
  | cons b a ih =>
    obtain ⟨here, others⟩ := List.forall_mem_cons.mp visible
    have go : tidy false (a ++ rest) = a ++ tidy false rest := by
      cases a with
      | nil => rfl
      | cons c a => simpa using ih (List.cons_ne_nil c a) others false
    rw [List.cons_append, tidy, if_neg (by simp [here]), go]
    cases space <;> simp

/-! ## Lines and tags -/

lemma relaxedBody_lines (lines : List Str) (clean : ∀ line ∈ lines, ¬ crlf <:+: line) :
    relaxedBody (joinCRLF lines) = joinCRLF ((lines.map relaxedLine).rdropWhile (· = [])) := by
  unfold relaxedBody
  rw [splitCRLF_joinCRLF lines clean, List.map_append]
  congr 1
  exact List.rdropWhile_concat_pos _ _ _ rfl

lemma split_intercalate {sep : UInt8} {pieces : List Str} (some : pieces ≠ [])
    (bare : ∀ piece ∈ pieces, sep ∉ piece) : split sep (List.intercalate [sep] pieces) = pieces := by
  induction pieces with
  | nil => exact absurd rfl some
  | cons piece more ih =>
    obtain ⟨here, others⟩ := List.forall_mem_cons.mp bare
    cases more with
    | nil => simpa using split_bare here
    | cons next more =>
      rw [List.intercalate_cons_cons, List.append_assoc, List.singleton_append, split_append here,
        ih (List.cons_ne_nil next more) others]

def writeTags (tags : List (Str × Str)) : Str := List.intercalate [59] (tags.map fun tag => tag.1 ++ 61 :: tag.2)

/-- The names of a tag list hold neither of its separators, the values no semicolon. -/
def TagList (tags : List (Str × Str)) : Prop :=
  tags ≠ [] ∧ ∀ tag ∈ tags, 61 ∉ tag.1 ∧ 59 ∉ tag.1 ∧ 59 ∉ tag.2

lemma split_writeTags (list : TagList tags) : split 59 (writeTags tags) = tags.map fun tag => tag.1 ++ 61 :: tag.2 := by
  apply split_intercalate
  · simpa using list.1
  · intro piece member
    obtain ⟨tag, listed, rfl⟩ := List.mem_map.mp member
    obtain ⟨-, name, value⟩ := list.2 tag listed
    simp [name, value]

lemma tagged_tag {tag : Str × Str} (bare : 61 ∉ tag.1) (name : Str) :
    tagged name (tag.1 ++ 61 :: tag.2) = decide (trimBlanks tag.1 = name) := by
  unfold tagged
  rw [cut_append bare]
  rfl

lemma tagValue_writeTags (list : TagList tags) (name : Str) :
    tagValue name (writeTags tags) = (tags.find? fun tag => trimBlanks tag.1 = name).map fun tag => trimBlanks tag.2 := by
  unfold tagValue
  rw [split_writeTags list, List.find?_map]
  have same : tags.find? (tagged name ∘ fun tag => tag.1 ++ 61 :: tag.2) =
      tags.find? fun tag => trimBlanks tag.1 = name :=
    List.find?_congr fun tag member => tagged_tag (list.2 tag member).1 name
  rw [same]
  cases found : tags.find? fun tag => trimBlanks tag.1 = name with
  | none => rfl
  | some tag => simp [cut_append (list.2 tag (List.mem_of_find?_eq_some found)).1]

lemma unsigned_writeTags (list : TagList tags) :
    unsigned (writeTags tags) = writeTags (tags.map fun tag => if trimBlanks tag.1 = lit "b" then (tag.1, []) else tag) := by
  unfold unsigned
  rw [split_writeTags list, writeTags, List.map_map, List.map_map]
  congr 1
  apply List.map_congr_left
  intro tag member
  have bare := (list.2 tag member).1
  have before : ∀ b ∈ tag.1, decide (b ≠ 61) = true := fun b inside => by
    have other : b ≠ 61 := fun same => bare (same ▸ inside)
    simpa using other
  simp only [Function.comp_apply, tagged_tag bare, decide_eq_true_eq]
  split
  · rw [List.takeWhile_append_of_pos before]
    simp
  · rfl

lemma find?_eraseP {A : Type} {p q : A → Bool} (apart : ∀ a, p a = true → q a = false) (l : List A) :
    (l.eraseP p).find? q = l.find? q := by
  induction l with
  | nil => rfl
  | cons a more ih =>
    by_cases here : p a = true
    · rw [List.eraseP_cons_of_pos here, List.find?_cons_of_neg (by simp [apart a here])]
    · rw [List.eraseP_cons_of_neg here, List.find?_cons, List.find?_cons, ih]

lemma select_eq {names : List Str} (distinct : names.Nodup) (fields : List (Str × Str)) :
    select names fields = names.filterMap (fieldNamed fields) := by
  induction names generalizing fields with
  | nil => rfl
  | cons name names ih =>
    obtain ⟨fresh, others⟩ := List.nodup_cons.mp distinct
    rw [select]
    cases found : fieldNamed fields name with
    | none =>
      rw [List.filterMap_cons_none found]
      exact ih others fields
    | some field =>
      rw [List.filterMap_cons_some found]
      dsimp only
      rw [ih others]
      congr 1
      apply List.filterMap_congr
      intro other member
      apply find?_eraseP
      intro field same
      have differs : other ≠ name := fun same => fresh (same ▸ member)
      simp only [decide_eq_true_eq] at same
      simp [same, differs.symm]

end EmailVerifier.Text
