import EmailVerifier.Pacer.Band

/-! The pace key of a host, by how the host is spelt.

A host of a known system has that system's key however it is spelt. Any other host is its
own key, as it was given: only the look-up in the table is told to ignore case, blanks
around the name and the dot after it.
-/

set_option autoImplicit false

namespace EmailVerifier.Pacer
open Text

def Listed (host : Str) : Prop := ∃ f ∈ families, host = f.suffix ∨ lit "." ++ f.suffix <:+ host

def familyOf (host : Str) : Option Family :=
  families.find? fun f => host = f.suffix || hasSuffix host (lit "." ++ f.suffix)

lemma familyOf_isSome (host : Str) : (familyOf host).isSome = true ↔ Listed host := by
  unfold familyOf Listed hasSuffix
  simp only [List.find?_isSome, Bool.or_eq_true, decide_eq_true_eq, List.isSuffixOf_iff_suffix]

lemma families_marked : ∀ f ∈ families, hasPrefix f.key (lit "@") = true := by decide

section
variable [Unicode] {mxHost other : Str}

lemma PaceKey_marked (marked : hasPrefix mxHost (lit "@") = true) : PaceKey mxHost = mxHost := if_pos marked

section
variable (host : hasPrefix mxHost (lit "@") = false)
include host

lemma PaceKey_host :
    PaceKey mxHost = ((familyOf (normaliseHost mxHost)).map Family.key).getD mxHost :=
  if_neg (Bool.eq_false_iff.mp host)

lemma PaceKey_listed (listed : Listed (normaliseHost mxHost)) :
    ∃ f ∈ families, familyOf (normaliseHost mxHost) = some f ∧ PaceKey mxHost = f.key := by
  obtain ⟨f, found⟩ := Option.isSome_iff_exists.mp ((familyOf_isSome _).mpr listed)
  refine ⟨f, List.mem_of_find?_eq_some found, found, ?_⟩
  rw [PaceKey_host host, found]
  rfl

lemma PaceKey_unlisted (unlisted : ¬ Listed (normaliseHost mxHost)) : PaceKey mxHost = mxHost := by
  have absent : familyOf (normaliseHost mxHost) = none := by
    rw [← Option.not_isSome_iff_eq_none, familyOf_isSome]
    exact unlisted
  rw [PaceKey_host host, absent]
  rfl

end

@[simp] lemma PaceKey_PaceKey (mxHost : Str) : PaceKey (PaceKey mxHost) = PaceKey mxHost := by
  cases marked : hasPrefix mxHost (lit "@") with
  | true => rw [PaceKey_marked marked, PaceKey_marked marked]
  | false =>
    by_cases listed : Listed (normaliseHost mxHost)
    · obtain ⟨f, member, -, is⟩ := PaceKey_listed marked listed
      rw [is]
      exact PaceKey_marked (families_marked f member)
    · rw [PaceKey_unlisted marked listed, PaceKey_unlisted marked listed]

lemma PaceKey_eq_nil : PaceKey mxHost = [] ↔ mxHost = [] := by
  constructor
  · intro nobody
    cases marked : hasPrefix mxHost (lit "@") with
    | true => rwa [PaceKey_marked marked] at nobody
    | false =>
      by_cases listed : Listed (normaliseHost mxHost)
      · obtain ⟨f, member, -, is⟩ := PaceKey_listed marked listed
        have marks := families_marked f member
        rw [← is, nobody] at marks
        cases marks
      · rwa [PaceKey_unlisted marked listed] at nobody
  · rintro rfl
    rfl

lemma PaceKey_family_iff (host : hasPrefix mxHost (lit "@") = false) :
    PaceKey mxHost ∈ families.map Family.key ↔ Listed (normaliseHost mxHost) := by
  constructor
  · intro member
    by_contra unlisted
    obtain ⟨f, inside, is⟩ := List.mem_map.mp member
    have marked := families_marked f inside
    rw [is, PaceKey_unlisted host unlisted, host] at marked
    cases marked
  · intro listed
    obtain ⟨f, member, -, is⟩ := PaceKey_listed host listed
    exact is ▸ List.mem_map_of_mem member

lemma PaceKey_eq_iff (host : hasPrefix mxHost (lit "@") = false) (host' : hasPrefix other (lit "@") = false)
    (alike : normaliseHost mxHost = normaliseHost other) :
    PaceKey mxHost = PaceKey other ↔ mxHost = other ∨ Listed (normaliseHost mxHost) := by
  by_cases listed : Listed (normaliseHost mxHost)
  · refine iff_of_true ?_ (.inr listed)
    obtain ⟨f, -, found, is⟩ := PaceKey_listed host listed
    obtain ⟨f', -, found', is'⟩ := PaceKey_listed host' (alike ▸ listed)
    rw [alike, found'] at found
    rw [is, is', Option.some.inj found]
  · rw [PaceKey_unlisted host listed, PaceKey_unlisted host' (alike ▸ listed), or_iff_left listed]

/-- What a key is: a string with the mark is its own key, and so is a host that is not listed.
A host's key is that of its family exactly when it is listed, two spellings of one name share
it exactly when the name is listed or there is only one spelling, and a key is its own key. -/
theorem pace_keys_by_spelling :
    (∀ h, hasPrefix h (lit "@") = true → PaceKey h = h) ∧
    (∀ h, hasPrefix h (lit "@") = false → ¬ Listed (normaliseHost h) → PaceKey h = h) ∧
    (∀ h h', hasPrefix h (lit "@") = false → hasPrefix h' (lit "@") = false → normaliseHost h = normaliseHost h' →
      (PaceKey h = PaceKey h' ↔ h = h' ∨ Listed (normaliseHost h))) ∧
    (∀ h, hasPrefix h (lit "@") = false → (PaceKey h ∈ families.map Family.key ↔ Listed (normaliseHost h))) ∧
    ∀ h, PaceKey (PaceKey h) = PaceKey h :=
  ⟨fun _ => PaceKey_marked, fun _ => PaceKey_unlisted, fun _ _ => PaceKey_eq_iff, fun _ => PaceKey_family_iff,
    PaceKey_PaceKey⟩

end

/-- One DNS name, two keys: no system of the table, and two spellings. -/
theorem two_spellings_two_keys :
    normaliseHost (lit "MX.test.") = normaliseHost (lit "mx.test") ∧ PaceKey (lit "MX.test.") ≠ PaceKey (lit "mx.test") := by
  decide +kernel

end EmailVerifier.Pacer
