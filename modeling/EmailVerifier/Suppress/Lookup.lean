import EmailVerifier.Semantics.Triple
import EmailVerifier.Suppress.Imports
import EmailVerifier.Text.Hex

/-! Whether what was imported is found.

An import takes a digest in capital and in small letters and stores it as it is spelled. A
lookup asks for small letters.
-/

set_option autoImplicit false

namespace EmailVerifier.Suppress
open Text Data Semantics

lemma member_answers {digest : Str} {v : Vault} {post : Except Str Bool → Vault → Prop}
    (answered : post (.ok (decide (digest ∈ v.hashes))) v) : (member digest).Against redis post v := by
  change post (.ok (decide ((if digest ∈ v.hashes then (1 : Int) else 0) = 1))) v
  by_cases held : digest ∈ v.hashes
  · rw [if_pos held]
    rwa [decide_eq_true held] at answered
  · rw [if_neg held]
    rwa [decide_eq_false held] at answered

section
variable [Unicode] [Sha256]

lemma lookUp_answers (salt : Str) (v : Vault) (tried : List (String × Str)) :
    (lookUp salt tried).Against redis (fun result _ => ∃ found, result = .ok found ∧ (found.1 = false → found.2 = []) ∧
      (found.1 = true ↔ ∃ kind value, (kind, value) ∈ tried ∧ Hash salt value ∈ v.hashes)) v := by
  induction tried with
  | nil => exact ⟨_, rfl, fun _ => rfl, by simp⟩
  | cons first more ih =>
    obtain ⟨kind, value⟩ := first
    refine .bind (member_answers ?_)
    by_cases held : Hash salt value ∈ v.hashes
    · rw [decide_eq_true held]
      exact ⟨_, rfl, nofun, by simp only [true_iff]; exact ⟨kind, value, List.mem_cons_self, held⟩⟩
    · rw [decide_eq_false held]
      refine ih.mono ?_
      rintro result _ ⟨found, same, silent, hit⟩
      refine ⟨found, same, silent, hit.trans ⟨?_, ?_⟩⟩
      · rintro ⟨kind', value', member, there⟩
        exact ⟨kind', value', List.mem_cons_of_mem _ member, there⟩
      · rintro ⟨kind', value', member, there⟩
        rcases List.mem_cons.mp member with same | member
        · cases same
          exact absurd there held
        · exact ⟨kind', value', member, there⟩

lemma Suppressed_answers (l : Options) (v : Vault) (email : Str) :
    ∃ found, ((l.Suppressed email).play redis v).2.1 = .ok found ∧ (found.1 = false → found.2 = []) ∧
      (l.Enabled = true → (found.1 = true ↔
        email ≠ [] ∧ ∃ kind value, (kind, value) ∈ candidates (fold email) ∧ Hash l.salt value ∈ v.hashes)) := by
  unfold Options.Suppressed
  split
  · rename_i idle
    refine ⟨_, rfl, fun _ => rfl, fun enabled => ?_⟩
    simp_all
  · rename_i busy
    obtain ⟨found, same, silent, hit⟩ := (lookUp_answers l.salt v (candidates (fold email))).play
    refine ⟨found, same, silent, fun _ => hit.trans ⟨fun there => ⟨?_, there⟩, And.right⟩⟩
    exact fun empty => busy (.inr empty)

end

lemma Serve.fine {v v' : Vault} {e : Event calls} (served : Serve v e v') (fine : failed e = false) :
    v' = v.after e.op := by
  cases served with
  | done _ o => rfl
  | lost _ _ broken | unheard _ _ broken => exact absurd (fine.symm.trans broken) Bool.false_ne_true

lemma addChunks_adds (fuel : Nat) (digests : List Str) (enough : digests.length ≤ fuel) (v : Vault) :
    (addChunks fuel digests).Ensures Serve
      (fun result v' => result = .ok () → ∀ d, d ∈ v'.hashes ↔ d ∈ digests ∨ d ∈ v.hashes) v := by
  induction fuel generalizing digests v with
  | zero =>
    rw [List.length_eq_zero_iff.mp (Nat.le_zero.mp enough)]
    intro _ d
    simp
  | succ fuel ih =>
    unfold addChunks
    split
    · rename_i none
      rw [none]
      intro _ d
      simp
    · rename_i some
      intro answer v' served
      cases answer with
      | error err =>
        intro fine
        cases fine
      | ok reply =>
        obtain rfl := served.fine rfl
        have fewer : (digests.drop chunk).length ≤ fuel := by
          have filled := List.length_pos_of_ne_nil some
          rw [List.length_drop]
          unfold chunk
          omega
        refine (ih _ fewer _).mono fun result v'' added fine d => ?_
        rw [added fine d]
        change _ ∨ d ∈ digests.take chunk ∪ v.hashes ↔ _
        rw [List.mem_union_iff, ← or_assoc, ← List.mem_append, ← List.perm_append_comm.mem_iff, List.take_append_drop]

lemma sign_keeps (version : Str) (v : Vault) : (sign version).Ensures Serve (fun _ v' => v'.hashes = v.hashes) v := by
  have keeps {v v' : Vault} {key : Key} {val : Str} {answer : Except Str Unit}
      (served : Serve v ⟨.set key val, answer⟩ v') : v'.hashes = v.hashes := by
    cases served <;> rfl
  intro answer v' served
  cases answer with
  | error err => exact keeps served
  | ok _ =>
    intro time v'' clock
    obtain rfl := clock.fine rfl
    intro answer' v₃ served'
    exact (keeps served').trans (keeps served)

/-- A replacing import that is completed leaves its entries, as they are spelled, and no others. -/
lemma Import_replaces (l : Options) (version : Str) (digests : List Str) (v : Vault) :
    (l.Import version digests true).Ensures Serve (fun result v' => result = .ok () →
      l.Enabled = true ∧ ∀ d, d ∈ v'.hashes ↔ d ∈ digests) v := by
  unfold Options.Import
  split
  · exact nofun
  rename_i enabled
  split
  · exact nofun
  intro answer v' served
  cases answer with
  | error err => exact nofun
  | ok reply =>
    obtain rfl := served.fine rfl
    refine (addChunks_adds _ digests (Nat.le_refl _) _).andThen fun result v' added => ?_
    cases result with
    | error err => exact nofun
    | ok _ =>
      refine (sign_keeps version v').mono fun result v'' kept _ => ⟨not_not.mp enabled, fun d => ?_⟩
      rw [kept, added rfl d]
      change _ ∨ d ∈ [] ↔ _
      simp

section
variable [Unicode] [Sha256]

def Denoted (salt : Str) (digests : List Str) (value : Str) : Prop :=
  ∃ d ∈ digests, hexDecode d = some (Sha256.sum256 (salt ++ [0] ++ value))

/-- What an address is listed by: itself, and what follows its last `@`. -/
def named (email : Str) : List Str := fold email :: (afterLast 64 (fold email)).toList

/-- What of it is asked for: nothing if there is no address, and what follows the `@` if there
is anything, without the white space around it. -/
def sought (email : Str) : List Str :=
  if email = [] then []
  else fold email :: ((afterLast 64 (fold email)).filter (· ≠ [])).toList.map fold

/-- Someone who is denoted is denoted in small letters, by what is asked for; and what is asked
for beyond the names of an address denotes nobody else. -/
structure Findable (salt : Str) (digests : List Str) (email : Str) : Prop where
  small : ∀ value ∈ named email, Denoted salt digests value →
    ∃ value' ∈ sought email, Denoted salt (digests.filter Lower) value'
  own : ∀ value ∈ sought email, value ∉ named email → Denoted salt (digests.filter Lower) value →
    ∃ value' ∈ named email, Denoted salt digests value'

variable {salt : Str} {digests : List Str} {value : Str}

omit [Unicode] in
lemma denoted_small : Denoted salt (digests.filter Lower) value ↔
    hexEncode (Sha256.sum256 (salt ++ [0] ++ value)) ∈ digests := by
  constructor
  · rintro ⟨d, member, read⟩
    obtain ⟨member, lower⟩ := List.mem_filter.mp member
    rwa [← hexEncode_hexDecode (of_decide_eq_true lower) read] at member
  · exact fun member => ⟨_, List.mem_filter.mpr ⟨member, decide_eq_true (hexEncode_lower _)⟩, hexDecode_hexEncode _⟩

lemma looked_up [LawfulUnicode] {email : Str} :
    (email ≠ [] ∧ ∃ kind value, (kind, value) ∈ candidates (fold email) ∧ Hash salt value ∈ digests) ↔
      ∃ value ∈ sought email, Denoted salt (digests.filter Lower) value := by
  by_cases nobody : email = []
  · simp [sought, nobody]
  · simp only [sought, candidates, Hash, denoted_small, if_neg nobody]
    cases afterLast 64 (fold email) with
    | none => simp [nobody, fold_fold]
    | some domain =>
      by_cases bare : domain = []
      · simp [nobody, bare, fold_fold]
      · simp [nobody, bare, fold_fold, or_and_right, exists_or]

def Tidy (email : Str) : Prop :=
  email ≠ [] ∧ ∀ domain, afterLast 64 (fold email) = some domain → domain ≠ [] ∧ fold domain = domain

lemma findable_of_lower {email : Str} (lower : ∀ d ∈ digests, Lower d) (tidy : Tidy email) :
    Findable salt digests email := by
  have same : sought email = named email := by
    unfold sought named
    rw [if_neg tidy.1]
    cases found : afterLast 64 (fold email) with
    | none => rfl
    | some domain =>
      obtain ⟨some, folded⟩ := tidy.2 domain found
      simp [some, folded]
  refine ⟨fun value member denoted => ⟨value, same ▸ member, ?_⟩, fun value member other => ?_⟩
  · rwa [List.filter_eq_self.mpr fun d member => decide_eq_true (lower d member)]
  · exact absurd (same ▸ member) other

/-- After a replacing import, the lookup of an address is right exactly when the entries about it
are spelled the way they are looked up; as they are when all are in small letters and the address
is tidy. -/
theorem import_lookup_iff [LawfulUnicode] {l : Options} {version : Str} {digests : List Str} {v v' : Vault}
    {tr : Trace calls} (imported : Runs Serve (l.Import version digests true) v tr (.done (.ok ())) v') (email : Str) :
    ∃ hit reason, ((l.Suppressed email).play redis v').2.1 = .ok (hit, reason) ∧
      ((hit = true ↔ ∃ value ∈ named email, Denoted l.salt digests value) ↔ Findable l.salt digests email) ∧
      ((∀ d ∈ digests, Lower d) → Tidy email → Findable l.salt digests email) := by
  obtain ⟨enabled, held⟩ := (Import_replaces l version digests v).result imported rfl
  obtain ⟨⟨hit, reason⟩, answer, -, found⟩ := Suppressed_answers l v' email
  refine ⟨hit, reason, answer, ?_, findable_of_lower⟩
  have found := found enabled
  simp only [held] at found
  rw [found, looked_up]
  constructor
  · intro right
    exact ⟨fun value member denoted => right.mpr ⟨value, member, denoted⟩,
      fun value member _ denoted => right.mp ⟨value, member, denoted⟩⟩
  · intro findable
    refine ⟨?_, fun ⟨value, member, denoted⟩ => findable.small value member denoted⟩
    rintro ⟨value, member, denoted⟩
    by_cases mine : value ∈ named email
    · obtain ⟨d, held, read⟩ := denoted
      exact ⟨value, mine, d, List.mem_of_mem_filter held, read⟩
    · exact findable.own value member mine denoted

end

def imported (digest : Str) : Trace calls × Except Str Unit × Vault :=
  (salted.Import (lit "v2") [digest] true).play redis oldList

lemma imported_runs (digest : Str) (taken : (imported digest).2.1 = .ok ()) :
    Runs Serve (salted.Import (lit "v2") [digest] true) oldList (imported digest).1 (.done (.ok ()))
      (imported digest).2.2 :=
  taken ▸ Prog.play_runs id redis_serves (salted.Import (lit "v2") [digest] true) oldList

theorem imported_found : ∃ reason, ((salted.Suppressed forgotten).play redis
    (imported (Hash salted.salt forgotten)).2.2).2.1 = .ok (true, reason) := by
  obtain ⟨hit, reason, answer, found, spelled⟩ :=
    import_lookup_iff (imported_runs (Hash salted.salt forgotten) (by decide +kernel)) forgotten
  have tidy : Tidy forgotten := by
    refine ⟨by decide, fun domain same => ?_⟩
    have is : domain = lit "example.test" := Option.some.inj (same.symm.trans (by decide +kernel))
    subst is
    decide +kernel
  have agrees := found.mpr (spelled (by decide +kernel) tidy)
  have hit : hit = true := agrees.mpr ⟨fold forgotten, List.mem_cons_self, Hash salted.salt forgotten, by simp,
    hexDecode_hexEncode _⟩
  exact ⟨reason, hit ▸ answer⟩

/-- A digest in capital letters is taken, and whom it denotes is not found. -/
theorem capitals_missed :
    let capitals := (Hash salted.salt forgotten).map fun b => if 97 ≤ b ∧ b ≤ 102 then b - 32 else b
    (imported capitals).2.1 = .ok () ∧ hexDecode capitals = hexDecode (Hash salted.salt forgotten) ∧
      ((salted.Suppressed forgotten).play redis (imported capitals).2.2).2.1 = .ok (false, []) := by
  decide +kernel

end EmailVerifier.Suppress
