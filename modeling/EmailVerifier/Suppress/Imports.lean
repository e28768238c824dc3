import EmailVerifier.Semantics.Hands
import EmailVerifier.Semantics.Player
import EmailVerifier.Suppress.List
import EmailVerifier.Text.Runes

/-! Looking up while the list is replaced.

A replacing import deletes the set and adds the new export to it in chunks. Between the
two, and for good when a chunk fails, whoever is on both lists is on none.
-/

set_option autoImplicit false

namespace EmailVerifier.Suppress
open Text Data Semantics

structure Vault where
  hashes : List Str := []
  marks : Key → Option Str := fun _ => none
  clock : Time := Time.zero

def Vault.after (v : Vault) : Op → Vault
  | .del => { v with hashes := [] }
  | .sadd digests => { v with hashes := digests ∪ v.hashes }
  | .set key val => { v with marks := Function.update v.marks key (some val) }
  | _ => v

def Vault.reply (v : Vault) : (o : Op) → o.Answer
  | .sismember digest => .ok (.int (if digest ∈ v.hashes then 1 else 0))
  | .del => .ok (.int (if v.hashes = [] then 0 else 1))
  | .sadd digests => .ok (.int ((digests ∪ v.hashes).length - v.hashes.length))
  | .set _ _ => .ok ()
  | .now => v.clock

def failed : Event calls → Bool
  | ⟨.sismember _, .error _⟩ | ⟨.del, .error _⟩ | ⟨.sadd _, .error _⟩ | ⟨.set _ _, .error _⟩ => true
  | _ => false

inductive Serve : World calls Vault where
  | done (v : Vault) (o : Op) : Serve v ⟨o, v.reply o⟩ (v.after o)
  | lost (v : Vault) (e : Event calls) : failed e = true → Serve v e v
  | unheard (v : Vault) (e : Event calls) : failed e = true → Serve v e (v.after e.op)

inductive Returned where
  | looked (email : Str) (result : Except Str (Bool × Str))
  | imported (result : Except Str Unit)
  deriving DecidableEq

section
variable [Unicode] [Sha256]

def looking (l : Options) (email : Str) : Act Returned := do
  return .looked email (← l.Suppressed email)

def importing (l : Options) (version : Str) (digests : List Str) (replace : Bool) : Act Returned := do
  return .imported (← l.Import version digests replace)

end

structure Course where
  -- The list was deleted, and the version of the export is not set yet.
  open_ : Bool := false
  -- Added since.
  added : List Str := []
  -- Looked up and not found.
  missed : List Str := []
  -- A chunk failed in between.
  broken : Bool := false
  deriving DecidableEq

def Course.note (c : Course) : Event calls → Course
  | ⟨.del, .ok _⟩ => { c with open_ := true, added := [] }
  | ⟨.sadd digests, .ok _⟩ => { c with added := digests ++ c.added }
  | ⟨.sadd _, .error _⟩ => { c with broken := c.broken || c.open_ }
  | ⟨.set .version _, _⟩ => { c with open_ := false }
  | ⟨.sismember digest, .ok (.int n)⟩ => if n = 1 then c else { c with missed := digest :: c.missed }
  | _ => c

def courseOf (did : Trace calls) : Course := did.foldl Course.note {}

/-- An import marks the export as new only when this digest is in, and looks nothing up. -/
def Course.mayDo (digest : Str) (c : Course) : Op → Prop
  | .set .version _ => c.open_ = true → digest ∈ c.added
  | .sismember _ => c.open_ = false
  | _ => True

abbrev Conducts (digest : Str) : World calls Course := World.guarded (fun c e => c.mayDo digest e.op) Course.note

/-- The condition on a step: nothing is looked up while another process has deleted the
list and not set the version of its export, a `DEL` that fails has no effect, and no chunk of
a replacing import fails. -/
def Whole : Condition calls Course Vault := fun others v c e v' =>
  match e with
  | ⟨.sismember _, _⟩ => ∀ h ∈ others, h.open_ = false
  | ⟨.del, .error _⟩ => v' = v
  | ⟨.sadd _, .error _⟩ => c.open_ = false
  | _ => True

section
variable [Unicode] [Sha256]

def Ended (l : Options) (digest : Str) (result : Returned) (c : Course) : Prop :=
  (c.open_ = true → digest ∈ c.added ∨ c.broken = true) ∧
    ∀ email reason, result = .looked email (.ok (false, reason)) → l.Enabled = true → email ≠ [] →
      ∀ kind value, (kind, value) ∈ candidates (fold email) → Hash l.salt value ∈ c.missed

/-- Lookups and imports over one list. Every export that replaces the list has the digest. -/
def Job (l : Options) (digest : Str) (p : Act Returned) : Prop :=
  (∃ email, p = looking l email) ∨
    ∃ version digests replace, (replace = true → digest ∈ digests) ∧ p = importing l version digests replace

def lists (l : Options) (digest : Str) : Rules calls Returned Vault where
  world := Serve
  job := Job l digest
  mayCrash _ did := (courseOf did).open_ = false
  drift pool v' := ∃ clock, v' = { pool.shared with clock }

end

section
variable {digest : Str} {c : Course}

lemma member_conducts {looked : Str} (closed : c.open_ = false) :
    (member looked).Follows (Conducts digest)
      (fun result c' => c'.open_ = false ∧ c.missed ⊆ c'.missed ∧ (result = .ok false → looked ∈ c'.missed)) c := by
  apply Prog.Follows.heed fun _ => closed
  intro answer
  match answer with
  | .error err => exact ⟨closed, List.Subset.refl _, nofun⟩
  | .ok (.other type) => exact ⟨closed, List.Subset.refl _, nofun⟩
  | .ok (.int n) =>
    have noted : c.note ⟨.sismember looked, .ok (.int n)⟩ =
        if n = 1 then c else { c with missed := looked :: c.missed } := rfl
    change (c.note ⟨.sismember looked, .ok (.int n)⟩).open_ = false ∧
      c.missed ⊆ (c.note ⟨.sismember looked, .ok (.int n)⟩).missed ∧ (Except.ok (decide (n = 1)) = _ → _)
    rw [noted]
    split
    · rename_i one
      exact ⟨closed, List.Subset.refl _, by simp [one]⟩
    · exact ⟨closed, List.subset_cons_self _ _, fun _ => List.mem_cons_self⟩

lemma lookUp_conducts [Unicode] [Sha256] {salt : Str} (tried : List (String × Str)) (closed : c.open_ = false) :
    (lookUp salt tried).Follows (Conducts digest) (fun result c' => c'.open_ = false ∧ c.missed ⊆ c'.missed ∧
      ∀ reason, result = .ok (false, reason) → ∀ kind value, (kind, value) ∈ tried → Hash salt value ∈ c'.missed) c := by
  induction tried generalizing c with
  | nil => exact ⟨closed, List.Subset.refl _, fun _ _ _ _ none => by cases none⟩
  | cons first more ih =>
    obtain ⟨kind, value⟩ := first
    apply (member_conducts closed).andThen
    intro result c' seen
    obtain ⟨closed, grown, missed⟩ := seen
    match result with
    | .error err => exact ⟨closed, grown, nofun⟩
    | .ok true => exact ⟨closed, grown, nofun⟩
    | .ok false =>
      apply (ih closed).mono
      rintro result c'' ⟨closed, further, rest⟩
      refine ⟨closed, List.Subset.trans grown further, fun reason same kind' value' member => ?_⟩
      rcases List.mem_cons.mp member with same' | later
      · cases same'
        exact further (missed rfl)
      · exact rest reason same kind' value' later

lemma addChunks_conducts (fuel : Nat) (digests : List Str) (enough : digests.length ≤ fuel) :
    (addChunks fuel digests).Follows (Conducts digest) (fun result c' => c'.open_ = c.open_ ∧ c.added ⊆ c'.added ∧
      (result = .ok () → digests ⊆ c'.added) ∧ (result ≠ .ok () → c.open_ = true → c'.broken = true)) c := by
  induction fuel generalizing digests c with
  | zero =>
    rw [List.length_eq_zero_iff.mp (Nat.le_zero.mp enough)]
    exact ⟨rfl, List.Subset.refl _, fun _ => List.nil_subset _, fun failed => absurd rfl failed⟩
  | succ fuel ih =>
    unfold addChunks
    split
    · rename_i none
      rw [none]
      exact ⟨rfl, List.Subset.refl _, fun _ => List.nil_subset _, fun failed => absurd rfl failed⟩
    · rename_i some
      apply Prog.Follows.heed fun _ => trivial
      intro answer
      cases answer with
      | error err =>
        refine ⟨rfl, List.Subset.refl _, nofun, fun _ opened => ?_⟩
        change (c.broken || c.open_) = true
        rw [opened, Bool.or_true]
      | ok reply =>
        have fewer : (digests.drop chunk).length ≤ fuel := by
          have filled := List.length_pos_of_ne_nil some
          rw [List.length_drop]
          unfold chunk
          omega
        apply (ih (digests.drop chunk) fewer).mono
        rintro result c' ⟨same, grown, all, broken⟩
        refine ⟨same, List.Subset.trans (List.subset_append_right _ _) grown, fun ok d member => ?_, broken⟩
        rw [← List.take_append_drop chunk digests] at member
        rcases List.mem_append.mp member with now | later
        · exact grown (List.mem_append_left _ now)
        · exact all ok later

def Course.Closed (digest : Str) (c : Course) : Prop := c.open_ = true → digest ∈ c.added ∨ c.broken = true

lemma sign_conducts {version : Str} (done : c.open_ = true → digest ∈ c.added) :
    (sign version).Follows (Conducts digest) (fun _ c' => c'.Closed digest) c := by
  apply Prog.Follows.heed fun _ => done
  intro answer
  cases answer with
  | error err => nofun
  | ok _ =>
    apply Prog.Follows.heed fun _ => trivial
    intro time
    apply Prog.Follows.heed fun _ => trivial
    intro answer
    nofun

lemma Import_conducts {l : Options} {version : Str} {digests : List Str} {replace : Bool} (closed : c.open_ = false)
    (both : replace = true → digest ∈ digests) :
    (l.Import version digests replace).Follows (Conducts digest) (fun _ c' => c'.Closed digest) c := by
  have left : c.Closed digest := fun opened => absurd (closed.symm.trans opened) Bool.false_ne_true
  have rest {c : Course} {f : Except Str Unit → Act (Except Str Unit)} (fails : ∀ err, f (.error err) = pure (.error err))
      (signs : f (.ok ()) = sign version) (both : c.open_ = true → digest ∈ digests) :
      (addChunks digests.length digests >>= f).Follows (Conducts digest) (fun _ c' => c'.Closed digest) c := by
    apply (addChunks_conducts _ digests (Nat.le_refl _)).andThen
    rintro result c' ⟨same, -, all, broken⟩
    cases result with
    | error err =>
      rw [fails]
      refine fun opened => .inr (broken ?_ (same ▸ opened))
      intro fine
      cases fine
    | ok _ =>
      rw [signs]
      exact sign_conducts fun opened => all rfl (both (same ▸ opened))
  unfold Options.Import
  split
  · exact left
  split
  · exact left
  cases replace with
  | false => exact rest (fun _ => rfl) rfl fun opened => absurd (closed.symm.trans opened) Bool.false_ne_true
  | true =>
    apply Prog.Follows.heed fun _ => trivial
    intro answer
    cases answer with
    | error err => exact left
    | ok reply => exact rest (fun _ => rfl) rfl fun _ => both rfl

lemma job_conducts [Unicode] [Sha256] {l : Options} {p : Act Returned} (job : Job l digest p) :
    p.Follows (Conducts digest) (Ended l digest) {} := by
  rcases job with ⟨email, rfl⟩ | ⟨version, digests, replace, both, rfl⟩
  · have looked : (l.Suppressed email).Follows (Conducts digest)
        (fun result c' => Ended l digest (.looked email result) c') {} := by
      unfold Options.Suppressed
      split
      · rename_i idle
        refine ⟨nofun, fun email' reason same enabled some => ?_⟩
        cases same
        rcases idle with off | none
        · exact absurd enabled off
        · exact absurd none some
      · apply (lookUp_conducts (candidates (fold email)) rfl).mono
        rintro result c' ⟨closed, -, missed⟩
        refine ⟨fun opened => absurd (closed.symm.trans opened) Bool.false_ne_true, fun _ reason same _ _ => ?_⟩
        cases same
        exact missed reason rfl
    exact looked.andThen fun _ _ ended => ended
  · apply (Import_conducts rfl both).andThen
    exact fun _ _ closed => ⟨closed, nofun⟩

end

/-- The digest is on the list, or a running import is about to add it; nobody missed it. -/
structure Kept (digest : Str) (v : Vault) (running gone : List Course) : Prop where
  present : digest ∈ v.hashes ∨ ∃ c ∈ running, c.open_ = true ∧ digest ∉ c.added
  sound : ∀ c ∈ running, c.broken = false
  found : ∀ c ∈ running ++ gone, digest ∉ c.missed

section
variable {digest : Str} {v v' : Vault} {c : Course} {e : Event calls} {before after gone : List Course}

lemma Serve.stays (served : Serve v e v') (there : digest ∈ v.hashes) (kept : e.op ≠ .del) : digest ∈ v'.hashes := by
  have after (o : Op) (kept : o ≠ .del) : digest ∈ (v.after o).hashes := by
    cases o with
    | del => exact absurd rfl kept
    | sadd digests => exact List.mem_union_iff.mpr (.inr there)
    | _ => exact there
  cases served with
  | done _ o => exact after o kept
  | lost _ _ _ => exact there
  | unheard _ _ _ => exact after e.op kept

lemma Serve.added {digests : List Str} {reply : Value} (served : Serve v ⟨.sadd digests, .ok reply⟩ v')
    (member : digest ∈ digests) : digest ∈ v'.hashes := by
  cases served with
  | done _ _ => exact List.mem_union_iff.mpr (.inl member)
  | lost _ _ broke => cases broke
  | unheard _ _ broke => cases broke

lemma Serve.looked {looked : Str} {n : Int} (served : Serve v ⟨.sismember looked, .ok (.int n)⟩ v') :
    looked ∈ v.hashes → n = 1 := by
  cases served with
  | done _ _ => exact fun there => if_pos there
  | lost _ _ broke => cases broke
  | unheard _ _ broke => cases broke

def Secured (digest : Str) (v : Vault) (c : Course) : Prop :=
  digest ∈ v.hashes ∨ (c.open_ = true ∧ digest ∉ c.added)

structure Acts (digest : Str) (v : Vault) (c : Course) (v' : Vault) (c' : Course) : Prop where
  secured : Secured digest v c → Secured digest v' c'
  sound : c'.broken = false
  found : digest ∉ c'.missed

lemma Acts.of_serve {others : List Course} (sound : c.broken = false) (found : digest ∉ c.missed)
    (present : digest ∈ v.hashes ∨ ∃ h ∈ c :: others, h.open_ = true ∧ digest ∉ h.added)
    (may : c.mayDo digest e.op) (served : Serve v e v') (whole : Whole others v c e v') :
    Acts digest v c v' (c.note e) := by
  -- Whatever does not delete the list and is not noted.
  have same (kept : e.op ≠ .del) : Acts digest v c v' c :=
    ⟨fun secured => secured.imp_left fun there => served.stays there kept, sound, found⟩
  obtain ⟨o, a⟩ := e
  cases o with
  | del =>
    cases a with
    | ok reply => exact ⟨fun _ => .inr ⟨rfl, List.not_mem_nil⟩, sound, found⟩
    | error err =>
      have still : v' = v := whole
      rw [still]
      exact ⟨id, sound, found⟩
  | sadd digests =>
    cases a with
    | ok reply =>
      refine ⟨fun secured => ?_, sound, found⟩
      by_cases member : digest ∈ digests
      · exact .inl (served.added member)
      · rcases secured with there | ⟨opened, missing⟩
        · exact .inl (served.stays there nofun)
        · exact .inr ⟨opened, fun added => (List.mem_append.mp added).elim member missing⟩
    | error err =>
      have closed : c.open_ = false := whole
      refine ⟨(same nofun).secured, ?_, found⟩
      change (c.broken || c.open_) = false
      rw [sound, closed, Bool.or_false]
  | set key val =>
    cases key with
    | updatedAt => exact same nofun
    | version =>
      refine ⟨fun secured => ?_, sound, found⟩
      rcases secured with there | ⟨opened, missing⟩
      · exact .inl (served.stays there nofun)
      · exact absurd (may opened) missing
  | sismember looked =>
    match a with
    | .error err => exact same nofun
    | .ok (.other type) => exact same nofun
    | .ok (.int n) =>
      change Acts digest v c v' (if n = 1 then c else { c with missed := looked :: c.missed })
      split
      · exact same nofun
      · rename_i missed
        refine ⟨(same nofun).secured, sound, fun member => ?_⟩
        rcases List.mem_cons.mp member with rfl | old
        · -- Nobody is in the middle of an import, so it is on the list.
          refine missed (served.looked (present.resolve_right ?_))
          rintro ⟨h, member, opened, -⟩
          have closed : h.open_ = false := by
            rcases List.mem_cons.mp member with rfl | other
            · exact may
            · exact whole h other
          rw [closed] at opened
          cases opened
        · exact found old
  | _ => exact same nofun

lemma Kept.act (kept : Kept digest v (before ++ c :: after) gone) (may : c.mayDo digest e.op)
    (served : Serve v e v') (whole : Whole (before ++ after) v c e v') :
    Kept digest v' (before ++ c.note e :: after) gone := by
  have here : c ∈ before ++ c :: after := mem_here
  have present : digest ∈ v.hashes ∨ ∃ h ∈ c :: (before ++ after), h.open_ = true ∧ digest ∉ h.added := by
    refine kept.present.imp_right ?_
    rintro ⟨h, member, lacks⟩
    exact ⟨h, by simpa [or_left_comm] using member, lacks⟩
  have acts := Acts.of_serve (kept.sound c here) (kept.found c (List.mem_append_left _ here)) present may served whole
  refine ⟨?_, fun h member => ?_, fun h member => ?_⟩
  · have mine (secured : Secured digest v c) :
        digest ∈ v'.hashes ∨ ∃ h ∈ before ++ c.note e :: after, h.open_ = true ∧ digest ∉ h.added :=
      (acts.secured secured).imp_right fun lacks => ⟨_, by simp, lacks⟩
    rcases present with there | ⟨h, member, lacks⟩
    · exact mine (.inl there)
    · rcases List.mem_cons.mp member with rfl | other
      · exact mine (.inr lacks)
      · exact .inr ⟨h, mem_stays other, lacks⟩
  · rcases mem_exchanged c member with rfl | old
    · exact acts.sound
    · exact kept.sound h old
  · rcases List.mem_append.mp member with member | left
    · rcases mem_exchanged c member with rfl | old
      · exact acts.found
      · exact kept.found h (List.mem_append_left _ old)
    · exact kept.found h (List.mem_append_right _ left)

lemma Kept.join {running : List Course} (kept : Kept digest v running gone) :
    Kept digest v (running ++ [({} : Course)]) gone := by
  refine ⟨kept.present.imp_right ?_, forall_mem_snoc.mpr ⟨kept.sound, rfl⟩, fun h member => ?_⟩
  · rintro ⟨h, member, lacks⟩
    exact ⟨h, List.mem_append_left _ member, lacks⟩
  · simp only [List.mem_append, List.mem_singleton] at member
    rcases member with (old | rfl) | old
    · exact kept.found h (by simp [old])
    · exact List.not_mem_nil
    · exact kept.found h (by simp [old])

lemma Kept.leave (kept : Kept digest v (before ++ c :: after) gone) (closed : c.Closed digest) :
    Kept digest v (before ++ after) (gone ++ [c]) := by
  refine ⟨kept.present.imp_right ?_, fun h member => kept.sound h (mem_stays member),
    fun h member => kept.found h (mem_leaves.mp member)⟩
  rintro ⟨h, member, opened, missing⟩
  refine ⟨h, ?_, opened, missing⟩
  have other : h ≠ c := by
    rintro rfl
    rcases closed opened with added | broken
    · exact missing added
    · rw [kept.sound h member] at broken
      cases broken
  simpa [other] using member

lemma lists_kept [Unicode] [Sha256] (l : Options) (digest : Str) :
    Keeping (lists l digest) (fun c e => c.mayDo digest e.op) Course.note {} Whole (Ended l digest) (Kept digest) where
  join _ _ _ := .join
  act _ _ _ _ _ _ _ kept may served whole := kept.act may served whole
  leave _ _ _ _ _ kept leaves := by
    apply kept.leave
    rcases leaves with ⟨result, ended⟩ | ⟨did, rfl, closed⟩
    · exact ended.1
    · exact fun opened => absurd (closed.symm.trans opened) Bool.false_ne_true
  drift pool v' running gone drifts kept := by
    obtain ⟨clock, rfl⟩ := drifts
    exact ⟨kept.present, kept.sound, kept.found⟩

/-- The digests an address is known by: its own, and that of its domain. -/
def digestsOf [Unicode] [Sha256] (salt email : Str) : List Str :=
  Hash salt email :: ((afterLast 64 (fold email)).toList.filter (· ≠ [])).map (Hash salt)

lemma fold_fold [Unicode] [LawfulUnicode] (s : Str) : fold (fold s) = fold s := by
  unfold fold
  rw [trimSpace_toLower, toLower_toLower, trimSpace_trimSpace]

lemma digestsOf_candidates [Unicode] [LawfulUnicode] [Sha256] {salt email digest : Str}
    (known : digest ∈ digestsOf salt email) :
    ∃ kind value, (kind, value) ∈ candidates (fold email) ∧ Hash salt value = digest := by
  unfold digestsOf at known
  unfold candidates
  rcases List.mem_cons.mp known with rfl | domain
  · have again : Hash salt (fold email) = Hash salt email := by rw [Hash, Hash, fold_fold]
    refine ⟨"address", fold email, ?_, again⟩
    split
    · split <;> exact List.mem_cons_self
    · exact List.mem_cons_self
  · obtain ⟨value, member, same⟩ := List.mem_map.mp domain
    have inside := List.mem_filter.mp member
    have found : afterLast 64 (fold email) = some value := by simpa using inside.1
    have some : value ≠ [] := by simpa using inside.2
    refine ⟨"domain", value, ?_, same⟩
    rw [found]
    dsimp only
    rw [if_neg some]
    simp

/-- Where no lookup falls into an import and no command of one fails, whoever is on the
list and on every new export is found at every time. -/
theorem both_lists_suppress [Unicode] [LawfulUnicode] [Sha256] {l : Options} (enabled : l.Enabled = true)
    {digest : Str} {start : Vault} (old : digest ∈ start.hashes) {pool : Pool calls Returned Vault}
    (reached : Pool.ReachesIf (lists l digest) Course.note {} Whole { shared := start } pool)
    {did : Trace calls} {email : Str} {hit : Bool} {reason : Str}
    (returned : (did, some (.looked email (.ok (hit, reason)))) ∈ pool.gone) (named : email ≠ [])
    (known : digest ∈ digestsOf l.salt email) : hit = true := by
  have orderly : Pool.Orderly (fun c e => Course.mayDo digest c e.op) Course.note (Ended l digest) {}
      ({ shared := start } : Pool calls Returned Vault) := ⟨by simp, by simp⟩
  have first : Kept digest start [] [] := ⟨.inl old, by simp, by simp⟩
  obtain ⟨orderly, kept⟩ := (lists_kept l digest).reached (fun _ => job_conducts) orderly first reached
  by_contra missed
  have miss : hit = false := by simpa using missed
  obtain ⟨kind, value, candidate, rfl⟩ := digestsOf_candidates known
  have ended := (orderly.returned did _ returned).2 email reason (by rw [miss]) enabled named kind value candidate
  have course : did.foldl Course.note {} ∈ pool.hands Course.note {} ++ pool.left Course.note {} :=
    List.mem_append_right _ (List.mem_map.mpr ⟨_, returned, rfl⟩)
  exact kept.found _ course ended

end

def redis : Player calls Vault := fun v o => (v.reply o, v.after o)

def salted : Options := { enforce := true, salt := lit "pepper", store := true }

def forgotten : Str := lit "jo@example.test"

def oldList : Vault := { hashes := [Hash salted.salt forgotten] }

def replacing : Act Returned := importing salted (lit "v2") [Hash salted.salt forgotten] true

def replaced : Trace calls × Returned × Vault := replacing.play redis oldList

def lookedAfter : Trace calls × Returned × Vault := (looking salted forgotten).play redis replaced.2.2

-- The import has ended when the address is looked up.
def lookedUp : Pool calls Returned Vault :=
  { shared := lookedAfter.2.2
    gone := [(replaced.1, some replaced.2.1), (lookedAfter.1, some lookedAfter.2.1)] }

lemma redis_serves (v : Vault) (o : Op) : Serve v ⟨o, (redis v o).1⟩ (redis v o).2 := .done v o

lemma redis_whole (v : Vault) (o : Op) : (lists salted (Hash salted.salt forgotten)).minding Whole []
    v ⟨o, (redis v o).1⟩ (redis v o).2 := by
  refine ⟨redis_serves v o, fun _ => trivial, fun c => ?_⟩
  cases o with
  | sismember _ => exact fun _ member => by cases member
  | _ => trivial

/-- Looked up once the import is through, the address is found. -/
theorem replaced_suppresses : ∃ did reason, (did, some (.looked forgotten (.ok (true, reason)))) ∈ lookedUp.gone := by
  have imports : Pool.ReachesIf (lists salted (Hash salted.salt forgotten)) Course.note {} Whole { shared := oldList }
      { shared := replaced.2.2, gone := [(replaced.1, some replaced.2.1)] } :=
    .returns rfl (.inr ⟨_, _, _, fun _ => List.mem_singleton_self _, rfl⟩)
      (Prog.play_runs (fun v : Vault => v) redis_whole replacing oldList)
  have looks : Pool.ReachesIf (lists salted (Hash salted.salt forgotten)) Course.note {} Whole
      { shared := replaced.2.2, gone := [(replaced.1, some replaced.2.1)] } lookedUp :=
    .returns rfl (.inl ⟨forgotten, rfl⟩) (Prog.play_runs (fun v : Vault => v) redis_whole _ replaced.2.2)
  have result : ∃ hit reason, lookedAfter.2.1 = .looked forgotten (.ok (hit, reason)) :=
    ⟨true, lit "suppressed by address", by decide +kernel⟩
  obtain ⟨hit, reason, same⟩ := result
  have returned : (lookedAfter.1, some (.looked forgotten (.ok (hit, reason)))) ∈ lookedUp.gone := by
    rw [← same]
    exact List.mem_cons_of_mem _ (List.mem_singleton_self _)
  have hits := both_lists_suppress rfl (List.mem_singleton_self _) (imports.trans looks) returned nofun
    (List.mem_cons_self)
  exact ⟨_, reason, hits ▸ returned⟩

-- The import has deleted the list and added nothing yet.
def cleared : Trace calls × Prog calls Returned × Vault := replacing.playFor redis 1 oldList

def lookedBetween : Trace calls × Returned × Vault := (looking salted forgotten).play redis cleared.2.2

def inTheHole : Pool calls Returned Vault :=
  { shared := lookedBetween.2.2
    running := [⟨cleared.1, cleared.2.1⟩]
    gone := [(lookedBetween.1, some lookedBetween.2.1)] }

/-- An address on the old list and on the new one is not found in between. -/
theorem replacing_opens_hole : forgotten ≠ [] ∧ Hash salted.salt forgotten ∈ oldList.hashes ∧
    Pool.Reaches (lists salted (Hash salted.salt forgotten)) { shared := oldList } inTheHole ∧
    ∃ did, (did, some (.looked forgotten (.ok (false, [])))) ∈ inTheHole.gone := by
  have admits (v : Vault) (o : Op) : Serve v ⟨o, (redis v o).1⟩ (redis v o).2 ∧ ∀ _ : Trace calls, True :=
    ⟨redis_serves v o, fun _ => trivial⟩
  have clears : Pool.Reaches (lists salted (Hash salted.salt forgotten)) { shared := oldList }
      { shared := cleared.2.2, running := [⟨cleared.1, cleared.2.1⟩] } :=
    Pool.Reaches.starts (.inr ⟨_, _, _, fun _ => List.mem_singleton_self _, rfl⟩)
      (Prog.playFor_runs admits 1 replacing oldList)
  have looks : Pool.Reaches (lists salted (Hash salted.salt forgotten))
      { shared := cleared.2.2, running := [⟨cleared.1, cleared.2.1⟩] } inTheHole :=
    Pool.Reaches.returns (.inl ⟨forgotten, rfl⟩)
      (Prog.play_runs (W := fun v e v' => Serve v e v' ∧ ∀ _ : Trace calls, True) (fun v : Vault => v) admits
        (looking salted forgotten) cleared.2.2)
  have missed : lookedBetween.2.1 = .looked forgotten (.ok (false, [])) := by decide +kernel
  refine ⟨nofun, List.mem_singleton_self _, clears.trans looks, lookedBetween.1, ?_⟩
  rw [← missed]
  exact List.mem_singleton_self _

end EmailVerifier.Suppress
