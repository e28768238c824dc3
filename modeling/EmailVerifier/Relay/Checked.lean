import EmailVerifier.Relay.Hand
import EmailVerifier.Suppress.Lookup

/-! Whom `Accept` asks the list about, and whom it queues for.

The list is asked about `To` as it was given. The message goes to what `addressOnly` takes out
of it.
-/

set_option autoImplicit false

namespace EmailVerifier.Relay
open Text Data Semantics Suppress

section
variable [Unicode] [Sha256]

def suppressedBy (l : Suppress.Options) (v : Vault) (addr : Str) : Except Str (Bool × Str) :=
  ((l.Suppressed addr).play Suppress.redis v).2.1

def askedFor (salt addr : Str) : List Str :=
  if addr = [] then [] else (candidates (fold addr)).map fun c => Hash salt c.2

lemma suppressedBy_eq {l : Suppress.Options} (enabled : l.Enabled = true) (v : Vault) (addr : Str) :
    suppressedBy l v addr = .ok (false, []) ↔ ∀ digest ∈ askedFor l.salt addr, digest ∉ v.hashes := by
  obtain ⟨⟨hit, reason⟩, answer, silent, found⟩ := Suppressed_answers l v addr
  have held : hit = true ↔ ∃ digest ∈ askedFor l.salt addr, digest ∈ v.hashes := by
    refine (found enabled).trans ?_
    unfold askedFor
    split
    · rename_i empty
      simp [empty]
    · rename_i some
      simp [some]
  have missed : suppressedBy l v addr = .ok (false, []) ↔ ¬ hit = true := by
    rw [suppressedBy, answer]
    cases hit with
    | true => simp
    | false =>
      have empty : reason = [] := silent rfl
      simp [empty]
  rw [missed, held]
  simp only [not_exists, not_and]

lemma askedFor_trimSpace [LawfulUnicode] (salt addr : Str) : askedFor salt (trimSpace addr) ⊆ askedFor salt addr := by
  unfold askedFor
  by_cases empty : trimSpace addr = []
  · rw [if_pos empty]
    exact List.nil_subset _
  · have some : addr ≠ [] := by
      rintro rfl
      exact empty rfl
    rw [if_neg empty, if_neg some, fold, fold, trimSpace_trimSpace]
    exact List.Subset.refl _

/-- A list that enforces, is fresh and can be read; anything else is as it may be. -/
def Consults (l : Suppress.Options) (v : Vault) : World calls Unit
  | _, ⟨.enforcing, on⟩, _ => on = true
  | _, ⟨.stale, old⟩, _ => old = false
  | _, ⟨.suppressed addr, answer⟩, _ => ∃ found, suppressedBy l v addr = .ok found ∧ answer = .ok found
  | _, _, _ => True

lemma suppressionAllows_consults {o : Options} (checks : o.suppress = true) {l : Suppress.Options} {v : Vault}
    (addr : Str) : (o.suppressionAllows addr).Ensures (Consults l v)
      (fun result _ => result = .ok () → suppressedBy l v addr = .ok (false, [])) () := by
  unfold Options.suppressionAllows
  rw [if_neg (not_not.mpr checks)]
  intro on _ enforced
  cases (enforced : on = true)
  intro old _ fresh
  cases (fresh : old = false)
  rintro answer _ ⟨⟨hit, reason⟩, answered, rfl⟩
  cases hit with
  | true => exact nofun
  | false =>
    obtain ⟨found, answer, silent, -⟩ := Suppressed_answers l v addr
    obtain rfl := Except.ok.inj (answer.symm.trans answered)
    rw [← show reason = [] from silent rfl]
    exact fun _ => answered

end

def bodyOf : Event calls → Option Str
  | ⟨.store (.set _ blob), _⟩ => some blob
  | _ => none

/-- Only one address is asked about. The bodies that were stored are kept. -/
def Asks (addr : Str) : World calls (List Str) := fun stored e stored' =>
  (∀ asked, e.op = .suppressed asked → asked = addr) ∧ stored' = stored ++ (bodyOf e).toList

lemma asks_stores {addr : Str} {tr : Trace calls} {stored : List Str} (path : Path (Asks addr) [] tr stored) :
    (∀ e ∈ tr, ∀ asked, e.op = .suppressed asked → asked = addr) ∧ stored = tr.filterMap bodyOf := by
  refine path.traced (fun tr stored => (∀ e ∈ tr, ∀ asked, e.op = Op.suppressed asked → asked = addr) ∧
    stored = tr.filterMap bodyOf) ⟨nofun, rfl⟩ ?_
  rintro seen _ e _ ⟨about, rfl⟩ ⟨here, rfl⟩
  refine ⟨forall_mem_snoc.mpr ⟨about, here⟩, ?_⟩
  cases kept : bodyOf e <;> simp [kept]

section
variable [Library]

def BodyFor (rcptTo blob : Str) : Prop := ∃ item : Item, item.rcptTo = rcptTo ∧ Library.marshal item = .ok blob

def StoredAt (m : Message) (stored : List Str) : Desk → Prop
  | .blank | .drawn _ => stored = []
  | .entering _ | .entered _ => ∃ blob, stored = [blob] ∧ BodyFor (addressOnly m.to_) blob
  | .over => True

lemma StoredAt.arrow {m : Message} {stored : List Str} {d d' : Desk} {e : Event calls} (step : Intake m d e d')
    (here : StoredAt m stored d) : ∃ stored', Asks m.to_ stored e stored' ∧ StoredAt m stored' d' := by
  cases step with
  | undrawn => exact ⟨_, ⟨nofun, rfl⟩, trivial⟩
  | drawn => exact ⟨_, ⟨nofun, rfl⟩, (List.append_nil _).trans here⟩
  | @inquires id op a inquiry =>
    cases op with
    | enforcing | stale | now | sign _ _ | randRead _ => exact ⟨_, ⟨nofun, rfl⟩, (List.append_nil _).trans here⟩
    | _ => cases inquiry
  | looksUp =>
    exact ⟨_, ⟨fun asked same => (Op.suppressed.inj same).symm, rfl⟩, (List.append_nil _).trans here⟩
  | unstored => exact ⟨_, ⟨nofun, rfl⟩, trivial⟩
  | @stored id blob item back entry =>
    refine ⟨_, ⟨nofun, rfl⟩, blob, ?_, item, entry.rcptTo, entry.encoded⟩
    rw [show stored = [] from here]
    rfl
  | unqueued => exact ⟨_, ⟨nofun, rfl⟩, trivial⟩
  | queued => exact ⟨_, ⟨nofun, rfl⟩, (List.append_nil stored).symm ▸ here⟩

variable [Unicode]

/-- The list is asked about `To`, and what is stored is for the address in it. -/
lemma Accept_asks (o : Options) (m : Message) :
    (o.Accept m).Follows (Asks m.to_) (fun result stored => ∀ id, result = .ok id →
      ∃ blob, stored = [blob] ∧ BodyFor (addressOnly m.to_) blob) [] := by
  refine (Accept_intake.simulated (R := fun d stored => StoredAt m stored d) (fun _ _ _ _ here step => ?_) rfl).mono ?_
  · exact here.arrow step
  · rintro result stored ⟨d, kept, accepted⟩ id rfl
    obtain ⟨_, rfl, -⟩ := accepted id rfl
    exact kept

variable [Sha256]

lemma Accept_consults {o : Options} (checks : o.suppress = true) {l : Suppress.Options} {v : Vault} (m : Message) :
    (o.Accept m).Ensures (Consults l v) (fun result _ => ∀ id, result = .ok id →
      suppressedBy l v m.to_ = .ok (false, [])) () := by
  intro drawn _ _
  cases drawn with
  | error err => exact nofun
  | ok bytes =>
    refine (suppressionAllows_consults checks m.to_).andThen fun allowed _ unlisted => ?_
    cases allowed with
    | error err => exact nofun
    | ok _ => exact .always fun _ _ _ _ => unlisted rfl

lemma accepted_elsewhere {o : Options} {l : Suppress.Options} {m : Message}
    {v v' : Vault} {tr : Trace calls} {id : Str} (run : Runs (Consults l v) (o.Accept m) () tr (.done (.ok id)) ())
    (same : suppressedBy l v m.to_ = suppressedBy l v' m.to_) :
    Runs (Consults l v') (o.Accept m) () tr (.done (.ok id)) () := by
  obtain ⟨stored, path, -⟩ := (Accept_asks o m).path run
  refine run.narrowed (fun _ => True) trivial ?_
  rintro _ ⟨op, answer⟩ _ member _ answered
  refine ⟨trivial, ?_⟩
  cases op with
  | suppressed asked =>
    obtain ⟨found, hit, rfl⟩ := answered
    cases (asks_stores path).1 _ member asked rfl
    exact ⟨found, same ▸ hit, rfl⟩
  | _ => exact answered

/-- What is accepted is for someone who is not on the list, by address or by domain, exactly when
whatever would be looked up for the recipient is looked up for `To`; as it is where `To` has no
angle bracket. -/
theorem accept_unlisted_iff [LawfulUnicode] {o : Options} (checks : o.suppress = true) {l : Suppress.Options}
    (enforces : l.Enforcing = true) {m : Message}
    (taken : ∃ v tr id, Runs (Consults l v) (o.Accept m) () tr (.done (.ok id)) ()) :
    (∀ v tr id, Runs (Consults l v) (o.Accept m) () tr (.done (.ok id)) () →
      ∃ blob, tr.filterMap bodyOf = [blob] ∧ BodyFor (addressOnly m.to_) blob) ∧
    ((∀ v tr id, Runs (Consults l v) (o.Accept m) () tr (.done (.ok id)) () →
      suppressedBy l v (addressOnly m.to_) = .ok (false, [])) ↔
        askedFor l.salt (addressOnly m.to_) ⊆ askedFor l.salt m.to_) ∧
    (60 ∉ m.to_ → askedFor l.salt (addressOnly m.to_) ⊆ askedFor l.salt m.to_) := by
  have enabled : l.Enabled = true := (Bool.and_eq_true_iff.mp enforces).1
  have unlisted {v tr id} (run : Runs (Consults l v) (o.Accept m) () tr (.done (.ok id)) ()) :
      suppressedBy l v m.to_ = .ok (false, []) := (Accept_consults checks m).result run id rfl
  refine ⟨fun v tr id run => ?_, ⟨fun holds digest asked => ?_, fun within v tr id run => ?_⟩, fun bare => ?_⟩
  · obtain ⟨stored, path, finish⟩ := (Accept_asks o m).path run
    obtain ⟨blob, rfl, body⟩ := finish id rfl
    exact ⟨blob, (asks_stores path).2.symm, body⟩
  · obtain ⟨v, tr, id, run⟩ := taken
    by_contra missed
    let alone : Vault := { hashes := [digest] }
    have passed : suppressedBy l alone m.to_ = .ok (false, []) := by
      refine (suppressedBy_eq enabled _ _).mpr fun other member held => ?_
      rw [List.mem_singleton.mp held] at member
      exact missed member
    have elsewhere := accepted_elsewhere run ((unlisted run).trans passed.symm)
    exact (suppressedBy_eq enabled _ _).mp (holds _ tr id elsewhere) digest asked (List.mem_singleton_self digest)
  · have clear := (suppressedBy_eq enabled _ _).mp (unlisted run)
    exact (suppressedBy_eq enabled _ _).mpr fun digest asked => clear digest (within asked)
  · have whole : addressOnly m.to_ = trimSpace m.to_ := by
      rw [addressOnly, afterLast, if_neg bare]
    rw [whole]
    exact askedFor_trimSpace l.salt m.to_

end

def consulting (v : Vault) : Player calls Shared := fun s o =>
  match o with
  | .suppressed addr => ((suppressedBy salted v addr).mapError fun text => ⟨text, []⟩, s)
  | o => redis s o

lemma consulting_consults (v : Vault) (s : Shared) (o : Op) : Consults salted v () ⟨o, (consulting v s o).1⟩ () := by
  cases o with
  | suppressed addr =>
    obtain ⟨found, answer, -, -⟩ := Suppressed_answers salted v addr
    refine ⟨found, answer, ?_⟩
    change (suppressedBy salted v addr).mapError _ = _
    rw [suppressedBy, answer]
    rfl
  | enforcing | stale => rfl
  | _ => trivial

/-- The run of `Accept` beside such a list. -/
def accepting (v : Vault) (m : Message) : Trace calls × Except Err Str × Shared :=
  (oneRelay.Accept m).play (consulting v) {}

lemma accepting_runs (v : Vault) (m : Message) (accepted : (accepting v m).2.1.isOk = true) :
    ∃ id, Runs (Consults salted v) (oneRelay.Accept m) () (accepting v m).1 (.done (.ok id)) () := by
  have run : Runs (Consults salted v) (oneRelay.Accept m) () (accepting v m).1 (.done (accepting v m).2.1) () :=
    Prog.play_runs (fun _ => ()) (consulting_consults v) (oneRelay.Accept m) {}
  cases result : (accepting v m).2.1 with
  | error err =>
    rw [result] at accepted
    cases accepted
  | ok id => exact ⟨id, result ▸ run⟩

-- The same to an address without a name.
def plainMessage : Message := { oneMessage with to_ := forgotten }

theorem plain_unlisted :
    (∃ blob, (accepting {} plainMessage).1.filterMap bodyOf = [blob] ∧ BodyFor (addressOnly plainMessage.to_) blob) ∧
    suppressedBy salted {} (addressOnly plainMessage.to_) = .ok (false, []) := by
  obtain ⟨id, run⟩ := accepting_runs {} plainMessage (by decide +kernel)
  obtain ⟨stored, holds, bare⟩ := accept_unlisted_iff (o := oneRelay) rfl (l := salted) rfl ⟨{}, _, id, run⟩
  exact ⟨stored {} _ id run, holds.mpr (bare (by decide)) {} _ id run⟩

/-- With a name before it, the address of someone on the list is accepted. -/
theorem named_accepted :
    (∃ id, Runs (Consults salted oldList) (oneRelay.Accept oneMessage) () (accepting oldList oneMessage).1
      (.done (.ok id)) ()) ∧
    suppressedBy salted oldList (addressOnly oneMessage.to_) = .ok (true, lit "suppressed by address") :=
  ⟨accepting_runs oldList oneMessage (by decide +kernel), by decide +kernel⟩

end EmailVerifier.Relay
