import EmailVerifier.Relay.Custody
import EmailVerifier.Relay.Durability
import EmailVerifier.Semantics.Hands

/-! No message is in two places.

The lists and the grips of the running processes are counted together. A command takes an
id from one of them to another or loses it, and only a fresh token adds one.
-/

set_option autoImplicit false

namespace EmailVerifier.Relay
open Text Data Semantics

def Store.listings (s : Store) (id : Str) : Nat :=
  s.ready.count id + (s.later.map Prod.snd).count id + s.dead.count id

def Grip.keeps (g : Grip) (id : Str) : Nat := g.held.toList.count id + g.drawn.toList.count id

def Store.total (s : Store) (running : List Grip) (id : Str) : Nat :=
  s.listings id + (running.map (Grip.keeps · id)).sum

lemma total_split (s : Store) (before after : List Grip) (g : Grip) (id : Str) :
    s.total (before ++ g :: after) id = s.listings id + g.keeps id + ((before ++ after).map (Grip.keeps · id)).sum := by
  simp only [Store.total, List.map_append, List.map_cons, List.sum_append, List.sum_cons]
  omega

lemma Store.listings_eq_zero {s : Store} {id : Str} (nowhere : s.listings id = 0) :
    id ∉ s.ready ∧ id ∉ s.later.map Prod.snd ∧ id ∉ s.dead := by
  unfold Store.listings at nowhere
  refine ⟨List.count_eq_zero.mp ?_, List.count_eq_zero.mp ?_, List.count_eq_zero.mp ?_⟩ <;> omega

lemma Grip.keeps_eq_zero {g : Grip} {id : Str} (free : g.keeps id = 0) : g.held ≠ some id ∧ g.drawn ≠ some id := by
  unfold Grip.keeps at free
  constructor
  · intro held
    simp [held] at free
  · intro drawn
    simp [drawn] at free

lemma schedule_perm (entry : Int × Str) (l : List (Int × Str)) : (schedule entry l).Perm (entry :: l) := by
  induction l with
  | nil => exact .refl _
  | cons first more ih =>
    unfold schedule
    split
    · exact .refl _
    · exact (ih.cons first).trans (.swap _ _ _)

def Cmd.adds (id : Str) : Cmd → Nat
  | .lpush _ new | .zadd _ new => if new = id then 1 else 0
  | _ => 0

lemma count_other (later : List (Int × Str)) (gone id : Str) :
    ((later.filter fun e => e.2 ≠ gone).map Prod.snd).count id ≤ (later.map Prod.snd).count id :=
  (List.filter_sublist.map _).count_le _

lemma listings_run (s : Store) (c : Cmd) (id : Str) : (c.run s).2.listings id ≤ s.listings id + c.adds id := by
  cases c with
  | lpush key new =>
    cases key <;>
    · simp only [Cmd.run, Store.listings, Cmd.adds, List.count_cons, beq_iff_eq]
      omega
  | zadd due new =>
    have counted := ((schedule_perm (due, new) (s.later.filter fun e => e.2 ≠ new)).map Prod.snd).count_eq id
    have other := count_other s.later new id
    simp only [List.map_cons, List.count_cons, beq_iff_eq] at counted
    simp only [Cmd.run, Store.listings, Cmd.adds]
    omega
  | rpop =>
    have fewer := s.ready.dropLast_sublist.count_le id
    simp only [Cmd.run, Store.listings, Cmd.adds]
    omega
  | zrem gone =>
    have other := count_other s.later gone id
    simp only [Cmd.run, Store.listings, Cmd.adds]
    omega
  | llen key => cases key <;> exact Nat.le_refl _
  | _ => exact Nat.le_refl _

lemma listings_rpop {s : Store} {popped : Str} (last : s.ready.getLast? = some popped) (id : Str) :
    (Cmd.rpop.run s).2.listings id + (if popped = id then 1 else 0) = s.listings id := by
  have whole := List.dropLast_append_getLast? popped last
  have counted : s.ready.count id = s.ready.dropLast.count id + if popped = id then 1 else 0 := by
    conv_lhs => rw [← whole]
    simp [List.count_append, List.count_singleton]
  simp only [Cmd.run, Store.listings]
  omega

lemma listings_zrem {s : Store} {gone : Str} (removed : ((Cmd.zrem gone).run s).1 ≠ (0 : Int)) (id : Str) :
    ((Cmd.zrem gone).run s).2.listings id + (if gone = id then 1 else 0) ≤ s.listings id := by
  have other := count_other s.later gone id
  by_cases same : gone = id
  · have there : (s.later.any fun e => e.2 = gone) = true := by
      by_contra none
      exact removed (if_neg none)
    obtain ⟨e, member, named⟩ := List.any_eq_true.mp there
    have one : 0 < (s.later.map Prod.snd).count id :=
      List.count_pos_iff.mpr (List.mem_map.mpr ⟨e, member, by rw [← same]; simpa using named⟩)
    have none : ((s.later.filter fun e => e.2 ≠ gone).map Prod.snd).count id = 0 := by
      apply List.count_eq_zero.mpr
      intro left
      obtain ⟨e, member, named⟩ := List.mem_map.mp left
      exact absurd (named.trans same.symm) (by simpa using (List.mem_filter.mp member).2)
    simp only [Cmd.run, Store.listings, same, if_true] at none ⊢
    omega
  · simp only [Cmd.run, Store.listings, if_neg same]
    omega

def gain (s s' : Shared) (id : Str) : Nat := if id ∈ s'.issued ∧ id ∉ s.issued then 1 else 0

lemma Grip.keeps_take {g : Grip} (free : g.held = none) (taken id : Str) :
    ({ g with held := some taken } : Grip).keeps id = g.keeps id + if taken = id then 1 else 0 := by
  simp [Grip.keeps, free, List.count_cons, Nat.add_comm]

lemma Grip.keeps_draw (g : Grip) (token id : Str) :
    ({ g with drawn := g.drawn.or (some token) } : Grip).keeps id ≤ g.keeps id + if token = id then 1 else 0 := by
  cases drawn : g.drawn with
  | none => simp [Grip.keeps, drawn, List.count_cons]
  | some old => simp [Grip.keeps, drawn]

section
variable [Library] {limit : Option Int} {g : Grip}

lemma Grip.issued_keeps {c : Cmd} (sane : g.astray = false) (may : g.mayDo limit (.store c)) (id : Str) :
    (g.issued c).keeps id + c.adds id ≤ g.keeps id := by
  have may := may sane
  cases c with
  | lpush key new =>
    cases key with
    | ready =>
      rcases may.1 with held | ⟨free, drawn⟩
      · simp [Grip.issued, Grip.keeps, Cmd.adds, held, List.count_cons]
      · simp [Grip.issued, Grip.keeps, Cmd.adds, free, drawn, List.count_cons]
    | dead =>
      have held : g.held = some new := may
      simp [Grip.issued, Grip.keeps, Cmd.adds, held, List.count_cons, Nat.add_comm]
  | zadd due new => simp [Grip.issued, Grip.keeps, Cmd.adds, may.1, List.count_cons, Nat.add_comm]
  | del old => simp [Grip.issued, Grip.keeps, Cmd.adds]
  | _ => exact Nat.le_refl _

lemma Grip.issued_freed {c : Cmd} (sane : g.astray = false) (may : g.mayDo limit (.store c)) {id : Str}
    (freed : id ∈ (g.issued c).freed) : id ∈ g.freed ∨ (g.issued c).keeps id + c.adds id < g.keeps id := by
  have may := may sane
  cases c with
  | del old =>
    rcases List.mem_cons.mp freed with rfl | freed
    · have held : g.held = some id := may
      exact .inr (by simp [Grip.issued, Grip.keeps, Cmd.adds, held])
    · exact .inl freed
  | lpush key _ => cases key <;> exact .inl freed
  | _ => exact .inl freed

lemma Grip.replied_freed (c : Cmd) (reply : c.Reply) : (g.replied c reply).freed = g.freed := by
  unfold Grip.replied Grip.open_
  split <;> first | rfl | (split <;> first | rfl | (split <;> rfl))

lemma Grip.replied_keeps {c : Cmd} (leaves : c.takes = false) (reply : c.Reply) (id : Str) :
    (g.replied c reply).keeps id = g.keeps id := by
  cases c with
  | get id =>
    cases reply with
    | none => rfl
    | some blob =>
      simp only [Grip.replied, Grip.open_]
      split
      · split <;> rfl
      · rfl
  | rpop | zrem _ => cases leaves
  | _ => rfl

lemma Grip.replied_sane {s : Store} (sound : s.Sound) (sane : g.astray = false) (c : Cmd) :
    (g.replied c (c.run s).1).astray = false := by
  cases c with
  | get id =>
    change (g.replied (.get id) (s.bodies.lookup id)).astray = false
    cases found : s.bodies.lookup id with
    | none => exact sane
    | some blob =>
      obtain ⟨item, decoded, same⟩ := sound id blob found
      simp only [Grip.replied, Grip.open_, decoded, same, if_true]
      exact sane
  | rpop =>
    change (g.replied .rpop s.ready.getLast?).astray = false
    cases s.ready.getLast? with
    | none => exact sane
    | some id =>
      simp only [Grip.replied]
      split <;> exact sane
  | zrem id =>
    simp only [Grip.replied]
    split <;> exact sane
  | _ => exact sane

lemma tally_replied {s : Store} {c : Cmd} (sane : g.astray = false) (may : g.mayDo limit (.store c)) (id : Str) :
    (c.run s).2.listings id + ((g.issued c).replied c (c.run s).1).keeps id ≤
      s.listings id + c.adds id + (g.issued c).keeps id := by
  have listed := listings_run s c id
  by_cases leaves : c.takes = false
  · rw [Grip.replied_keeps leaves]
    omega
  have may := may sane
  cases c with
  | rpop =>
    have free : (g.issued .rpop).held = none := may
    change _ + ((g.issued .rpop).replied .rpop s.ready.getLast?).keeps id ≤ _
    cases last : s.ready.getLast? with
    | none => exact Nat.add_le_add_right listed _
    | some popped =>
      have taken := listings_rpop last id
      have grip := Grip.keeps_take free popped id
      simp only [Grip.replied]
      split <;> omega
  | zrem gone =>
    have free : (g.issued (.zrem gone)).held = none := may.1
    have grip := Grip.keeps_take free gone id
    simp only [Grip.replied]
    split
    · omega
    · rename_i removed
      have taken := listings_zrem removed id
      omega
  | _ => cases leaves rfl

structure Shifts (s : Shared) (g : Grip) (s' : Shared) (g' : Grip) : Prop where
  sane : g'.astray = false
  sound : s'.store.Sound
  issued : s.issued ⊆ s'.issued
  tally : ∀ id, s'.store.listings id + g'.keeps id ≤ s.store.listings id + g.keeps id + gain s s' id
  freed : ∀ id ∈ g'.freed, id ∈ g.freed ∨
    s'.store.listings id + g'.keeps id < s.store.listings id + g.keeps id

lemma Shifts.still {s : Shared} {g' : Grip} (sound : s.store.Sound) (sane : g'.astray = false)
    (keeps : ∀ id, g'.keeps id = g.keeps id) (freed : g'.freed = g.freed) : Shifts s g s g' where
  sane := sane
  sound := sound
  issued := List.Subset.refl _
  tally id := by
    rw [keeps id]
    omega
  freed id member := .inl (freed ▸ member)

lemma Shifts.of_serve {s s' : Shared} {e : Event calls} (sane : g.astray = false) (sound : s.store.Sound)
    (may : g.mayDo limit e.op) (served : Serve s e s') : Shifts s g s' (g.note e) := by
  -- A command, whether it reported success or not, as far as the store is concerned.
  have ran (c : Cmd) (may : g.mayDo limit (.store c)) : (c.run s.store).2.Sound := by
    apply sound.run
    rintro id blob rfl
    exact may sane
  cases served with
  | done _ c =>
    have sane' : (g.issued c).astray = false := (g.issued_astray c).trans sane
    have kept (id : Str) := Grip.issued_keeps sane may id
    have told (id : Str) := tally_replied (s := s.store) sane may id
    refine ⟨Grip.replied_sane sound sane' c, ran c may, List.Subset.refl _, fun id => ?_, fun id member => ?_⟩
    · specialize kept id
      exact Nat.le_add_right_of_le ((told id).trans (by omega))
    · change id ∈ ((g.issued c).replied c _).freed at member
      rw [Grip.replied_freed] at member
      refine (Grip.issued_freed sane may member).imp_right fun less => ?_
      exact Nat.lt_of_le_of_lt (told id) (by omega)
  | lost _ c err =>
    refine ⟨(g.issued_astray c).trans sane, sound, List.Subset.refl _, fun id => ?_, fun id member => ?_⟩
    · have kept := Grip.issued_keeps sane may id
      change s.store.listings id + (g.issued c).keeps id ≤ _
      omega
    · refine (Grip.issued_freed sane may member).imp_right fun less => ?_
      change s.store.listings id + (g.issued c).keeps id < _
      omega
  | unheard _ c err =>
    refine ⟨(g.issued_astray c).trans sane, ran c may, List.Subset.refl _, fun id => ?_, fun id member => ?_⟩
    · have kept := Grip.issued_keeps sane may id
      have listed := listings_run s.store c id
      change (c.run s.store).2.listings id + (g.issued c).keeps id ≤ _
      omega
    · refine (Grip.issued_freed sane may member).imp_right fun less => ?_
      have listed := listings_run s.store c id
      change (c.run s.store).2.listings id + (g.issued c).keeps id < _
      omega
  | time => exact .still sound sane (fun _ => rfl) rfl
  | token _ n bytes fresh =>
    refine ⟨sane, sound, List.subset_cons_self _ _, fun id => ?_, fun id member => .inl member⟩
    have drawn := g.keeps_draw (base64RawURL bytes.val) id
    have counted : (if base64RawURL bytes.val = id then 1 else 0) ≤
        gain s { s with issued := base64RawURL bytes.val :: s.issued } id := by
      split
      · rename_i same
        simp [gain, ← same, fresh]
      · exact Nat.zero_le _
    change s.store.listings id + Grip.keeps { g with drawn := g.drawn.or (some (base64RawURL bytes.val)) } id ≤ _
    omega
  | noToken => exact .still sound sane (fun _ => rfl) rfl
  | other _ _ elsewhere =>
    obtain ⟨o, a⟩ := e
    cases o with
    | store _ | now | randRead _ => cases elsewhere
    | mx domain =>
      cases a with
      | ok _ => exact .still sound sane (fun _ => rfl) rfl
      | error err =>
        change Shifts s g s (if .nullMX ∈ err.is then g.answer else g)
        split <;> exact .still sound sane (fun _ => rfl) rfl
    | send conn options =>
      change Shifts s g s (if (show Outcome from a).permanent ∧ ¬ (show Outcome from a).delivered then g.answer else g)
      split <;> exact .still sound sane (fun _ => rfl) rfl
    | _ => exact .still sound sane (fun _ => rfl) rfl

end

lemma mem_ready_run (s : Store) (c : Cmd) {id : Str} (there : id ∈ (c.run s).2.ready) :
    id ∈ s.ready ∨ c = .lpush .ready id := by
  cases c with
  | lpush key new =>
    cases key with
    | ready => exact (List.mem_cons.mp there).symm.imp_right fun same => by rw [same]
    | dead => exact .inl there
  | rpop => exact .inl (List.dropLast_subset _ there)
  | llen key => cases key <;> exact .inl there
  | _ => exact .inl there

lemma mem_later_run (s : Store) (c : Cmd) {entry : Int × Str} (there : entry ∈ (c.run s).2.later) :
    entry ∈ s.later ∨ c = .zadd entry.1 entry.2 := by
  cases c with
  | zadd due id =>
    rcases (mem_schedule _ _ _).mp there with same | old
    · exact .inr (by rw [same])
    · exact .inl (List.mem_of_mem_filter old)
  | zrem id => exact .inl (List.mem_of_mem_filter there)
  | lpush key _ | llen key => cases key <;> exact .inl there
  | _ => exact .inl there

section
variable {s s' : Shared} {e : Event calls}

lemma Serve.mem_ready (served : Serve s e s') {id : Str} (there : id ∈ s'.store.ready) :
    id ∈ s.store.ready ∨ e.op = .store (.lpush .ready id) := by
  cases served with
  | done _ c | unheard _ c _ => exact (mem_ready_run _ c there).imp_right fun same => by rw [same]
  | _ => exact .inl there

lemma Serve.mem_later (served : Serve s e s') {entry : Int × Str} (there : entry ∈ s'.store.later) :
    entry ∈ s.store.later ∨ e.op = .store (.zadd entry.1 entry.2) := by
  cases served with
  | done _ c | unheard _ c _ => exact (mem_later_run _ c there).imp_right fun same => by rw [same]
  | _ => exact .inl there

end

def final : Event calls → Bool
  | ⟨.mx _, .error err⟩ => .nullMX ∈ err.is
  | ⟨.send _ _, out⟩ => out.permanent && !out.delivered
  | _ => false

section
variable {g : Grip} {s : Shared} {e : Event calls}

structure Grip.Goes (g : Grip) (s : Shared) (e : Event calls) (g' : Grip) : Prop where
  held : ∀ id, g'.held = some id → g.held = some id ∨ id ∈ s.store.ready ∨ id ∈ s.store.later.map Prod.snd
  drawn : ∀ id, g'.drawn = some id → g.drawn = some id ∨ id ∉ s.issued
  answered : g'.answered = g.answered ∨ (final e = true ∧ g' = g.answer)
  attempts : g'.attempts = g.attempts ∨ ∃ id, e.op = .store (.get id)
  due : ∀ id ∈ g'.due, id ∈ g.due ∨
    ∃ upTo due, e.op = .store (.zrangeByScore upTo) ∧ due ≤ upTo ∧ (due, id) ∈ s.store.later
  time : g'.time = g.time ∨ g'.time = s.clock

lemma Grip.Goes.less {g' : Grip} (held : ∀ id, g'.held = some id → g.held = some id)
    (drawn : ∀ id, g'.drawn = some id → g.drawn = some id) (due : g'.due ⊆ g.due)
    (same : g'.answered = g.answered ∧ g'.attempts = g.attempts ∧ g'.time = g.time) : g.Goes s e g' where
  held id h := .inl (held id h)
  drawn id h := .inl (drawn id h)
  answered := .inl same.1
  attempts := .inl same.2.1
  due _ member := .inl (due member)
  time := .inl same.2.2

lemma Grip.Goes.refl : g.Goes s e g :=
  .less (fun _ held => held) (fun _ drawn => drawn) (List.Subset.refl _) ⟨rfl, rfl, rfl⟩

lemma Grip.Goes.issued (c : Cmd) : g.Goes s e (g.issued c) := by
  cases c with
  | lpush key _ => cases key <;> exact .less nofun (by simp [Grip.issued]) (List.Subset.refl _) ⟨rfl, rfl, rfl⟩
  | zadd _ _ | del _ => exact .less nofun (fun _ drawn => drawn) (List.Subset.refl _) ⟨rfl, rfl, rfl⟩
  | zrem id => exact .less (fun _ held => held) (fun _ drawn => drawn) List.erase_subset ⟨rfl, rfl, rfl⟩
  | _ => exact .refl

end

section
variable [Library] {g : Grip} {s s' : Shared} {e : Event calls}

lemma Grip.note_final (last : final e = true) : g.note e = g.answer := by
  obtain ⟨o, a⟩ := e
  cases o with
  | mx domain =>
    cases a with
    | ok _ => cases last
    | error err => exact if_pos (of_decide_eq_true last)
  | send conn options =>
    refine if_pos ?_
    simpa [final] using last
  | _ => cases last

omit [Library] in
lemma Serve.final (served : Serve s e s') (last : final e = true) : s' = s := by
  cases served with
  | done | unheard => cases last
  | token => cases last
  | _ => rfl

lemma Grip.note_elsewhere (elsewhere : e.op.elsewhere = true) (more : ¬ final e = true) : g.note e = g := by
  obtain ⟨o, a⟩ := e
  cases o with
  | store _ | now | randRead _ => cases elsewhere
  | mx domain =>
    cases a with
    | ok _ => rfl
    | error err => exact if_neg fun null => more (decide_eq_true null)
  | send conn options =>
    refine if_neg fun refused => more ?_
    simpa [final] using refused
  | _ => rfl

lemma Grip.Goes.replied (c : Cmd) {answer : calls.Answer (.store c)} :
    g.Goes s ⟨.store c, answer⟩ ((g.issued c).replied c (c.run s.store).1) := by
  have gone := Grip.Goes.issued (g := g) (s := s) (e := ⟨.store c, answer⟩) c
  cases c with
  | get id =>
    have read (reply : Option Str) : ∃ n b, g.replied (.get id) reply = { g with attempts := n, astray := b } := by
      cases reply with
      | none => exact ⟨g.attempts, g.astray, rfl⟩
      | some blob =>
        simp only [Grip.replied, Grip.open_]
        split
        · split
          · exact ⟨_, _, rfl⟩
          · exact ⟨_, _, rfl⟩
        · exact ⟨_, _, rfl⟩
    obtain ⟨n, b, same⟩ := read (s.store.bodies.lookup id)
    change g.Goes s _ (g.replied (.get id) (s.store.bodies.lookup id))
    rw [same]
    exact { Grip.Goes.refl (g := g) with attempts := .inr ⟨id, rfl⟩, answered := .inl rfl }
  | rpop =>
    change g.Goes s _ (g.replied .rpop s.store.ready.getLast?)
    cases last : s.store.ready.getLast? with
    | none => exact .refl
    | some popped =>
      simp only [Grip.replied]
      split
      · exact .refl
      · refine { Grip.Goes.refl (g := g) with held := fun id held => ?_, answered := .inl rfl }
        cases held
        exact .inr (.inl (List.mem_of_getLast? last))
  | zrem id =>
    simp only [Grip.replied]
    split
    · exact gone
    · rename_i removed
      refine { gone with held := fun id' held => ?_, answered := .inl rfl }
      cases held
      have there : (s.store.later.any fun entry => entry.2 = id) = true := by
        by_contra none
        exact removed (if_neg none)
      obtain ⟨entry, member, named⟩ := List.any_eq_true.mp there
      exact .inr (.inr (List.mem_map.mpr ⟨entry, member, of_decide_eq_true named⟩))
  | zrangeByScore upTo =>
    refine { gone with due := fun id member => ?_, answered := .inl rfl }
    obtain ⟨entry, found, rfl⟩ := List.mem_map.mp member
    have inside := List.mem_filter.mp found
    exact .inr ⟨upTo, entry.1, rfl, of_decide_eq_true inside.2, inside.1⟩
  | _ => exact gone

lemma Grip.Goes.of_serve (served : Serve s e s') : g.Goes s e (g.note e) := by
  cases served with
  | done _ c => exact .replied c
  | lost _ c _ | unheard _ c _ => exact .issued c
  | time => exact { Grip.Goes.refl (g := g) with time := .inr rfl, answered := .inl rfl }
  | token _ n bytes fresh =>
    refine { Grip.Goes.refl (g := g) with drawn := fun id drawn => ?_, answered := .inl rfl }
    change g.drawn.or (some (base64RawURL bytes.val)) = some id at drawn
    cases had : g.drawn with
    | some old =>
      rw [had] at drawn
      exact .inl drawn
    | none =>
      rw [had] at drawn
      cases drawn
      exact .inr fresh
  | noToken => exact .refl
  | other _ _ elsewhere =>
    by_cases last : final e = true
    · rw [Grip.note_final last]
      exact { Grip.Goes.refl (g := g) with answered := .inr ⟨last, rfl⟩ }
    · rw [Grip.note_elsewhere elsewhere last]
      exact .refl

end

section
variable [Library] {g : Grip}

/-- Every id is in one place, and those that were deleted are in none. -/
structure Single (s : Shared) (running gone : List Grip) : Prop where
  sound : s.store.Sound
  sane : ∀ g ∈ running, g.astray = false
  once : ∀ id, s.store.total running id ≤ 1
  issued : ∀ id, 0 < s.store.total running id → id ∈ s.issued
  freed : ∀ g ∈ running ++ gone, ∀ id ∈ g.freed, id ∈ s.issued ∧ s.store.total running id = 0

variable {s : Shared} {gone before after : List Grip} {id : Str}

lemma Single.act {s' : Shared} {g' : Grip} (single : Single s (before ++ g :: after) gone) (shifts : Shifts s g s' g') :
    Single s' (before ++ g' :: after) gone := by
  -- What an id counts for grows only where it is drawn, and then it was nowhere before.
  have fewer (id : Str) : s'.store.total (before ++ g' :: after) id ≤
      s.store.total (before ++ g :: after) id + gain s s' id := by
    have tally := shifts.tally id
    rw [total_split, total_split]
    omega
  have drawn {id : Str} (known : id ∈ s.issued) : gain s s' id = 0 := by simp [gain, known]
  refine ⟨shifts.sound, fun x member => ?_, fun id => ?_, fun id there => ?_, fun x member id freed => ?_⟩
  · rcases mem_exchanged g member with rfl | old
    · exact shifts.sane
    · exact single.sane x old
  · have once := single.once id
    specialize fewer id
    by_cases known : id ∈ s.issued
    · rw [drawn known] at fewer
      omega
    · have nowhere : s.store.total (before ++ g :: after) id = 0 :=
        Nat.eq_zero_of_not_pos fun there => known (single.issued id there)
      have one : gain s s' id ≤ 1 := by
        unfold gain
        split <;> omega
      omega
  · by_cases known : id ∈ s.issued
    · exact shifts.issued known
    · have nowhere : ¬ 0 < s.store.total (before ++ g :: after) id := fun there => known (single.issued id there)
      specialize fewer id
      have new : 0 < gain s s' id := by omega
      unfold gain at new
      split at new
      · rename_i fresh
        exact fresh.1
      · cases new
  · have before_ (known : id ∈ s.issued ∧ s.store.total (before ++ g :: after) id = 0) :
        id ∈ s'.issued ∧ s'.store.total (before ++ g' :: after) id = 0 := by
      specialize fewer id
      rw [drawn known.1, known.2] at fewer
      exact ⟨shifts.issued known.1, Nat.le_zero.mp fewer⟩
    have replaced : x = g' ∨ x ∈ before ++ g :: after ++ gone := by
      simp only [List.mem_append, List.mem_cons] at member ⊢
      tauto
    rcases replaced with rfl | old
    · rcases shifts.freed id freed with old | less
      · exact before_ (single.freed g (by simp) id old)
      · -- The one place it had was the grip it left.
        have once := single.once id
        rw [total_split] at once
        have there : 0 < s.store.total (before ++ g :: after) id := by
          rw [total_split]
          omega
        refine ⟨shifts.issued (single.issued id there), ?_⟩
        rw [total_split]
        omega
    · exact before_ (single.freed x old id freed)

lemma Single.join {running : List Grip} (single : Single s running gone) : Single s (running ++ [({} : Grip)]) gone := by
  have same (id : Str) : s.store.total (running ++ [({} : Grip)]) id = s.store.total running id := by
    simp [Store.total, Grip.keeps]
  refine ⟨single.sound, forall_mem_snoc.mpr ⟨single.sane, rfl⟩, fun id => ?_, fun id => ?_, fun x member id freed => ?_⟩
  · rw [same]
    exact single.once id
  · rw [same]
    exact single.issued id
  · rw [same]
    simp only [List.mem_append, List.mem_singleton] at member
    rcases member with (old | rfl) | old
    · exact single.freed x (by simp [old]) id freed
    · cases freed
    · exact single.freed x (by simp [old]) id freed

lemma Single.leave (single : Single s (before ++ g :: after) gone) : Single s (before ++ after) (gone ++ [g]) := by
  have fewer (id : Str) : s.store.total (before ++ after) id ≤ s.store.total (before ++ g :: after) id := by
    rw [total_split]
    unfold Store.total
    omega
  refine ⟨single.sound, fun x member => ?_, fun id => ?_, fun id there => ?_, fun x member id freed => ?_⟩
  · exact single.sane x (mem_stays member)
  · exact (fewer id).trans (single.once id)
  · exact single.issued id (Nat.lt_of_lt_of_le there (fewer id))
  · obtain ⟨known, nowhere⟩ := single.freed x (mem_leaves.mp member) id freed
    exact ⟨known, Nat.le_zero.mp (nowhere ▸ fewer id)⟩

lemma Single.ticks {s' : Shared} {running : List Grip} (single : Single s running gone) (ticks : Ticks s s') :
    Single s' running gone := by
  obtain ⟨clock, rfl⟩ := ticks
  exact ⟨single.sound, single.sane, single.once, single.issued, single.freed⟩

lemma Single.empty : Single {} [] [] := by
  refine ⟨?_, nofun, fun id => ?_, fun id there => ?_, nofun⟩
  · intro id blob found
    cases found
  · simp [Store.total, Store.listings]
  · simp [Store.total, Store.listings] at there

omit [Library] in
lemma Grip.keeps_held (held : g.held = some id) : g.keeps id = 1 + g.drawn.toList.count id := by
  simp [Grip.keeps, held]

lemma Single.held_only
    (single : Single s (before ++ g :: after) gone) (held : g.held = some id) :
    s.store.listings id = 0 ∧ g.drawn ≠ some id ∧ ∀ h ∈ before ++ after, h.held ≠ some id ∧ h.drawn ≠ some id := by
  have once := single.once id
  rw [total_split] at once
  have own := Grip.keeps_held held
  refine ⟨by omega, fun drawn => ?_, fun h member => ?_⟩
  · have two : g.drawn.toList.count id = 1 := by simp [drawn]
    omega
  · obtain ⟨some, more, split⟩ := List.append_of_mem member
    simp only [split, List.map_append, List.map_cons, List.sum_append, List.sum_cons] at once
    exact Grip.keeps_eq_zero (by omega)

lemma relays_single [Unicode] (domain : Str) :
    Keeping (relays domain) (fun g e => g.mayDo none e.op) Grip.note {} (fun _ _ _ _ _ => True) (fun _ _ => True) Single where
  join _ _ _ := .join
  act _ _ _ _ _ _ _ single may served _ :=
    single.act (.of_serve (single.sane _ (by simp)) single.sound may served)
  leave _ _ _ _ _ held _ := held.leave
  drift _ _ _ _ ticks single := single.ticks ticks

lemma job_clasp [Unicode] {domain : Str} {p : Act Returned} (job : Job domain p) :
    p.Follows (Clasp none) (fun _ _ => True) {} := by
  obtain ⟨o, -, rfl | ⟨m, rfl⟩⟩ := job
  · exact draining_clasp nofun
  · exact taking_clasp

/-- How often an id occurs on the three lists and in the hands of running processes. -/
def occurrences (pool : Relays) (id : Str) : Nat :=
  pool.shared.store.ready.count id + (pool.shared.store.later.map Prod.snd).count id +
    pool.shared.store.dead.count id + pool.running.countP fun proc => (gripOf proc.did).held = some id

def DoneRan (pool : Relays) (id : Str) : Prop := ∃ did ∈ pool.traces, ∃ e ∈ did, e.op = .store (.del id)

instance (pool : Relays) (id : Str) : Decidable (DoneRan pool id) :=
  inferInstanceAs (Decidable (∃ did ∈ pool.traces, ∃ e ∈ did, e.op = Op.store (.del id)))

lemma occurrences_le (pool : Relays) (id : Str) :
    occurrences pool id ≤ pool.shared.store.total (pool.hands Grip.note {}) id := by
  have holders : pool.running.countP (fun proc => (gripOf proc.did).held = some id) ≤
      ((pool.hands Grip.note {}).map (Grip.keeps · id)).sum := by
    unfold Pool.hands
    induction pool.running with
    | nil => simp
    | cons proc more ih =>
      simp only [List.countP_cons, List.map_cons, List.sum_cons]
      have one : (if decide ((gripOf proc.did).held = some id) = true then 1 else 0) ≤ (gripOf proc.did).keeps id := by
        split
        · rename_i held
          simp [Grip.keeps, of_decide_eq_true held]
        · exact Nat.zero_le _
      exact (Nat.add_comm _ _).trans_le (Nat.add_le_add one ih)
  unfold occurrences Store.total Store.listings
  omega

lemma Grip.note_freed (g : Grip) (e : Event calls) : g.freed ⊆ (g.note e).freed := by
  have issued (c : Cmd) : g.freed ⊆ (g.issued c).freed := by
    unfold Grip.issued
    split
    all_goals first | exact List.Subset.refl _ | exact List.subset_cons_self _ _
  unfold Grip.note
  split
  · rw [Grip.replied_freed]
    exact issued _
  · exact issued _
  all_goals first | exact List.Subset.refl _ | (split <;> exact List.Subset.refl _)

lemma freed_of_did {did : Trace calls} {e : Event calls} (member : e ∈ did)
    (deletes : e.op = .store (.del id)) : id ∈ (gripOf did).freed := by
  obtain ⟨before, after, rfl⟩ := List.append_of_mem member
  have grows (tr : Trace calls) (g : Grip) : g.freed ⊆ (tr.foldl Grip.note g).freed := by
    induction tr generalizing g with
    | nil => exact List.Subset.refl _
    | cons e more ih => exact List.Subset.trans (g.note_freed e) (ih _)
  unfold gripOf
  rw [List.foldl_append, List.foldl_cons]
  apply grows
  obtain ⟨o, a⟩ := e
  cases deletes
  cases a <;> exact List.mem_cons_self

/-- Whatever the relays do, an id is in one place at most, and once its deletion was sent it
is in none at any time after. -/
theorem handed_out_once [Unicode] {domain : Str} {pool : Relays} (reached : Pool.Reaches (relays domain) empty pool)
    (id : Str) : occurrences pool id ≤ 1 ∧ (DoneRan pool id → ∀ pool', Pool.Reaches (relays domain) pool pool' →
      occurrences pool' id = 0) := by
  have single {pool : Relays} (reached : Pool.Reaches (relays domain) empty pool) :
      Single pool.shared (pool.hands Grip.note {}) (pool.left Grip.note {}) :=
    ((relays_single domain).reached (fun _ => job_clasp) empty_orderly Single.empty
      (reached.freely fun _ _ _ _ _ => trivial)).2
  constructor
  · exact (occurrences_le pool id).trans ((single reached).once id)
  · rintro ⟨did, there, e, member, deletes⟩ pool' later
    obtain ⟨more, there⟩ := later.traces there
    have freed : id ∈ (gripOf (did ++ more)).freed := freed_of_did (List.mem_append_left _ member) deletes
    have grip : gripOf (did ++ more) ∈ pool'.hands Grip.note {} ++ pool'.left Grip.note {} := by
      have listed := List.mem_map_of_mem (f := gripOf) there
      simpa [Pool.traces, Pool.hands, Pool.left, gripOf, Function.comp_def] using listed
    obtain ⟨-, nowhere⟩ := (single (reached.trans later)).freed _ grip id freed
    have less := occurrences_le pool' id
    omega

end

/-- One message from `Accept` to its deletion. -/
theorem deliveredOne_handed_out_once : occurrences acceptedOne oneID = 1 ∧ DoneRan deliveredOne oneID ∧
    occurrences deliveredOne oneID ≤ 1 ∧ ∀ pool', Pool.Reaches (relays (lit "node.test")) deliveredOne pool' →
      occurrences pool' oneID = 0 := by
  have delivered : Pool.Reaches (relays (lit "node.test")) empty deliveredOne :=
    deliveredOne_reached ⟨oneRelay, rfl, .inr ⟨oneMessage, rfl⟩⟩ redis_admits ⟨oneRelay, rfl, .inl rfl⟩
  have ran : DoneRan deliveredOne oneID := by decide +kernel
  have once := handed_out_once delivered oneID
  exact ⟨by decide +kernel, ran, once.1, once.2 ran⟩

end EmailVerifier.Relay
