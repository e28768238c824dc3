import Mathlib.Data.List.Perm.Subperm
import EmailVerifier.Prober.Probe

/-! How a request's addresses are split into sessions: `mergeGroups`, `takeSession`,
`regroup` and `chunks`. Nothing is lost and nothing is asked for twice on the way.
-/

set_option autoImplicit false

namespace EmailVerifier.Prober
open Text Data

def queued (queue : List SessionGroup) : List Str := queue.flatMap SessionGroup.addrs

lemma queued_append (queue more : List SessionGroup) : queued (queue ++ more) = queued queue ++ queued more :=
  List.flatMap_append

variable {A : Type} {queue : List SessionGroup} {n : Nat}

lemma mem_queued {a : Str} : a ∈ queued queue ↔ ∃ g ∈ queue, a ∈ g.addrs :=
  List.mem_flatMap

lemma chunksWithin_flatten (n fuel : Nat) (s : List A) : (chunksWithin n fuel s).flatten = s := by
  induction fuel generalizing s with
  | zero => simp [chunksWithin]
  | succ fuel ih =>
    unfold chunksWithin
    split
    · rw [List.flatten_cons, ih, List.take_append_drop]
    · simp

lemma chunks_flatten (s : List A) (n : Nat) : (chunks s n).flatten = s :=
  chunksWithin_flatten n s.length s

lemma chunksWithin_length (positive : 0 < n) (fuel : Nat) (s : List A)
    (enough : s.length ≤ fuel) : ∀ chunk ∈ chunksWithin n fuel s, chunk.length ≤ n := by
  induction fuel generalizing s with
  | zero =>
    intro chunk member
    rw [List.mem_singleton.mp member]
    omega
  | succ fuel ih =>
    intro chunk member
    unfold chunksWithin at member
    split at member
    · rename_i long
      rcases List.mem_cons.mp member with rfl | later
      · rw [List.length_take]
        omega
      · refine ih (s.drop n) ?_ chunk later
        rw [List.length_drop]
        omega
    · rename_i short
      rw [List.mem_singleton.mp member]
      omega

lemma chunks_length {s : List A} (positive : 0 < n) :
    ∀ chunk ∈ chunks s n, chunk.length ≤ n := chunksWithin_length positive s.length s (Nat.le_refl _)

lemma chunksWithin_filled (positive : 0 < n) (fuel : Nat) (s : List A) (some : s ≠ []) :
    chunksWithin n fuel s ≠ [] ∧ ∀ chunk ∈ chunksWithin n fuel s, chunk ≠ [] := by
  induction fuel generalizing s with
  | zero => exact ⟨by simp [chunksWithin], by simp [chunksWithin, some]⟩
  | succ fuel ih =>
    unfold chunksWithin
    split
    · rename_i long
      obtain ⟨-, later⟩ := ih (s.drop n) (List.ne_nil_of_length_pos (by rw [List.length_drop]; omega))
      refine ⟨by simp, fun chunk member => ?_⟩
      rcases List.mem_cons.mp member with rfl | member
      · exact List.ne_nil_of_length_pos (by rw [List.length_take]; omega)
      · exact later chunk member
    · exact ⟨by simp, by simp [some]⟩

structure PartOf (g whole : SessionGroup) : Prop where
  domain : g.domain = whole.domain
  some : g.addrs ≠ []

lemma takeFitting_spec (limit total : Nat) (queue : List SessionGroup) :
    (takeFitting limit total queue).1 ++ (takeFitting limit total queue).2 = queue ∧
      (total ≤ limit → total + (queued (takeFitting limit total queue).1).length ≤ limit) := by
  induction queue generalizing total with
  | nil => simp [takeFitting, queued]
  | cons g more ih =>
    unfold takeFitting
    split
    · rename_i fits
      obtain ⟨same, within⟩ := ih (total + g.addrs.length)
      refine ⟨by simp [same], fun _ => ?_⟩
      have := within fits
      simp only [queued, List.flatMap_cons, List.length_append] at this ⊢
      omega
    · simp [queued]

structure Taken (queue batch left : List SessionGroup) (limit : Nat) (grouped : Bool) : Prop where
  same : queued batch ++ queued left = queued queue
  few : (queued batch).length ≤ limit
  batch_parts : ∀ g ∈ batch, ∃ whole ∈ queue, PartOf g whole
  left_parts : ∀ g ∈ left, ∃ whole ∈ queue, PartOf g whole
  some : batch ≠ []
  alone : grouped = false → batch.tail = []

lemma takeSession_spec {limit : Nat} (grouped : Bool) (positive : 0 < limit)
    (waiting : queue ≠ []) (filled : ∀ g ∈ queue, g.addrs ≠ []) :
    Taken queue (takeSession queue limit grouped).1 (takeSession queue limit grouped).2 limit grouped := by
  cases queue with
  | nil => exact absurd rfl waiting
  | cons first more =>
    have whole : ∀ g ∈ first :: more, ∃ whole ∈ first :: more, PartOf g whole :=
      fun g member => ⟨g, member, rfl, filled g member⟩
    have later : ∀ g ∈ more, ∃ whole ∈ first :: more, PartOf g whole :=
      fun g member => whole g (List.mem_cons_of_mem first member)
    simp only [takeSession]
    split
    · -- A domain larger than the limit is split.
      rename_i large
      refine ⟨?_, ?_, ?_, ?_, by simp, fun _ => rfl⟩
      · simp only [queued, List.flatMap_cons, List.flatMap_nil, List.append_nil, ← List.append_assoc,
          List.take_append_drop]
      · simp only [queued, List.flatMap_cons, List.flatMap_nil, List.append_nil, List.length_take]
        omega
      · intro g member
        rw [List.mem_singleton.mp member]
        refine ⟨first, List.mem_cons_self, rfl, ?_⟩
        simp only [ne_eq, ← List.length_eq_zero_iff, List.length_take]
        omega
      · intro g member
        rcases List.mem_cons.mp member with rfl | member
        · refine ⟨first, List.mem_cons_self, rfl, ?_⟩
          simp only [ne_eq, ← List.length_eq_zero_iff, List.length_drop]
          omega
        · exact later g member
    · rename_i small
      split
      · rename_i isGrouped
        obtain ⟨same, within⟩ := takeFitting_spec limit first.addrs.length more
        refine ⟨?_, ?_, ?_, ?_, by simp, ?_⟩
        · simp only [queued, List.flatMap_cons, List.append_assoc, ← List.flatMap_append, same]
        · have := within (by omega)
          simp only [queued, List.flatMap_cons, List.length_append] at this ⊢
          omega
        · intro g member
          refine whole g ?_
          rcases List.mem_cons.mp member with rfl | member
          · exact List.mem_cons_self
          · exact List.mem_cons_of_mem _ (same ▸ List.mem_append_left _ member)
        · intro g member
          exact later g (same ▸ List.mem_append_right _ member)
        · intro ungrouped
          rw [isGrouped] at ungrouped
          cases ungrouped
      · refine ⟨by simp [queued], ?_, ?_, later, by simp, fun _ => rfl⟩
        · simp only [queued, List.flatMap_cons, List.flatMap_nil, List.append_nil]
          omega
        · intro g member
          rw [List.mem_singleton.mp member]
          exact whole first List.mem_cons_self

def PieceOf (queue : List SessionGroup) (g : SessionGroup) : Prop :=
  ∃ whole ∈ queue, g.domain = whole.domain ∧ g.addrs ⊆ whole.addrs

lemma takeSession_domains (queue : List SessionGroup) (limit : Nat) (grouped : Bool) :
    (∀ g ∈ (takeSession queue limit grouped).1, PieceOf queue g) ∧
    (∀ g ∈ (takeSession queue limit grouped).2, PieceOf queue g) ∧
    ((takeSession queue limit grouped).1.map SessionGroup.domain).Sublist (queue.map SessionGroup.domain) ∧
    ((takeSession queue limit grouped).2.map SessionGroup.domain).Sublist (queue.map SessionGroup.domain) := by
  cases queue with
  | nil => simp [takeSession]
  | cons first more =>
    have whole : ∀ g ∈ first :: more, PieceOf (first :: more) g := fun g member => ⟨g, member, rfl, fun _ here => here⟩
    have later : ∀ g ∈ more, PieceOf (first :: more) g := fun g member => whole g (List.mem_cons_of_mem first member)
    simp only [takeSession]
    split
    · refine ⟨?_, ?_, by simp, List.Sublist.refl _⟩
      · intro g member
        rw [List.mem_singleton.mp member]
        exact ⟨first, List.mem_cons_self, rfl, List.take_subset _ _⟩
      · intro g member
        rcases List.mem_cons.mp member with rfl | member
        · exact ⟨first, List.mem_cons_self, rfl, List.drop_subset _ _⟩
        · exact later g member
    · split
      · obtain ⟨same, -⟩ := takeFitting_spec limit first.addrs.length more
        refine ⟨?_, ?_, ?_, ?_⟩
        · intro g member
          rcases List.mem_cons.mp member with rfl | member
          · exact whole g List.mem_cons_self
          · exact later g (same ▸ List.mem_append_left _ member)
        · intro g member
          exact later g (same ▸ List.mem_append_right _ member)
        · have front : (takeFitting limit first.addrs.length more).1 <+: more := ⟨_, same⟩
          exact (front.sublist.cons_cons first).map _
        · have back : (takeFitting limit first.addrs.length more).2 <:+ more := ⟨_, same⟩
          exact (back.sublist.cons first).map _
      · refine ⟨?_, later, by simp, by simp⟩
        intro g member
        rw [List.mem_singleton.mp member]
        exact whole first List.mem_cons_self

lemma takeSession_alone (limit : Nat) (waiting : queue ≠ []) :
    ∃ g, (takeSession queue limit false).1 = [g] ∧
      ∀ whole ∈ queue, whole.domain = g.domain ∨ whole ∈ (takeSession queue limit false).2 := by
  cases queue with
  | nil => exact absurd rfl waiting
  | cons first more =>
    simp only [takeSession]
    split
    · refine ⟨_, rfl, fun whole member => ?_⟩
      rcases List.mem_cons.mp member with rfl | member
      · exact .inl rfl
      · exact .inr (List.mem_cons_of_mem _ member)
    · refine ⟨_, rfl, fun whole member => ?_⟩
      rcases List.mem_cons.mp member with rfl | member
      · exact .inl rfl
      · exact .inr member

lemma regroupFor_spec (domainOf : Table Str Str) (addrs : List Str) (filling : SessionGroup)
    (some : filling.addrs ≠ []) (own : ∀ a ∈ filling.addrs, filling.domain = (domainOf.lookup a).getD []) :
    queued (regroupFor domainOf addrs filling) = filling.addrs ++ addrs ∧
      ∀ g ∈ regroupFor domainOf addrs filling, g.addrs ≠ [] ∧
        ∀ a ∈ g.addrs, g.domain = (domainOf.lookup a).getD [] := by
  induction addrs generalizing filling with
  | nil =>
    refine ⟨by simp [regroupFor, queued], fun g member => ?_⟩
    rw [List.mem_singleton.mp member]
    exact ⟨some, own⟩
  | cons a more ih =>
    unfold regroupFor
    dsimp only
    split
    · rename_i same
      obtain ⟨flat, groups⟩ := ih { filling with addrs := filling.addrs ++ [a] } (by simp) (by
        intro b member
        rcases List.mem_append.mp member with member | member
        · exact own b member
        · rw [List.mem_singleton.mp member]
          exact same)
      exact ⟨by rw [flat, List.append_assoc, List.singleton_append], groups⟩
    · obtain ⟨flat, groups⟩ := ih { domain := (domainOf.lookup a).getD [], addrs := [a] } (by simp) (by simp)
      refine ⟨?_, fun g member => ?_⟩
      · unfold queued at flat ⊢
        rw [List.flatMap_cons, flat, List.singleton_append]
      · rcases List.mem_cons.mp member with rfl | member
        · exact ⟨some, own⟩
        · exact groups g member

lemma regroup_spec (domainOf : Table Str Str) (addrs : List Str) :
    queued (regroup domainOf addrs) = addrs ∧
      ∀ g ∈ regroup domainOf addrs, g.addrs ≠ [] ∧
        ∀ a ∈ g.addrs, g.domain = (domainOf.lookup a).getD [] := by
  cases addrs with
  | nil => exact ⟨rfl, fun g member => absurd member List.not_mem_nil⟩
  | cons a more =>
    exact regroupFor_spec domainOf more { domain := (domainOf.lookup a).getD [], addrs := [a] }
      (by simp) (by simp)

lemma domainsOf_from (groups : List DomainGroup) (m : Table Str Str) (a : Str) :
    (∃ g ∈ groups, a ∈ g.emails ∧
      (groups.foldl (fun m g => Table.setAll g.emails g.domain m) m).lookup a = some g.domain) ∨
    ((∀ g ∈ groups, a ∉ g.emails) ∧
      (groups.foldl (fun m g => Table.setAll g.emails g.domain m) m).lookup a = m.lookup a) := by
  induction groups generalizing m with
  | nil => exact .inr ⟨by simp, rfl⟩
  | cons g more ih =>
    rw [List.foldl_cons]
    rcases ih (Table.setAll g.emails g.domain m) with ⟨g', member, inside, found⟩ | ⟨absent, found⟩
    · exact .inl ⟨g', List.mem_cons_of_mem g member, inside, found⟩
    · rw [Table.lookup_setAll] at found
      by_cases here : a ∈ g.emails
      · rw [if_pos here] at found
        exact .inl ⟨g, List.mem_cons_self, here, found⟩
      · rw [if_neg here] at found
        refine .inr ⟨fun g' member => ?_, found⟩
        rcases List.mem_cons.mp member with rfl | member
        · exact here
        · exact absent g' member

lemma domainsOf_lookup {groups : List DomainGroup} {a : Str} (member : a ∈ groups.flatMap DomainGroup.emails) :
    ∃ g ∈ groups, a ∈ g.emails ∧ (domainsOf groups).lookup a = some g.domain := by
  rcases domainsOf_from groups ∅ a with found | ⟨absent, -⟩
  · exact found
  · obtain ⟨g, inside, here⟩ := List.mem_flatMap.mp member
    exact absurd here (absent g inside)

lemma needsOf_from (groups : List DomainGroup) (m : Table Str Bool) {d : Str} {b : Bool}
    (found : (groups.foldl (fun m g => m.insert g.domain g.needCatchAll) m).lookup d = some b) :
    (∃ g ∈ groups, g.domain = d ∧ g.needCatchAll = b) ∨ m.lookup d = some b := by
  induction groups generalizing m with
  | nil => exact .inr found
  | cons g more ih =>
    rcases ih (m.insert g.domain g.needCatchAll) found with ⟨g', member, same⟩ | earlier
    · exact .inl ⟨g', List.mem_cons_of_mem g member, same⟩
    · rw [Table.lookup_insert_ite] at earlier
      split at earlier
      · rename_i same
        exact .inl ⟨g, List.mem_cons_self, same.symm, Option.some.inj earlier⟩
      · exact .inr earlier

lemma needsOf_lookup {groups : List DomainGroup} {g : DomainGroup} (member : g ∈ groups)
    (alone : ∀ g' ∈ groups, g'.domain = g.domain → g' = g) : (needsOf groups).lookup g.domain = some g.needCatchAll := by
  have kept : ∀ (groups : List DomainGroup) (m : Table Str Bool),
      (∀ g' ∈ groups, g'.domain = g.domain → g' = g) →
      g ∈ groups ∨ m.lookup g.domain = some g.needCatchAll →
      (groups.foldl (fun m g => m.insert g.domain g.needCatchAll) m).lookup g.domain = some g.needCatchAll := by
    intro groups
    induction groups with
    | nil => exact fun m _ found => found.resolve_left List.not_mem_nil
    | cons first more ih =>
      intro m alone found
      refine ih _ (fun g' member => alone g' (List.mem_cons_of_mem first member)) ?_
      rw [Table.lookup_insert_ite]
      by_cases same : first.domain = g.domain
      · right
        rw [if_pos same.symm, alone first List.mem_cons_self same]
      · rw [if_neg (Ne.symm same)]
        rcases found with member | found
        · rcases List.mem_cons.mp member with rfl | member
          · exact absurd rfl same
          · exact .inl member
        · exact .inr found
  exact kept groups ∅ alone (.inl member)

lemma mem_unseen {e : Str} {emails seen : List Str} : e ∈ unseen emails seen ↔ e ∈ emails ∧ e ∉ seen := by
  induction emails generalizing seen with
  | nil => simp [unseen]
  | cons first more ih =>
    unfold unseen
    split
    · rename_i known
      rw [ih, List.mem_cons]
      constructor
      · exact fun ⟨member, fresh⟩ => ⟨.inr member, fresh⟩
      · rintro ⟨rfl | member, fresh⟩
        · exact absurd known fresh
        · exact ⟨member, fresh⟩
    · rename_i new
      simp only [List.mem_cons, ih, not_or]
      constructor
      · rintro (rfl | ⟨member, other, fresh⟩)
        · exact ⟨.inl rfl, new⟩
        · exact ⟨.inr member, fresh⟩
      · rintro ⟨rfl | member, fresh⟩
        · exact .inl rfl
        · by_cases same : e = first
          · exact .inl same
          · exact .inr ⟨member, same, fresh⟩

lemma nodup_unseen (emails seen : List Str) : (unseen emails seen).Nodup := by
  induction emails generalizing seen with
  | nil => exact List.nodup_nil
  | cons first more ih =>
    unfold unseen
    split
    · exact ih seen
    · refine List.nodup_cons.mpr ⟨?_, ih _⟩
      rw [mem_unseen]
      exact fun ⟨_, fresh⟩ => fresh List.mem_cons_self

def mergedEmails (out : List (Str × DomainGroup)) : List Str := out.flatMap fun e => e.2.emails

lemma absorbAt_key (d : Str) (g : DomainGroup) (fresh : List Str) (e : Str × DomainGroup) :
    (absorbAt d g fresh e).1 = e.1 := by
  unfold absorbAt
  split <;> rfl

lemma absorbAt_domain (d : Str) (g : DomainGroup) (fresh : List Str) (e : Str × DomainGroup) :
    (absorbAt d g fresh e).2.domain = e.2.domain := by
  unfold absorbAt
  split <;> rfl

lemma mergedEmails_absorb {out : List (Str × DomainGroup)} {d : Str} (g : DomainGroup) (fresh : List Str)
    (distinct : (out.map Prod.fst).Nodup) (present : d ∈ out.map Prod.fst) :
    (mergedEmails (out.map (absorbAt d g fresh))).Perm (mergedEmails out ++ fresh) := by
  induction out with
  | nil => simp at present
  | cons e more ih =>
    rw [List.map_cons, List.nodup_cons] at distinct
    rw [List.map_cons]
    unfold mergedEmails at ih ⊢
    rw [List.flatMap_cons, List.flatMap_cons]
    by_cases here : e.1 = d
    · have others : more.map (absorbAt d g fresh) = more := by
        refine (List.map_congr_left fun e' member => if_neg fun same => ?_).trans (List.map_id _)
        exact distinct.1 (here ▸ same ▸ List.mem_map_of_mem member)
      rw [others, absorbAt, if_pos here, DomainGroup.absorb, List.append_assoc, List.append_assoc]
      exact List.perm_append_comm.append_left _
    · have later : d ∈ more.map Prod.fst := by
        rcases List.mem_cons.mp present with same | later
        · exact absurd same.symm here
        · exact later
      rw [absorbAt, if_neg here, List.append_assoc]
      exact (ih distinct.2 later).append_left _

section
variable [Unicode]

/-- What the merge keeps: one entry for each key, each address in one entry. -/
structure Merging (out : List (Str × DomainGroup)) (seen : List Str) : Prop where
  distinct : (out.map Prod.fst).Nodup
  keyed : ∀ e ∈ out, e.1 = domainKey e.2.domain
  once : (mergedEmails out).Nodup
  seen : ∀ a, a ∈ mergedEmails out ↔ a ∈ seen

variable {out : List (Str × DomainGroup)} {seen : List Str} {groups : List DomainGroup} {g : DomainGroup} {a : Str}

lemma Merging.absorb (merging : Merging out seen) (g : DomainGroup) :
    Merging (if out.any fun e => e.1 = domainKey g.domain then
        out.map (absorbAt (domainKey g.domain) g (unseen g.emails seen))
      else out ++ [(domainKey g.domain, (emptyGroup g.domain).absorb g (unseen g.emails seen))])
      (unseen g.emails seen ++ seen) := by
  let d := domainKey g.domain
  let fresh := unseen g.emails seen
  have apart : (mergedEmails out ++ fresh).Nodup := by
    refine List.nodup_append.mpr ⟨merging.once, nodup_unseen _ _, ?_⟩
    rintro a old b new rfl
    exact (mem_unseen.mp new).2 ((merging.seen a).mp old)
  have members : ∀ a, a ∈ mergedEmails out ++ fresh ↔ a ∈ fresh ++ seen := by
    intro a
    rw [List.mem_append, List.mem_append, merging.seen a, or_comm]
  split
  · rename_i found
    have present : d ∈ out.map Prod.fst := by
      obtain ⟨e, member, same⟩ := List.any_eq_true.mp found
      have key : e.1 = d := of_decide_eq_true same
      exact key ▸ List.mem_map_of_mem member
    have perm := mergedEmails_absorb g fresh merging.distinct present
    refine ⟨?_, ?_, perm.nodup_iff.mpr apart, fun a => perm.mem_iff.trans (members a)⟩
    · have keys : (out.map (absorbAt d g fresh)).map Prod.fst = out.map Prod.fst := by
        rw [List.map_map]
        exact List.map_congr_left fun e _ => absorbAt_key d g fresh e
      rw [keys]
      exact merging.distinct
    · intro e member
      obtain ⟨before, old, rfl⟩ := List.mem_map.mp member
      rw [absorbAt_key, absorbAt_domain]
      exact merging.keyed before old
  · rename_i missing
    have flat : mergedEmails (out ++ [(d, (emptyGroup g.domain).absorb g fresh)]) = mergedEmails out ++ fresh := by
      simp [mergedEmails, DomainGroup.absorb, emptyGroup]
    refine ⟨?_, ?_, by rw [flat]; exact apart, fun a => by rw [flat]; exact members a⟩
    · rw [List.map_append, List.map_singleton]
      refine List.nodup_append.mpr ⟨merging.distinct, List.nodup_singleton _, ?_⟩
      rintro key old other new rfl
      obtain ⟨e, member, same⟩ := List.mem_map.mp old
      rw [List.mem_singleton.mp new] at same
      exact missing (List.any_eq_true.mpr ⟨e, member, decide_eq_true same⟩)
    · intro e member
      rcases List.mem_append.mp member with old | new
      · exact merging.keyed e old
      · rw [List.mem_singleton.mp new]
        rfl

section
variable (groups : List DomainGroup)

lemma mergeInto_merging (merging : Merging out seen) :
    ∃ last, Merging (mergeInto groups out seen) last ∧
      ∀ a, a ∈ last ↔ a ∈ seen ∨ a ∈ groups.flatMap DomainGroup.emails := by
  induction groups generalizing out seen with
  | nil => exact ⟨seen, merging, by simp⟩
  | cons g more ih =>
    obtain ⟨last, merged, members⟩ := ih (merging.absorb g)
    refine ⟨last, merged, fun a => ?_⟩
    rw [members, List.flatMap_cons, List.mem_append, List.mem_append, mem_unseen]
    by_cases old : a ∈ seen <;> simp [old]

lemma mergeGroups_merging :
    ∃ last, Merging (mergeInto groups [] []) last ∧ ∀ a, a ∈ last ↔ a ∈ groups.flatMap DomainGroup.emails := by
  have start : Merging [] [] := ⟨List.nodup_nil, by simp, List.nodup_nil, by simp [mergedEmails]⟩
  obtain ⟨last, merged, members⟩ := mergeInto_merging groups start
  exact ⟨last, merged, by simpa using members⟩

lemma mergeGroups_emails : (mergeGroups groups).flatMap DomainGroup.emails = mergedEmails (mergeInto groups [] []) := by
  simp [mergeGroups, mergedEmails, List.flatMap_map]

lemma mem_mergeGroups_emails (a : Str) :
    a ∈ (mergeGroups groups).flatMap DomainGroup.emails ↔ a ∈ groups.flatMap DomainGroup.emails := by
  obtain ⟨last, merged, members⟩ := mergeGroups_merging groups
  rw [mergeGroups_emails, merged.seen, members]

lemma nodup_mergeGroups_emails : ((mergeGroups groups).flatMap DomainGroup.emails).Nodup := by
  obtain ⟨last, merged, -⟩ := mergeGroups_merging groups
  rw [mergeGroups_emails]
  exact merged.once

lemma nodup_mergeGroups_domains : ((mergeGroups groups).map DomainGroup.domain).Nodup := by
  obtain ⟨last, merged, -⟩ := mergeGroups_merging groups
  refine List.Nodup.of_map domainKey ?_
  rw [List.map_map, mergeGroups, List.map_map]
  have keys : (mergeInto groups [] []).map ((domainKey ∘ DomainGroup.domain) ∘ Prod.snd) =
      (mergeInto groups [] []).map Prod.fst := by
    refine List.map_congr_left fun e member => ?_
    rw [merged.keyed e member, Function.comp_apply, Function.comp_apply]
  rw [keys]
  exact merged.distinct

end

lemma domainsOf_mergeGroups
    (member : g ∈ mergeGroups groups) (holds : a ∈ g.emails) :
    (domainsOf (mergeGroups groups)).lookup a = some g.domain := by
  obtain ⟨g', member', holds', found⟩ := domainsOf_lookup (List.mem_flatMap.mpr ⟨g, member, holds⟩)
  have disjoint := (List.nodup_flatMap.mp (nodup_mergeGroups_emails groups)).2
  have : Std.Symm (Function.onFun List.Disjoint DomainGroup.emails) := ⟨fun _ _ apart a here there => apart there here⟩
  by_cases same : g = g'
  · rw [found, same]
  · exact absurd holds' (disjoint.forall member member' same holds)

lemma mergeInto_domain (groups : List DomainGroup) {e : Str × DomainGroup} (member : e ∈ mergeInto groups out seen) :
    (∃ e' ∈ out, e'.2.domain = e.2.domain) ∨ ∃ g ∈ groups, g.domain = e.2.domain := by
  induction groups generalizing out seen with
  | nil => exact .inl ⟨e, member, rfl⟩
  | cons g more ih =>
    rcases ih member with ⟨e', inside, same⟩ | ⟨g', inside, same⟩
    · split at inside
      · obtain ⟨before, old, rfl⟩ := List.mem_map.mp inside
        rw [absorbAt_domain] at same
        exact .inl ⟨before, old, same⟩
      · rcases List.mem_append.mp inside with old | new
        · exact .inl ⟨e', old, same⟩
        · rw [List.mem_singleton.mp new] at same
          exact .inr ⟨g, List.mem_cons_self, same⟩
    · exact .inr ⟨g', List.mem_cons_of_mem g inside, same⟩

lemma mergeGroups_domain (member : g ∈ mergeGroups groups) : ∃ g' ∈ groups, g'.domain = g.domain := by
  obtain ⟨e, inside, rfl⟩ := List.mem_map.mp member
  exact (mergeInto_domain groups inside).resolve_left (by simp)

lemma mergeInto_listed (groups : List DomainGroup)
    {e : Str × DomainGroup} (member : e ∈ mergeInto groups out seen) (holds : a ∈ e.2.emails) :
    (∃ e' ∈ out, e'.1 = e.1 ∧ a ∈ e'.2.emails) ∨ ∃ g ∈ groups, domainKey g.domain = e.1 ∧ a ∈ g.emails := by
  induction groups generalizing out seen with
  | nil => exact .inl ⟨e, member, rfl, holds⟩
  | cons g more ih =>
    rcases ih member with ⟨e', inside, same, here⟩ | ⟨g', inside, listed⟩
    · split at inside
      · obtain ⟨before, old, rfl⟩ := List.mem_map.mp inside
        rw [absorbAt_key] at same
        unfold absorbAt at here
        split at here
        · rename_i key
          rcases List.mem_append.mp here with already | new
          · exact .inl ⟨before, old, same, already⟩
          · exact .inr ⟨g, List.mem_cons_self, key.symm.trans same, (mem_unseen.mp new).1⟩
        · exact .inl ⟨before, old, same, here⟩
      · rcases List.mem_append.mp inside with old | new
        · exact .inl ⟨e', old, same, here⟩
        · rw [List.mem_singleton.mp new] at same here
          exact .inr ⟨g, List.mem_cons_self, same, (mem_unseen.mp here).1⟩
    · exact .inr ⟨g', List.mem_cons_of_mem g inside, listed⟩

lemma mergeGroups_listed (member : g ∈ mergeGroups groups)
    (holds : a ∈ g.emails) : ∃ g' ∈ groups, domainKey g'.domain = domainKey g.domain ∧ a ∈ g'.emails := by
  obtain ⟨last, merged, -⟩ := mergeGroups_merging groups
  obtain ⟨e, inside, rfl⟩ := List.mem_map.mp member
  rw [← merged.keyed e inside]
  exact (mergeInto_listed groups inside holds).resolve_left (by simp)

lemma mergeGroups_unique {g' : DomainGroup} (member : g ∈ mergeGroups groups)
    (member' : g' ∈ mergeGroups groups) (same : g.domain = g'.domain) : g = g' := by
  obtain ⟨last, merged, -⟩ := mergeGroups_merging groups
  obtain ⟨e, found, rfl⟩ := List.mem_map.mp member
  obtain ⟨e', found', rfl⟩ := List.mem_map.mp member'
  have key : e.1 = e'.1 := by rw [merged.keyed e found, merged.keyed e' found', same]
  rw [List.inj_on_of_nodup_map merged.distinct found found' key]

end

end EmailVerifier.Prober
