import Mathlib.Data.List.AList

/-! Finite maps as Go programs use them: assigned key by key, overlaid on one
another and rewritten value by value. Keys are unique by construction. -/

set_option autoImplicit false

namespace EmailVerifier.Data

variable {K : Type} {V W : Type}

abbrev Table (K V : Type) := AList fun _ : K => V

namespace Table

def mapVals (f : K → V → W) (m : Table K V) : Table K W where
  entries := m.entries.map fun e => ⟨e.1, f e.1 e.2⟩
  nodupKeys := by
    have same : (m.entries.map fun e => (⟨e.1, f e.1 e.2⟩ : Sigma fun _ : K => W)).keys = m.entries.keys := by
      simp [List.keys, Function.comp_def]
    rw [List.NodupKeys, same]
    exact m.nodupKeys

def keep (test : K → V → Bool) (m : Table K V) : Table K V where
  entries := m.entries.filter fun e => test e.1 e.2
  nodupKeys := m.nodupKeys.sublist List.filter_sublist

lemma keep_length_le (test : K → V → Bool) (m : Table K V) : (m.keep test).keys.length ≤ m.keys.length := by
  simp only [AList.keys, List.keys, List.length_map]
  exact List.length_filter_le _ _

def vals (m : Table K V) : List V := m.entries.map Sigma.snd

variable [DecidableEq K]

def setAll (keys : List K) (v : V) (m : Table K V) : Table K V :=
  keys.foldl (fun m k => m.insert k v) m

/-- Assign every entry of `new`, as a loop over `new` does. -/
def overlay (new old : Table K V) : Table K V := new ∪ old

lemma lookup_insert_ite (k k' : K) (v : V) (m : Table K V) :
    (m.insert k v).lookup k' = if k' = k then some v else m.lookup k' := by
  split
  · rename_i same
    subst same
    exact AList.lookup_insert m
  · rename_i other
    exact AList.lookup_insert_ne other

lemma lookup_erase_ite (k k' : K) (m : Table K V) : (m.erase k).lookup k' = if k' = k then none else m.lookup k' := by
  split
  · rename_i same
    subst same
    exact AList.lookup_erase _ m
  · rename_i other
    exact AList.lookup_erase_ne other

variable {m : Table K V} {k : K} {v : V}

lemma lookup_keep_iff {test : K → V → Bool} :
    (m.keep test).lookup k = some v ↔ m.lookup k = some v ∧ test k v = true := by
  have kept : (⟨k, v⟩ : Sigma fun _ : K => V) ∈ (m.keep test).entries ↔ ⟨k, v⟩ ∈ m.entries ∧ test k v = true :=
    List.mem_filter
  rwa [← List.mem_dlookup_iff (m.keep test).nodupKeys, ← List.mem_dlookup_iff m.nodupKeys] at kept

lemma lookup_of_keep {test : K → V → Bool} (found : (m.keep test).lookup k = some v) :
    m.lookup k = some v := (lookup_keep_iff.mp found).1

lemma lookup_of_erase {gone : K} (found : (m.erase gone).lookup k = some v) : m.lookup k = some v := by
  by_cases same : k = gone
  · rw [same, AList.lookup_erase] at found
    cases found
  · rwa [AList.lookup_erase_ne same] at found

lemma keys_subset_of_lookup {m' : Table K V} (known : ∀ k v, m'.lookup k = some v → m.lookup k = some v) :
    m'.keys ⊆ m.keys := by
  intro k member
  obtain ⟨v, found⟩ := Option.isSome_iff_exists.mp (AList.lookup_isSome.mpr (AList.mem_keys.mpr member))
  exact AList.mem_keys.mp (AList.lookup_isSome.mp (Option.isSome_iff_exists.mpr ⟨v, known k v found⟩))

lemma keys_length_le_of_lookup {m' : Table K V} (known : ∀ k v, m'.lookup k = some v → m.lookup k = some v) :
    m'.keys.length ≤ m.keys.length :=
  (List.subperm_of_subset m'.keys_nodup (keys_subset_of_lookup known)).length_le

lemma keys_insert_length_le (k : K) (v : V) (m : Table K V) : (m.insert k v).keys.length ≤ m.keys.length + 1 := by
  rw [AList.keys_insert, List.length_cons]
  exact Nat.succ_le_succ List.length_erase_le

lemma keys_erase_length_le (k : K) (m : Table K V) : (m.erase k).keys.length ≤ m.keys.length := by
  rw [AList.keys_erase]
  exact List.length_erase_le

lemma keys_erase_length (member : k ∈ m) : (m.erase k).keys.length + 1 = m.keys.length := by
  rw [AList.keys_erase, List.length_erase_of_mem (AList.mem_keys.mp member)]
  exact Nat.succ_pred_eq_of_pos (List.length_pos_of_mem (AList.mem_keys.mp member))

lemma lookup_mapVals (f : K → V → W) (m : Table K V) (k : K) : (m.mapVals f).lookup k = (m.lookup k).map (f k) := by
  obtain ⟨entries, nodup⟩ := m
  change (entries.map fun e => (⟨e.1, f e.1 e.2⟩ : Sigma fun _ : K => W)).dlookup k =
    (entries.dlookup k).map (f k)
  clear nodup
  induction entries with
  | nil => rfl
  | cons e entries ih =>
    obtain ⟨key, value⟩ := e
    by_cases same : k = key
    · subst same
      simp
    · rw [List.map_cons, List.dlookup_cons_ne _ _ same, List.dlookup_cons_ne _ _ same, ih]

lemma lookup_setAll (keys : List K) (v : V) (m : Table K V) (k : K) :
    (setAll keys v m).lookup k = if k ∈ keys then some v else m.lookup k := by
  unfold setAll
  induction keys generalizing m with
  | nil => simp
  | cons key keys ih =>
    rw [List.foldl_cons, ih, lookup_insert_ite]
    by_cases same : k = key <;> by_cases later : k ∈ keys <;> simp [same, later]

lemma lookup_overlay (new old : Table K V) (k : K) : (overlay new old).lookup k = (new.lookup k).or (old.lookup k) := by
  unfold overlay
  by_cases member : k ∈ new
  · rw [AList.lookup_union_left member]
    obtain ⟨v, found⟩ := Option.isSome_iff_exists.mp (AList.lookup_isSome.mpr member)
    rw [found]
    rfl
  · rw [AList.lookup_union_right member, AList.lookup_eq_none.mpr member]
    rfl

def total (f : V → Nat) (m : Table K V) : Nat := m.entries.foldr (fun e n => f e.2 + n) 0

lemma total_kerase (f : V → Nat) (k : K) (entries : List (Sigma fun _ : K => V)) :
    entries.foldr (fun e n => f e.2 + n) 0 =
      (entries.kerase k).foldr (fun e n => f e.2 + n) 0 + (entries.dlookup k).elim 0 f := by
  induction entries with
  | nil => rfl
  | cons e entries ih =>
    obtain ⟨key, value⟩ := e
    by_cases same : k = key
    · subst same
      simp [Nat.add_comm]
    · rw [List.kerase_cons_ne same, List.dlookup_cons_ne _ _ same, List.foldr_cons, List.foldr_cons, ih]
      exact (Nat.add_assoc _ _ _).symm

lemma total_insert (f : V → Nat) (k : K) (v : V) (m : Table K V) :
    total f (m.insert k v) + (m.lookup k).elim 0 f = total f m + f v := by
  have before : total f m = _ := total_kerase f k m.entries
  have after : total f (m.insert k v) = f v + (m.entries.kerase k).foldr (fun e n => f e.2 + n) 0 := by
    rw [total, AList.entries_insert, List.foldr_cons]
  rw [before, after]
  change f v + _ + (m.entries.dlookup k).elim 0 f = _
  omega

@[simp] lemma lookup_empty (k : K) : (∅ : Table K V).lookup k = none := AList.lookup_empty k

end Table

end EmailVerifier.Data
