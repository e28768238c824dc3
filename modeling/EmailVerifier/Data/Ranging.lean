import EmailVerifier.Data.Table

/-! Loops over a finite map in whatever order.

A loop ranges over the entries of a table in an order nobody promises. What it does with
them is told here for any order: assigning them all to another table, and revising the
table's own values in place.
-/

set_option autoImplicit false

namespace EmailVerifier.Data

variable {K V W : Type}

/-- An order in which a loop may go over a table. -/
structure Order (K V : Type) where
  of : Table K V → List (Sigma fun _ : K => V)
  perm : ∀ m, (of m).Perm m.entries

namespace Order

def forward : Order K V where
  of m := m.entries
  perm _ := List.Perm.refl _

def backward : Order K V where
  of m := m.entries.reverse
  perm _ := List.reverse_perm _

lemma nodupKeys (order : Order K V) (m : Table K V) : (order.of m).NodupKeys :=
  (List.perm_nodupKeys (order.perm m)).mpr m.nodupKeys

variable [DecidableEq K]

lemma dlookup (order : Order K V) (m : Table K V) (k : K) : (order.of m).dlookup k = m.lookup k :=
  List.perm_dlookup k (order.nodupKeys m) (order.perm m)

lemma mem_iff {order : Order K V} {m : Table K V} {k : K} {v : V} : ⟨k, v⟩ ∈ order.of m ↔ m.lookup k = some v :=
  (order.perm m).mem_iff.trans AList.mem_lookup_iff.symm

end Order

namespace Table

lemma mapVals_congr {f g : K → V → W} {m : Table K V} (same : ∀ e ∈ m.entries, f e.1 e.2 = g e.1 e.2) :
    m.mapVals f = m.mapVals g := by
  refine AList.ext (List.map_congr_left fun e member => ?_)
  rw [same e member]

lemma mapVals_id (m : Table K V) : m.mapVals (fun _ v => v) = m := AList.ext (List.map_id _)

lemma mapVals_mapVals {X : Type} (f : K → V → W) (g : K → W → X) (m : Table K V) :
    (m.mapVals f).mapVals g = m.mapVals fun k v => g k (f k v) := AList.ext (List.map_map ..)

variable [DecidableEq K]

def assign (entries : List (Sigma fun _ : K => V)) (m : Table K V) : Table K V :=
  entries.foldl (fun m e => m.insert e.1 e.2) m

lemma lookup_assign {entries : List (Sigma fun _ : K => V)} (distinct : entries.NodupKeys) (m : Table K V) (k : K) :
    (assign entries m).lookup k = (entries.dlookup k).or (m.lookup k) := by
  unfold assign
  induction entries generalizing m with
  | nil => rfl
  | cons e more ih =>
    obtain ⟨key, v⟩ := e
    obtain ⟨fresh, later⟩ := List.nodupKeys_cons.mp distinct
    rw [List.foldl_cons, ih later, lookup_insert_ite]
    by_cases same : k = key
    · subst same
      rw [List.dlookup_eq_none.mpr fresh, List.dlookup_cons_eq, if_pos rfl]
      rfl
    · rw [List.dlookup_cons_ne _ _ same, if_neg same]

lemma lookup_assign_of (order : Order K V) (new old : Table K V) (k : K) :
    (assign (order.of new) old).lookup k = (overlay new old).lookup k := by
  rw [lookup_assign (order.nodupKeys new), order.dlookup, lookup_overlay]

lemma assign_backward (new old : Table K V) : assign (Order.backward.of new) old = overlay new old := by
  obtain ⟨entries, distinct⟩ := new
  change assign entries.reverse old = (⟨entries, distinct⟩ : Table K V) ∪ old
  unfold assign
  rw [List.foldl_reverse]
  induction entries with
  | nil => exact AList.empty_union.symm
  | cons e more ih =>
    rw [List.foldr_cons, ih (List.nodupKeys_of_nodupKeys_cons distinct), AList.mk_cons_eq_insert, AList.insert_union]

def put (k : K) (v : V) (m : Table K V) : Table K V := m.mapVals fun key old => if key = k then v else old

def revise (new : K → V → Option V) (entries : List (Sigma fun _ : K => V)) (m : Table K V) : Table K V :=
  entries.foldl (fun m e => match new e.1 e.2 with
    | some v => m.put e.1 v
    | none => m) m

lemma revise_entries (new : K → V → Option V) {entries : List (Sigma fun _ : K => V)}
    (distinct : entries.NodupKeys) (m : Table K V) :
    revise new entries m = m.mapVals fun k v => ((entries.dlookup k).bind (new k)).getD v := by
  unfold revise
  induction entries generalizing m with
  | nil => exact (mapVals_id m).symm
  | cons e more ih =>
    obtain ⟨key, old⟩ := e
    obtain ⟨fresh, later⟩ := List.nodupKeys_cons.mp distinct
    have here : (match new key old with
        | some v => m.put key v
        | none => m) = m.mapVals fun k v => if k = key then (new key old).getD v else v := by
      cases new key old with
      | some v => rfl
      | none => simp [mapVals_id]
    rw [List.foldl_cons, here, ih later, mapVals_mapVals]
    refine mapVals_congr fun e _ => ?_
    by_cases same : e.1 = key
    · rw [if_pos same, same, List.dlookup_eq_none.mpr fresh, List.dlookup_cons_eq]
      rfl
    · rw [if_neg same, List.dlookup_cons_ne _ _ same]

lemma revise_of (new : K → V → Option V) (order : Order K V) (m : Table K V) :
    revise new (order.of m) m = m.mapVals fun k v => (new k v).getD v := by
  rw [revise_entries new (order.nodupKeys m)]
  refine mapVals_congr fun e member => ?_
  rw [order.dlookup, AList.mem_lookup_iff.mpr member]
  rfl

end Table

end EmailVerifier.Data
