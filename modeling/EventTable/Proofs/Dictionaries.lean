/-
  EventTable — what a dictionary holds after a history of pairs.

  * `lookup_eq_some_iff`: where no key stands twice, a key has the value that it
    stands with, so that the order does not matter (`lookup_perm`);
  * `keys_put`: a new key goes to the end, a known one stays where it stands;
  * `lookup_ofPairs`: the last pair of a key counts, `mem_keys_ofPairs_iff` and
    `length_ofPairs`: and there is one entry for each key that was put;
  * `ofPairs_eq_self`: pairs without a repeated key are a dictionary as they are.
-/
import EventTable.Dictionary
import Mathlib.Data.Finset.Card
import Mathlib.Data.List.Induction

namespace EventTable.Dictionary

variable {κ α : Type}

/-! ## Looking up -/

section
variable [BEq κ] [LawfulBEq κ] {d d' : List (κ × α)}

theorem lookup_eq_none_iff {k : κ} : d.lookup k = none ↔ k ∉ d.map Prod.fst := by
  rw [List.lookup_eq_none_iff, List.mem_map]
  constructor
  · rintro h ⟨p, hp, rfl⟩
    simpa using h p hp
  · intro h p hp
    exact bne_iff_ne.2 fun hk => h ⟨p, hp, hk.symm⟩

theorem mem_of_lookup {k : κ} {v : α} (h : d.lookup k = some v) : (k, v) ∈ d := by
  obtain ⟨l, l', rfl, -⟩ := List.lookup_eq_some_iff.1 h
  simp

/-- Where no key stands twice, a key has the value that it stands with. -/
theorem lookup_eq_some_iff (hn : (d.map Prod.fst).Nodup) {k : κ} {v : α} :
    d.lookup k = some v ↔ (k, v) ∈ d := by
  refine ⟨mem_of_lookup, fun hm => ?_⟩
  cases hl : d.lookup k with
  | none => exact absurd (List.mem_map_of_mem hm) (lookup_eq_none_iff.1 hl)
  | some w =>
    have hsame : (k, w) = (k, v) := List.inj_on_of_nodup_map hn (mem_of_lookup hl) hm rfl
    rw [(Prod.mk.inj hsame).2]

/-- The order of the entries does not matter. -/
theorem lookup_perm (h : d'.Perm d) (hn : (d.map Prod.fst).Nodup) (k : κ) :
    d'.lookup k = d.lookup k := by
  have hn' : (d'.map Prod.fst).Nodup := (h.map Prod.fst).nodup_iff.2 hn
  ext v
  rw [lookup_eq_some_iff hn', lookup_eq_some_iff hn, h.mem_iff]

end

variable [DecidableEq κ]

/-! ## Keys -/

theorem keys_put (k : κ) (v : α) (d : List (κ × α)) :
    (put k v d).map Prod.fst =
      if k ∈ d.map Prod.fst then d.map Prod.fst else d.map Prod.fst ++ [k] := by
  induction d with
  | nil => rfl
  | cons p r ih =>
    obtain ⟨k', v'⟩ := p
    by_cases h : k' = k
    · simp [put, h]
    · by_cases hm : k ∈ r.map Prod.fst <;> simp_all [put, Ne.symm h]

theorem nodup_keys_put {d : List (κ × α)} (h : (d.map Prod.fst).Nodup) (k : κ) (v : α) :
    ((put k v d).map Prod.fst).Nodup := by
  rw [keys_put]
  split
  · exact h
  · rename_i hk
    exact List.nodup_append.2 ⟨h, List.nodup_singleton k, fun a ha b hb =>
      List.mem_singleton.1 hb ▸ fun hab => hk (hab ▸ ha)⟩

theorem mem_keys_put_iff {k k' : κ} {v : α} {d : List (κ × α)} :
    k' ∈ (put k v d).map Prod.fst ↔ k' = k ∨ k' ∈ d.map Prod.fst := by
  rw [keys_put]
  split
  · rename_i hk
    exact ⟨.inr, fun h => h.elim (fun h => h ▸ hk) id⟩
  · rw [List.mem_append, List.mem_singleton, or_comm]

/-- A new key goes to the end. -/
theorem put_of_notMem {k : κ} {d : List (κ × α)} (h : k ∉ d.map Prod.fst) (v : α) :
    put k v d = d ++ [(k, v)] := by
  induction d with
  | nil => rfl
  | cons p r ih =>
    obtain ⟨k', v'⟩ := p
    rw [List.map_cons, List.mem_cons, not_or] at h
    rw [put, if_neg (Ne.symm h.1), ih h.2, List.cons_append]

/-! ## Histories of pairs -/

theorem ofPairs_concat (ps : List (κ × α)) (p : κ × α) :
    ofPairs (ps ++ [p]) = put p.1 p.2 (ofPairs ps) := by
  rw [ofPairs, List.foldl_append]
  rfl

theorem nodup_keys_ofPairs (ps : List (κ × α)) : ((ofPairs ps).map Prod.fst).Nodup := by
  induction ps using List.reverseRecOn with
  | nil => exact .nil
  | append_singleton ps p ih =>
    rw [ofPairs_concat]
    exact nodup_keys_put ih ..

theorem mem_keys_ofPairs_iff {ps : List (κ × α)} {k : κ} :
    k ∈ (ofPairs ps).map Prod.fst ↔ k ∈ ps.map Prod.fst := by
  induction ps using List.reverseRecOn with
  | nil => rfl
  | append_singleton ps p ih =>
    rw [ofPairs_concat, mem_keys_put_iff, ih, List.map_append, List.mem_append, List.map_singleton,
      List.mem_singleton, or_comm]

/-- **The last pair of a key counts.** -/
theorem lookup_ofPairs [BEq κ] [LawfulBEq κ] (ps : List (κ × α)) (k : κ) :
    (ofPairs ps).lookup k = (ps.filter (·.1 = k)).getLast?.map Prod.snd := by
  induction ps using List.reverseRecOn with
  | nil => rfl
  | append_singleton ps p ih =>
    rw [ofPairs_concat, lookup_put, ih, List.filter_append]
    by_cases h : k = p.1
    · simp [h]
    · simp [h, Ne.symm h]

theorem mem_of_mem_ofPairs {ps : List (κ × α)} {p : κ × α} (h : p ∈ ofPairs ps) : p ∈ ps := by
  have hlookup : (ofPairs ps).lookup p.1 = some p.2 :=
    (lookup_eq_some_iff (nodup_keys_ofPairs ps)).2 h
  rw [lookup_ofPairs, Option.map_eq_some_iff] at hlookup
  obtain ⟨q, hq, hvalue⟩ := hlookup
  obtain ⟨hmem, hkey⟩ := List.mem_filter.1 (List.mem_of_getLast? hq)
  have hsame : q = p := Prod.ext (of_decide_eq_true hkey) hvalue
  exact hsame ▸ hmem

/-- There is one entry for each key that was put. -/
theorem length_ofPairs (ps : List (κ × α)) :
    (ofPairs ps).length = (ps.map Prod.fst).toFinset.card := by
  have hkeys : ((ofPairs ps).map Prod.fst).toFinset = (ps.map Prod.fst).toFinset := by
    ext k
    rw [List.mem_toFinset, List.mem_toFinset, mem_keys_ofPairs_iff]
  rw [← hkeys, List.toFinset_card_of_nodup (nodup_keys_ofPairs ps), List.length_map]

/-- Pairs without a repeated key are a dictionary as they are. -/
theorem ofPairs_eq_self {ps : List (κ × α)} (h : (ps.map Prod.fst).Nodup) : ofPairs ps = ps := by
  induction ps using List.reverseRecOn with
  | nil => rfl
  | append_singleton ps p ih =>
    rw [List.map_append, List.map_singleton] at h
    have hp : p.1 ∉ ps.map Prod.fst := fun hm =>
      List.disjoint_of_nodup_append h hm (List.mem_singleton_self _)
    rw [ofPairs_concat, ih h.of_append_left, put_of_notMem hp]

end EventTable.Dictionary
