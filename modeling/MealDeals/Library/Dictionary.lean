import Mathlib.Data.List.AList
import Mathlib.Data.Multiset.MapFold

/-!
# Dictionaries and the multiset of their values

A dictionary is Mathlib's `AList` with one value type, so that the uniqueness of
its keys is a field.  Mathlib has the lookups.  This file adds what a program
observes of a dictionary besides: the multiset of its values, the dictionary
that a partial function makes of it, and the entry under one key as a search.
-/

namespace Library

abbrev Dictionary (K V : Type) := AList fun _ : K => V

namespace Dictionary

variable {K V W : Type}

/-- Equality of the entries, in a form that the kernel can evaluate. -/
instance [DecidableEq K] [DecidableEq V] : DecidableEq (Dictionary K V) := fun d d' =>
  decidable_of_iff (d.entries = d'.entries) AList.ext_iff.symm

def values (d : Dictionary K V) : Multiset V := (d.entries.map Sigma.snd : List V)

def mapEntry (f : V → Option W) (e : Σ _ : K, V) : Option (Σ _ : K, W) :=
  (f e.2).map fun w => ⟨e.1, w⟩

theorem keys_filterMap_sublist (f : V → Option W) (l : List (Σ _ : K, V)) :
    (l.filterMap (mapEntry f)).keys.Sublist l.keys := by
  induction l with
  | nil => exact List.Sublist.refl _
  | cons e l ih =>
    cases hf : f e.2 with
    | none => simpa [List.filterMap_cons, mapEntry, hf] using ih.cons e.1
    | some w => simpa [List.filterMap_cons, mapEntry, hf] using ih.cons_cons e.1

/-- Keep the entries on which `f` is defined, with the values it gives. -/
def compactMapValues (f : V → Option W) (d : Dictionary K V) : Dictionary K W where
  entries := d.entries.filterMap (mapEntry f)
  nodupKeys := (keys_filterMap_sublist f d.entries).nodup d.nodupKeys

variable [DecidableEq K]

theorem entries_erase (d : Dictionary K V) (k : K) :
    (d.erase k).entries = d.entries.kerase k := rfl

theorem values_insert (d : Dictionary K V) (k : K) (v : V) :
    values (d.insert k v) = v ::ₘ values (d.erase k) := by
  simp only [values, AList.entries_insert, List.map_cons, entries_erase, Multiset.cons_coe]

theorem erase_of_lookup_none {d : Dictionary K V} {k : K} (h : d.lookup k = none) :
    d.erase k = d :=
  AList.ext (List.kerase_of_notMem_keys (AList.lookup_eq_none.mp h))

/-- A dictionary is the entry under a key on top of the rest. -/
theorem values_eq_cons_erase {d : Dictionary K V} {k : K} {v : V} (h : d.lookup k = some v) :
    values d = v ::ₘ values (d.erase k) := by
  obtain ⟨w, l₁, l₂, -, hl, herase⟩ :=
    List.exists_of_kerase (AList.mem_keys.mp (AList.lookup_isSome.mp (by rw [h]; rfl)))
  have hw : w = v := by
    have hmem : (⟨k, w⟩ : Σ _ : K, V) ∈ d.entries := by rw [hl]; simp
    exact Option.some.inj ((List.mem_dlookup d.nodupKeys hmem).symm.trans h)
  simp only [values, entries_erase, herase, Multiset.cons_coe]
  rw [hl, hw, List.map_append, List.map_cons, List.map_append]
  exact Multiset.coe_eq_coe.mpr List.perm_middle

/-- The entries as what is under `k`, if anything, and the rest. -/
theorem values_eq_add_erase (d : Dictionary K V) (k : K) :
    values d = ((d.lookup k).toList : Multiset V) + values (d.erase k) := by
  cases h : d.lookup k with
  | none => rw [erase_of_lookup_none h]; simp
  | some v => rw [values_eq_cons_erase h]; simp

theorem mem_values {d : Dictionary K V} {v : V} :
    v ∈ values d ↔ ∃ k, d.lookup k = some v := by
  simp only [values, Multiset.mem_coe, List.mem_map]
  constructor
  · rintro ⟨⟨k, w⟩, hmem, rfl⟩
    exact ⟨k, List.mem_dlookup d.nodupKeys hmem⟩
  · rintro ⟨k, h⟩
    exact ⟨⟨k, v⟩, AList.mem_lookup_iff.mp h, rfl⟩

theorem lookup_compactMapValues (f : V → Option W) (d : Dictionary K V) (k : K) :
    (compactMapValues f d).lookup k = (d.lookup k).bind f := by
  refine Option.ext fun w => ?_
  rw [← Option.mem_def, AList.mem_lookup_iff]
  simp only [compactMapValues, mapEntry, List.mem_filterMap, Option.map_eq_some_iff,
    Sigma.mk.injEq, heq_eq_eq, Option.bind_eq_some_iff]
  constructor
  · rintro ⟨⟨k', v⟩, hmem, w', hw, rfl, rfl⟩
    exact ⟨v, List.mem_dlookup d.nodupKeys hmem, hw⟩
  · rintro ⟨v, hv, hw⟩
    exact ⟨⟨k, v⟩, AList.mem_lookup_iff.mp hv, w, hw, rfl, rfl⟩

theorem kerase_filterMap (f : V → Option W) (k : K) {l : List (Σ _ : K, V)}
    (hnd : l.NodupKeys) :
    List.kerase k (l.filterMap (mapEntry f)) = (List.kerase k l).filterMap (mapEntry f) := by
  induction l with
  | nil => rfl
  | cons e l ih =>
    obtain ⟨hnot, hnd⟩ := List.nodupKeys_cons.mp hnd
    by_cases hk : k = e.1
    · have hnot : k ∉ (l.filterMap (mapEntry f)).keys := fun hmem =>
        hnot (hk ▸ (keys_filterMap_sublist f l).subset hmem)
      rw [List.kerase_cons_eq hk, List.filterMap_cons]
      cases hf : f e.2 with
      | none => simpa [mapEntry, hf] using List.kerase_of_notMem_keys hnot
      | some w =>
        simpa [mapEntry, hf] using List.kerase_cons_eq (s := (⟨e.1, w⟩ : Σ _ : K, W)) hk
    · rw [List.kerase_cons_ne hk, List.filterMap_cons, List.filterMap_cons, ← ih hnd]
      cases hf : f e.2 with
      | none => simp [mapEntry, hf]
      | some w =>
        simpa [mapEntry, hf] using List.kerase_cons_ne (s := (⟨e.1, w⟩ : Σ _ : K, W)) hk

theorem erase_compactMapValues (f : V → Option W) (d : Dictionary K V) (k : K) :
    (compactMapValues f d).erase k = compactMapValues f (d.erase k) :=
  AList.ext (kerase_filterMap f k d.nodupKeys)

/-- What a partial function keeps of a dictionary, one key apart from the rest. -/
theorem values_compactMapValues (f : V → Option W) (d : Dictionary K V) (k : K) :
    values (compactMapValues f d) =
      (((d.lookup k).bind f).toList : Multiset W) +
        values (compactMapValues f (d.erase k)) := by
  rw [values_eq_add_erase _ k, lookup_compactMapValues, erase_compactMapValues]

theorem values_compactMapValues_insert (f : V → Option W) (d : Dictionary K V) (k : K) (v : V) :
    values (compactMapValues f (d.insert k v)) =
      ((f v).toList : Multiset W) + values (compactMapValues f (d.erase k)) := by
  have herase : (d.insert k v).erase k = d.erase k :=
    AList.ext (by
      simp only [entries_erase, AList.entries_insert, List.kerase_cons_eq])
  rw [values_compactMapValues f _ k, AList.lookup_insert, herase, Option.bind_some]

theorem filterMap_dlookup (f : V → Option W) (k : K) {l : List (Σ _ : K, V)}
    (hnd : l.NodupKeys) :
    (l.filterMap fun e => if e.1 = k then f e.2 else none) =
      ((List.dlookup k l).bind f).toList := by
  induction l with
  | nil => rfl
  | cons e l ih =>
    obtain ⟨hnot, hnd⟩ := List.nodupKeys_cons.mp hnd
    by_cases hk : e.1 = k
    · have hnone : List.dlookup k l = none := List.dlookup_eq_none.mpr (hk ▸ hnot)
      have htail := ih hnd
      rw [hnone, Option.bind_none] at htail
      obtain ⟨k', v⟩ := e
      subst hk
      rw [List.filterMap_cons, htail]
      cases hf : f v <;> simp [hf]
    · rw [List.filterMap_cons, if_neg hk, List.dlookup_cons_ne _ _ (Ne.symm hk)]
      exact ih hnd

/-- Keys are unique, so a scan that keeps the entries under `k` is a lookup. -/
theorem filterMap_entries (f : V → Option W) (d : Dictionary K V) (k : K) :
    (d.entries.filterMap fun e => if e.1 = k then f e.2 else none) =
      ((d.lookup k).bind f).toList :=
  filterMap_dlookup f k d.nodupKeys

end Dictionary
end Library
