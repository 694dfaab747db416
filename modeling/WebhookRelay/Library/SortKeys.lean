import Mathlib.Data.List.Sort
import WebhookRelay.Library.Dictionary

/-!
# Dictionaries in the order of their keys

Sorting the members of a dictionary by key forgets the order in which they were inserted and
nothing else: dictionaries with the same lookups are the same when they are sorted.
-/

namespace Dictionary

variable {κ α β : Type} [LinearOrder κ]

/-- The members sorted by key. -/
def sortKeys (d : List (κ × α)) : List (κ × α) := d.insertionSort fun e f => e.1 ≤ f.1

instance total_le_key : Std.Total fun e f : κ × α => e.1 ≤ f.1 := ⟨fun e f => le_total e.1 f.1⟩

instance trans_le_key : IsTrans (κ × α) fun e f => e.1 ≤ f.1 := ⟨fun _ _ _ => le_trans⟩

theorem perm_sortKeys (d : List (κ × α)) : (sortKeys d).Perm d := List.perm_insertionSort _ _

theorem pairwise_sortKeys (d : List (κ × α)) :
    (sortKeys d).Pairwise fun e f => e.1 ≤ f.1 := List.pairwise_insertionSort _ _

@[simp] theorem sortKeys_sortKeys (d : List (κ × α)) : sortKeys (sortKeys d) = sortKeys d :=
  (pairwise_sortKeys d).insertionSort_eq

/-- Members may be changed before or after. -/
theorem sortKeys_map (f : α → β) (d : List (κ × α)) :
    sortKeys (d.map fun e => (e.1, f e.2)) = (sortKeys d).map fun e => (e.1, f e.2) :=
  (List.map_insertionSort (fun e f : κ × α => e.1 ≤ f.1) (fun e f : κ × β => e.1 ≤ f.1)
    (fun e => (e.1, f e.2)) d fun _ _ _ _ => Iff.rfl).symm

theorem nodup_keys_sortKeys {d : List (κ × α)} (h : (keys d).Nodup) :
    (keys (sortKeys d)).Nodup := ((perm_sortKeys d).map Prod.fst).nodup_iff.mpr h

/-- The lookups are those of the dictionary. -/
theorem lookup_sortKeys {d : List (κ × α)} (h : (keys d).Nodup) (k : κ) :
    (sortKeys d).lookup k = d.lookup k := by
  cases hk : d.lookup k with
  | none =>
    rw [lookup_eq_none] at hk ⊢
    exact fun hmem => hk (((perm_sortKeys d).map Prod.fst).mem_iff.mp hmem)
  | some v =>
    exact lookup_of_mem (nodup_keys_sortKeys h) ((perm_sortKeys d).mem_iff.mpr (mem_of_lookup hk))

/-- Dictionaries with the same lookups are the same when they are sorted. -/
theorem sortKeys_eq_of_lookup {d d' : List (κ × α)} (h : (keys d).Nodup) (h' : (keys d').Nodup)
    (hlookup : ∀ k, d.lookup k = d'.lookup k) : sortKeys d = sortKeys d' := by
  have hmem : ∀ e, e ∈ d ↔ e ∈ d' := by
    rintro ⟨k, v⟩
    constructor
    · exact fun he => mem_of_lookup ((hlookup k).symm.trans (lookup_of_mem h he))
    · exact fun he => mem_of_lookup ((hlookup k).trans (lookup_of_mem h' he))
  have hperm : d.Perm d' :=
    (List.perm_ext_iff_of_nodup (List.Nodup.of_map _ h) (List.Nodup.of_map _ h')).mpr hmem
  refine List.Perm.eq_of_pairwise (fun e f he hf hle hge => ?_) (pairwise_sortKeys d)
    (pairwise_sortKeys d') ((perm_sortKeys d).trans (hperm.trans (perm_sortKeys d').symm))
  have hkey : e.1 = f.1 := le_antisymm hle hge
  have hev := lookup_of_mem h ((perm_sortKeys d).mem_iff.mp he)
  have hfv := lookup_of_mem h' ((perm_sortKeys d').mem_iff.mp hf)
  rw [hlookup, hkey, hfv] at hev
  exact Prod.ext hkey (Option.some.inj hev).symm

end Dictionary
