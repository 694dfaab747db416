import Mathlib.Data.List.Induction
import WebhookRelay.Library.Dictionary

/-!
# Dictionaries whose keys are folded

A dictionary is folded into one with coarser keys by writing its entries in order: of the
entries whose keys are folded to the same, the last one wins. `Dictionary.spellings` lists
them, and says how the updates of a dictionary change what it is folded to.

## Main results

* `Dictionary.lookup_folded` — a folded dictionary reads the last spelling.
* `Dictionary.spellings_set`, `Dictionary.spellings_update` — the spellings after an update.
* `Dictionary.lookup_folded_set` — when a key that has been written is read.
-/

namespace Dictionary

variable {κ μ α : Type} [DecidableEq κ] [DecidableEq μ]

/-- `{**d, **d'}`. -/
def update (d d' : List (κ × α)) : List (κ × α) := d'.foldl (fun d e => set d e.1 e.2) d

@[simp] theorem update_nil (d : List (κ × α)) : update d [] = d := rfl

@[simp] theorem update_cons (d : List (κ × α)) (e : κ × α) (d' : List (κ × α)) :
    update d (e :: d') = update (set d e.1 e.2) d' := rfl

/-- An update with the first key among its keys overwrites the first value. -/
theorem update_first {d' : List (κ × α)} (h : (keys d').Nodup) (k : κ) (v : α)
    (d : List (κ × α)) :
    update ((k, v) :: d) d' = (k, (d'.lookup k).getD v) :: update d (erase d' k) := by
  induction d' generalizing v d with
  | nil => rfl
  | cons e d' ih =>
    obtain ⟨hnot, hnodup⟩ := List.nodup_cons.mp h
    rw [update_cons, set, lookup_cons_ite]
    by_cases hk : k = e.1
    · subst hk
      have hnone : d'.lookup e.1 = none := lookup_eq_none.mpr hnot
      rw [if_pos rfl, ih hnodup, if_pos rfl, hnone]
      simp [erase]
    · have hk' : ¬ e.1 = k := Ne.symm hk
      rw [if_neg hk, ih hnodup, if_neg hk']
      simp [erase, hk']

theorem nodup_keys_update {d : List (κ × α)} (h : (keys d).Nodup) (d' : List (κ × α)) :
    (keys (update d d')).Nodup := by
  induction d' generalizing d with
  | nil => exact h
  | cons e d' ih => exact ih (nodup_keys_set h e.1 e.2)

/-- Writing distinct keys into an empty dictionary gives the entries. -/
theorem update_empty {d : List (κ × α)} (h : (keys d).Nodup) : update [] d = d := by
  induction d with
  | nil => rfl
  | cons e d ih =>
    obtain ⟨hnot, hnodup⟩ := List.nodup_cons.mp h
    have herase : erase d e.1 = d := by
      rw [erase, List.filter_eq_self]
      intro e' he'
      have hne : e'.1 ≠ e.1 := fun heq => hnot (heq ▸ List.mem_map_of_mem he')
      simpa using hne
    rw [update_cons, set, update_first hnodup, lookup_eq_none.mpr hnot, herase, ih hnodup]
    rfl

/-! ## Folding -/

/-- The dictionary with folded keys. -/
def folded (fold : κ → μ) (d : List (κ × α)) : List (μ × α) :=
  d.foldl (fun m e => set m (fold e.1) e.2) []

/-- The entries whose keys are folded to a key. -/
def spellings (fold : κ → μ) (d : List (κ × α)) (y : μ) : List (κ × α) :=
  d.filter fun e => fold e.1 = y

variable {fold : κ → μ} {y : μ}

omit [DecidableEq κ] in
/-- A folded dictionary reads the last spelling of a key. -/
theorem lookup_folded (fold : κ → μ) (d : List (κ × α)) (y : μ) :
    (folded fold d).lookup y = (spellings fold d y).getLast?.map Prod.snd := by
  induction d using List.reverseRecOn with
  | nil => rfl
  | append_singleton d e ih =>
    rw [folded, List.foldl_append, List.foldl_cons, List.foldl_nil, lookup_set, spellings,
      List.filter_append]
    by_cases h : fold e.1 = y
    · simp [h]
    · rw [if_neg h, ← folded, ih, List.filter_singleton, decide_eq_false h, cond_false,
        List.append_nil, spellings]

/-- Writing a key changes only the spellings of what it is folded to. -/
theorem spellings_set (d : List (κ × α)) (k : κ) (v : α) :
    spellings fold (set d k v) y =
      if fold k = y then set (spellings fold d y) k v else spellings fold d y := by
  induction d with
  | nil => by_cases h : fold k = y <;> simp [set, spellings, h]
  | cons e d ih =>
    unfold spellings at ih ⊢
    by_cases hk : e.1 = k
    · subst hk
      by_cases h : fold e.1 = y <;> simp [set, h]
    · by_cases h : fold k = y <;> by_cases he : fold e.1 = y <;>
        simp [set, hk, h, he] at ih ⊢ <;> exact ih

theorem spellings_update (d d' : List (κ × α)) :
    spellings fold (update d d') y = update (spellings fold d y) (spellings fold d' y) := by
  induction d' generalizing d with
  | nil => rfl
  | cons e d' ih =>
    rw [update_cons, ih, spellings_set]
    by_cases h : fold e.1 = y <;> simp [spellings, h]

omit [DecidableEq κ] in
theorem nodup_spellings {d : List (κ × α)} (h : (keys d).Nodup) :
    (keys (spellings fold d y)).Nodup :=
  List.Nodup.sublist (List.filter_sublist.map _) h

/-- Keys that a dictionary has no spelling of come from the update only. -/
theorem spellings_update_of_ne {d d' : List (κ × α)} (hnodup : (keys d').Nodup)
    (h : ∀ e ∈ d, fold e.1 ≠ y) : spellings fold (update d d') y = spellings fold d' y := by
  have hnil : spellings fold d y = [] := List.filter_eq_nil_iff.mpr fun e he => by simp [h e he]
  rw [spellings_update, hnil]
  exact update_empty (nodup_spellings hnodup)

omit [DecidableEq κ] in
theorem mem_keys_spellings {d : List (κ × α)} {k : κ} :
    k ∈ keys (spellings fold d (fold k)) ↔ k ∈ keys d := by
  constructor
  · intro h
    obtain ⟨e, he, rfl⟩ := List.mem_map.mp h
    exact List.mem_map_of_mem (List.mem_of_mem_filter he)
  · intro h
    obtain ⟨e, he, rfl⟩ := List.mem_map.mp h
    exact List.mem_map_of_mem (List.mem_filter.mpr ⟨he, by simp⟩)

theorem lookup_spellings (d : List (κ × α)) (k : κ) :
    (spellings fold d (fold k)).lookup k = d.lookup k := by
  induction d with
  | nil => rfl
  | cons e d ih =>
    rw [spellings, List.filter_cons]
    by_cases hk : e.1 = k
    · subst hk
      simp [lookup_cons_ite]
    · split
      · rw [lookup_cons_ite, lookup_cons_ite, if_neg hk, if_neg hk]
        exact ih
      · rw [lookup_cons_ite, if_neg hk]
        exact ih

theorem set_ne_nil (d : List (κ × α)) (k : κ) (v : α) : set d k v ≠ [] := by
  cases d with
  | nil => exact List.cons_ne_nil _ _
  | cons e d =>
    rw [set]
    split <;> exact List.cons_ne_nil _ _

/-- The last entry after a key has been written: the new one if the key is new, and the one
that was last, with the new value if it is the key's. -/
theorem getLast?_set {d : List (κ × α)} (h : (keys d).Nodup) (k : κ) (v : α) :
    (set d k v).getLast? =
      if k ∈ keys d then d.getLast?.map fun e => if e.1 = k then (k, v) else e
      else some (k, v) := by
  induction d with
  | nil => rfl
  | cons e d ih =>
    obtain ⟨hnot, hnodup⟩ := List.nodup_cons.mp h
    have ih := ih hnodup
    by_cases hk : e.1 = k
    · subst hk
      have hkeys : e.1 ∈ keys (e :: d) := List.mem_cons_self
      rw [set, if_pos rfl, if_pos hkeys]
      cases d with
      | nil => simp
      | cons e' d =>
        have hlast : ∀ last ∈ (e' :: d).getLast?, ¬ last.1 = e.1 := fun last hlast heq =>
          hnot (heq ▸ List.mem_map_of_mem (List.mem_of_getLast? hlast))
        rw [List.getLast?_cons_cons, List.getLast?_cons_cons]
        cases hlast' : (e' :: d).getLast? with
        | none => rfl
        | some last => rw [Option.map_some, if_neg (hlast last hlast')]
    · have hkeys : k ∈ keys (e :: d) ↔ k ∈ keys d := by
        simp [keys, Ne.symm hk]
      rw [set, if_neg hk]
      obtain ⟨e', rest, hset⟩ := List.exists_cons_of_ne_nil (set_ne_nil d k v)
      rw [hset, List.getLast?_cons_cons, ← hset, ih]
      simp only [hkeys]
      split
      · next hmem =>
        cases d with
        | nil => cases hmem
        | cons e'' d => rw [List.getLast?_cons_cons]
      · rfl

/-- A key that is written is read unless another spelling comes later, and has another value. -/
theorem lookup_folded_set {d : List (κ × α)} (h : (keys d).Nodup) (k : κ) (v : α) :
    (folded fold (set d k v)).lookup (fold k) = some v ↔
      (k ∈ keys d → ∀ e ∈ (spellings fold d (fold k)).getLast?, e.1 = k ∨ e.2 = v) := by
  rw [lookup_folded, spellings_set, if_pos rfl, getLast?_set (nodup_spellings h)]
  simp only [mem_keys_spellings]
  by_cases hk : k ∈ keys d
  · rw [if_pos hk]
    cases hlast : (spellings fold d (fold k)).getLast? with
    | none =>
      have hmem : k ∈ keys (spellings fold d (fold k)) := mem_keys_spellings.mpr hk
      rw [List.getLast?_eq_none_iff.mp hlast] at hmem
      cases hmem
    | some e => by_cases hkey : e.1 = k <;> simp [hk, hkey]
  · simp [hk]

/-- After an update of one entry the last spelling of its key is read, and only if there is no
other one the first. -/
theorem getLast?_update_singleton {d : List (κ × α)} (h : (keys d).Nodup) (k : κ) (v : α) :
    (update [(k, v)] d).getLast?.map Prod.snd =
      some (((erase d k).getLast?.map Prod.snd).getD ((d.lookup k).getD v)) := by
  have hempty : update [] (erase d k) = erase d k := update_empty (nodup_keys_erase h k)
  rw [update_first h, hempty, List.getLast?_cons, Option.map_some]
  cases (erase d k).getLast? <;> rfl

end Dictionary
