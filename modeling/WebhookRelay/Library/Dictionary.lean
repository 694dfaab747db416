import Mathlib.Data.List.Basic
import Mathlib.Data.List.Nodup

/-!
# Insertion-ordered dictionaries

A dictionary is the list of its members in insertion order. Writing to a key that is
present keeps its position, writing to a new key appends it, and iteration follows the
list. Reading is `List.lookup`.

## Main definitions

* `Dictionary.set`, `Dictionary.erase`, `Dictionary.modify` — the three updates, each
  with its lookup law, its effect on the keys and the preservation of distinct keys.
-/

namespace Dictionary

variable {κ α : Type} [DecidableEq κ]

/-- The keys in insertion order. -/
def keys (d : List (κ × α)) : List κ := d.map Prod.fst

/-- `d[k] = v`. -/
def set : List (κ × α) → κ → α → List (κ × α)
  | [], k, v => [(k, v)]
  | e :: d, k, v => if e.1 = k then (k, v) :: d else e :: set d k v

/-- `d.pop(k, None)`. -/
def erase (d : List (κ × α)) (k : κ) : List (κ × α) := d.filter fun e => e.1 ≠ k

/-- Update the value at `k` in place, if there is one. -/
def modify (d : List (κ × α)) (k : κ) (f : α → α) : List (κ × α) :=
  d.map fun e => if e.1 = k then (k, f e.2) else e

/-! ## Lookups -/

theorem lookup_cons_ite (e : κ × α) (d : List (κ × α)) (x : κ) :
    (e :: d).lookup x = if e.1 = x then some e.2 else d.lookup x := by
  rw [List.lookup_cons]
  by_cases h : x = e.1
  · simp [h]
  · rw [beq_false_of_ne h, if_neg (Ne.symm h)]

@[simp] theorem lookup_set (d : List (κ × α)) (k x : κ) (v : α) :
    (set d k v).lookup x = if k = x then some v else d.lookup x := by
  induction d with
  | nil => simp [set, lookup_cons_ite]
  | cons e d ih =>
    simp only [set, apply_ite (List.lookup x), lookup_cons_ite, ih]
    grind

@[simp] theorem lookup_erase (d : List (κ × α)) (k x : κ) :
    (erase d k).lookup x = if k = x then none else d.lookup x := by
  induction d with
  | nil => simp [erase]
  | cons e d ih =>
    simp only [erase, List.filter_cons, decide_not] at ih ⊢
    by_cases h : e.1 = k <;> simp only [h, lookup_cons_ite, decide_true, decide_false,
      Bool.not_true, Bool.not_false, Bool.false_eq_true, if_true, if_false, ih] <;> grind

@[simp] theorem lookup_modify (d : List (κ × α)) (k x : κ) (f : α → α) :
    (modify d k f).lookup x = if k = x then (d.lookup x).map f else d.lookup x := by
  induction d with
  | nil => simp [modify]
  | cons e d ih =>
    simp only [modify, List.map_cons, lookup_cons_ite] at ih ⊢
    rw [ih]
    by_cases h : e.1 = k <;> by_cases hx : e.1 = x <;> grind

/-! ## Updates that change nothing, and two updates -/

theorem set_self {d : List (κ × α)} {k : κ} {v : α} (h : d.lookup k = some v) :
    set d k v = d := by
  induction d with
  | nil => cases h
  | cons e d ih =>
    rw [lookup_cons_ite] at h
    rw [set]
    split at h
    · next hk =>
      obtain rfl := Option.some.inj h
      rw [if_pos hk, ← hk]
    · next hk => rw [if_neg hk, ih h]

theorem set_set (d : List (κ × α)) (k : κ) (v w : α) : set (set d k v) k w = set d k w := by
  induction d with
  | nil => simp [set]
  | cons e d ih => by_cases hk : e.1 = k <;> simp [set, hk, ih]

theorem modify_self {d : List (κ × α)} {k : κ} {f : α → α} (h : ∀ e ∈ d, e.1 = k → f e.2 = e.2) :
    modify d k f = d := by
  refine (List.map_congr_left fun e he => ?_).trans (List.map_id d)
  split
  · next hk => rw [h e he hk, ← hk, id]
  · rfl

theorem erase_self {d : List (κ × α)} {k : κ} (h : d.lookup k = none) : erase d k = d := by
  refine List.filter_eq_self.mpr fun e he => decide_eq_true ?_
  rintro rfl
  simpa using List.lookup_eq_none_iff.mp h e he

theorem erase_comm (d : List (κ × α)) (k k' : κ) : erase (erase d k) k' = erase (erase d k') k :=
  List.filter_comm _ _ d

/-- What was written to a key is gone when the key is. -/
theorem erase_set (d : List (κ × α)) (k : κ) (v : α) : erase (set d k v) k = erase d k := by
  induction d with
  | nil => simp [set, erase]
  | cons e d ih =>
    by_cases h : e.1 = k
    · simp [set, erase, h]
    · simpa [set, erase, h] using ih

theorem erase_modify (d : List (κ × α)) (k k' : κ) (f : α → α) :
    erase (modify d k' f) k = modify (erase d k) k' f := by
  induction d with
  | nil => rfl
  | cons e d ih =>
    simp only [erase, modify, List.map_cons, List.filter_cons] at ih ⊢
    by_cases hk' : e.1 = k' <;> by_cases hk : e.1 = k <;> grind

theorem modify_modify (d : List (κ × α)) (k : κ) (f g : α → α) :
    modify (modify d k f) k g = modify d k fun v => g (f v) := by
  rw [modify, modify, modify, List.map_map]
  refine List.map_congr_left fun e _ => ?_
  by_cases hk : e.1 = k <;> simp [hk]

theorem modify_comm (d : List (κ × α)) {k k' : κ} (h : k ≠ k') (f g : α → α) :
    modify (modify d k f) k' g = modify (modify d k' g) k f := by
  rw [modify, modify, modify, modify, List.map_map, List.map_map]
  refine List.map_congr_left fun e _ => ?_
  by_cases hk : e.1 = k <;> by_cases hk' : e.1 = k' <;> grind

/-- The members may be changed with their keys. -/
theorem lookup_map_members {β : Type} (d : List (κ × α)) (f : κ → α → β) (k : κ) :
    (d.map fun e => (e.1, f e.1 e.2)).lookup k = (d.lookup k).map (f k) := by
  induction d with
  | nil => rfl
  | cons e d ih =>
    rw [List.map_cons, lookup_cons_ite, lookup_cons_ite, ih]
    split
    · next hk => rw [← hk, Option.map_some]
    · rfl

/-! ## Keys -/

theorem mem_keys {d : List (κ × α)} {k : κ} : k ∈ keys d ↔ ∃ v, d.lookup k = some v := by
  induction d with
  | nil => simp [keys]
  | cons e d ih =>
    rw [lookup_cons_ite, keys, List.map_cons, List.mem_cons]
    by_cases h : e.1 = k
    · simp [h]
    · rw [if_neg h, ← ih]
      simp [Ne.symm h, keys]

theorem lookup_eq_none {d : List (κ × α)} {k : κ} : d.lookup k = none ↔ k ∉ keys d := by
  rw [mem_keys, ← Option.isSome_iff_exists, Option.not_isSome_iff_eq_none]

theorem keys_set (d : List (κ × α)) (k : κ) (v : α) :
    keys (set d k v) = if k ∈ keys d then keys d else keys d ++ [k] := by
  induction d with
  | nil => rfl
  | cons e d ih =>
    by_cases h : e.1 = k
    · simp [set, keys, h]
    · have hk : k ≠ e.1 := Ne.symm h
      simp only [set, if_neg h, keys, List.map_cons, List.mem_cons, hk, false_or] at ih ⊢
      by_cases hm : k ∈ d.map Prod.fst <;> simp [ih, hm]

@[simp] theorem keys_erase (d : List (κ × α)) (k : κ) :
    keys (erase d k) = (keys d).filter fun x => x ≠ k := by
  simp [keys, erase, List.filter_map, Function.comp_def]

@[simp] theorem keys_modify (d : List (κ × α)) (k : κ) (f : α → α) :
    keys (modify d k f) = keys d := by
  simp only [keys, modify, List.map_map]
  refine List.map_congr_left fun e _ => ?_
  by_cases h : e.1 = k <;> simp [h]

/-! ## Distinct keys -/

theorem nodup_keys_set {d : List (κ × α)} (h : (keys d).Nodup) (k : κ) (v : α) :
    (keys (set d k v)).Nodup := by
  rw [keys_set]
  split
  · exact h
  · next hk =>
    refine List.nodup_append.mpr ⟨h, by simp, ?_⟩
    rintro x hx _ (_ | ⟨_, ⟨⟩⟩)
    exact ne_of_mem_of_not_mem hx hk

theorem nodup_keys_erase {d : List (κ × α)} (h : (keys d).Nodup) (k : κ) :
    (keys (erase d k)).Nodup := by
  rw [keys_erase]
  exact h.filter _

/-- A dictionary is determined by its keys, in order, and its lookups. -/
theorem map_eq_of_lookup {β : Type} {d : List (κ × α)} {d' : List (κ × β)} {f : α → β}
    (hkeys : keys d' = keys d) (hnodup : (keys d).Nodup)
    (h : ∀ k, d'.lookup k = (d.lookup k).map f) : d.map (fun e => (e.1, f e.2)) = d' := by
  induction d generalizing d' with
  | nil =>
    cases d' with
    | nil => rfl
    | cons e' d' => cases hkeys
  | cons e d ih =>
    cases d' with
    | nil => cases hkeys
    | cons e' d' =>
      obtain ⟨k, x⟩ := e
      obtain ⟨k', y⟩ := e'
      obtain ⟨rfl, hrest⟩ := List.cons.inj hkeys
      obtain ⟨hnot, hnodup⟩ := List.nodup_cons.mp hnodup
      have hy : y = f x := by simpa [lookup_cons_ite] using h k'
      have ih := ih hrest hnodup fun j => by
        have hj := h j
        rw [lookup_cons_ite, lookup_cons_ite] at hj
        by_cases hk : k' = j
        · subst hk
          have hnot' : k' ∉ keys d' := by
            rw [keys, hrest]
            exact hnot
          rw [lookup_eq_none.mpr hnot, lookup_eq_none.mpr hnot']
          rfl
        · rwa [if_neg hk, if_neg hk] at hj
      rw [List.map_cons, ih, hy]

/-! ## Members -/

theorem mem_of_lookup {d : List (κ × α)} {k : κ} {v : α} (h : d.lookup k = some v) :
    (k, v) ∈ d := by
  obtain ⟨before, later, rfl, -⟩ := List.lookup_eq_some_iff.mp h
  simp

theorem lookup_of_mem {d : List (κ × α)} (h : (keys d).Nodup) {k : κ} {v : α}
    (hv : (k, v) ∈ d) : d.lookup k = some v := by
  induction d with
  | nil => cases hv
  | cons e d ih =>
    obtain ⟨hnot, hnodup⟩ := List.nodup_cons.mp h
    rw [lookup_cons_ite]
    rcases List.mem_cons.mp hv with rfl | hv
    · exact if_pos rfl
    · have hne : e.1 ≠ k := by
        rintro rfl
        exact hnot (List.mem_map.mpr ⟨_, hv, rfl⟩)
      rw [if_neg hne, ih hnodup hv]

theorem mem_set {d : List (κ × α)} {k : κ} {v : α} {e : κ × α} (h : e ∈ set d k v) :
    e = (k, v) ∨ e ∈ d := by
  induction d with
  | nil => simpa [set] using h
  | cons e' d ih =>
    rw [set] at h
    split at h
    · rcases List.mem_cons.mp h with h | h
      · exact .inl h
      · exact .inr (List.mem_cons_of_mem _ h)
    · rcases List.mem_cons.mp h with h | h
      · exact .inr (h ▸ List.mem_cons_self)
      · exact (ih h).imp_right (List.mem_cons_of_mem _)

theorem mem_modify {d : List (κ × α)} {k : κ} {f : α → α} {e : κ × α} (h : e ∈ modify d k f) :
    e ∈ d ∨ ∃ v, (k, v) ∈ d ∧ e = (k, f v) := by
  obtain ⟨e', he', rfl⟩ := List.mem_map.mp h
  by_cases hk : e'.1 = k
  · exact .inr ⟨e'.2, hk ▸ he', by simp [hk]⟩
  · exact .inl (by simpa [hk] using he')

/-! ## Mapping the values -/

section MapValues

variable {β : Type}

/-- Change every value. -/
def mapValues (f : α → β) (d : List (κ × α)) : List (κ × β) := d.map fun e => (e.1, f e.2)

theorem lookup_mapValues (f : α → β) (d : List (κ × α)) (k : κ) :
    (mapValues f d).lookup k = (d.lookup k).map f :=
  lookup_map_members d (fun _ => f) k

omit [DecidableEq κ] in
@[simp] theorem keys_mapValues (f : α → β) (d : List (κ × α)) : keys (mapValues f d) = keys d := by
  rw [keys, keys, mapValues, List.map_map]
  rfl

theorem mapValues_set (d : List (κ × α)) (k : κ) (v : α) (f : α → β) :
    mapValues f (set d k v) = set (mapValues f d) k (f v) := by
  induction d with
  | nil => rfl
  | cons e d ih =>
    by_cases h : e.1 = k
    · simp [mapValues, set, h]
    · simpa [mapValues, set, h] using ih

theorem mapValues_erase (d : List (κ × α)) (k : κ) (f : α → β) :
    mapValues f (erase d k) = erase (mapValues f d) k := by
  rw [mapValues, mapValues, erase, erase, List.filter_map]
  rfl

theorem mapValues_modify (d : List (κ × α)) (k : κ) (f : α → β) (g : α → α) (g' : β → β)
    (h : ∀ v, f (g v) = g' (f v)) : mapValues f (modify d k g) = modify (mapValues f d) k g' := by
  rw [mapValues, mapValues, modify, modify, List.map_map, List.map_map]
  refine List.map_congr_left fun e _ => ?_
  by_cases hk : e.1 = k <;> simp [hk, h]

end MapValues

/-! ## Related values -/

section Related

variable {α β : Type} {r : α → β → Prop} {x : Option α} {y : Option β} {a : α} {b : β}

theorem isSome_eq_of_rel (h : Option.Rel r x y) : x.isSome = y.isSome := by
  cases h <;> rfl

theorem eq_none_of_none_rel (h : Option.Rel r none y) : y = none := by
  cases h
  rfl

theorem eq_none_of_rel_none (h : Option.Rel r x none) : x = none := by
  cases h
  rfl

theorem exists_of_some_rel (h : Option.Rel r (some a) y) : ∃ b, y = some b ∧ r a b := by
  cases h with
  | some hab => exact ⟨_, rfl, hab⟩

theorem exists_of_rel_some (h : Option.Rel r x (some b)) : ∃ a, x = some a ∧ r a b := by
  cases h with
  | some hab => exact ⟨_, rfl, hab⟩

theorem rel_mono {q : α → β → Prop} (himp : ∀ a b, r a b → q a b) (h : Option.Rel r x y) :
    Option.Rel q x y := by
  cases h with
  | none => exact .none
  | some hab => exact .some (himp _ _ hab)

end Related

end Dictionary
