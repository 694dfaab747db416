import Mathlib.Data.List.Dedup
import Mathlib.Data.List.Fold
import Mathlib.Data.List.Perm.Basic
import WebhookRelay.Payload.Locations

/-!
# Deletions at many locations

Deletions one after another leave nothing at their locations and below them, and everywhere else
what was there, less the locations below it. Neither their order makes a difference nor how
often each of them is made.

## Main results

* `pruned_foldl` — what is left at every location.
* `foldl_prune_congr` — only the set of the locations counts.
-/

namespace WebhookRelay

open Dictionary

/-- For updates that commute and may be repeated, only the set of them counts. -/
theorem foldl_dedup {α β : Type} [DecidableEq α] {f : β → α → β} [RightCommutative f]
    (hidem : ∀ b a, f (f b a) a = f b a) (l : List α) (b : β) :
    l.dedup.foldl f b = l.foldl f b := by
  induction l generalizing b with
  | nil => rfl
  | cons a l ih =>
    by_cases ha : a ∈ l
    · have hrepeat : f (l.foldl f b) a = l.foldl f b := by
        have hperm := List.perm_cons_erase ha
        rw [hperm.foldl_eq, List.foldl_cons_eq_apply_foldl, hidem]
      rw [List.dedup_cons_of_mem ha, ih, List.foldl_cons_eq_apply_foldl, hrepeat]
    · rw [List.dedup_cons_of_notMem ha, List.foldl_cons, List.foldl_cons, ih]

namespace Json

/-- What deletions at some locations leave of a value. -/
structure Pruned (before : Json) (locs : List (List String)) (after : Json) : Prop where
  /-- nothing at the locations and below them -/
  gone : ∀ p ∈ locs, ∀ rest, after.at? (p ++ rest) = none
  /-- anywhere else what was there, less the locations below it -/
  kept : ∀ loc, (∀ p ∈ locs, ¬ p <+: loc) → after.at? loc =
    (before.at? loc).map ((locs.filterMap fun p => p.dropPrefix? loc).foldl prune)
  /-- just what was there, if there was nothing at the locations below it -/
  unchanged : ∀ loc, (∀ p ∈ locs, ¬ p <+: loc) →
    (∀ p ∈ locs, loc <+: p → before.has p = false) → after.at? loc = before.at? loc

theorem has_of_has_foldl_prune {locs : List (List String)} (hlocs : ∀ p ∈ locs, p ≠ [])
    {v : Json} {loc : List String} (h : (locs.foldl prune v).has loc) : v.has loc := by
  induction locs generalizing v with
  | nil => exact h
  | cons p locs ih =>
    obtain ⟨hp, hlocs⟩ := List.forall_mem_cons.mp hlocs
    exact has_of_has_prune hp (ih hlocs h)

theorem gone_foldl_prune {locs : List (List String)} (hlocs : ∀ p ∈ locs, p ≠ []) {v : Json}
    {p : List String} (hp : p ∈ locs) (rest : List String) :
    (locs.foldl prune v).at? (p ++ rest) = none := by
  induction locs generalizing v with
  | nil => cases hp
  | cons q locs ih =>
    obtain ⟨hq, hlocs'⟩ := List.forall_mem_cons.mp hlocs
    rw [List.foldl_cons]
    rcases List.mem_cons.mp hp with rfl | hp
    · rw [← Option.not_isSome_iff_eq_none]
      intro hsome
      have hhas : (v.prune p).has (p ++ rest) := has_of_has_foldl_prune hlocs' hsome
      rw [has, at?_prune_below v hq] at hhas
      cases hhas
    · exact ih hlocs' hp

theorem dropPrefix?_eq_some {p loc rest : List String} :
    p.dropPrefix? loc = some rest ↔ p = loc ++ rest := by
  simp [List.dropPrefix?_eq_some_iff]

theorem kept_foldl_prune {locs : List (List String)} {v : Json} {loc : List String}
    (h : ∀ p ∈ locs, ¬ p <+: loc) : (locs.foldl prune v).at? loc =
      (v.at? loc).map ((locs.filterMap fun p => p.dropPrefix? loc).foldl prune) := by
  induction locs generalizing v with
  | nil => simp
  | cons p locs ih =>
    obtain ⟨hp, h⟩ := List.forall_mem_cons.mp h
    rw [List.foldl_cons, ih h, List.filterMap_cons]
    cases hdrop : p.dropPrefix? loc with
    | none =>
      have hnot : ¬ loc <+: p := by
        rintro ⟨rest, hrest⟩
        rw [dropPrefix?_eq_some.mpr hrest.symm] at hdrop
        cases hdrop
      rw [at?_prune_elsewhere v hp hnot]
    | some rest =>
      obtain rfl := dropPrefix?_eq_some.mp hdrop
      have hrest : rest ≠ [] := by
        rintro rfl
        exact hp (by simp)
      rw [at?_prune_above v loc hrest, Option.map_map]
      rfl

theorem foldl_prune_absent {locs : List (List String)} {v : Json} (hv : v.WellFormed)
    (h : ∀ p ∈ locs, v.has p = false) : locs.foldl prune v = v := by
  induction locs with
  | nil => rfl
  | cons p locs ih =>
    obtain ⟨hp, h⟩ := List.forall_mem_cons.mp h
    rw [List.foldl_cons, prune_absent hv hp, ih h]

theorem pruned_foldl {v : Json} (hv : v.WellFormed) {locs : List (List String)}
    (hlocs : ∀ p ∈ locs, p ≠ []) : Pruned v locs (locs.foldl prune v) := by
  refine ⟨fun p hp rest => gone_foldl_prune hlocs hp rest, fun loc => kept_foldl_prune,
    fun loc h habsent => ?_⟩
  rw [kept_foldl_prune h]
  cases hw : v.at? loc with
  | none => rfl
  | some w =>
    rw [Option.map_some, foldl_prune_absent (hv.at? hw)]
    intro rest hrest
    obtain ⟨p, hp, hdrop⟩ := List.mem_filterMap.mp hrest
    obtain rfl := dropPrefix?_eq_some.mp hdrop
    have hnone := habsent _ hp (List.prefix_append loc rest)
    rwa [has, at?_append, hw, Option.bind_some] at hnone

/-! ## Order and repetition -/

theorem prune_nil (v : Json) : v.prune [] = v := by
  cases v <;> rfl

theorem prune_not_dict {v : Json} (h : v.isDict = false) (p : List String) : v.prune p = v := by
  cases v with
  | obj ms => cases h
  | _ => cases p <;> rfl

theorem prune_comm (v : Json) (p q : List String) :
    (v.prune p).prune q = (v.prune q).prune p := by
  fun_induction Json.prune v p generalizing q with
  | case1 ms k =>
    rcases q with - | ⟨k', - | ⟨x, q⟩⟩
    · rfl
    · exact congrArg obj (erase_comm ms k k')
    · exact congrArg obj (erase_modify ms k k' _).symm
  | case2 ms k loc hloc ih =>
    obtain ⟨y, loc, rfl⟩ := List.exists_cons_of_ne_nil hloc
    rcases q with - | ⟨k', - | ⟨x, q⟩⟩
    · rfl
    · exact congrArg obj (erase_modify ms k' k _)
    · refine congrArg obj ?_
      by_cases hk : k = k'
      · subst hk
        rw [modify_modify, modify_modify]
        simp only [ih]
      · exact modify_comm ms hk _ _
  | case3 p v hone hmore =>
    -- the value is no dictionary, or the location is empty
    cases hdict : v.isDict with
    | false => rw [prune_not_dict hdict, prune_not_dict hdict]
    | true =>
      have hp : p = [] := by
        cases v with
        | obj ms =>
          rcases p with - | ⟨k, - | ⟨x, p⟩⟩
          · rfl
          · exact (hone ms k rfl rfl).elim
          · exact (hmore ms k (x :: p) rfl rfl).elim
        | _ => cases hdict
      rw [hp, prune_nil]

instance prune_rightCommutative : RightCommutative prune := ⟨prune_comm⟩

theorem prune_prune (v : Json) (p : List String) : (v.prune p).prune p = v.prune p := by
  fun_induction Json.prune v p with
  | case1 ms k => exact congrArg obj (erase_self (by simp))
  | case2 ms k loc hloc ih =>
    obtain ⟨y, loc, rfl⟩ := List.exists_cons_of_ne_nil hloc
    refine congrArg obj ?_
    rw [modify_modify]
    simp only [ih]
  | case3 p v hone hmore => exact prune.eq_3 v p hone hmore

/-- Only the set of the locations counts. -/
theorem foldl_prune_congr {locs locs' : List (List String)} (h : ∀ p, p ∈ locs' ↔ p ∈ locs)
    (v : Json) : locs'.foldl prune v = locs.foldl prune v := by
  have hperm : locs'.dedup.Perm locs.dedup :=
    (List.perm_ext_iff_of_nodup locs'.nodup_dedup locs.nodup_dedup).mpr (by simpa using h)
  rw [← foldl_dedup prune_prune, hperm.foldl_eq, foldl_dedup prune_prune]

end Json

end WebhookRelay
