import WebhookRelay.Payload.OneDataKey
import WebhookRelay.Payload.Pruning

/-!
# The denylist is exact on events

The payload of an event has one data key and possibly the metadata. A path of the denylist is
resolved in the keys that are still there, but it prunes what it says of the whole payload: where
its key is gone already, there is nothing left to prune.

## Main results

* `denylist_exact` — the denylist prunes the locations of its paths and nothing else.
-/

namespace WebhookRelay

open Dictionary Json

/-- The locations, one at most, that a path of the denylist prunes in the payload of an event. -/
def prunedAt (dataKey path : String) : List (List String) :=
  if path = "event_metadata" then [["event_metadata"]]
  else match subPath "event_metadata" path with
  | some sub => below "event_metadata" sub
  | none =>
    if path = "data" then [[dataKey]]
    else match subPath "data" path with
    | some sub => below dataKey sub
    | none =>
      if path = dataKey then [[dataKey]]
      else (subPath dataKey path).toList.flatMap (below dataKey)

theorem ne_nil_of_prunedAt {dataKey path : String} {loc : List String}
    (h : loc ∈ prunedAt dataKey path) : loc ≠ [] := by
  rintro rfl
  unfold prunedAt at h
  repeat' split at h
  all_goals simp [mem_below] at h

/-! ## One path -/

theorem obj_modify_below (ms : Members) (key sub : String) :
    obj (modify ms key fun v => deleteNestedPath v sub) = (below key sub).foldl prune (obj ms) := by
  have hremove := Target.remove_eq ms { key, sub := some sub }
  by_cases hsub : sub = ""
  · subst hsub
    exact congrArg obj hremove
  · rw [if_neg (by simpa using hsub), Target.location] at hremove
    simp only [if_neg hsub] at hremove
    rw [below, if_neg hsub, List.foldl_cons, List.foldl_nil, ← obj_members_prune]
    exact congrArg obj hremove

section Event

variable {dataKey : String} (hne : dataKey ≠ "") (hdata : dataKey ≠ "event_metadata")
include hne hdata

/-- Whether its key is still there or not, a path prunes its locations. -/
theorem obj_denyPath {remaining : Members}
    (hkeys : ∀ key ∈ keys remaining, key = dataKey ∨ key = "event_metadata") (path : String) :
    obj (denyPath (some dataKey) remaining path) =
      (prunedAt dataKey path).foldl prune (obj remaining) := by
  have htruthy : truthyKey (some dataKey) = some dataKey := by
    simp [truthyKey, Option.filter_some, hne]
  unfold denyPath prunedAt
  by_cases hmeta : path = "event_metadata"
  · rw [if_pos hmeta, if_pos hmeta]
    rfl
  rw [if_neg hmeta, if_neg hmeta]
  cases hmetaSub : subPath "event_metadata" path with
  | some sub => exact obj_modify_below remaining "event_metadata" sub
  | none =>
  simp only [htruthy]
  by_cases halias : path = "data"
  · rw [if_pos halias, if_pos halias]
    rfl
  rw [if_neg halias, if_neg halias]
  cases subPath "data" path with
  | some sub => exact obj_modify_below remaining dataKey sub
  | none =>
  dsimp only
  have hnone : dataKey ∉ keys remaining → firstPrefix path (keys remaining) = none := by
    intro hgone
    refine firstPrefix_eq_none fun key hkey => ?_
    rcases hkeys key hkey with rfl | rfl
    · exact absurd hkey hgone
    · exact hmetaSub
  by_cases hpath : path = dataKey
  · subst hpath
    rw [if_pos rfl]
    by_cases hkey : path ∈ keys remaining
    · rw [if_pos hkey]
      rfl
    · rw [if_neg hkey, hnone hkey]
      exact congrArg obj (erase_self (lookup_eq_none.mpr hkey)).symm
  · have hnot : path ∉ keys remaining := fun hkey => (hkeys path hkey).elim hpath hmeta
    rw [if_neg hpath, if_neg hnot]
    cases hsub : subPath dataKey path with
    | none =>
      have hfirst : firstPrefix path (keys remaining) = none := by
        refine firstPrefix_eq_none fun key hkey => ?_
        rcases hkeys key hkey with rfl | rfl
        · exact hsub
        · exact hmetaSub
      rw [hfirst]
      rfl
    | some sub =>
      have hbelow := obj_modify_below remaining dataKey sub
      rw [Option.toList_some, List.flatMap_singleton, ← hbelow]
      by_cases hkey : dataKey ∈ keys remaining
      · rw [firstPrefix_of_one hsub hmetaSub hkeys hkey]
      · rw [hnone hkey]
        refine congrArg obj (modify_self fun e he hk => ?_).symm
        exact absurd (hk ▸ List.mem_map_of_mem he) hkey

omit hne hdata in
theorem keys_denyPath {current : Option String} {remaining : Members} {path key : String}
    (h : key ∈ keys (denyPath current remaining path)) : key ∈ keys remaining := by
  rw [denyPath_eq] at h
  cases hpath : resolvePath current (keys remaining) path with
  | none =>
    rw [hpath] at h
    exact h
  | some t =>
    rw [hpath, Option.map_some, Option.getD_some, Target.keys_remove, Target.removeFrom_eq] at h
    exact List.mem_of_mem_filter h

/-- The whole list prunes the locations of all its paths. -/
theorem obj_foldl_denyPath {remaining : Members}
    (hkeys : ∀ key ∈ keys remaining, key = dataKey ∨ key = "event_metadata")
    (denylist : List String) : obj (denylist.foldl (denyPath (some dataKey)) remaining) =
      (denylist.flatMap (prunedAt dataKey)).foldl prune (obj remaining) := by
  induction denylist generalizing remaining with
  | nil => rfl
  | cons path denylist ih =>
    rw [List.foldl_cons, ih fun key hkey => hkeys key (keys_denyPath hkey), List.flatMap_cons,
      List.foldl_append, obj_denyPath hne hdata hkeys]

end Event

/-! ## The whole of it -/

/-- The denylist is exact on the payload of an event: it prunes the locations of its paths and
nothing else, and leaves the same for every list of the same paths. -/
theorem denylist_exact (payload : Payload) {dataKey : String} (hne : dataKey ≠ "")
    (hdata : dataKey ≠ "event_metadata") (hmem : dataKey ∈ keys payload.members)
    (hkeys : ∀ key ∈ keys payload.members, key = dataKey ∨ key = "event_metadata")
    (denylist : List String) :
    ∃ result : Payload, applyDenylist payload (pathList denylist) = .ok result ∧
      obj result.members =
        (denylist.flatMap (prunedAt dataKey)).foldl prune (obj payload.members) ∧
      Pruned (obj payload.members) (denylist.flatMap (prunedAt dataKey)) (obj result.members) ∧
      ∀ denylist' : List String, (∀ path, path ∈ denylist' ↔ path ∈ denylist) →
        applyDenylist payload (pathList denylist') = .ok result := by
  have hleft : ∀ denylist : List String, ∃ result : Payload,
      applyDenylist payload (pathList denylist) = .ok result ∧ obj result.members =
        (denylist.flatMap (prunedAt dataKey)).foldl prune (obj payload.members) := by
    intro denylist
    obtain ⟨result, hresult, hmembers⟩ := applyDenylist_pathList payload denylist
    refine ⟨result, hresult, ?_⟩
    rw [hmembers, (dataKeyOf_of_one hdata hkeys).2 hmem, obj_foldl_denyPath hne hdata hkeys]
  obtain ⟨result, hresult, hfold⟩ := hleft denylist
  refine ⟨result, hresult, hfold, ?_, fun denylist' hset => ?_⟩
  · rw [hfold]
    refine pruned_foldl payload.wellFormed fun loc hloc => ?_
    obtain ⟨path, -, hpruned⟩ := List.mem_flatMap.mp hloc
    exact ne_nil_of_prunedAt hpruned
  · obtain ⟨result', hresult', hfold'⟩ := hleft denylist'
    have hsame : obj result'.members = obj result.members := by
      rw [hfold, hfold']
      exact foldl_prune_congr (by simp [hset]) _
    obtain ⟨members, hwell⟩ := result
    obtain ⟨members', hwell'⟩ := result'
    obtain rfl := Json.obj.inj hsame
    exact hresult'

/-- An event with a learner's address. -/
def registered : Payload where
  members := [("openedx_events.learning.data.UserData", .obj [("email", .str "ada@example.com")]),
    ("event_metadata", .obj [])]
  wellFormed := by
    have hlearner : (obj [("email", .str "ada@example.com")]).WellFormed :=
      .obj (by simp [keys]) (by simp [WellFormed.str])
    have hempty : (obj []).WellFormed := .obj (by simp [keys]) (by simp)
    refine .obj (by simp [keys]) ?_
    simpa using ⟨hlearner, hempty⟩

/-- The address is denied twice, by the alias and by the name of the data key. -/
theorem denylist_exact_email :
    ∃ result : Payload,
      applyDenylist registered
        (pathList ["data.email", "openedx_events.learning.data.UserData.email"]) = .ok result ∧
      Pruned (obj registered.members)
        (["data.email", "openedx_events.learning.data.UserData.email"].flatMap
          (prunedAt "openedx_events.learning.data.UserData")) (obj result.members) := by
  have hmem : "openedx_events.learning.data.UserData" ∈ keys registered.members := by
    simp [registered, keys]
  obtain ⟨result, hresult, -, hpruned, -⟩ := denylist_exact registered (by decide) (by decide)
    hmem (by simp [registered, keys])
    ["data.email", "openedx_events.learning.data.UserData.email"]
  exact ⟨result, hresult, hpruned⟩

end WebhookRelay
