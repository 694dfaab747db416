import WebhookRelay.Payload.Denylist
import WebhookRelay.Payload.Values

/-!
# Payloads with one data key

If a payload has one key besides the metadata, a path stands for one target, whichever of the
two keys are still there when its turn comes. What the lists do to such a payload can be told
from these targets, `targetsOf`, and from the locations that they find.

## Main results

* `kept_of_one`, `sharedAt_of_one`, `keptKeys_of_one` — the allowlist by the targets of its
  paths.
* `survives_of_one` — what survives is kept and not denied.
-/

namespace WebhookRelay

open Dictionary Json

/-- What a path stands for in a payload with one data key. -/
def targetOf (dataKey path : String) : Option Target :=
  resolvePath (some dataKey) [dataKey, "event_metadata"] path

/-- The targets of a list of paths. -/
def targetsOf (dataKey : String) (paths : List String) : List Target :=
  paths.filterMap (targetOf dataKey)

/-- A path of the denylist stands for the location or for one above it. -/
def Denied (dataKey : String) (denylist : List String) (loc : List String) : Prop :=
  ∃ t ∈ targetsOf dataKey denylist, t.removes loc

/-! ## Resolution -/

theorem firstPrefix_eq_some {path key sub : String} {topKeys : List String}
    (h : firstPrefix path topKeys = some (key, sub)) :
    key ∈ topKeys ∧ subPath key path = some sub := by
  induction topKeys with
  | nil => cases h
  | cons k topKeys ih =>
    rw [firstPrefix] at h
    cases hk : subPath k path with
    | some sub' =>
      rw [hk] at h
      obtain ⟨rfl, rfl⟩ := Prod.mk.inj (Option.some.inj h)
      exact ⟨List.mem_cons_self, hk⟩
    | none =>
      rw [hk] at h
      exact (ih h).imp_left (List.mem_cons_of_mem k)

theorem firstPrefix_eq_none {path : String} {topKeys : List String}
    (h : ∀ key ∈ topKeys, subPath key path = none) : firstPrefix path topKeys = none := by
  cases hfirst : firstPrefix path topKeys with
  | none => rfl
  | some e =>
    obtain ⟨hmem, hsub⟩ := firstPrefix_eq_some hfirst
    rw [h _ hmem] at hsub
    cases hsub

section Resolution

variable {dataKey path : String} {current : Option String} {topKeys : List String} {t : Target}

/-- A path that is not about the metadata is about the data key. -/
theorem key_of_resolvePath (hcurrent : ∀ key, current = some key → key = dataKey)
    (htop : ∀ key ∈ topKeys, key = dataKey ∨ key = "event_metadata")
    (hmeta : path ≠ "event_metadata") (hmetaSub : subPath "event_metadata" path = none)
    (h : resolvePath current topKeys path = some t) : t.key = dataKey := by
  have htruthy : ∀ key, truthyKey current = some key → key = dataKey := fun key hkey =>
    hcurrent key (truthyKey_eq_some hkey).1
  unfold resolvePath at h
  simp only [hmeta, hmetaSub, if_false] at h
  split at h
  · obtain ⟨key, hkey, rfl⟩ := Option.map_eq_some_iff.mp h
    exact htruthy key hkey
  split at h
  · obtain ⟨key, hkey, rfl⟩ := Option.map_eq_some_iff.mp h
    exact htruthy key hkey
  split at h
  · next hpath =>
    obtain rfl := Option.some.inj h
    exact (htop path hpath).resolve_right hmeta
  · obtain ⟨⟨key, sub⟩, hfirst, rfl⟩ := Option.map_eq_some_iff.mp h
    obtain ⟨hmem, hsub⟩ := firstPrefix_eq_some hfirst
    refine (htop key hmem).resolve_right ?_
    rintro rfl
    rw [hmetaSub] at hsub
    cases hsub

/-- As long as the key of its target is there, a path resolves to what it stands for. -/
theorem resolvePath_iff_of_one (hcurrent : ∀ key, current = some key → key = dataKey)
    (hdata : dataKey ∈ topKeys → current = some dataKey)
    (htop : ∀ key ∈ topKeys, key = dataKey ∨ key = "event_metadata") (ht : t.key ∈ topKeys) :
    resolvePath current topKeys path = some t ↔ targetOf dataKey path = some t := by
  have hboth : ∀ key ∈ [dataKey, "event_metadata"], key = dataKey ∨ key = "event_metadata" := by
    simp
  by_cases hmeta : path = "event_metadata"
  · simp [targetOf, resolvePath, hmeta]
  cases hmetaSub : subPath "event_metadata" path with
  | some sub => simp [targetOf, resolvePath, hmeta, hmetaSub]
  | none =>
    by_cases hmem : dataKey ∈ topKeys
    · have hpath : path ∈ topKeys ↔ path ∈ [dataKey, "event_metadata"] := by
        constructor
        · intro h
          simp [(htop path h).resolve_right hmeta]
        · intro h
          rwa [(hboth path h).resolve_right hmeta]
      have hprefix : firstPrefix path topKeys = firstPrefix path [dataKey, "event_metadata"] := by
        cases hsub : subPath dataKey path with
        | some sub =>
          rw [firstPrefix_of_one hsub hmetaSub htop hmem,
            firstPrefix_of_one hsub hmetaSub hboth List.mem_cons_self]
        | none =>
          have hnone : ∀ key, key = dataKey ∨ key = "event_metadata" → subPath key path = none := by
            rintro key (rfl | rfl)
            · exact hsub
            · exact hmetaSub
          rw [firstPrefix_eq_none fun key hkey => hnone key (htop key hkey),
            firstPrefix_eq_none fun key hkey => hnone key (hboth key hkey)]
      simp only [targetOf, resolvePath, hdata hmem, hpath, hprefix]
    · -- without the data key there is nothing to resolve to
      constructor
      · intro h
        rw [key_of_resolvePath hcurrent htop hmeta hmetaSub h] at ht
        exact absurd ht hmem
      · intro h
        rw [key_of_resolvePath (by simp) hboth hmeta hmetaSub h] at ht
        exact absurd ht hmem

theorem key_of_removes {key : String} {rest : List String} (h : t.removes (key :: rest)) :
    t.key = key := by
  simp only [Target.removes, Bool.and_eq_true, List.isPrefixOf_iff_prefix, Target.location,
    List.cons_prefix_cons] at h
  exact h.2.1

/-- What the denylist removes from a key that is there is denied. -/
theorem denyTargets_iff_of_one (hcurrent : ∀ key, current = some key → key = dataKey)
    {denylist : List String} {key : String} {rest : List String}
    (hdata : dataKey ∈ topKeys → current = some dataKey)
    (htop : ∀ key ∈ topKeys, key = dataKey ∨ key = "event_metadata") (hkey : key ∈ topKeys) :
    (∃ t ∈ denyTargets current topKeys denylist, t.removes (key :: rest)) ↔
      Denied dataKey denylist (key :: rest) := by
  induction denylist generalizing topKeys with
  | nil => simp [denyTargets, Denied, targetsOf]
  | cons path denylist ih =>
    have hcons : Denied dataKey (path :: denylist) (key :: rest) ↔
        (∃ t, targetOf dataKey path = some t ∧ t.removes (key :: rest)) ∨
          Denied dataKey denylist (key :: rest) := by
      unfold Denied targetsOf
      rw [List.filterMap_cons]
      cases targetOf dataKey path <;> simp
    have hresolve : ∀ {t : Target}, t.removes (key :: rest) →
        (resolvePath current topKeys path = some t ↔ targetOf dataKey path = some t) :=
      fun h => resolvePath_iff_of_one hcurrent hdata htop ((key_of_removes h).symm ▸ hkey)
    rw [hcons, denyTargets]
    cases hpath : resolvePath current topKeys path with
    | none =>
      have hnot : ¬ ∃ t, targetOf dataKey path = some t ∧ t.removes (key :: rest) := by
        rintro ⟨t, ht, hremoves⟩
        rw [← hresolve hremoves, hpath] at ht
        cases ht
      rw [or_iff_right hnot]
      exact ih hdata htop hkey
    | some t =>
      have hfirst : (∃ t', targetOf dataKey path = some t' ∧ t'.removes (key :: rest)) ↔
          t.removes (key :: rest) := by
        constructor
        · rintro ⟨t', ht', hremoves⟩
          rw [← hresolve hremoves, hpath] at ht'
          rwa [Option.some.inj ht']
        · exact fun hremoves => ⟨t, (hresolve hremoves).mp hpath, hremoves⟩
      simp only [List.mem_cons, exists_eq_or_imp, hfirst]
      -- an earlier path may have removed the whole key already
      cases hgone : t.removes [key] with
      | true => simp [removes_of_removes_key hgone rest]
      | false =>
        have hleft : ∀ {k}, k ∈ t.removeFrom topKeys → k ∈ topKeys := fun hk =>
          List.mem_of_mem_filter (t.removeFrom_eq topKeys ▸ hk)
        have hstays : key ∈ t.removeFrom topKeys := by simp [t.removeFrom_eq, hkey, hgone]
        rw [ih (fun h => hdata (hleft h)) (fun k hk => htop k (hleft hk)) hstays]

end Resolution

/-! ## The lists -/

theorem Target.key_mem_of_found {payload : Members} {t : Target} (h : t.found payload) :
    t.key ∈ keys payload := by
  unfold Target.found at h
  cases hv : (obj payload).at? t.location with
  | none => rw [hv] at h; cases h
  | some v =>
    obtain ⟨w, hw, -⟩ := Option.bind_eq_some_iff.mp hv
    exact mem_keys.mpr ⟨w, hw⟩

section OneDataKey

variable {dataKey : String} (hne : dataKey ≠ "event_metadata")
include hne

theorem dataKeyOf_of_one {topKeys : List String}
    (htop : ∀ key ∈ topKeys, key = dataKey ∨ key = "event_metadata") :
    (∀ key, dataKeyOf topKeys = some key → key = dataKey) ∧
      (dataKey ∈ topKeys → dataKeyOf topKeys = some dataKey) := by
  have hfirst : ∀ key, dataKeyOf topKeys = some key → key = dataKey := fun key hkey => by
    have hnot : key ≠ "event_metadata" := by simpa using List.find?_some hkey
    exact (htop key (List.mem_of_find?_eq_some hkey)).resolve_right hnot
  refine ⟨hfirst, fun hmem => ?_⟩
  obtain ⟨first, hfind⟩ : ∃ first, dataKeyOf topKeys = some first :=
    Option.isSome_iff_exists.mp (List.find?_isSome.mpr ⟨dataKey, hmem, by simpa using hne⟩)
  rw [hfind, hfirst first hfind]

variable {payload : Payload}
  (hkeys : ∀ key ∈ keys payload.members, key = dataKey ∨ key = "event_metadata")
include hkeys

/-- The targets that are found are those of the paths. -/
theorem found_allowTargets (allowlist : List String) :
    (allowTargets payload.members allowlist).filter (Target.found payload.members) =
      (targetsOf dataKey allowlist).filter (Target.found payload.members) := by
  rw [allowTargets, targetsOf, List.filter_filterMap, List.filter_filterMap]
  refine List.filterMap_congr fun path _ => Option.ext fun t => ?_
  rw [Option.filter_eq_some_iff, Option.filter_eq_some_iff]
  refine and_congr_left fun hfound => ?_
  obtain ⟨hfirst, hdata⟩ := dataKeyOf_of_one hne hkeys
  exact resolvePath_iff_of_one hfirst hdata hkeys (Target.key_mem_of_found hfound)

theorem any_allowTargets {f : Target → Bool} (hf : ∀ t, f t → t.found payload.members)
    (allowlist : List String) :
    (allowTargets payload.members allowlist).any f = (targetsOf dataKey allowlist).any f := by
  have hfilter : ∀ targets : List Target,
      (targets.filter (Target.found payload.members)).any f = targets.any f := by
    intro targets
    rw [List.any_filter]
    congr 1
    funext t
    cases ht : f t with
    | false => rw [Bool.and_false]
    | true => rw [hf t ht, Bool.and_self]
  rw [← hfilter, found_allowTargets hne hkeys, hfilter]

theorem kept_of_one (allowlist loc : List String) : kept payload.members allowlist loc =
    if allowlist = [] then (obj payload.members).has loc
    else (targetsOf dataKey allowlist).any fun t => t.keeps payload.members loc := by
  rw [kept, any_allowTargets hne hkeys fun t ht => ?_]
  rw [Target.keeps, Bool.and_eq_true] at ht
  exact ht.1

theorem sharedAt_of_one (allowlist loc : List String) : sharedAt payload.members allowlist loc =
    if allowlist = [] then decide (loc ≠ [])
    else (targetsOf dataKey allowlist).any fun t => t.shares payload.members loc := by
  rw [sharedAt, any_allowTargets hne hkeys fun t ht => (Target.shares_iff.mp ht).1]

/-- A loop that passes over targets that are not found. -/
theorem foldl_allowTargets {β : Type} {f : β → Target → β}
    (hf : ∀ b t, t.found payload.members = false → f b t = b) (allowlist : List String) (b : β) :
    (allowTargets payload.members allowlist).foldl f b =
      (targetsOf dataKey allowlist).foldl f b := by
  have hfilter : ∀ targets : List Target,
      (targets.filter (Target.found payload.members)).foldl f b = targets.foldl f b := by
    intro targets
    rw [List.foldl_filter]
    congr 1
    funext b t
    split
    · rfl
    · next hfound => rw [hf b t (Bool.eq_false_iff.mpr hfound)]
  rw [← hfilter, found_allowTargets hne hkeys, hfilter]

theorem keptKeys_of_one (allowlist : List String) : keptKeys payload.members allowlist =
    if allowlist = [] then keys payload.members
    else (targetsOf dataKey allowlist).foldl (Target.addTo payload.members) [] := by
  rw [keptKeys, foldl_allowTargets hne hkeys fun topKeys t hfound => ?_]
  simp [Target.addTo, hfound]

/-- What survives is kept and not denied. -/
theorem survives_of_one (allowlist denylist : List String) {loc : List String} (hloc : loc ≠ []) :
    survives payload.members allowlist denylist loc ↔
      kept payload.members allowlist loc ∧ ¬ Denied dataKey denylist loc := by
  rw [survives, Bool.and_eq_true]
  refine and_congr_right fun hkept => ?_
  obtain ⟨key, rest, rfl⟩ := List.exists_cons_of_ne_nil hloc
  obtain ⟨htop, hfirst⟩ := keptKeys_spec payload allowlist
  have htop : ∀ key ∈ keptKeys payload.members allowlist,
      key = dataKey ∨ key = "event_metadata" := fun key hkey => hkeys key (htop key hkey)
  obtain ⟨hcurrent, hdata⟩ := dataKeyOf_of_one hne htop
  rw [← denyTargets_iff_of_one hcurrent hdata htop (hfirst key rest hkept), deniedTargets]
  simp

end OneDataKey

end WebhookRelay
