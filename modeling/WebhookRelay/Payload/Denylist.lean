import WebhookRelay.Payload.Shape

/-!
# What a denylist promises

A path of the denylist is written with the raw payload in mind. There it denotes locations:
the aliases stand for the metadata and for the first other key, and anything else for a
top-level key or for what lies below all the keys that it starts with. The task resolves
the path later, against the keys that are still there, and to one target at most.

## Main results

* `denylist_wins_iff` — nothing is left where the denylist denotes something exactly if
  every such location that the allowlist keeps lies below a target that the task resolves.
* `denylist_wins_of_one_data_key` — this is so if the raw payload has one key besides the
  metadata, and that key is not empty.
-/

namespace WebhookRelay

open Dictionary Json

/-- The location of a dotted path below a key; the empty path has none. -/
def below (key sub : String) : List (List String) :=
  if sub = "" then [] else [key :: segments sub]

/-- The locations that a path of the denylist denotes in a payload. -/
def denoted (payload : Members) (path : String) : List (List String) :=
  if path = "event_metadata" then [["event_metadata"]]
  else match subPath "event_metadata" path with
  | some sub => below "event_metadata" sub
  | none =>
    if path = "data" then (eventDataKey payload).toList.map fun key => [key]
    else match subPath "data" path with
    | some sub => (eventDataKey payload).toList.flatMap fun key => below key sub
    | none =>
      if path ∈ keys payload then [[path]]
      else (keys payload).flatMap fun key => (subPath key path).toList.flatMap (below key)

theorem mem_below {key sub : String} {loc : List String} :
    loc ∈ below key sub ↔ sub ≠ "" ∧ loc = key :: segments sub := by
  unfold below
  split <;> simp [*]

theorem ne_nil_of_denoted {payload : Members} {path : String} {loc : List String}
    (h : loc ∈ denoted payload path) : loc ≠ [] := by
  rintro rfl
  unfold denoted at h
  repeat' split at h
  all_goals simp [mem_below] at h

/-- What the allowlist keeps is gone exactly if a target of the denylist removes it. -/
theorem gone_iff {payload shaped : Members} {allowlist denylist : List String}
    (h : Shaped payload allowlist denylist shaped) {loc : List String} (hloc : loc ≠ []) :
    (obj shaped).at? loc = none ↔ (kept payload allowlist loc →
      ∃ t ∈ deniedTargets payload allowlist denylist, t.removes loc) := by
  rw [← Option.not_isSome_iff_eq_none, ← has, h.has loc hloc, survives]
  simp

/-- Nothing is left where the denylist denotes something exactly if every such location that
the allowlist keeps lies below a target of the denylist, as resolved in the kept keys. -/
theorem denylist_wins_iff (payload : Payload) (endpoint : WebhookEndpoint)
    (allowlist denylist : List String) :
    (∃ shaped shouldSend, shapeAndCheck payload
        { endpoint with piiAllowlist := pathList allowlist, piiDenylist := pathList denylist } =
          .ok (shaped, shouldSend) ∧
        ∀ path ∈ denylist, ∀ loc ∈ denoted payload.members path,
          (obj shaped.members).at? loc = none) ↔
      ∀ path ∈ denylist, ∀ loc ∈ denoted payload.members path,
        kept payload.members allowlist loc →
          ∃ t ∈ deniedTargets payload.members allowlist denylist, t.removes loc := by
  obtain ⟨shaped, hshape, hshaped⟩ := shapeAndCheck_shaped payload
    { endpoint with piiAllowlist := pathList allowlist, piiDenylist := pathList denylist } rfl rfl
  constructor
  · rintro ⟨other, shouldSend, hother, hwins⟩ path hpath loc hloc
    obtain rfl : shaped = other := by
      rw [hshape] at hother
      cases hother
      rfl
    exact (gone_iff hshaped (ne_nil_of_denoted hloc)).mp (hwins path hpath loc hloc)
  · intro hcovered
    exact ⟨shaped, _, hshape, fun path hpath loc hloc =>
      (gone_iff hshaped (ne_nil_of_denoted hloc)).mpr (hcovered path hpath loc hloc)⟩

/-- A file to redeliver with two data keys. -/
def twoRecords : Payload where
  members := [("learner", .obj [("email", .str "ada@example.com")]), ("course", .obj [])]
  wellFormed := by
    refine .obj (by decide) ?_
    simp only [List.forall_mem_cons]
    refine ⟨.obj (by decide) ?_, .obj (by decide) (by simp), by simp⟩
    simpa using WellFormed.str "ada@example.com"

/-- The allowlist puts the second key first, so that `data` stands for another one. -/
theorem email_leaks :
    ["learner", "email"] ∈ denoted twoRecords.members "data.email" ∧
      (shapeAndCheck twoRecords { newEndpoint with
          piiAllowlist := pathList ["course", "learner"]
          piiDenylist := pathList ["data.email"] }).map
        (fun shaped => ((obj shaped.1.members).at? ["learner", "email"]).isSome) = .ok true :=
  ⟨by decide, rfl⟩

/-! ## One data key -/

section OneDataKey

variable {payload : Members} {dataKey : String}

/-- The kept keys are keys of the payload, and the first key of a kept location is kept. -/
theorem keptKeys_spec (payload : Payload) (allowlist : List String) :
    (∀ key ∈ keptKeys payload.members allowlist, key ∈ keys payload.members) ∧
      ∀ key rest, kept payload.members allowlist (key :: rest) →
        key ∈ keptKeys payload.members allowlist := by
  obtain ⟨result, -, hdrawn, hkeys, hhas⟩ := allowed_spec payload allowlist
  rw [← hkeys]
  constructor
  · intro key hkey
    obtain ⟨v, hv⟩ := Option.isSome_iff_exists.mp (has_key.mpr hkey)
    obtain ⟨w, hw, -⟩ := hdrawn [key] v (by simp) hv
    exact has_key.mp (Option.isSome_of_eq_some hw)
  · intro key rest hkept
    rw [← hhas _ (by simp)] at hkept
    obtain ⟨v, hv⟩ := Option.isSome_iff_exists.mp hkept
    have hbelow : (obj result.members).at? ([key] ++ rest) = some v := hv
    obtain ⟨w, hw⟩ := at?_of_prefix hbelow
    exact has_key.mp (Option.isSome_of_eq_some hw)

/-- Of the keys that are left at most the data key is a dotted prefix of a path that is not
below the metadata. -/
theorem firstPrefix_of_one {path sub : String} (hsub : subPath dataKey path = some sub)
    (hmeta : subPath "event_metadata" path = none) :
    ∀ {topKeys : List String}, (∀ key ∈ topKeys, key = dataKey ∨ key = "event_metadata") →
      dataKey ∈ topKeys → firstPrefix path topKeys = some (dataKey, sub)
  | [], _, h => by cases h
  | key :: topKeys, hkeys, h => by
    rcases hkeys key List.mem_cons_self with rfl | rfl
    · simp [firstPrefix, hsub]
    · have hne : dataKey ≠ "event_metadata" := by
        rintro rfl
        simp [hsub] at hmeta
      simp only [firstPrefix, hmeta]
      exact firstPrefix_of_one hsub hmeta (fun k hk => hkeys k (List.mem_cons_of_mem _ hk))
        ((List.mem_cons.mp h).resolve_left hne)

theorem removes_below {key sub : String} (h : sub ≠ "") :
    ({ key, sub := some sub } : Target).removes (key :: segments sub) := by
  simp [Target.removes, Target.location, h]

theorem removes_key (key : String) (rest : List String) :
    ({ key } : Target).removes (key :: rest) := by
  simp [Target.removes, Target.location]

/-- With one data key, a path resolves to what it denotes as long as its key is there. -/
theorem resolvePath_of_denoted (hne : dataKey ≠ "")
    (hkeys : ∀ key ∈ keys payload, key = dataKey ∨ key = "event_metadata")
    {topKeys : List String} (htop : ∀ key ∈ topKeys, key ∈ keys payload) {path key : String}
    {rest : List String} (hloc : key :: rest ∈ denoted payload path) (hkey : key ∈ topKeys)
    {current : Option String} (hcurrent : key ≠ "event_metadata" → current = some dataKey) :
    ∃ t, resolvePath current topKeys path = some t ∧ t.removes (key :: rest) := by
  have htruthy : eventDataKey payload = some key →
      truthyKey current = some key := fun hfirst => by
    have hdata : key ≠ "event_metadata" := by simpa using List.find?_some hfirst
    obtain rfl : key = dataKey := (hkeys key (htop key hkey)).resolve_right hdata
    simp [truthyKey, hcurrent hdata, Option.filter_some, hne]
  unfold denoted at hloc
  unfold resolvePath
  by_cases hmeta : path = "event_metadata"
  · obtain ⟨rfl, rfl⟩ : key = "event_metadata" ∧ rest = [] := by simpa [hmeta] using hloc
    exact ⟨_, if_pos hmeta, removes_key _ _⟩
  rw [if_neg hmeta] at hloc ⊢
  cases hmetaSub : subPath "event_metadata" path with
  | some sub =>
    obtain ⟨hsub, hloc⟩ := mem_below.mp (by simpa [hmetaSub] using hloc)
    obtain ⟨rfl, rfl⟩ := List.cons.inj hloc
    exact ⟨_, rfl, removes_below hsub⟩
  | none =>
  simp only [hmetaSub] at hloc ⊢
  by_cases hdata : path = "data"
  · obtain ⟨hfirst, rfl⟩ : eventDataKey payload = some key ∧ rest = [] := by
      simpa [hdata, eq_comm] using hloc
    exact ⟨_, by rw [if_pos hdata, htruthy hfirst]; rfl, removes_key _ _⟩
  rw [if_neg hdata] at hloc ⊢
  cases hdataSub : subPath "data" path with
  | some sub =>
    obtain ⟨first, hfirst, hbelow⟩ : ∃ first, eventDataKey payload = some first ∧
      key :: rest ∈ below first sub := by simpa [hdataSub] using hloc
    obtain ⟨hsub, hloc⟩ := mem_below.mp hbelow
    obtain ⟨rfl, rfl⟩ := List.cons.inj hloc
    exact ⟨_, by rw [htruthy hfirst]; rfl, removes_below hsub⟩
  | none =>
  simp only [hdataSub] at hloc ⊢
  by_cases hpath : path ∈ keys payload
  · obtain ⟨rfl, rfl⟩ : key = path ∧ rest = [] := by simpa [hpath] using hloc
    exact ⟨_, if_pos hkey, removes_key _ _⟩
  · rw [if_neg hpath] at hloc
    obtain ⟨k, -, hbelow⟩ := List.mem_flatMap.mp hloc
    obtain ⟨sub, hsub, hbelow⟩ : ∃ sub, subPath k path = some sub ∧ key :: rest ∈ below k sub := by
      simpa using hbelow
    obtain ⟨hne', hloc⟩ := mem_below.mp hbelow
    obtain ⟨rfl, rfl⟩ := List.cons.inj hloc
    have hdataKey : key ≠ "event_metadata" := by
      rintro rfl
      simp [hsub] at hmetaSub
    obtain rfl : key = dataKey := (hkeys key (htop key hkey)).resolve_right hdataKey
    have hfirst := firstPrefix_of_one hsub hmetaSub (fun k hk => hkeys k (htop k hk)) hkey
    exact ⟨_, by rw [if_neg (mt (htop path) hpath), hfirst]; rfl, removes_below hne'⟩

theorem removes_of_removes_key {t : Target} {key : String} (h : t.removes [key])
    (rest : List String) : t.removes (key :: rest) := by
  simp only [Target.removes, Bool.and_eq_true, List.isPrefixOf_iff_prefix] at h ⊢
  exact ⟨h.1, h.2.trans ⟨rest, rfl⟩⟩

/-- With one data key, some target removes what a path of the denylist denotes. -/
theorem denyTargets_cover (hne : dataKey ≠ "")
    (hkeys : ∀ key ∈ keys payload, key = dataKey ∨ key = "event_metadata") {path key : String}
    {rest : List String} (hloc : key :: rest ∈ denoted payload path) {current : Option String}
    (hcurrent : key ≠ "event_metadata" → current = some dataKey) {denylist : List String}
    (hpath : path ∈ denylist) :
    ∀ topKeys, (∀ k ∈ topKeys, k ∈ keys payload) → key ∈ topKeys →
      ∃ t ∈ denyTargets current topKeys denylist, t.removes (key :: rest) := by
  induction denylist with
  | nil => cases hpath
  | cons first denylist ih =>
    intro topKeys htop hkey
    rcases List.mem_cons.mp hpath with rfl | hlater
    · obtain ⟨t, ht, hremoves⟩ := resolvePath_of_denoted hne hkeys htop hloc hkey hcurrent
      exact ⟨t, by simp [denyTargets, ht], hremoves⟩
    rw [denyTargets]
    cases resolvePath current topKeys first with
    | none => exact ih hlater topKeys htop hkey
    | some t =>
      -- an earlier path may have removed the whole key already
      cases hgone : t.removes [key] with
      | true => exact ⟨t, List.mem_cons_self, removes_of_removes_key hgone rest⟩
      | false =>
        have hleft : ∀ k, k ∈ t.removeFrom topKeys → k ∈ topKeys := fun k hk =>
          List.mem_of_mem_filter (t.removeFrom_eq topKeys ▸ hk)
        obtain ⟨u, hu, hremoves⟩ := ih hlater (t.removeFrom topKeys)
          (fun k hk => htop k (hleft k hk)) (by simp [Target.removeFrom_eq, hkey, hgone])
        exact ⟨u, List.mem_cons_of_mem t hu, hremoves⟩

end OneDataKey

/-- The denylist wins if the raw payload has one key besides the metadata, not the empty
one. -/
theorem denylist_wins_of_one_data_key (payload : Payload) (endpoint : WebhookEndpoint)
    (allowlist denylist : List String) {dataKey : String} (hne : dataKey ≠ "")
    (hkeys : ∀ key ∈ keys payload.members, key = dataKey ∨ key = "event_metadata") :
    ∃ shaped shouldSend, shapeAndCheck payload
        { endpoint with piiAllowlist := pathList allowlist, piiDenylist := pathList denylist } =
          .ok (shaped, shouldSend) ∧
        ∀ path ∈ denylist, ∀ loc ∈ denoted payload.members path,
          (obj shaped.members).at? loc = none := by
  obtain ⟨shaped, hshape, hshaped⟩ := shapeAndCheck_shaped payload
    { endpoint with piiAllowlist := pathList allowlist, piiDenylist := pathList denylist } rfl rfl
  refine ⟨shaped, _, hshape, fun path hpath loc hloc => ?_⟩
  refine (gone_iff hshaped (ne_nil_of_denoted hloc)).mpr fun hkept => ?_
  obtain ⟨key, rest, rfl⟩ := List.exists_cons_of_ne_nil (ne_nil_of_denoted hloc)
  obtain ⟨htop, hfirst⟩ := keptKeys_spec payload allowlist
  have hkey := hfirst key rest hkept
  have hcurrent : key ≠ "event_metadata" →
      dataKeyOf (keptKeys payload.members allowlist) = some dataKey := fun hdata => by
    obtain ⟨first, hfind⟩ : ∃ first, dataKeyOf (keptKeys payload.members allowlist) = some first :=
      Option.isSome_iff_exists.mp (List.find?_isSome.mpr ⟨key, hkey, by simpa using hdata⟩)
    have hnot : first ≠ "event_metadata" := by simpa using List.find?_some hfind
    rw [hfind, (hkeys first (htop first (List.mem_of_find?_eq_some hfind))).resolve_right hnot]
  exact denyTargets_cover hne hkeys hloc hcurrent hpath _ htop hkey

end WebhookRelay
