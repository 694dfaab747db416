import WebhookRelay.Payload.Denylist
import WebhookRelay.Payload.Values

/-!
# The allowlist is exact

A path of the allowlist denotes a top-level key, or a location below one. The result of
`apply_allowlist` has the payload's value wherever a path denotes one, nothing besides that but
dictionaries on the way there, and depends on the set of the paths only. The payload is read,
shared with the result and written to in its shared parts, and still it is left as it was.

## Main results

* `allowlist_exact` — what the result of the allowlist is, and what is left of the payload.
-/

namespace WebhookRelay

open Objects Objects.Heap Dictionary Json

/-- What a path of the allowlist denotes in a payload. -/
def denotes (payload : Members) (path : String) : Option Target :=
  resolvePath (eventDataKey payload) (keys payload) path

/-- The result of an allowlist has what the paths denote, and nothing else. -/
structure ExactlyAllowed (payload : Members) (allowlist : List String) (result : Members) :
    Prop where
  /-- a whole key has its value -/
  whole : ∀ path ∈ allowlist, ∀ key, denotes payload path = some { key } →
    ∀ v, payload.lookup key = some v → ∃ v', result.lookup key = some v' ∧ v'.Same v
  /-- a location below a key has its value, if that is not `None` -/
  nested : ∀ path ∈ allowlist, ∀ key sub, denotes payload path = some { key, sub := some sub } →
    sub ≠ "" → ∀ v, (obj payload).at? (key :: segments sub) = some v → v.isNull = false →
      ∃ v', (obj result).at? (key :: segments sub) = some v' ∧ v'.Same v
  /-- what is not a dictionary is the payload's, at or below a denoted location -/
  sound : ∀ loc v, (obj result).at? loc = some v → v.isDict = false →
    (obj payload).at? loc = some v ∧
      ∃ path ∈ allowlist, ∃ t, denotes payload path = some t ∧ t.sub ≠ some "" ∧
        t.location <+: loc

theorem mem_allowTargets {payload : Members} {allowlist : List String} {t : Target} :
    t ∈ allowTargets payload allowlist ↔ ∃ path ∈ allowlist, denotes payload path = some t :=
  List.mem_filterMap

/-! ## The result -/

section Result

variable {payload result : Payload} {targets : List Target}
  (h : result.members = targets.foldl (Target.copy payload.members) [])
include h

/-- Where a target has been found, the result has the value of the payload. -/
theorem same_of_found {t : Target} (ht : t ∈ targets) (hfound : t.found payload.members)
    (hsub : t.sub ≠ some "") {v : Json} (hv : (obj payload.members).at? t.location = some v) :
    ∃ v', (obj result.members).at? t.location = some v' ∧ v'.Same v := by
  obtain ⟨hdrawn, -, hhas⟩ := copies_spec payload.members targets [] drawn_nil
  have hcovered := covered_copies payload.members targets
  rw [← h] at hdrawn hhas hcovered
  have hne : ∀ rest, t.location ++ rest ≠ [] := fun rest =>
    List.append_ne_nil_of_left_ne_nil t.location_ne_nil rest
  have hshares : ∀ rest, t.shares payload.members (t.location ++ rest) := fun rest =>
    Target.shares_iff.mpr ⟨hfound, hsub, List.prefix_append _ _⟩
  have hthere : ∀ rest, (obj payload.members).has (t.location ++ rest) →
      (obj result.members).has (t.location ++ rest) := by
    intro rest hrest
    rw [hhas _ (hne rest), Bool.or_eq_true, List.any_eq_true]
    exact .inr ⟨t, ht, Target.keeps_of_shares (hshares rest) hrest⟩
  obtain ⟨v', hv'⟩ : ∃ v', (obj result.members).at? t.location = some v' := by
    have hlocation := hthere []
    rw [List.append_nil] at hlocation
    exact Option.isSome_iff_exists.mp (hlocation (Option.isSome_of_eq_some hv))
  refine ⟨v', hv', same_of_at? (result.wellFormed.at? hv') (payload.wellFormed.at? hv) ?_⟩
  intro rest
  have hbelow' : (obj result.members).at? (t.location ++ rest) = v'.at? rest := by
    rw [at?_append, hv', Option.bind_some]
  have hbelow : (obj payload.members).at? (t.location ++ rest) = v.at? rest := by
    rw [at?_append, hv, Option.bind_some]
  rw [← hbelow', ← hbelow]
  cases hu : (obj result.members).at? (t.location ++ rest) with
  | none =>
    have hnone : (obj payload.members).at? (t.location ++ rest) = none := by
      rw [← Option.not_isSome_iff_eq_none]
      intro hsome
      have := hthere rest hsome
      rw [has, hu] at this
      cases this
    rw [hnone]
    exact .none
  | some u =>
    obtain ⟨w, hw, hlike⟩ := hcovered.inside (hne rest)
      (List.any_eq_true.mpr ⟨t, ht, hshares rest⟩) hu
    rw [hw]
    exact .some hlike.akin

/-- What is not a dictionary is at or below a target. -/
theorem sound_of_copies {loc : List String} {v : Json}
    (hv : (obj result.members).at? loc = some v) (hdict : v.isDict = false) :
    (obj payload.members).at? loc = some v ∧
      ∃ t ∈ targets, t.sub ≠ some "" ∧ t.location <+: loc := by
  have hcovered := covered_copies payload.members targets
  rw [← h] at hcovered
  have hloc : loc ≠ [] := by
    rintro rfl
    rw [at?_nil] at hv
    obtain rfl := Option.some.inj hv
    cases hdict
  cases hshared : targets.any fun t => t.shares payload.members loc with
  | false =>
    rw [hcovered.outside hloc hshared hv] at hdict
    cases hdict
  | true =>
    obtain ⟨w, hw, rfl | ⟨hdict', -⟩⟩ := hcovered.inside hloc hshared hv
    · obtain ⟨t, ht, hshares⟩ := List.any_eq_true.mp hshared
      exact ⟨hw, t, ht, (Target.shares_iff.mp hshares).2⟩
    · rw [hdict'] at hdict
      cases hdict

end Result

theorem exactlyAllowed {payload result : Payload} {allowlist : List String}
    (h : result.members =
      (allowTargets payload.members allowlist).foldl (Target.copy payload.members) []) :
    ExactlyAllowed payload.members allowlist result.members := by
  constructor
  · intro path hpath key hkey v hv
    have hlocation : (obj payload.members).at? ({ key } : Target).location = some v := by
      simpa [Target.location] using hv
    have hfound : ({ key } : Target).found payload.members := by
      rw [Target.found, hlocation]
      rfl
    obtain ⟨v', hv', hsame⟩ := same_of_found h (mem_allowTargets.mpr ⟨path, hpath, hkey⟩) hfound
      (Option.some_ne_none "").symm hlocation
    exact ⟨v', by simpa [Target.location] using hv', hsame⟩
  · intro path hpath key sub hkey hsub v hv hnull
    have hlocation : ({ key, sub := some sub } : Target).location = key :: segments sub := by
      simp [Target.location, hsub]
    have hfound : ({ key, sub := some sub } : Target).found payload.members := by
      rw [Target.found, hlocation, hv]
      simp [hnull]
    rw [← hlocation] at hv ⊢
    exact same_of_found h (mem_allowTargets.mpr ⟨path, hpath, hkey⟩) hfound (by simpa using hsub) hv
  · intro loc v hv hdict
    obtain ⟨hpayload, t, ht, hsub, hprefix⟩ := sound_of_copies h hv hdict
    obtain ⟨path, hpath, hdenotes⟩ := mem_allowTargets.mp ht
    exact ⟨hpayload, path, hpath, t, hdenotes, hsub, hprefix⟩

/-- Only the set of the targets counts. -/
theorem same_of_targets {payload result result' : Payload} {targets targets' : List Target}
    (h : result.members = targets.foldl (Target.copy payload.members) [])
    (h' : result'.members = targets'.foldl (Target.copy payload.members) [])
    (hset : ∀ t, t ∈ targets' ↔ t ∈ targets) :
    (obj result'.members).Same (obj result.members) := by
  have hany : ∀ f : Target → Bool, targets'.any f = targets.any f := by
    intro f
    rw [Bool.eq_iff_iff, List.any_eq_true, List.any_eq_true]
    simp only [hset]
  obtain ⟨-, -, hhas⟩ := copies_spec payload.members targets [] drawn_nil
  obtain ⟨-, -, hhas'⟩ := copies_spec payload.members targets' [] drawn_nil
  have hcovered := covered_copies payload.members targets
  have hcovered' := covered_copies payload.members targets'
  rw [← h] at hhas hcovered
  rw [← h'] at hhas' hcovered'
  refine same_of_covered hcovered hcovered' (fun loc hloc => ?_) (fun loc => hany _)
    fun loc v v' _ _ _ hv hv' => ?_
  · rw [hhas loc hloc, hhas' loc hloc, hany]
  · obtain rfl := Option.some.inj (hv.symm.trans hv')
    exact .inl (.refl v)

/-! ## The payload itself -/

theorem allowPathObject_congr {memory : Memory} {source source' result : Address String}
    (h : memory.cells source = memory.cells source') (dataKey : Option String) (path : String) :
    allowPathObject source result dataKey memory path =
      allowPathObject source' result dataKey memory path := by
  simp only [allowPathObject, keepNestedObject, getItem, h]

/-- A dictionary that stands for what its copy stands for. -/
theorem Filling.copy_reads {memory : Memory} {shared : List String → Prop} {raw result : Members}
    (h : Filling memory shared raw result) : StandsFor memory (.ref (.made 0)) (obj raw) := by
  intro loc
  cases loc with
  | nil =>
    rw [walk_nil, at?_nil]
    exact .some ⟨_, rfl, h.keys_copied.symm⟩
  | cons k rest =>
    rw [walk_ref_cons, h.copied, ← walk_ref_cons]
    exact h.raw_reads (k :: rest)

/-- It makes no difference whether the allowlist reads the raw payload or its copy. -/
theorem Filling.foldl_raw {memory : Memory} {shared : List String → Prop} {raw result : Members}
    (h : Filling memory shared raw result) (hdrawn : Drawn raw result) (allowlist : List String) :
    allowlist.foldl (allowPathObject (.loaded []) (.made 1) (eventDataKey raw)) memory =
      allowlist.foldl (allowPathObject (.made 0) (.made 1) (eventDataKey raw)) memory := by
  induction allowlist generalizing memory shared result with
  | nil => rfl
  | cons path allowlist ih =>
    rw [List.foldl_cons, List.foldl_cons, allowPathObject_congr h.copied.symm]
    exact ih (h.copies hdrawn [path]) (copies_spec raw (allowTargets raw [path]) result hdrawn).1

/-- A payload, whether it is the raw one or its copy, and the result on objects. -/
theorem applyAllowlistObject_spec (payload : Payload) {allowlist : List String}
    (h : allowlist ≠ []) {source : Address String}
    (hsource : source = .made 0 ∨ source = .loaded []) : ∃ memory shared,
    applyAllowlistObject (loadCopy payload.members) source (pathList allowlist) =
        .ok (.made 1, memory) ∧
      Filling memory shared payload.members
        ((allowTargets payload.members allowlist).foldl (Target.copy payload.members) []) := by
  have hfill := filling_empty payload
  have hcells : (loadCopy payload.members).cells source =
      (loadCopy payload.members).cells (.loaded []) := by
    rcases hsource with rfl | rfl
    · exact loadCopy_copied _
    · rfl
  have hloop : allowlist.foldl (allowPathObject source (.made 1) (eventDataKey payload.members))
      ((loadCopy payload.members).make []) =
      allowlist.foldl (allowPathObject (.made 0) (.made 1) (eventDataKey payload.members))
        ((loadCopy payload.members).make []) := by
    rcases hsource with rfl | rfl
    · rfl
    · exact hfill.foldl_raw drawn_nil allowlist
  refine ⟨_, _, ?_, hfill.copies drawn_nil allowlist⟩
  rw [applyAllowlistObject_pathList payload h hcells, hloop]

/-- What a dictionary is read back as: the payload unchanged, and the result. -/
theorem Filling.read_eq {memory : Memory} {shared : List String → Prop} {payload result : Payload}
    (h : Filling memory shared payload.members result.members)
    (hdrawn : Drawn payload.members result.members) {n : Nat}
    (hn : n = (obj payload.members).depth + 1) :
    read memory n (.ref (.made 1)) = obj result.members ∧
      read memory n (.ref (.made 0)) = obj payload.members ∧
      read memory n (.ref (.loaded [])) = obj payload.members := by
  have hdepth : ∀ loc, (obj payload.members).has loc → loc.length < n := by
    intro loc hloc
    have := length_le_depth hloc
    omega
  refine ⟨read_of_reads result.wellFormed h.reads fun loc hloc => hdepth loc ?_,
    read_of_reads payload.wellFormed h.copy_reads hdepth,
    read_of_reads payload.wellFormed h.raw_reads hdepth⟩
  cases loc with
  | nil => rfl
  | cons k rest =>
    obtain ⟨v, hv⟩ := Option.isSome_iff_exists.mp hloc
    obtain ⟨w, hw, -⟩ := hdrawn _ v (by simp) hv
    exact Option.isSome_of_eq_some hw

/-! ## The whole of it -/

/-- The allowlist is exact: its result has what its paths denote and nothing else, it is the same
value for every list of the same paths, and the payload is left as it was. -/
theorem allowlist_exact (payload : Payload) (allowlist : List String) (h : allowlist ≠ []) :
    ∃ result : Payload, applyAllowlist payload (pathList allowlist) = .ok result ∧
      ExactlyAllowed payload.members allowlist result.members ∧
      (∀ allowlist' : List String, (∀ path, path ∈ allowlist' ↔ path ∈ allowlist) →
        ∃ result' : Payload, applyAllowlist payload (pathList allowlist') = .ok result' ∧
          (obj result'.members).Same (obj result.members)) ∧
      ∀ source, source = .made 0 ∨ source = .loaded [] → ∃ memory,
        applyAllowlistObject (loadCopy payload.members) source (pathList allowlist) =
          .ok (.made 1, memory) ∧
        read memory ((obj payload.members).depth + 1) (.ref (.made 1)) = obj result.members ∧
        read memory ((obj payload.members).depth + 1) (.ref source) = obj payload.members := by
  obtain ⟨result, hresult, hmembers⟩ := applyAllowlist_pathList payload h
  refine ⟨result, hresult, exactlyAllowed hmembers, fun allowlist' hset => ?_,
    fun source hsource => ?_⟩
  · have h' : allowlist' ≠ [] := by
      rintro rfl
      exact h (List.eq_nil_iff_forall_not_mem.mpr fun path hpath => by
        simpa using (hset path).mpr hpath)
    obtain ⟨result', hresult', hmembers'⟩ := applyAllowlist_pathList payload h'
    refine ⟨result', hresult', same_of_targets hmembers hmembers' fun t => ?_⟩
    simp only [mem_allowTargets, hset]
  · obtain ⟨memory, shared, hobject, hfill⟩ := applyAllowlistObject_spec payload h hsource
    have hdrawn := (copies_spec payload.members (allowTargets payload.members allowlist) []
      drawn_nil).1
    rw [← hmembers] at hfill hdrawn
    obtain ⟨hread, hcopy, hraw⟩ := hfill.read_eq hdrawn rfl
    refine ⟨memory, hobject, hread, ?_⟩
    rcases hsource with rfl | rfl
    · exact hcopy
    · exact hraw

/-- Two paths of one location, one of them by the name of the data key. -/
theorem allowlist_exact_email :
    ∃ result : Payload,
      applyAllowlist twoRecords (pathList ["data.email", "learner", "data.email"]) = .ok result ∧
      ExactlyAllowed twoRecords.members ["data.email", "learner", "data.email"]
        result.members := by
  obtain ⟨result, hresult, hexact, -⟩ :=
    allowlist_exact twoRecords ["data.email", "learner", "data.email"] (List.cons_ne_nil _ _)
  exact ⟨result, hresult, hexact⟩

end WebhookRelay
