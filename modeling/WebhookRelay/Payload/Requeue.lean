import WebhookRelay.Payload.PassOnly
import WebhookRelay.Payload.Reshaping

/-!
# Shaping a shaped payload

The snapshot of a delivery has been through both lists, and a delivery that is requeued from it
goes through them again. A dictionary that was kept only on the way to what the denylist removed
is still in the snapshot, empty, and the second time nothing leads there. So the snapshot is
shaped to itself exactly if everything in it is kept by targets that survive.

## Main results

* `survives_shaped` — what survives both lists a second time.
* `reshaped_iff` — when the shaped payload is shaped to itself and passes the filter.
-/

namespace WebhookRelay

open Dictionary Json

/-! ## What is kept once more -/

/-- The location is kept by a target of the allowlist that survives itself. -/
def upheld (payload : Members) (allowlist denylist : List String) (loc : List String) : Bool :=
  allowlist = [] || (allowTargets payload allowlist).any fun t =>
    t.keeps payload loc && survives payload allowlist denylist t.location

/-- The top-level keys that the allowlist keeps once more, in the order in which it does. -/
def requeuedKeys (payload : Members) (allowlist denylist : List String) : List String :=
  if allowlist = [] then
    (keys payload).filter fun key => survives payload allowlist denylist [key]
  else (allowTargets payload allowlist).foldl (fun topKeys t =>
    if survives payload allowlist denylist t.location then t.addTo payload topKeys else topKeys) []

/-- Everything that survives is upheld, and so is the decision to send. -/
structure Reproducible (payload : Members) (allowlist denylist : List String)
    (onlyOnPassing : Bool) : Prop where
  upheld : ∀ loc, loc ≠ [] → survives payload allowlist denylist loc →
    upheld payload allowlist denylist loc
  passes : onlyOnPassing → ((requeuedKeys payload allowlist denylist).findSome?
    (survivingPassing payload allowlist denylist)).getD true

section OneDataKey

variable {dataKey : String} (hne : dataKey ≠ "event_metadata") {payload shaped : Payload}
  (hkeys : ∀ key ∈ keys payload.members, key = dataKey ∨ key = "event_metadata")
  {allowlist denylist : List String}
  (h : Shaped payload.members allowlist denylist shaped.members)
  (hcovered : Covered payload.members (sharedAt payload.members allowlist) shaped.members)
include hne hkeys h hcovered

omit hne hcovered in
theorem keys_shaped_of_one : ∀ key ∈ keys shaped.members,
    key = dataKey ∨ key = "event_metadata" := by
  intro key hkey
  rw [h.keys] at hkey
  exact hkeys key ((keptKeys_spec payload allowlist).1 key (List.mem_of_mem_filter hkey))

/-- A value that a dotted path finds in the shaped payload was not `None` before. -/
theorem isNull_shaped (hlist : allowlist ≠ []) {loc : List String} (hloc : loc ≠ [])
    {v w : Json} (hv : (obj shaped.members).at? loc = some v)
    (hw : (obj payload.members).at? loc = some w) : v.isNull = w.isNull := by
  cases hshared : sharedAt payload.members allowlist loc with
  | true =>
    obtain ⟨u, hu, hlike⟩ := hcovered.inside hloc hshared hv
    rw [hw] at hu
    obtain rfl := Option.some.inj hu
    exact hlike.akin.isNull_eq
  | false =>
    have hdict : ∀ {x : Json}, x.isDict → x.isNull = false := fun {x} hx => by
      cases x with
      | null => cases hx
      | _ => rfl
    rw [hdict (hcovered.outside hloc hshared hv)]
    -- the location is kept on the way to a target, or by an empty dotted path
    have hsurvives : survives payload.members allowlist denylist loc := by
      rw [← h.has loc hloc, has, hv]
      rfl
    have hkept := ((survives_of_one hne hkeys allowlist denylist hloc).mp hsurvives).1
    rw [kept_of_one hne hkeys, if_neg hlist, List.any_eq_true] at hkept
    rw [sharedAt_of_one hne hkeys, if_neg hlist, List.any_eq_false] at hshared
    obtain ⟨t, ht, hkeeps⟩ := hkept
    obtain ⟨hfound, hplace⟩ := Target.keeps_iff.mp hkeeps
    have habove : loc <+: t.location := hplace.resolve_right fun hbelow =>
      hshared t ht (Target.shares_iff.mpr ⟨hfound, hbelow.1, hbelow.2.1⟩)
    obtain ⟨rest, hrest⟩ := habove
    obtain ⟨u, hu⟩ := Target.at?_of_found hfound
    rw [← hrest, at?_append, hw, Option.bind_some] at hu
    cases rest with
    | cons x rest => exact (hdict (isDict_of_at? hu)).symm
    | nil =>
      rw [List.append_nil] at hrest
      have hsub : t.sub = some "" := by
        by_contra hsub
        exact hshared t ht (Target.shares_iff.mpr ⟨hfound, hsub, hrest ▸ List.prefix_rfl⟩)
      rw [Target.found, ← hrest, hw, hsub] at hfound
      simpa using hfound.symm

/-- The shaped payload has the targets that were found and survive. -/
theorem found_shaped (hlist : allowlist ≠ []) {t : Target} :
    t.found shaped.members =
      (t.found payload.members && survives payload.members allowlist denylist t.location) := by
  have hhas := h.has t.location t.location_ne_nil
  rw [← hhas]
  cases hv : (obj shaped.members).at? t.location with
  | none => rw [Target.found, has, hv, Option.isSome_none, Bool.and_false]
  | some v =>
    obtain ⟨w, hw, -⟩ := h.drawn _ v t.location_ne_nil hv
    have hnull := isNull_shaped hne hkeys h hcovered hlist t.location_ne_nil hv hw
    simp [Target.found, has, hv, hw, hnull]

/-- What the allowlist keeps once more. -/
theorem kept_shaped {loc : List String} (hloc : loc ≠ []) :
    kept shaped.members allowlist loc ↔ survives payload.members allowlist denylist loc ∧
      upheld payload.members allowlist denylist loc := by
  have hkeys' := keys_shaped_of_one hkeys h
  rw [kept_of_one hne hkeys', upheld, ← h.has loc hloc]
  by_cases hlist : allowlist = []
  · simp [hlist]
  have hany := any_allowTargets hne hkeys (f := fun t => t.keeps payload.members loc &&
    survives payload.members allowlist denylist t.location) (fun t ht => by
      rw [Bool.and_eq_true] at ht
      exact (Target.keeps_iff.mp ht.1).1) allowlist
  rw [if_neg hlist, hany, decide_eq_false hlist, Bool.false_or]
  simp only [List.any_eq_true, Bool.and_eq_true, Target.keeps_iff,
    found_shaped hne hkeys h hcovered hlist]
  have hdrawn : (obj shaped.members).has loc → (obj payload.members).has loc := fun hhas => by
    obtain ⟨v, hv⟩ := Option.isSome_iff_exists.mp hhas
    obtain ⟨w, hw, -⟩ := h.drawn loc v hloc hv
    rw [has, hw]
    rfl
  constructor
  · rintro ⟨t, ht, ⟨hfound, hsurvives⟩, habove | ⟨hsub, hbelow, hhas⟩⟩
    · rw [← h.has _ t.location_ne_nil] at hsurvives
      obtain ⟨rest, hrest⟩ := habove
      refine ⟨has_above (hrest.symm ▸ hsurvives), t, ht, ⟨hfound, .inl ⟨rest, hrest⟩⟩, ?_⟩
      rw [← h.has _ t.location_ne_nil]
      exact hsurvives
    · exact ⟨hhas, t, ht, ⟨hfound, .inr ⟨hsub, hbelow, hdrawn hhas⟩⟩, hsurvives⟩
  · rintro ⟨hhas, t, ht, ⟨hfound, hplace⟩, hsurvives⟩
    exact ⟨t, ht, ⟨hfound, hsurvives⟩, hplace.imp_right fun hbelow =>
      ⟨hbelow.1, hbelow.2.1, hhas⟩⟩

/-- What survives both lists a second time. -/
theorem survives_shaped {loc : List String} (hloc : loc ≠ []) :
    survives shaped.members allowlist denylist loc ↔
      survives payload.members allowlist denylist loc ∧
        upheld payload.members allowlist denylist loc := by
  rw [survives_of_one hne (keys_shaped_of_one hkeys h) allowlist denylist hloc,
    kept_shaped hne hkeys h hcovered hloc, and_iff_left_iff_imp]
  exact fun hkept => ((survives_of_one hne hkeys allowlist denylist hloc).mp hkept.1).2

/-- A location that was shared is shared once more, if it is there: the target above it is there
as well. -/
theorem sharedAt_shaped {loc : List String} (hloc : loc ≠ [])
    (hthere : (obj shaped.members).has loc) (hshared : sharedAt payload.members allowlist loc) :
    sharedAt shaped.members allowlist loc := by
  rw [sharedAt_of_one hne hkeys] at hshared
  rw [sharedAt_of_one hne (keys_shaped_of_one hkeys h)]
  split
  · simpa using hloc
  · next hlist =>
    rw [if_neg hlist, List.any_eq_true] at hshared
    rw [List.any_eq_true]
    obtain ⟨t, ht, hshares⟩ := hshared
    obtain ⟨hfound, hsub, rest, rfl⟩ := Target.shares_iff.mp hshares
    refine ⟨t, ht, Target.shares_iff.mpr ⟨?_, hsub, rest, rfl⟩⟩
    rw [found_shaped hne hkeys h hcovered hlist, hfound, ← h.has _ t.location_ne_nil,
      has_above hthere]
    rfl

/-- The shaped payload is shaped to itself exactly if everything in it is upheld. -/
theorem reshaped_same_iff {again : Payload}
    (h' : Shaped shaped.members allowlist denylist again.members)
    (hcovered' : Covered shaped.members (sharedAt shaped.members allowlist) again.members) :
    (obj again.members).Same (obj shaped.members) ↔
      ∀ loc, loc ≠ [] → survives payload.members allowlist denylist loc →
        upheld payload.members allowlist denylist loc := by
  constructor
  · intro hsame loc hloc hsurvives
    have hrel := hsame.at? again.wellFormed shaped.wellFormed loc
    have hhas : (obj again.members).has loc = (obj shaped.members).has loc :=
      isSome_eq_of_rel hrel
    rw [h'.has loc hloc, h.has loc hloc, hsurvives] at hhas
    exact ((survives_shaped hne hkeys h hcovered hloc).mp hhas).2
  · intro hupheld
    refine same_of_at? again.wellFormed shaped.wellFormed fun loc => ?_
    by_cases hloc : loc = []
    · subst hloc
      rw [at?_nil, at?_nil]
      exact .some (.inr ⟨rfl, rfl⟩)
    have hhas : (obj again.members).has loc = (obj shaped.members).has loc := by
      rw [h'.has loc hloc, h.has loc hloc, Bool.eq_iff_iff,
        survives_shaped hne hkeys h hcovered hloc, and_iff_left_iff_imp]
      exact hupheld loc hloc
    cases hv : (obj again.members).at? loc with
    | none =>
      rw [has, has, hv, eq_comm, Option.isSome_none, Option.isSome_eq_false_iff,
        Option.isNone_iff_eq_none] at hhas
      rw [hhas]
      exact .none
    | some v =>
      rw [has, has, hv] at hhas
      obtain ⟨w, hw⟩ := Option.isSome_iff_exists.mp hhas.symm
      rw [hw]
      refine .some ?_
      cases hshared : sharedAt shaped.members allowlist loc with
      | true =>
        obtain ⟨u, hu, hlike⟩ := hcovered'.inside hloc hshared hv
        rw [hw] at hu
        obtain rfl := Option.some.inj hu
        exact hlike.akin
      | false =>
        have hthere : (obj shaped.members).has loc := by
          rw [has, hw]
          rfl
        have hunshared : sharedAt payload.members allowlist loc = false := by
          refine Bool.eq_false_iff.mpr fun hbefore => ?_
          cases hshared.symm.trans (sharedAt_shaped hne hkeys h hcovered hloc hthere hbefore)
        exact .inr ⟨hcovered'.outside hloc hshared hv, hcovered.outside hloc hunshared hw⟩

theorem keptKeys_shaped :
    keptKeys shaped.members allowlist = requeuedKeys payload.members allowlist denylist := by
  rw [keptKeys_of_one hne (keys_shaped_of_one hkeys h), requeuedKeys]
  split
  · next hlist =>
    rw [h.keys, keptKeys, if_pos hlist]
  · next hlist =>
    rw [foldl_allowTargets hne hkeys fun topKeys t hfound => ?_]
    · congr 1
      funext topKeys t
      rw [Target.addTo, Target.addTo, found_shaped hne hkeys h hcovered hlist]
      cases survives payload.members allowlist denylist t.location <;> simp
    · simp [Target.addTo, hfound]

end OneDataKey

theorem isPassing_same {payload payload' : Payload}
    (h : (obj payload.members).Same (obj payload'.members)) (key : String) :
    (isPassing payload.members key).map truthy = (isPassing payload'.members key).map truthy := by
  have hrel := h.at? payload.wellFormed payload'.wellFormed [key, "is_passing"]
  rw [isPassing, isPassing]
  generalize (obj payload.members).at? [key, "is_passing"] = x,
    (obj payload'.members).at? [key, "is_passing"] = y at hrel
  cases hrel with
  | none => rfl
  | some hsame =>
    rw [Option.filter_some, Option.filter_some, hsame.isNull_eq]
    split
    · exact congrArg some hsame.truthy_eq
    · rfl

/-! ## What an attempt has left -/

section Left

variable {dataKey : String} (hne : dataKey ≠ "event_metadata") {payload : Payload}
  (hkeys : ∀ key ∈ keys payload.members, key = dataKey ∨ key = "event_metadata")
  (allowlist denylist : List String)
include hne hkeys

theorem upheld_left {loc : List String} (h : survives payload.members allowlist denylist loc) :
    upheld (payload.left allowlist denylist).members allowlist denylist loc =
      upheld payload.members allowlist denylist loc := by
  have htargets : ∀ t : Target, (t.keeps (payload.left allowlist denylist).members loc &&
        survives (payload.left allowlist denylist).members allowlist denylist t.location) =
      (t.keeps payload.members loc && survives payload.members allowlist denylist t.location) := by
    intro t
    rw [survives_left hne hkeys allowlist denylist t.location_ne_nil]
    cases hsurvives : survives payload.members allowlist denylist t.location with
    | false => rw [Bool.and_false, Bool.and_false]
    | true =>
      rw [Bool.and_true, Bool.and_true, Bool.eq_iff_iff, Target.keeps_iff, Target.keeps_iff,
        found_of_rel (at?_left_of_survives hsurvives), has_left_of_survives h]
  rw [upheld, upheld, allowTargets_congr (keys_left payload allowlist denylist)]
  simp only [htargets]

theorem requeuedKeys_left :
    requeuedKeys (payload.left allowlist denylist).members allowlist denylist =
      requeuedKeys payload.members allowlist denylist := by
  have hsurvives := fun key => survives_left hne hkeys allowlist denylist (List.cons_ne_nil key [])
  have htargets : ∀ (topKeys : List String) (t : Target),
      (if survives (payload.left allowlist denylist).members allowlist denylist t.location
        then t.addTo (payload.left allowlist denylist).members topKeys else topKeys) =
      if survives payload.members allowlist denylist t.location
        then t.addTo payload.members topKeys else topKeys := by
    intro topKeys t
    rw [survives_left hne hkeys allowlist denylist t.location_ne_nil]
    split
    · next h => rw [Target.addTo, Target.addTo, found_of_rel (at?_left_of_survives h)]
    · rfl
  rw [requeuedKeys, requeuedKeys, keys_left, allowTargets_congr (keys_left payload _ _)]
  simp only [hsurvives, htargets]

/-- What the filter reads in the shaped payload is what it read the first time. -/
theorem survivingPassing_left :
    survivingPassing (payload.left allowlist denylist).members allowlist denylist =
      survivingPassing payload.members allowlist denylist := by
  let endpoint : WebhookEndpoint :=
    { newEndpoint with piiAllowlist := pathList allowlist, piiDenylist := pathList denylist }
  have hallow : endpoint.piiAllowlist = pathList allowlist := rfl
  have hdeny : endpoint.piiDenylist = pathList denylist := rfl
  obtain ⟨shaped, hshape, h⟩ := shapeAndCheck_shaped payload endpoint hallow hdeny
  obtain ⟨again, shouldSend, hagain, hsame⟩ :=
    reshaped_same hne hkeys allowlist denylist hallow hdeny hallow hdeny hshape
  obtain ⟨again', hagain', h'⟩ :=
    shapeAndCheck_shaped (payload.left allowlist denylist) endpoint hallow hdeny
  obtain rfl : again' = again := by
    rw [hagain] at hagain'
    exact (Prod.mk.inj (Except.ok.inj hagain')).1.symm
  funext key
  rw [← isPassing_shaped h', isPassing_same hsame, isPassing_shaped h]

/-- A payload is as reproducible as what an attempt leaves of it. -/
theorem reproducible_left (onlyOnPassing : Bool) :
    Reproducible (payload.left allowlist denylist).members allowlist denylist onlyOnPassing ↔
      Reproducible payload.members allowlist denylist onlyOnPassing := by
  have hupheld : ∀ loc, loc ≠ [] →
      ((survives (payload.left allowlist denylist).members allowlist denylist loc →
        upheld (payload.left allowlist denylist).members allowlist denylist loc) ↔
      (survives payload.members allowlist denylist loc →
        upheld payload.members allowlist denylist loc)) := by
    intro loc hloc
    rw [survives_left hne hkeys allowlist denylist hloc]
    exact imp_congr_right fun h => by rw [upheld_left hne hkeys allowlist denylist h]
  constructor
  · rintro ⟨h, hpasses⟩
    rw [requeuedKeys_left hne hkeys, survivingPassing_left hne hkeys] at hpasses
    exact ⟨fun loc hloc => (hupheld loc hloc).mp (h loc hloc), hpasses⟩
  · rintro ⟨h, hpasses⟩
    refine ⟨fun loc hloc => (hupheld loc hloc).mpr (h loc hloc), ?_⟩
    rwa [requeuedKeys_left hne hkeys, survivingPassing_left hne hkeys]

end Left

/-! ## Once more -/

/-- The shaped payload is shaped to itself once more, and sent, exactly if it is
reproducible. -/
theorem reshaped_iff {payload shaped : Payload} {endpoint : WebhookEndpoint}
    {allowlist denylist : List String} (hallow : endpoint.piiAllowlist = pathList allowlist)
    (hdeny : endpoint.piiDenylist = pathList denylist) {dataKey : String}
    (hne : dataKey ≠ "event_metadata")
    (hkeys : ∀ key ∈ keys payload.members, key = dataKey ∨ key = "event_metadata")
    {shouldSend : Bool} (hshape : shapeAndCheck payload endpoint = .ok (shaped, shouldSend)) :
    (∃ again, shapeAndCheck shaped endpoint = .ok (again, true) ∧
        (obj again.members).Same (obj shaped.members)) ↔
      Reproducible payload.members allowlist denylist endpoint.onlyOnPassing := by
  obtain ⟨first, hfirst, h, hcovered⟩ := shapeAndCheck_covered payload endpoint hallow hdeny
  obtain rfl : first = shaped := by
    rw [hshape] at hfirst
    exact (Prod.mk.inj (Except.ok.inj hfirst)).1.symm
  obtain ⟨again, hagain, h', hcovered'⟩ := shapeAndCheck_covered first endpoint hallow hdeny
  have hsame := reshaped_same_iff hne hkeys h hcovered h' hcovered'
  have hdecision : (obj again.members).Same (obj first.members) →
      shouldSendPassingEvent again.members endpoint.onlyOnPassing =
        (!endpoint.onlyOnPassing || ((requeuedKeys payload.members allowlist denylist).findSome?
          (survivingPassing payload.members allowlist denylist)).getD true) := by
    intro hsame
    have hpassing : survivingPassing first.members allowlist denylist =
        survivingPassing payload.members allowlist denylist := funext fun key => by
      rw [← isPassing_shaped h', isPassing_same hsame, isPassing_shaped h]
    rw [shouldSendPassingEvent, firstPassing_eq again.wellFormed.keys_nodup,
      first_survivingPassing h', hpassing, keptKeys_shaped hne hkeys h hcovered]
    cases endpoint.onlyOnPassing <;> rfl
  constructor
  · rintro ⟨again', hagain', hsame'⟩
    rw [hagain] at hagain'
    obtain ⟨rfl, hsend⟩ := Prod.mk.inj (Except.ok.inj hagain')
    rw [hdecision hsame'] at hsend
    refine ⟨hsame.mp hsame', fun honly => ?_⟩
    rwa [honly, Bool.not_true, Bool.false_or] at hsend
  · rintro ⟨hupheld, hpasses⟩
    have hsame' := hsame.mpr hupheld
    refine ⟨again, ?_, hsame'⟩
    rw [hagain, hdecision hsame']
    cases honly : endpoint.onlyOnPassing with
    | false => rfl
    | true => rw [hpasses honly]; rfl

end WebhookRelay
