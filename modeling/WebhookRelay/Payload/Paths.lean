import WebhookRelay.Payload.InPlace

/-!
# Stored lists that are no lists of strings

The endpoint stores its lists as JSON, and nothing keeps other values out. The loop over one
either runs through the strings that iterating over the value gives, or it raises, whatever the
payload is.

## Main results

* `shapeAndCheck_paths`, `shapeObjects_paths` — a list whose loop runs through is as good as the
  list of its strings.
* `shapeAndCheck_raises` — any other list raises the same exception on every payload.
-/

namespace WebhookRelay

open Objects Dictionary Json

def asString : Json → Option String
  | .str s => some s
  | _ => none

/-- The paths of a stored list: none if it is not looked at, else the strings that iterating
over it gives. -/
def paths (list : Json) : Option (List String) :=
  if list.truthy then match iterate list with
    | .ok items => items.mapM asString
    | .error _ => none
  else some []

theorem items_of_mapM {items : List Json} {ps : List String} (h : items.mapM asString = some ps) :
    items = ps.map .str := by
  induction items generalizing ps with
  | nil =>
    obtain rfl := Option.some.inj h
    rfl
  | cons v items ih =>
    rw [List.mapM_cons] at h
    obtain ⟨s, hs, h⟩ := Option.bind_eq_some_iff.mp h
    obtain ⟨rest, hrest, h⟩ := Option.bind_eq_some_iff.mp h
    obtain rfl := Option.some.inj h
    cases v with
    | str s' =>
      obtain rfl := Option.some.inj hs
      rw [ih hrest, List.map_cons]
    | _ => cases hs

@[simp] theorem paths_pathList (ps : List String) : paths (pathList ps) = some ps := by
  have hmap : (ps.map Json.str).mapM asString = some ps := by
    induction ps with
    | nil => rfl
    | cons p ps ih => simp [asString, ih]
  cases ps with
  | nil => rfl
  | cons p ps => exact hmap

/-! ## The loop over a stored list -/

/-- The list of the paths is looked at if the stored one is, and has the same loops. -/
theorem forEachPath_paths {list : Json} {ps : List String} (h : paths list = some ps) :
    (pathList ps).truthy = list.truthy ∧ (list.truthy →
      ∀ {σ : Type} (body : σ → String → σ) (start : σ),
        forEachPath body list start = forEachPath body (pathList ps) start) := by
  unfold paths at h
  split at h
  · next htruthy =>
    cases hitems : iterate list with
    | error e => rw [hitems] at h; cases h
    | ok items =>
      rw [hitems] at h
      obtain rfl := items_of_mapM h
      constructor
      · rw [pathList_truthy, htruthy, Bool.not_eq_true', decide_eq_false_iff_not]
        rintro rfl
        cases list with
        | arr items =>
          obtain rfl : items = [] := Except.ok.inj hitems
          cases htruthy
        | obj ms =>
          have hkeys : keys ms = [] := List.map_eq_nil_iff.mp (Except.ok.inj hitems)
          obtain rfl := List.map_eq_nil_iff.mp hkeys
          cases htruthy
        | str s =>
          have hchars : s.toList = [] := List.map_eq_nil_iff.mp (Except.ok.inj hitems)
          simp [truthy, String.toList_eq_nil_iff.mp hchars] at htruthy
        | _ => cases hitems
      · intro _ σ body start
        rw [forEachPath, hitems]
        rfl
  · next hfalsy =>
    obtain rfl := Option.some.inj h
    exact ⟨(Bool.eq_false_iff.mpr hfalsy).symm, fun htruthy => absurd htruthy hfalsy⟩

/-- A list without paths raises one exception in every loop. -/
theorem forEachPath_raises {list : Json} (h : paths list = none) :
    list.truthy ∧ ∃ e, ∀ {σ : Type} (body : σ → String → σ) (start : σ),
      forEachPath body list start = .error e := by
  unfold paths at h
  split at h
  · next htruthy =>
    refine ⟨htruthy, ?_⟩
    cases hitems : iterate list with
    | error e => exact ⟨e, fun body start => by rw [forEachPath, hitems]⟩
    | ok items =>
      rw [hitems] at h
      refine ⟨.attributeError, fun body start => ?_⟩
      rw [forEachPath, hitems]
      change items.mapM asString = none at h
      change items.foldlM (pathRound body) start = _
      clear hitems
      induction items generalizing start with
      | nil => cases h
      | cons v items ih =>
        cases v with
        | str s =>
          rw [List.mapM_cons] at h
          refine ih (body start s) ?_
          cases hrest : items.mapM asString with
          | none => rfl
          | some rest => rw [hrest] at h; cases h
        | _ => rfl
  · cases h

/-! ## Both lists -/

/-- The endpoint with lists of strings. -/
def WebhookEndpoint.withLists (endpoint : WebhookEndpoint) (allowlist denylist : List String) :
    WebhookEndpoint :=
  { endpoint with piiAllowlist := pathList allowlist, piiDenylist := pathList denylist }

section Lists

variable {endpoint : WebhookEndpoint} {allowlist denylist : List String}

/-- The allowlist's step is that of the list of its paths. -/
theorem allow_paths (payload : Payload) {list : Json} (h : paths list = some allowlist) :
    (if list.truthy then applyAllowlist payload list else .ok payload) =
      if (pathList allowlist).truthy then applyAllowlist payload (pathList allowlist)
      else .ok payload := by
  obtain ⟨htruthy, hloop⟩ := forEachPath_paths h
  rw [htruthy]
  split
  · next hlist =>
    rw [applyAllowlist, applyAllowlist, htruthy, if_pos hlist, if_pos hlist, hloop hlist]
  · rfl

/-- The denylist's step as well. -/
theorem deny_paths {list : Json} (h : paths list = some denylist) {σ : Type}
    (body : σ → String → σ) (start : σ) :
    (if list.truthy then forEachPath body list start else .ok start) =
      if (pathList denylist).truthy then forEachPath body (pathList denylist) start
      else .ok start := by
  obtain ⟨htruthy, hloop⟩ := forEachPath_paths h
  rw [htruthy]
  split
  · next hlist => rw [hloop hlist]
  · rfl

/-- The shaped payload under lists whose loops run through. -/
theorem shapeAndCheck_paths (payload : Payload)
    (hallow : paths endpoint.piiAllowlist = some allowlist)
    (hdeny : paths endpoint.piiDenylist = some denylist) : shapeAndCheck payload endpoint =
      shapeAndCheck payload (endpoint.withLists allowlist denylist) := by
  have hdenied : ∀ result : Payload,
      (if endpoint.piiDenylist.truthy then applyDenylist result endpoint.piiDenylist
        else .ok result) =
      if (pathList denylist).truthy then applyDenylist result (pathList denylist)
        else .ok result := fun result => deny_paths hdeny _ result
  rw [shapeAndCheck_eq, shapeAndCheck_eq, allow_paths payload hallow]
  simp only [hdenied]
  rfl

/-- The same on objects. -/
theorem shapeObjects_paths (payload : Members)
    (hallow : paths endpoint.piiAllowlist = some allowlist)
    (hdeny : paths endpoint.piiDenylist = some denylist) : shapeObjects payload endpoint =
      shapeObjects payload (endpoint.withLists allowlist denylist) := by
  have hallowed : ∀ (memory : Memory) (raw : Address String),
      (if endpoint.piiAllowlist.truthy
        then applyAllowlistObject memory raw endpoint.piiAllowlist else .ok (raw, memory)) =
      if (pathList allowlist).truthy
        then applyAllowlistObject memory raw (pathList allowlist) else .ok (raw, memory) := by
    intro memory raw
    obtain ⟨htruthy, hloop⟩ := forEachPath_paths hallow
    rw [htruthy]
    split
    · next hlist =>
      unfold applyAllowlistObject
      rw [htruthy, if_pos hlist, if_pos hlist]
      simp only [hloop hlist]
    · rfl
  have hdenied : ∀ (memory : Memory) (result : Address String),
      (if endpoint.piiDenylist.truthy
        then applyDenylistObject memory result endpoint.piiDenylist else .ok memory) =
      if (pathList denylist).truthy
        then applyDenylistObject memory result (pathList denylist) else .ok memory :=
    fun memory result => deny_paths hdeny _ memory
  rw [shapeObjects, shapeObjects, shapeObject_eq, shapeObject_eq]
  simp only [hallowed, hdenied]
  rfl

/-- Lists whose loops do not run through raise one exception, whatever the payload is. -/
theorem shapeAndCheck_raises
    (h : paths endpoint.piiAllowlist = none ∨ paths endpoint.piiDenylist = none) :
    ∃ e, ∀ payload, shapeAndCheck payload endpoint = .error e := by
  cases hallow : paths endpoint.piiAllowlist with
  | none =>
    obtain ⟨htruthy, e, hloop⟩ := forEachPath_raises hallow
    refine ⟨e, fun payload => ?_⟩
    rw [shapeAndCheck_eq, if_pos htruthy, applyAllowlist, if_pos htruthy, hloop]
    rfl
  | some allowlist =>
    obtain ⟨htruthy, e, hloop⟩ :=
      forEachPath_raises (h.resolve_left (by simp [hallow]))
    refine ⟨e, fun payload => ?_⟩
    obtain ⟨result, hresult, -⟩ := allowed_spec payload allowlist
    rw [shapeAndCheck_eq, allow_paths payload hallow, hresult, Except.bind, if_pos htruthy,
      applyDenylist, hloop]
    rfl

end Lists

end WebhookRelay
