import WebhookRelay.Payload.Locations

/-!
# What a path stands for

Both lists resolve a path in the same way: to a top-level key, or to a dotted path below
one. The allowlist resolves its paths against the keys of the raw payload, the denylist
against the keys that are left when the path's turn has come.

## Main results

* `allowPath_eq`, `denyPath_eq` — a round of either loop is resolution and then a copy or
  a deletion.
* `has_copy`, `has_remove` — what the two do, location by location.
-/

namespace WebhookRelay

open Dictionary Json

/-- A top-level key, or a dotted path below it. -/
structure Target where
  key : String
  sub : Option String := none
  deriving DecidableEq, Repr

/-- The target of a path, given the data key and the top-level keys. -/
def resolvePath (dataKey : Option String) (topKeys : List String) (path : String) :
    Option Target :=
  if path = "event_metadata" then some { key := "event_metadata" }
  else match subPath "event_metadata" path with
  | some sub => some { key := "event_metadata", sub }
  | none =>
    if path = "data" then (truthyKey dataKey).map fun key => { key }
    else match subPath "data" path with
    | some sub => (truthyKey dataKey).map fun key => { key, sub }
    | none =>
      if path ∈ topKeys then some { key := path }
      else (firstPrefix path topKeys).map fun e => { key := e.1, sub := e.2 }

namespace Target

/-- The location of a target; an empty dotted path leads nowhere. -/
def location (t : Target) : List String :=
  t.key :: match t.sub with
    | none => []
    | some sub => if sub = "" then [] else segments sub

/-- A copy of the target finds something: a value, not `None` if it is below a key. -/
def found (payload : Members) (t : Target) : Bool :=
  match (obj payload).at? t.location with
  | none => false
  | some v => t.sub.isNone || !v.isNull

/-- After a copy of the target there is something at the location. -/
def keeps (payload : Members) (t : Target) (loc : List String) : Bool :=
  t.found payload && (loc.isPrefixOf t.location ||
    t.sub ≠ some "" && t.location.isPrefixOf loc && (obj payload).has loc)

/-- A deletion of the target deletes what is at the location. -/
def removes (t : Target) (loc : List String) : Bool :=
  t.sub ≠ some "" && t.location.isPrefixOf loc

/-- The top-level keys after a copy of the target. -/
def addTo (payload : Members) (topKeys : List String) (t : Target) : List String :=
  if t.found payload && t.key ∉ topKeys then topKeys ++ [t.key] else topKeys

/-- The top-level keys after a deletion of the target. -/
def removeFrom (topKeys : List String) (t : Target) : List String :=
  if t.sub.isNone then topKeys.filter fun key => key ≠ t.key else topKeys

/-- Copy the target into the result of the allowlist. -/
def copy (payload result : Members) (t : Target) : Members :=
  match t.sub with
  | none => match payload.lookup t.key with
    | some value => set result t.key value
    | none => result
  | some sub => keepNested payload result t.key sub

/-- Delete the target. -/
def remove (payload : Members) (t : Target) : Members :=
  match t.sub with
  | none => erase payload t.key
  | some sub => modify payload t.key fun v => deleteNestedPath v sub

end Target

/-! ## Rounds of the two loops -/

theorem denyPath_eq (dataKey : Option String) (payload : Members) (path : String) :
    denyPath dataKey payload path =
      ((resolvePath dataKey (keys payload) path).map (Target.remove payload)).getD payload := by
  unfold denyPath resolvePath
  repeat' split
  all_goals simp_all [Target.remove]

/-- The data key is a top-level key. -/
theorem lookup_of_eventDataKey {payload : Members} {key : String}
    (h : eventDataKey payload = some key) :
    payload.lookup key = some (valueAt payload key) := by
  obtain ⟨v, hv⟩ := mem_keys.mp (List.mem_of_find?_eq_some h)
  simp [valueAt, hv]

theorem truthyKey_eq_some {dataKey : Option String} {key : String}
    (h : truthyKey dataKey = some key) : dataKey = some key ∧ key ≠ "" := by
  simpa [truthyKey, Option.filter_eq_some_iff] using h

theorem allowPath_eq (payload result : Members) (path : String) :
    allowPath payload (eventDataKey payload) result path =
      ((resolvePath (eventDataKey payload) (keys payload) path).map
        (Target.copy payload result)).getD result := by
  unfold allowPath resolvePath
  by_cases hmeta : path = "event_metadata"
  · cases hkey : payload.lookup "event_metadata" <;> simp [hmeta, Target.copy, hkey]
  cases hmetaSub : subPath "event_metadata" path with
  | some sub => simp [hmeta, Target.copy]
  | none =>
  by_cases hdata : path = "data"
  · cases hkey : truthyKey (eventDataKey payload) with
    | none => simp [hdata]
    | some key =>
      simp [hdata, Target.copy, lookup_of_eventDataKey (truthyKey_eq_some hkey).1]
  cases hdataSub : subPath "data" path with
  | some sub =>
    cases truthyKey (eventDataKey payload) <;> simp [hmeta, hdata, Target.copy]
  | none =>
  cases hpath : payload.lookup path with
  | some value =>
    have hmem : path ∈ keys payload := mem_keys.mpr ⟨value, hpath⟩
    simp [hmeta, hdata, hmem, Target.copy, hpath]
  | none =>
    have hmem : path ∉ keys payload := lookup_eq_none.mp hpath
    cases firstPrefix path (keys payload) <;> simp [hmeta, hdata, hmem, Target.copy]

/-! ## Copies -/

/-- What the allowlist has copied so far is what the payload has there, with members left
out of dictionaries; at the top an empty dotted path makes a dictionary of anything. -/
def Drawn (payload result : Members) : Prop :=
  ∀ loc v, loc ≠ [] → (obj result).at? loc = some v →
    ∃ w, (obj payload).at? loc = some w ∧ (v.Resembles w ∨ v.isDict ∧ loc.length = 1)

theorem segments_ne_nil (sub : String) : segments sub ≠ [] := by
  simp [segments, List.splitOn_ne_nil]

theorem getNestedValue_eq (payload : Members) (key : String) {sub : String} (h : sub ≠ "") :
    getNestedValue (valueAt payload key) sub =
      ((obj payload).at? (key :: segments sub)).getD .null := by
  rw [getNestedValue, if_neg h, descend_eq, at?_obj_cons, valueAt]
  cases payload.lookup key with
  | some v => rfl
  | none =>
    obtain ⟨s, rest, hs⟩ := List.exists_cons_of_ne_nil (segments_ne_nil sub)
    rw [hs]
    rfl

theorem setNestedValue_eq {root : Json} (hroot : root.isDict) {sub : String} (h : sub ≠ "")
    (value : Json) :
    setNestedValue root sub value = obj (assign root.members (segments sub) value) := by
  cases root with
  | obj ms => simp [setNestedValue, h, members]
  | _ => cases hroot

/-- Where the payload has something below a key, the result has a dictionary or nothing. -/
theorem Drawn.root_isDict {payload result : Members} (h : Drawn payload result) {key : String}
    {loc : List String} (hloc : loc ≠ []) {v : Json}
    (hv : (obj payload).at? (key :: loc) = some v) :
    ((result.lookup key).getD (obj [])).isDict := by
  cases hkey : result.lookup key with
  | none => rfl
  | some a =>
    obtain ⟨w, hw, hlike⟩ := h [key] a (by simp) (by simp [hkey])
    obtain ⟨x, rest, rfl⟩ := List.exists_cons_of_ne_nil hloc
    have hw : payload.lookup key = some w := by simpa using hw
    have hbelow : w.at? (x :: rest) = some v := by simpa [hw] using hv
    have hdict : w.isDict := isDict_of_at? hbelow
    rcases hlike with hlike | ⟨hdict', -⟩
    · exact hlike.isDict_eq.trans hdict
    · exact hdict'

namespace Target

variable {payload result : Members}

/-- A copy writes what it found at the target's location; an empty dotted path only makes
sure that its key is there. -/
theorem copy_cases (h : Drawn payload result) (t : Target) :
    t.found payload = false ∧ t.copy payload result = result ∨
      t.found payload ∧ t.sub = some "" ∧
        t.copy payload result = set result t.key ((result.lookup t.key).getD (.obj [])) ∨
      t.found payload ∧ t.sub ≠ some "" ∧ ∃ v, (obj payload).at? t.location = some v ∧
        t.copy payload result = assign result t.location v := by
  obtain ⟨key, _ | sub⟩ := t
  · cases hkey : payload.lookup key with
    | none => simp [found, copy, location, hkey]
    | some v => simp [found, copy, location, hkey, assign]
  by_cases hsub : sub = ""
  · subst hsub
    cases hkey : payload.lookup key with
    | none => simp [found, copy, location, keepNested, getNestedValue, valueAt, hkey]
    | some v =>
      cases v <;> simp [found, copy, location, keepNested, getNestedValue, setNestedValue, valueAt,
        isNull, hkey]
  · have hlocation : ({ key, sub := some sub } : Target).location = key :: segments sub := by
      simp [location, hsub]
    have hcopy : ({ key, sub := some sub } : Target).copy payload result =
      keepNested payload result key sub := rfl
    rw [hcopy, keepNested, getNestedValue_eq payload key hsub, found, hlocation]
    cases hfound : (obj payload).at? (key :: segments sub) with
    | none => simp
    | some v =>
      have hset := setNestedValue_eq (h.root_isDict (segments_ne_nil sub) hfound) hsub v
      have hmembers : ((result.lookup key).map members).getD [] =
          ((result.lookup key).getD (obj [])).members := by
        cases result.lookup key <;> rfl
      obtain ⟨x, rest, hsegments⟩ := List.exists_cons_of_ne_nil (segments_ne_nil sub)
      cases v with
      | null => simp [isNull]
      | _ => simp [isNull, hsub, hset, hsegments, assign, hmembers]

theorem location_ne_nil (t : Target) : t.location ≠ [] := List.cons_ne_nil _ _

theorem location_of_sub_empty {t : Target} (h : t.sub = some "") : t.location = [t.key] := by
  simp [location, h]

theorem keys_copy (h : Drawn payload result) (t : Target) :
    keys (t.copy payload result) = t.addTo payload (keys result) := by
  rcases copy_cases h t with ⟨hfound, hcopy⟩ | ⟨hfound, -, hcopy⟩ | ⟨hfound, -, v, -, hcopy⟩
  · simp [addTo, hfound, hcopy]
  · simp only [addTo, hfound, hcopy, keys_set]
    by_cases hkey : t.key ∈ keys result <;> simp [hkey]
  · have hkeys : keys (assign result t.location v) =
        if t.key ∈ keys result then keys result else keys result ++ [t.key] := by
      unfold location
      split <;> [skip; split] <;> try exact keys_set ..
      obtain ⟨x, rest, hs⟩ := List.exists_cons_of_ne_nil (segments_ne_nil ‹String›)
      rw [hs]
      exact keys_set ..
    simp only [addTo, hfound, hcopy, hkeys]
    by_cases hkey : t.key ∈ keys result <;> simp [hkey]

/-- A copy adds what the target keeps. -/
theorem has_copy (h : Drawn payload result) (t : Target) {loc : List String} (hloc : loc ≠ []) :
    (obj (t.copy payload result)).has loc = ((obj result).has loc || t.keeps payload loc) := by
  rcases copy_cases h t with ⟨hfound, hcopy⟩ | ⟨hfound, hsub, hcopy⟩ | ⟨hfound, hsub, v, hv, hcopy⟩
  · simp [hcopy, keeps, hfound]
  · rw [hcopy, keeps, hfound, location_of_sub_empty hsub]
    obtain ⟨x, rest, rfl⟩ := List.exists_cons_of_ne_nil hloc
    by_cases hx : t.key = x
    · subst hx
      cases hkey : result.lookup t.key with
      | some a =>
        have hkeeps : rest = [] → (a.at? rest).isSome := by
          rintro rfl
          rfl
        cases rest with
        | nil => simp [has, hkey]
        | cons y rest => simp [has, hkey, hsub]
      | none => cases rest <;> simp [has, hkey, hsub, at?]
    · simp [has, hsub, hx, Ne.symm hx]
  · rw [hcopy, keeps, hfound]
    by_cases hbelow : t.location <+: loc
    · have hdrawn : (obj result).has loc → (obj payload).has loc := fun hr => by
        obtain ⟨w, hw⟩ := Option.isSome_iff_exists.mp hr
        obtain ⟨u, hu, -⟩ := h loc w hloc hw
        simp [has, hu]
      obtain ⟨rest, rfl⟩ := hbelow
      have hwritten : (obj (assign result t.location v)).has (t.location ++ rest) =
          (obj payload).has (t.location ++ rest) := by
        simp [has, at?_assign_below _ t.location_ne_nil, at?_append, hv]
      rw [hwritten]
      cases hp : (obj payload).has (t.location ++ rest) with
      | true => simp [hsub]
      | false =>
        have habove : (t.location ++ rest).isPrefixOf t.location = false := by
          refine Bool.eq_false_iff.mpr fun hpre => ?_
          obtain ⟨tail, htail⟩ := List.isPrefixOf_iff_prefix.mp hpre
          obtain ⟨u, hu⟩ := at?_of_prefix (htail.symm ▸ hv)
          simp [has, hu] at hp
        have hresult : (obj result).has (t.location ++ rest) = false :=
          Bool.eq_false_iff.mpr fun hr => by simp [hdrawn hr] at hp
        simp [habove, hresult]
    by_cases habove : loc <+: t.location
    · obtain ⟨rest, hrest⟩ := habove
      have hne : rest ≠ [] := by
        rintro rfl
        exact hbelow (by simp [← hrest])
      obtain ⟨ms, hms⟩ := at?_assign_above result v loc hne
      rw [hrest] at hms
      have hpre : loc.isPrefixOf t.location := by simp [← hrest]
      simp [has, hms, hpre]
    · simp [has, at?_assign_aside _ _ hbelow habove, hbelow, habove]

/-- A copy draws on the payload only. -/
theorem drawn_copy (h : Drawn payload result) (t : Target) :
    Drawn payload (t.copy payload result) := by
  intro loc v hloc hv
  rcases copy_cases h t with ⟨-, hcopy⟩ | ⟨hfound, hsub, hcopy⟩ | ⟨-, -, w, hw, hcopy⟩ <;>
    rw [hcopy] at hv
  · exact h loc v hloc hv
  · obtain ⟨x, rest, rfl⟩ := List.exists_cons_of_ne_nil hloc
    rw [at?_obj_cons, lookup_set] at hv
    by_cases hx : t.key = x
    · subst hx
      cases hkey : result.lookup t.key with
      | some a => exact h _ v hloc (by simpa [hkey] using hv)
      | none =>
        cases rest with
        | cons y rest => simp [hkey] at hv
        | nil =>
          obtain rfl : obj [] = v := by simpa [hkey] using hv
          cases hw : (obj payload).at? [t.key] with
          | none => simp [found, location_of_sub_empty hsub, hw] at hfound
          | some w => exact ⟨w, rfl, .inr ⟨rfl, rfl⟩⟩
    · exact h _ v hloc (by simpa [hx] using hv)
  · by_cases hbelow : t.location <+: loc
    · obtain ⟨rest, rfl⟩ := hbelow
      rw [at?_assign_below _ t.location_ne_nil] at hv
      exact ⟨v, by simp [at?_append, hw, hv], .inl (.refl v)⟩
    by_cases habove : loc <+: t.location
    · obtain ⟨rest, hrest⟩ := habove
      have hne : rest ≠ [] := by
        rintro rfl
        exact hbelow (by simp [← hrest])
      obtain ⟨x, rest, rfl⟩ := List.exists_cons_of_ne_nil hne
      obtain ⟨ms, hms⟩ := at?_assign_above result w loc hne
      rw [hrest, hv] at hms
      rw [← hrest, at?_append] at hw
      obtain ⟨u, hu, hw⟩ := Option.bind_eq_some_iff.mp hw
      exact ⟨u, hu, .inl (.inr ⟨by cases hms; rfl, isDict_of_at? hw⟩)⟩
    · exact h loc v hloc (by rwa [at?_assign_aside _ _ hbelow habove] at hv)

/-! ## Deletions -/

/-- A deletion is one along the location; an empty dotted path deletes nothing. -/
theorem remove_eq (payload : Members) (t : Target) : t.remove payload =
    if t.sub = some "" then payload else ((obj payload).prune t.location).members := by
  obtain ⟨key, _ | sub⟩ := t
  · rfl
  · by_cases hsub : sub = ""
    · subst hsub
      have hself : modify payload key (fun v => deleteNestedPath v "") = payload :=
        modify_self fun e _ _ => if_pos rfl
      exact hself
    · obtain ⟨x, rest, hs⟩ := List.exists_cons_of_ne_nil (segments_ne_nil sub)
      have hdelete : (fun v => deleteNestedPath v sub) = fun v => v.prune (x :: rest) :=
        funext fun v => by rw [deleteNestedPath, if_neg hsub, hs]
      rw [if_neg (by simpa using hsub), remove, location]
      simp only [hdelete, if_neg hsub, hs]
      rfl

theorem keys_remove (payload : Members) (t : Target) :
    keys (t.remove payload) = t.removeFrom (keys payload) := by
  unfold remove removeFrom
  split <;> simp [*]

/-- A deletion leaves nothing at the locations that the target removes and, up to members
of dictionaries, the rest alone. -/
theorem at?_remove (payload : Members) (t : Target) {loc : List String} (hloc : loc ≠ []) :
    if t.removes loc then (obj (t.remove payload)).at? loc = none
    else Option.Rel Resembles ((obj (t.remove payload)).at? loc) ((obj payload).at? loc) := by
  obtain ⟨x, rest, rfl⟩ := List.exists_cons_of_ne_nil hloc
  obtain ⟨key, _ | sub⟩ := t
  · by_cases hx : key = x
    · simp [removes, remove, location, hx]
    · simpa [removes, remove, location, hx] using rel_refl _
  by_cases hsub : sub = ""
  · subst hsub
    by_cases hx : key = x
    · subst hx
      cases hkey : payload.lookup key with
      | none => simp [removes, remove, hkey]
      | some v => simpa [removes, remove, deleteNestedPath, hkey] using rel_refl _
    · simpa [removes, remove, hx] using rel_refl _
  by_cases hx : key = x
  · subst hx
    have hremoves : ({ key, sub := some sub } : Target).removes (key :: rest) =
        (segments sub).isPrefixOf rest := by
      simp [removes, location, hsub]
    rw [hremoves]
    cases hkey : payload.lookup key with
    | none => simp [remove, hkey]
    | some v =>
      split
      · next hbelow =>
        obtain ⟨rest, rfl⟩ := List.isPrefixOf_iff_prefix.mp hbelow
        simp [remove, hkey, deleteNestedPath, hsub, at?_prune_below v (segments_ne_nil sub)]
      · next hbelow =>
        rw [List.isPrefixOf_iff_prefix] at hbelow
        simpa [remove, hkey, deleteNestedPath, hsub] using at?_prune_aside v hbelow
  · simpa [removes, remove, location, hx] using rel_refl _

end Target

end WebhookRelay
