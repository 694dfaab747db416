import WebhookRelay.Payload.Shape
import WebhookRelay.Payload.Sharing

/-!
# The lists on objects

The rounds of both lists on objects are resolution and then a copy or a deletion, like those on
values. Where the result of the allowlist shares dictionaries with the raw payload is known from
the targets, and with it what the denylist deletes from the raw payload: `leftRaw`.

## Main results

* `shapeObjects_eq` — on lists of strings the code on objects computes the shaped payload, and
  leaves of the raw payload what `leftRaw` says.
-/

namespace WebhookRelay

open Objects Objects.Heap Dictionary Json

namespace Target

/-- Copy the target into the result of the allowlist, on objects. -/
def copyObject (memory : Memory) (payload result : Address String) (t : Target) : Memory :=
  match t.sub with
  | none => match (memory.cells payload).lookup t.key with
    | some value => setItem memory result t.key value
    | none => memory
  | some sub => keepNestedObject memory payload result t.key sub

/-- Delete the target, on objects. -/
def removeObject (memory : Memory) (payload : Address String) (t : Target) : Memory :=
  match t.sub with
  | none => popItem memory payload t.key
  | some sub => deleteNestedObject memory (getItem memory payload t.key) sub

end Target

/-! ## Rounds -/

theorem denyPathObject_eq (payload : Address String) (dataKey : Option String) (memory : Memory)
    (path : String) : denyPathObject payload dataKey memory path =
      ((resolvePath dataKey (keys (memory.cells payload)) path).map
        (Target.removeObject memory payload)).getD memory := by
  unfold denyPathObject resolvePath
  repeat' split
  all_goals simp_all [Target.removeObject]

theorem allowPathObject_eq {payload : Address String} {dataKey : Option String}
    {memory : Memory} (hdata : ∀ key, dataKey = some key → key ∈ keys (memory.cells payload))
    (result : Address String) (path : String) :
    allowPathObject payload result dataKey memory path =
      ((resolvePath dataKey (keys (memory.cells payload)) path).map
        (Target.copyObject memory payload result)).getD memory := by
  unfold allowPathObject resolvePath
  by_cases hmeta : path = "event_metadata"
  · cases hkey : (memory.cells payload).lookup "event_metadata" <;>
      simp [hmeta, Target.copyObject, hkey]
  cases hmetaSub : subPath "event_metadata" path with
  | some sub => simp [hmeta, Target.copyObject]
  | none =>
  by_cases hpath : path = "data"
  · cases hkey : truthyKey dataKey with
    | none => simp [hpath]
    | some key =>
      obtain ⟨value, hvalue⟩ := mem_keys.mp (hdata key (truthyKey_eq_some hkey).1)
      simp [hpath, Target.copyObject, getItem, hvalue]
  cases hdataSub : subPath "data" path with
  | some sub => cases truthyKey dataKey <;> simp [hmeta, hpath, Target.copyObject]
  | none =>
  cases hlookup : (memory.cells payload).lookup path with
  | some value =>
    have hmem : path ∈ keys (memory.cells payload) := mem_keys.mpr ⟨value, hlookup⟩
    simp [hmeta, hpath, hmem, Target.copyObject, hlookup]
  | none =>
    have hmem : path ∉ keys (memory.cells payload) := lookup_eq_none.mp hlookup
    cases firstPrefix path (keys (memory.cells payload)) <;>
      simp [hmeta, hpath, hmem, Target.copyObject]

/-! ## Copies -/

/-- A copy of the target shares what is at the location with the payload. -/
def Target.shares (payload : Members) (t : Target) (loc : List String) : Bool :=
  t.found payload && t.sub ≠ some "" && t.location.isPrefixOf loc

namespace Filling

variable {memory : Memory} {shared : List String → Prop} {raw result : Members}

theorem not_shared_nil (h : Filling memory shared raw result) : ¬ shared [] := fun hnil => by
  cases h.loaded hnil (walk_nil ..)

/-- The copy has what the raw payload has. -/
theorem lookup_copied (h : Filling memory shared raw result) (key : String) :
    (memory.cells (.made 0)).lookup key = memory.walk (.ref (.loaded [])) [key] := by
  rw [h.copied, ← walk_snoc (walk_nil memory (.ref (.loaded []))), List.nil_append]

theorem keys_copied (h : Filling memory shared raw result) :
    keys (memory.cells (.made 0)) = keys raw := by
  rw [h.copied, h.raw_reads.keys_eq]

/-- What `_get_nested_value` finds for a target. -/
theorem getNestedObject_copied (h : Filling memory shared raw result) (key sub : String) :
    getNestedObject memory (getItem memory (.made 0) key) sub =
      (memory.walk (.ref (.loaded [])) ({ key, sub := some sub } : Target).location).getD
        (.leaf .null) := by
  by_cases hsub : sub = ""
  · rw [getNestedObject, if_pos hsub, getItem, h.lookup_copied, hsub]
    rfl
  · have hlocation : ({ key, sub := some sub } : Target).location = key :: segments sub := by
      simp [Target.location, hsub]
    rw [getNestedObject, if_neg hsub, getItem, h.copied, hlocation, walk_ref_cons]
    cases (memory.cells (.loaded [])).lookup key with
    | some w => rfl
    | none =>
      obtain ⟨s, rest, hs⟩ := List.exists_cons_of_ne_nil (segments_ne_nil sub)
      rw [hs]
      rfl

/-- It is `None` exactly if the target is not found. -/
theorem getNestedObject_none_iff (h : Filling memory shared raw result) {key sub : String} :
    getNestedObject memory (getItem memory (.made 0) key) sub = .leaf .null ↔
      ({ key, sub := some sub } : Target).found raw = false := by
  rw [h.getNestedObject_copied, Target.found]
  cases hu : (obj raw).at? ({ key, sub := some sub } : Target).location with
  | none =>
    have hsome := h.raw_reads.isSome_eq ({ key, sub := some sub } : Target).location
    rw [has, hu, Option.isSome_none, Option.isSome_eq_false_iff, Option.isNone_iff_eq_none] at hsome
    simp [hsome]
  | some u =>
    obtain ⟨w, hw, halike⟩ := h.raw_reads.of_at? hu
    rw [hw]
    cases w with
    | leaf x =>
      obtain rfl := halike.1
      cases x <;> simp [isNull]
    | ref a =>
      obtain ⟨ms, rfl, -⟩ := halike
      simp [isNull]

/-- `_set_nested_value` below a key that the result has, or is given first. -/
theorem keepNestedObject_eq {key sub : String} {w : Object} (hsub : sub ≠ "")
    (hw : getNestedObject memory (getItem memory (.made 0) key) sub = w) (hnull : w ≠ .leaf .null)
    (hroot : ∀ v, (memory.cells (.made 1)).lookup key ≠ some (.leaf v)) :
    keepNestedObject memory (.made 0) (.made 1) key sub =
      WebhookRelay.setAlong memory (.made 1) (key :: segments sub) w := by
  obtain ⟨s, rest, hs⟩ := List.exists_cons_of_ne_nil (segments_ne_nil sub)
  rw [hs, WebhookRelay.setAlong, ← hs]
  unfold keepNestedObject
  rw [hw]
  split
  · exact absurd rfl hnull
  · unfold setDefault
    cases hlookup : (memory.cells (.made 1)).lookup key with
    | none => simp [setNestedObject, hsub]
    | some root =>
      cases root with
      | leaf v => exact absurd hlookup (hroot v)
      | ref child => simp [setNestedObject, hsub]

theorem copyObject_of_not_found (h : Filling memory shared raw result) {t : Target}
    (hfound : t.found raw = false) : t.copyObject memory (.made 0) (.made 1) = memory := by
  obtain ⟨key, _ | sub⟩ := t
  · have hnone : raw.lookup key = none := by
      cases hkey : raw.lookup key with
      | none => rfl
      | some v => simp [Target.found, Target.location, hkey] at hfound
    have hlookup : (memory.cells (.made 0)).lookup key = none := by
      rw [lookup_eq_none, h.keys_copied, ← lookup_eq_none, hnone]
    simp [Target.copyObject, hlookup]
  · simp [Target.copyObject, keepNestedObject, h.getNestedObject_none_iff.mpr hfound]

/-- What is found is written along its location. -/
theorem copyObject_of_found (h : Filling memory shared raw result) (hdrawn : Drawn raw result)
    {t : Target} (hfound : t.found raw) (hsub : t.sub ≠ some "") {u : Json} {w : Object}
    (hu : (obj raw).at? t.location = some u)
    (hw : memory.walk (.ref (.loaded [])) t.location = some w) :
    t.copyObject memory (.made 0) (.made 1) =
      WebhookRelay.setAlong memory (.made 1) t.location w := by
  obtain ⟨key, _ | sub⟩ := t
  · have hlookup : (memory.cells (.made 0)).lookup key = some w :=
      (h.lookup_copied key).trans hw
    simp [Target.copyObject, hlookup, Target.location, WebhookRelay.setAlong]
  · have hsub : sub ≠ "" := fun heq => hsub (by rw [heq])
    have hlocation : ({ key, sub := some sub } : Target).location = key :: segments sub := by
      simp [Target.location, hsub]
    have hnested := h.getNestedObject_copied key sub
    rw [hw, Option.getD_some] at hnested
    rw [hlocation] at hu ⊢
    refine keepNestedObject_eq hsub hnested (fun hnull => ?_) fun v hv => ?_
    · rw [hnull, h.getNestedObject_none_iff] at hnested
      simp [hnested] at hfound
    · have hdict := hdrawn.root_isDict (segments_ne_nil sub) hu
      have hmember := h.reads.member key
      rw [hv] at hmember
      obtain ⟨x, hlookup, hreads⟩ := exists_of_some_rel hmember
      obtain ⟨y, hy, rfl, hnot⟩ := hreads.to_at? (walk_nil ..)
      rw [at?_nil] at hy
      obtain rfl := Option.some.inj hy
      rw [hlookup, Option.getD_some, hnot] at hdict
      cases hdict

/-- An empty dotted path makes a dictionary under its key, unless there is something. -/
theorem keepNestedObject_empty (h : Filling memory shared raw result) {key : String}
    (hfound : ({ key, sub := some "" } : Target).found raw) :
    Filling (keepNestedObject memory (.made 0) (.made 1) key "") shared raw
      (Dictionary.set result key ((result.lookup key).getD (obj []))) := by
  have hroot : memory.walk (.ref (.made 1)) [] = some (.ref (.made 1)) := walk_nil ..
  have hne : getNestedObject memory (getItem memory (.made 0) key) "" ≠ .leaf .null :=
    fun hnull => by simp [h.getNestedObject_none_iff.mp hnull] at hfound
  have hkeep : keepNestedObject memory (.made 0) (.made 1) key "" =
      (setDefault memory (.made 1) key).2 := by
    unfold keepNestedObject
    split
    · next hnull => exact absurd hnull hne
    · simp [setNestedObject]
  rw [hkeep, setDefault]
  have hmember := h.reads.member key
  cases hlookup : (memory.cells (.made 1)).lookup key with
  | some v =>
    rw [hlookup] at hmember
    obtain ⟨u, hv, -⟩ := exists_of_some_rel hmember
    rw [hv, Option.getD_some, set_self hv]
    exact h
  | none =>
    rw [hlookup] at hmember
    have hv : result.lookup key = none := eq_none_of_none_rel hmember
    have hwalk : memory.walk (.ref (.made 1)) ([] ++ [key]) = none :=
      (walk_snoc hroot key).trans hlookup
    have hk : ¬ shared ([] ++ [key]) := by
      intro hk
      have hraw := h.getNestedObject_copied key ""
      cases hw : memory.walk (.ref (.loaded [])) [key] with
      | none => exact hne (hraw.trans (by rw [Target.location_of_sub_empty rfl, hw]; rfl))
      | some w => cases hwalk.symm.trans (h.full _ w hk hw)
    rw [hv, Option.getD_none]
    exact (h.setEmpty h.not_shared_nil hroot hk fun b hb => by cases hwalk.symm.trans hb).1

/-- A round of the allowlist on objects copies the target, and shares it. -/
theorem copy (h : Filling memory shared raw result) (hdrawn : Drawn raw result) (t : Target) :
    Filling (t.copyObject memory (.made 0) (.made 1))
      (fun loc => shared loc ∨ t.shares raw loc) raw (t.copy raw result) := by
  rcases Target.copy_cases hdrawn t with
    ⟨hfound, hcopy⟩ | ⟨hfound, hsub, hcopy⟩ | ⟨hfound, hsub, u, hu, hcopy⟩
  · rw [h.copyObject_of_not_found hfound, hcopy]
    exact h.congr fun loc => by simp [Target.shares, hfound]
  · obtain ⟨key, sub⟩ := t
    obtain rfl : sub = some "" := hsub
    rw [hcopy]
    exact (h.keepNestedObject_empty hfound).congr fun loc => by simp [Target.shares]
  · obtain ⟨w, hw, halike⟩ := h.raw_reads.of_at? hu
    rw [h.copyObject_of_found hdrawn hfound hsub hu hw, hcopy]
    refine (h.setAlong (walk_nil ..) t.location_ne_nil hw hu).congr fun loc => ?_
    simp [Target.shares, hfound, hsub]

end Filling

/-! ## Deletions -/

/-- The loop of `_delete_nested_path` deletes the last key where the others lead to. -/
theorem deleteAlong_eq (memory : Memory) (o : Object) (ks : List String) (k : String) :
    deleteAlong memory o (ks ++ [k]) = popAt memory o ks k := by
  induction ks generalizing o with
  | nil => cases o <;> rfl
  | cons x ks ih =>
    cases o with
    | leaf v => rfl
    | ref a =>
      obtain ⟨y, rest, hrest⟩ : ∃ y rest, ks ++ [k] = y :: rest :=
        List.exists_cons_of_ne_nil (by simp)
      rw [List.cons_append, hrest, deleteAlong, ← hrest, popAt, walk_ref_cons]
      · cases hx : (memory.cells a).lookup x with
        | none => rfl
        | some child => exact ih child
      · rintro ⟨⟩

/-- What a deletion of the target deletes from the raw payload. -/
def Target.spill (shared : List String → Bool) (remaining raw : Members) (t : Target) : Members :=
  if shared t.location.dropLast && (obj remaining).has t.location.dropLast
  then ((obj raw).prune t.location).members else raw

/-- A round of the denylist on objects deletes the target, from the raw payload too where it is
shared. -/
theorem Sharing.remove {memory : Memory} {base : Nat} {shared : List String → Bool}
    {raw result : Members} (h : Sharing memory base (fun loc => shared loc) raw result)
    (t : Target) : Sharing (t.removeObject memory (.made base)) base (fun loc => shared loc)
      (t.spill shared result raw) (t.remove result) := by
  have hnil : shared [] = false := by
    cases hshared : shared [] with
    | false => rfl
    | true => cases h.loaded hshared (walk_nil ..)
  obtain ⟨key, _ | sub⟩ := t
  · have hpop := h.popAt [] key
    rw [if_neg (by simp [hnil])] at hpop
    have hspill : ({ key } : Target).spill shared result raw = raw := by
      simp [Target.spill, Target.location, hnil]
    rw [hspill]
    exact hpop
  by_cases hsub : sub = ""
  · have hself : ({ key, sub := some sub } : Target).remove result = result := by
      change modify result key (fun v => deleteNestedPath v sub) = result
      exact modify_self fun e _ _ => if_pos hsub
    have hspill : ({ key, sub := some sub } : Target).spill shared result raw = raw := by
      simp [Target.spill, Target.location, hsub, hnil]
    have hobject : ({ key, sub := some sub } : Target).removeObject memory (.made base) = memory :=
      if_pos hsub
    rw [hspill, hobject, hself]
    exact h
  · obtain ⟨ks, k, hks⟩ : ∃ ks k, segments sub = ks ++ [k] :=
      ⟨_, _, (List.dropLast_concat_getLast (segments_ne_nil sub)).symm⟩
    have hlocation : ({ key, sub := some sub } : Target).location = key :: ks ++ [k] := by
      simp [Target.location, hsub, hks]
    have hremove : ({ key, sub := some sub } : Target).removeObject memory (.made base) =
        WebhookRelay.popAt memory (.ref (.made base)) (key :: ks) k := by
      have hdelete : ({ key, sub := some sub } : Target).removeObject memory (.made base) =
          deleteAlong memory (getItem memory (.made base) key) (segments sub) := if_neg hsub
      rw [hdelete, hks, deleteAlong_eq, WebhookRelay.popAt, WebhookRelay.popAt, walk_ref_cons,
        getItem]
      cases (memory.cells (.made base)).lookup key with
      | some o => rfl
      | none => cases ks <;> rfl
    have hresult : ({ key, sub := some sub } : Target).remove result =
        ((obj result).prune (key :: ks ++ [k])).members := by
      obtain ⟨y, rest, hrest⟩ : ∃ y rest, ks ++ [k] = y :: rest :=
        List.exists_cons_of_ne_nil (by simp)
      have hdelete : (fun v => deleteNestedPath v sub) = fun v => v.prune (ks ++ [k]) :=
        funext fun v => by rw [deleteNestedPath, if_neg hsub, hks]
      rw [Target.remove]
      simp only [hdelete]
      rw [List.cons_append, hrest]
      rfl
    have hspill : ({ key, sub := some sub } : Target).spill shared result raw =
        if shared (key :: ks) ∧ (obj result).has (key :: ks)
        then ((obj raw).prune (key :: ks ++ [k])).members else raw := by
      rw [Target.spill, hlocation, List.dropLast_concat]
      simp only [Bool.and_eq_true]
    rw [hremove, hresult, hspill]
    exact h.popAt (key :: ks) k

/-! ## The two loops -/

/-- The places where the result of the allowlist shares with the raw payload. Without an
allowlist the result is the copy, which shares everything but itself. -/
def sharedAt (payload : Members) (allowlist : List String) (loc : List String) : Bool :=
  if allowlist = [] then loc ≠ []
  else (allowTargets payload allowlist).any fun t => t.shares payload loc

/-- The result of the allowlist. -/
def allowed (payload : Members) (allowlist : List String) : Members :=
  if allowlist = [] then payload
  else (allowTargets payload allowlist).foldl (Target.copy payload) []

/-- What the rounds of the denylist leave of the raw payload. -/
def leave (shared : List String → Bool) (dataKey : Option String) :
    (denylist : List String) → (remaining raw : Members) → Members
  | [], _, raw => raw
  | path :: paths, remaining, raw => match resolvePath dataKey (keys remaining) path with
    | none => leave shared dataKey paths remaining raw
    | some t => leave shared dataKey paths (t.remove remaining) (t.spill shared remaining raw)

/-- What `_shape_and_check` leaves of the raw payload. -/
def leftRaw (payload : Members) (allowlist denylist : List String) : Members :=
  leave (sharedAt payload allowlist) (dataKeyOf (keptKeys payload allowlist)) denylist
    (allowed payload allowlist) payload

/-- The rounds of the denylist on objects. -/
theorem Sharing.denials {memory : Memory} {base : Nat} {shared : List String → Bool}
    {raw result : Members} (h : Sharing memory base (fun loc => shared loc) raw result)
    (dataKey : Option String) (denylist : List String) :
    Sharing (denylist.foldl (denyPathObject (.made base) dataKey) memory) base
      (fun loc => shared loc) (leave shared dataKey denylist result raw)
      (denylist.foldl (denyPath dataKey) result) := by
  induction denylist generalizing memory raw result with
  | nil => exact h
  | cons path denylist ih =>
    rw [List.foldl_cons, List.foldl_cons, denyPathObject_eq, denyPath_eq, leave,
      ← h.reads.keys_eq]
    cases resolvePath dataKey (keys result) path with
    | none => exact ih h
    | some t => exact ih (h.remove t)

/-- The rounds of the allowlist on objects. -/
theorem Filling.copies {memory : Memory} {shared : List String → Prop} {raw result : Members}
    (h : Filling memory shared raw result) (hdrawn : Drawn raw result) (allowlist : List String) :
    Filling (allowlist.foldl (allowPathObject (.made 0) (.made 1) (eventDataKey raw)) memory)
      (fun loc => shared loc ∨ (allowTargets raw allowlist).any fun t => t.shares raw loc) raw
      ((allowTargets raw allowlist).foldl (Target.copy raw) result) := by
  induction allowlist generalizing memory shared result with
  | nil => exact h.congr fun loc => by simp [allowTargets]
  | cons path allowlist ih =>
    rw [List.foldl_cons, allowPathObject_eq fun key hkey => ?_, h.keys_copied, allowTargets,
      List.filterMap_cons]
    · cases resolvePath (eventDataKey raw) (keys raw) path with
      | none => exact ih h hdrawn
      | some t =>
        refine (ih (h.copy hdrawn t) (Target.drawn_copy hdrawn t)).congr fun loc => ?_
        simp [allowTargets, or_assoc]
    · rw [h.keys_copied]
      exact mem_keys.mpr ⟨_, lookup_of_eventDataKey hkey⟩

/-! ## From the loaded payload on -/

/-- A loaded payload with a copy of it. -/
def loadCopy (payload : Members) : Memory := (load payload).make ((load payload).cells (.loaded []))

theorem loadCopy_copied (payload : Members) :
    (loadCopy payload).cells (.made 0) = (loadCopy payload).cells (.loaded []) := by
  rw [loadCopy, make_cells_of_ne (load payload) _ (a := .loaded []) nofun]
  exact make_cells_self ..

/-- A copy shares everything but itself. -/
theorem sharing_copy (payload : Payload) :
    Sharing (loadCopy payload.members) 0 (fun loc => loc ≠ []) payload.members
      payload.members := by
  set loaded := load payload.members
  set memory := loadCopy payload.members
  have hunreached : ∀ loc, loaded.walk (.ref (.loaded [])) loc ≠
      some (.ref (.made loaded.next)) := fun loc hloc => by cases named_load hloc
  have hraw : ∀ loc, memory.walk (.ref (.loaded [])) loc = loaded.walk (.ref (.loaded [])) loc :=
    walk_make_of_unreached _ hunreached
  have hreads : StandsFor memory (.ref (.loaded [])) (obj payload.members) :=
    (reads_load payload.members).make_of_unreached hunreached _
  have hcells : memory.cells (.made 0) = memory.cells (.loaded []) := loadCopy_copied _
  have hwalk : ∀ loc, loc ≠ [] →
      memory.walk (.ref (.made 0)) loc = memory.walk (.ref (.loaded [])) loc := by
    intro loc hloc
    obtain ⟨k, rest, rfl⟩ := List.exists_cons_of_ne_nil hloc
    rw [walk_ref_cons, walk_ref_cons, hcells]
  have hnamed : ∀ loc a, memory.walk (.ref (.made 0)) loc = some (.ref a) →
      loc = [] ∧ a = .made 0 ∨ loc ≠ [] ∧ a = .loaded loc := by
    intro loc a ha
    by_cases hloc : loc = []
    · subst hloc
      obtain rfl : Address.made 0 = a := by simpa using ha
      exact .inl ⟨rfl, rfl⟩
    · rw [hwalk loc hloc, hraw] at ha
      exact .inr ⟨hloc, named_load ha⟩
  constructor
  · exact payload.wellFormed
  · exact hreads
  · intro loc a ha
    rw [hraw] at ha
    exact named_load ha
  · exact payload.wellFormed
  · intro loc
    by_cases hloc : loc = []
    · subst hloc
      rw [walk_nil, at?_nil]
      exact .some ⟨_, rfl, by rw [hcells, hreads.keys_eq]⟩
    · rw [hwalk loc hloc]
      exact hreads loc
  · intro loc a hloc ha
    obtain ⟨-, rfl⟩ | ⟨hne, -⟩ := hnamed loc a ha
    · exact ⟨0, le_rfl, Nat.zero_lt_one, rfl⟩
    · exact absurd hne hloc
  · intro loc w hloc hw
    rwa [← hwalk loc hloc]
  · intro loc loc' a ha ha'
    obtain ⟨rfl, rfl⟩ | ⟨-, rfl⟩ := hnamed loc a ha
    · obtain ⟨rfl, -⟩ | ⟨-, heq⟩ := hnamed loc' _ ha'
      · rfl
      · cases heq
    · obtain ⟨-, heq⟩ | ⟨-, heq⟩ := hnamed loc' _ ha'
      · cases heq
      · injection heq

/-- The result of the allowlist is empty at first. -/
theorem filling_empty (payload : Payload) :
    Filling ((loadCopy payload.members).make []) (fun _ => False) payload.members [] := by
  have hcopy := sharing_copy payload
  have hnext : (loadCopy payload.members).next = 1 := rfl
  set memory := loadCopy payload.members
  have hraw : ∀ loc, (memory.make []).walk (.ref (.loaded [])) loc =
      memory.walk (.ref (.loaded [])) loc :=
    walk_make_of_unreached [] (hcopy.raw_unreached _)
  have hwalk : ∀ loc, (memory.make []).walk (.ref (.made 1)) loc =
      if loc = [] then some (.ref (.made 1)) else none := walk_make_self memory
  have hroot : ∀ {loc w}, (memory.make []).walk (.ref (.made 1)) loc = some w →
      loc = [] ∧ w = .ref (.made 1) := by
    intro loc w hw
    rw [hwalk] at hw
    split at hw
    · next hloc => exact ⟨hloc, (Option.some.inj hw).symm⟩
    · cases hw
  constructor
  · constructor
    · exact hcopy.raw_wellFormed
    · exact hcopy.raw_reads.make_of_unreached (hcopy.raw_unreached _) []
    · intro loc a ha
      rw [hraw] at ha
      exact hcopy.raw_named loc a ha
    · exact .obj (by simp [keys]) (by simp)
    · intro loc
      rw [hwalk]
      cases loc with
      | nil =>
        have hcells : (memory.make []).cells (.made 1) = [] := make_cells_self memory []
        exact .some ⟨[], rfl, by rw [hcells]; rfl⟩
      | cons k rest => exact .none
    · intro loc a _ ha
      obtain ⟨rfl, heq⟩ := hroot ha
      injection heq with heq
      exact ⟨1, le_rfl, Nat.one_lt_two, heq⟩
    · exact fun _ _ hfalse => hfalse.elim
    · intro loc loc' a ha ha'
      rw [(hroot ha).1, (hroot ha').1]
  · exact fun _ _ hfalse => hfalse
  · exact fun _ _ hfalse => hfalse.elim
  · have hne : Address.made 0 ≠ Address.made (κ := String) memory.next := by
      rw [hnext]
      decide
    rw [make_cells_of_ne memory [] hne, make_cells_of_ne memory [] (a := .loaded []) nofun]
    exact loadCopy_copied _

/-! ## The whole of it -/

theorem keys_allowed (payload : Members) (allowlist : List String) :
    keys (allowed payload allowlist) = keptKeys payload allowlist := by
  unfold allowed keptKeys
  split
  · rfl
  · exact (copies_spec payload _ [] drawn_nil).2.1

/-- The members of the shaped payload, as the loops compute them. -/
theorem shapeAndCheck_members (payload : Payload) (endpoint : WebhookEndpoint)
    {allowlist denylist : List String} (hallow : endpoint.piiAllowlist = pathList allowlist)
    (hdeny : endpoint.piiDenylist = pathList denylist) :
    ∃ shaped : Payload, shapeAndCheck payload endpoint =
        .ok (shaped, shouldSendPassingEvent shaped.members endpoint.onlyOnPassing) ∧
      shaped.members = denylist.foldl (denyPath (dataKeyOf (keptKeys payload.members allowlist)))
        (allowed payload.members allowlist) := by
  obtain ⟨result, hresult, hmembers⟩ : ∃ result : Payload,
      (if (pathList allowlist).truthy then applyAllowlist payload (pathList allowlist)
        else .ok payload) = .ok result ∧
      result.members = allowed payload.members allowlist := by
    rw [pathList_truthy, allowed]
    by_cases h : allowlist = []
    · exact ⟨payload, by simp [h]⟩
    · obtain ⟨result, hresult, hmembers⟩ := applyAllowlist_pathList payload h
      exact ⟨result, by simp [h, hresult], by rw [hmembers, if_neg h]⟩
  obtain ⟨shaped, hshaped, hmembers'⟩ := denied_spec result denylist
  refine ⟨shaped, ?_, by rw [hmembers', hmembers, keys_allowed]⟩
  rw [shapeAndCheck_eq, hallow, hdeny, hresult, Except.bind, hshaped]
  rfl

/-- `_shape_and_check` on objects, step by step. -/
theorem shapeObject_eq (memory : Memory) (rawPayload : Address String)
    (endpoint : WebhookEndpoint) : shapeObject memory rawPayload endpoint =
      (if endpoint.piiAllowlist.truthy
        then applyAllowlistObject (memory.make (memory.cells rawPayload)) (.made memory.next)
          endpoint.piiAllowlist
        else .ok (.made memory.next, memory.make (memory.cells rawPayload))).bind fun result =>
        (if endpoint.piiDenylist.truthy
          then applyDenylistObject result.2 result.1 endpoint.piiDenylist
          else .ok result.2).bind fun memory => .ok (result.1, memory) := by
  unfold shapeObject
  cases endpoint.piiAllowlist.truthy <;> cases endpoint.piiDenylist.truthy <;> rfl

theorem deniedObject_spec (memory : Memory) (payload : Address String) (denylist : List String) :
    (if (pathList denylist).truthy then applyDenylistObject memory payload (pathList denylist)
      else .ok memory) =
      .ok (denylist.foldl (denyPathObject payload (eventDataKeyOf memory payload)) memory) := by
  cases denylist with
  | nil => rfl
  | cons path paths => exact forEachPath_strings ..

/-- The loop of the allowlist on the raw payload or on a copy of it. -/
theorem applyAllowlistObject_pathList (payload : Payload) {allowlist : List String}
    (h : allowlist ≠ []) {source : Address String}
    (hsource : (loadCopy payload.members).cells source =
      (loadCopy payload.members).cells (.loaded [])) :
    applyAllowlistObject (loadCopy payload.members) source (pathList allowlist) =
      .ok (.made 1, allowlist.foldl
        (allowPathObject source (.made 1) (eventDataKey payload.members))
          ((loadCopy payload.members).make [])) := by
  have hkey : eventDataKeyOf (loadCopy payload.members) source = eventDataKey payload.members := by
    rw [eventDataKeyOf, hsource, ← (sharing_copy payload).raw_reads.keys_eq]
    rfl
  have htruthy : (pathList allowlist).truthy := by simp [pathList_truthy, h]
  rw [applyAllowlistObject, if_pos htruthy, hkey]
  simp only [pathList, forEachPath_strings, Bind.bind, Except.bind]
  rfl

/-- What the lists on objects make of a loaded payload. -/
theorem shapeObject_spec (payload : Payload) (endpoint : WebhookEndpoint)
    {allowlist denylist : List String} (hallow : endpoint.piiAllowlist = pathList allowlist)
    (hdeny : endpoint.piiDenylist = pathList denylist) :
    ∃ base memory, shapeObject (load payload.members) (.loaded []) endpoint =
        .ok (.made base, memory) ∧
      Sharing memory base (fun loc => sharedAt payload.members allowlist loc)
        (leftRaw payload.members allowlist denylist)
        (denylist.foldl (denyPath (dataKeyOf (keptKeys payload.members allowlist)))
          (allowed payload.members allowlist)) := by
  obtain ⟨base, memory, hresult, hsharing⟩ : ∃ base memory,
      (if (pathList allowlist).truthy
        then applyAllowlistObject (loadCopy payload.members) (.made 0) (pathList allowlist)
        else .ok (.made 0, loadCopy payload.members)) = .ok (.made base, memory) ∧
      Sharing memory base (fun loc => sharedAt payload.members allowlist loc) payload.members
        (allowed payload.members allowlist) := by
    rw [pathList_truthy]
    by_cases h : allowlist = []
    · refine ⟨0, loadCopy payload.members, by simp [h], ?_⟩
      simpa [sharedAt, allowed, h] using sharing_copy payload
    · refine ⟨1, _, (if_pos (by simpa using h)).trans
        (applyAllowlistObject_pathList payload h (loadCopy_copied _)), ?_⟩
      have hfill := ((filling_empty payload).copies drawn_nil allowlist).toSharing
      simpa [sharedAt, allowed, h] using hfill
  have hdata : eventDataKeyOf memory (.made base) =
      dataKeyOf (keptKeys payload.members allowlist) := by
    rw [eventDataKeyOf, ← hsharing.reads.keys_eq, keys_allowed]
    rfl
  refine ⟨base, _, ?_, hsharing.denials _ denylist⟩
  rw [shapeObject_eq, hallow, hdeny]
  change (if (pathList allowlist).truthy
    then applyAllowlistObject (loadCopy payload.members) (.made 0) (pathList allowlist)
    else .ok (.made 0, loadCopy payload.members)).bind _ = _
  rw [hresult, Except.bind, deniedObject_spec, hdata]
  rfl

/-! ## What is left of the raw payload -/

theorem has_of_has_leave {shared : List String → Bool} {dataKey : Option String}
    {denylist : List String} {remaining raw : Members} {loc : List String}
    (h : (obj (leave shared dataKey denylist remaining raw)).has loc) : (obj raw).has loc := by
  induction denylist generalizing remaining raw with
  | nil => exact h
  | cons path denylist ih =>
    rw [leave] at h
    split at h
    · exact ih h
    · next t _ =>
      have hspill := ih h
      unfold Target.spill at hspill
      split at hspill
      · rw [obj_members_prune] at hspill
        exact has_of_has_prune t.location_ne_nil hspill
      · exact hspill

/-- On lists of strings the code on objects computes the shaped payload, and leaves of the raw
payload what `leftRaw` says. -/
theorem shapeObjects_eq (payload : Payload) (endpoint : WebhookEndpoint)
    {allowlist denylist : List String} (hallow : endpoint.piiAllowlist = pathList allowlist)
    (hdeny : endpoint.piiDenylist = pathList denylist) :
    shapeObjects payload.members endpoint = (shapeAndCheck payload endpoint).map fun result =>
      (obj result.1.members, obj (leftRaw payload.members allowlist denylist)) := by
  obtain ⟨base, memory, hobject, hsharing⟩ := shapeObject_spec payload endpoint hallow hdeny
  obtain ⟨shaped, hshaped, hmembers⟩ := shapeAndCheck_members payload endpoint hallow hdeny
  obtain ⟨shaped', hshaped', hspec⟩ := shapeAndCheck_shaped payload endpoint hallow hdeny
  obtain rfl : shaped = shaped' := by
    rw [hshaped] at hshaped'
    exact (Prod.mk.inj (Except.ok.inj hshaped')).1
  rw [← hmembers] at hsharing
  have hdepth : ∀ loc, (obj payload.members).has loc →
      loc.length < (obj payload.members).depth + 1 :=
    fun loc hloc => Nat.lt_succ_of_le (length_le_depth hloc)
  have hresult : read memory ((obj payload.members).depth + 1) (.ref (.made base)) =
      obj shaped.members := by
    refine read_of_reads hsharing.wellFormed hsharing.reads fun loc hloc => hdepth loc ?_
    cases loc with
    | nil => rfl
    | cons k rest =>
      obtain ⟨v, hv⟩ := Option.isSome_iff_exists.mp hloc
      obtain ⟨w, hw, -⟩ := hspec.drawn _ v (by simp) hv
      simp [has, hw]
  have hraw : read memory ((obj payload.members).depth + 1) (.ref (.loaded [])) =
      obj (leftRaw payload.members allowlist denylist) :=
    read_of_reads hsharing.raw_wellFormed hsharing.raw_reads fun loc hloc =>
      hdepth loc (has_of_has_leave hloc)
  rw [shapeObjects, hobject, hshaped]
  simp only [Bind.bind, Except.bind, Except.map, hresult, hraw]
  rfl

end WebhookRelay
