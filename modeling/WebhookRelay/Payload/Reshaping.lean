import WebhookRelay.Model.Celery
import WebhookRelay.Payload.OneDataKey

/-!
# Shaping what an attempt has left of the raw payload

A retry is handed the raw payload as the attempt before left it, without what the denylist
deleted from dictionaries that the shaped payload shared with it. Only locations are gone that
did not survive, and each of them lies below a target of the allowlist that is still found. So
if the payload has one data key, the same locations survive once more, and the shaped payload
is the same.

## Main results

* `at?_leftRaw` — what is left of the raw payload, location by location.
* `reshaped_same` — the payload is shaped to the same value as often as an attempt is repeated.
-/

namespace WebhookRelay

open Dictionary Json

/-! ## What is left, location by location -/

theorem rel_trans {x y z : Option Json} (h : Option.Rel Resembles x y)
    (h' : Option.Rel Resembles y z) : Option.Rel Resembles x z := by
  cases h with
  | none => exact h'
  | some h =>
    cases h' with
    | some h' => exact .some (h.trans h')

/-- Of two or more keys the first stays. -/
theorem keys_prune (ms : Members) {loc : List String} (h : loc ≠ []) (k : String) :
    keys ((obj ms).prune (loc ++ [k])).members = keys ms := by
  obtain ⟨x, rest, rfl⟩ := List.exists_cons_of_ne_nil h
  obtain ⟨y, tail, htail⟩ : ∃ y tail, rest ++ [k] = y :: tail :=
    List.exists_cons_of_ne_nil (by simp)
  rw [List.cons_append, htail]
  exact keys_modify ms x fun v => v.prune (y :: tail)

theorem Target.wellFormed_spill {raw : Members} (h : Json.WellFormed (.obj raw))
    (shared : List String → Bool) (remaining : Members) (t : Target) :
    Json.WellFormed (.obj (t.spill shared remaining raw)) := by
  unfold spill
  split
  · rw [obj_members_prune]
    exact h.prune _
  · exact h

namespace Target

variable {shared : List String → Bool} (hnil : shared [] = false)
include hnil

/-- Only dotted paths lead below a shared place. -/
theorem shared_dropLast_cases (t : Target) (h : shared t.location.dropLast) :
    t.sub ≠ some "" ∧ t.location.dropLast ≠ [] := by
  have hne : t.location.dropLast ≠ [] := fun hempty => by
    rw [hempty, hnil] at h
    cases h
  refine ⟨fun hsub => hne ?_, hne⟩
  rw [location_of_sub_empty hsub]
  rfl

theorem keys_spill (remaining raw : Members) (t : Target) :
    keys (t.spill shared remaining raw) = keys raw := by
  unfold spill
  split
  · next h =>
    rw [Bool.and_eq_true] at h
    rw [← List.dropLast_append_getLast t.location_ne_nil]
    exact keys_prune raw (t.shared_dropLast_cases hnil h.1).2 _
  · rfl

theorem at?_spill (remaining raw : Members) (t : Target) (loc : List String) :
    Option.Rel Resembles ((obj (t.spill shared remaining raw)).at? loc) ((obj raw).at? loc) ∨
      (obj (t.spill shared remaining raw)).at? loc = none ∧ shared t.location.dropLast ∧
        t.removes loc := by
  unfold spill
  split
  · next h =>
    rw [Bool.and_eq_true] at h
    rw [obj_members_prune]
    by_cases hbelow : t.location <+: loc
    · obtain ⟨rest, rfl⟩ := hbelow
      refine .inr ⟨at?_prune_below _ t.location_ne_nil rest, h.1, ?_⟩
      simp [removes, (t.shared_dropLast_cases hnil h.1).1]
    · exact .inl (at?_prune_aside _ hbelow)
  · exact .inl (rel_refl _)

end Target

section Left

variable {shared : List String → Bool} (hnil : shared [] = false)
include hnil

theorem leave_spec (dataKey : Option String) (denylist : List String) : ∀ remaining raw,
    keys (leave shared dataKey denylist remaining raw) = keys raw ∧
    ∀ loc, Option.Rel Resembles ((obj (leave shared dataKey denylist remaining raw)).at? loc)
        ((obj raw).at? loc) ∨
      (obj (leave shared dataKey denylist remaining raw)).at? loc = none ∧
        ∃ t ∈ denyTargets dataKey (keys remaining) denylist,
          shared t.location.dropLast ∧ t.removes loc := by
  induction denylist with
  | nil => exact fun remaining raw => ⟨rfl, fun loc => .inl (rel_refl _)⟩
  | cons path denylist ih =>
    intro remaining raw
    rw [leave, denyTargets]
    cases resolvePath dataKey (keys remaining) path with
    | none => exact ih remaining raw
    | some t =>
      obtain ⟨hkeys, hvalues⟩ := ih (t.remove remaining) (t.spill shared remaining raw)
      refine ⟨hkeys.trans (t.keys_spill hnil remaining raw), fun loc => ?_⟩
      rcases hvalues loc with hrel | ⟨hnone, u, hu, hlost⟩
      · rcases t.at?_spill hnil remaining raw loc with hspill | ⟨hspill, hlost⟩
        · exact .inl (rel_trans hrel hspill)
        · rw [hspill] at hrel
          exact .inr ⟨eq_none_of_rel_none hrel, t, List.mem_cons_self, hlost⟩
      · rw [Target.keys_remove] at hu
        exact .inr ⟨hnone, u, List.mem_cons_of_mem t hu, hlost⟩

end Left

theorem leave_wellFormed {shared : List String → Bool} {dataKey : Option String}
    {denylist : List String} {remaining raw : Members} (h : Json.WellFormed (.obj raw)) :
    Json.WellFormed (.obj (leave shared dataKey denylist remaining raw)) := by
  induction denylist generalizing remaining raw with
  | nil => exact h
  | cons path denylist ih =>
    rw [leave]
    split
    · exact ih h
    · next t _ => exact ih (t.wellFormed_spill h shared remaining)

theorem sharedAt_nil (payload : Members) (allowlist : List String) :
    sharedAt payload allowlist [] = false := by
  unfold sharedAt
  split
  · rfl
  · exact List.any_eq_false.mpr fun t _ h => t.location_ne_nil
      (List.prefix_nil.mp (Target.shares_iff.mp h).2.2)

/-- The raw payload as an attempt leaves it. -/
def Payload.left (payload : Payload) (allowlist denylist : List String) : Payload :=
  ⟨leftRaw payload.members allowlist denylist, leave_wellFormed payload.wellFormed⟩

theorem keys_left (payload : Payload) (allowlist denylist : List String) :
    keys (payload.left allowlist denylist).members = keys payload.members :=
  (leave_spec (sharedAt_nil _ _) _ _ _ _).1

/-- What is gone from the raw payload is below a shared place, and the denylist removes it from
the shaped payload too. -/
theorem at?_left (payload : Payload) (allowlist denylist : List String) (loc : List String) :
    Option.Rel Resembles ((obj (payload.left allowlist denylist).members).at? loc)
        ((obj payload.members).at? loc) ∨
      (obj (payload.left allowlist denylist).members).at? loc = none ∧
        ∃ t ∈ deniedTargets payload.members allowlist denylist,
          sharedAt payload.members allowlist t.location.dropLast ∧ t.removes loc := by
  have hspec := (leave_spec (sharedAt_nil payload.members allowlist)
    (dataKeyOf (keptKeys payload.members allowlist)) denylist
    (allowed payload.members allowlist) payload.members).2 loc
  rwa [keys_allowed] at hspec

/-- What survives is still there. -/
theorem at?_left_of_survives {payload : Payload} {allowlist denylist loc : List String}
    (h : survives payload.members allowlist denylist loc) :
    Option.Rel Resembles ((obj (payload.left allowlist denylist).members).at? loc)
      ((obj payload.members).at? loc) := by
  rcases at?_left payload allowlist denylist loc with hrel | ⟨-, t, ht, -, hremoves⟩
  · exact hrel
  · rw [survives, Bool.and_eq_true, List.all_eq_true] at h
    have hnot := h.2 t ht
    rw [hremoves] at hnot
    cases hnot

theorem has_left_of_survives {payload : Payload} {allowlist denylist loc : List String}
    (h : survives payload.members allowlist denylist loc) :
    (obj (payload.left allowlist denylist).members).has loc = (obj payload.members).has loc :=
  isSome_eq_of_rel (at?_left_of_survives h)

theorem found_of_rel {payload payload' : Members} {t : Target}
    (h : Option.Rel Resembles ((obj payload').at? t.location) ((obj payload).at? t.location)) :
    t.found payload' = t.found payload := by
  unfold Target.found
  generalize (obj payload').at? t.location = x, (obj payload).at? t.location = y at h
  cases h with
  | none => rfl
  | some hlike => exact congrArg (fun b => t.sub.isNone || !b) hlike.akin.isNull_eq

/-- What is found in what is left was found before. -/
theorem found_of_left {payload : Payload} {allowlist denylist : List String} {t : Target}
    (h : t.found (payload.left allowlist denylist).members) : t.found payload.members := by
  rcases at?_left payload allowlist denylist t.location with hrel | ⟨hnone, -⟩
  · rwa [found_of_rel hrel] at h
  · rw [Target.found, hnone] at h
    cases h

theorem has_of_left {payload : Payload} {allowlist denylist loc : List String}
    (h : (obj (payload.left allowlist denylist).members).has loc) :
    (obj payload.members).has loc := has_of_has_leave h

theorem Target.keeps_iff {payload : Members} {t : Target} {loc : List String} :
    t.keeps payload loc ↔ t.found payload ∧ (loc <+: t.location ∨
      t.sub ≠ some "" ∧ t.location <+: loc ∧ (obj payload).has loc) := by
  simp [keeps, and_assoc]

theorem Target.at?_of_found {payload : Members} {t : Target} (h : t.found payload) :
    ∃ v, (obj payload).at? t.location = some v := by
  cases hv : (obj payload).at? t.location with
  | none => rw [found, hv] at h; cases h
  | some v => exact ⟨v, rfl⟩

theorem Target.removes_iff {t : Target} {loc : List String} :
    t.removes loc ↔ t.sub ≠ some "" ∧ t.location <+: loc := by
  simp [removes]

/-! ## One data key -/

theorem keys_left_of_one {dataKey : String} {payload : Payload}
    (hkeys : ∀ key ∈ keys payload.members, key = dataKey ∨ key = "event_metadata")
    (allowlist denylist : List String) :
    ∀ key ∈ keys (payload.left allowlist denylist).members,
      key = dataKey ∨ key = "event_metadata" := by
  rwa [keys_left]

section OneDataKey

variable {dataKey : String} (hne : dataKey ≠ "event_metadata") {payload : Payload}
  (hkeys : ∀ key ∈ keys payload.members, key = dataKey ∨ key = "event_metadata")
  (allowlist denylist : List String)
include hne hkeys

/-- A target that shares the location is still found, though perhaps a shorter one. -/
theorem shares_left {loc : List String} (h : allowlist ≠ []) :
    ∀ n, ∀ t ∈ targetsOf dataKey allowlist, t.location.length ≤ n →
      t.shares payload.members loc → ∃ t ∈ targetsOf dataKey allowlist,
        t.shares (payload.left allowlist denylist).members loc := by
  intro n
  induction n with
  | zero =>
    intro t _ hlength _
    exact absurd (List.eq_nil_of_length_eq_zero (Nat.le_zero.mp hlength)) t.location_ne_nil
  | succ n ih =>
    intro t ht hlength hshares
    obtain ⟨hfound, hsub, hprefix⟩ := Target.shares_iff.mp hshares
    rcases at?_left payload allowlist denylist t.location with hrel | ⟨-, u, -, hshared, hremoves⟩
    · exact ⟨t, ht, Target.shares_iff.mpr ⟨(found_of_rel hrel).trans hfound, hsub, hprefix⟩⟩
    · -- what was deleted there was deleted below another target
      rw [sharedAt_of_one hne hkeys, if_neg h, List.any_eq_true] at hshared
      obtain ⟨t', ht', hshares'⟩ := hshared
      obtain ⟨hfound', hsub', hprefix'⟩ := Target.shares_iff.mp hshares'
      have hremoved := (Target.removes_iff.mp hremoves).2
      have hshorter : t'.location.length ≤ n := by
        have hle := hprefix'.length_le
        have hle' := hremoved.length_le
        have hpos := List.length_pos_of_ne_nil u.location_ne_nil
        rw [List.length_dropLast] at hle
        omega
      refine ih t' ht' hshorter (Target.shares_iff.mpr ⟨hfound', hsub', ?_⟩)
      exact hprefix'.trans ((List.dropLast_prefix _).trans (hremoved.trans hprefix))

theorem sharedAt_left (loc : List String) :
    sharedAt (payload.left allowlist denylist).members allowlist loc =
      sharedAt payload.members allowlist loc := by
  have hkeys' := keys_left_of_one hkeys allowlist denylist
  rw [sharedAt_of_one hne hkeys, sharedAt_of_one hne hkeys']
  split
  · rfl
  · next h =>
    rw [Bool.eq_iff_iff, List.any_eq_true, List.any_eq_true]
    constructor
    · rintro ⟨t, ht, hshares⟩
      exact ⟨t, ht, Target.shares_iff.mpr ((Target.shares_iff.mp hshares).imp_left found_of_left)⟩
    · rintro ⟨t, ht, hshares⟩
      exact shares_left hne hkeys allowlist denylist h _ t ht le_rfl hshares

/-- The allowlist keeps what survived. -/
theorem kept_left {loc : List String} (hloc : loc ≠ [])
    (h : survives payload.members allowlist denylist loc) :
    kept (payload.left allowlist denylist).members allowlist loc := by
  have hkeys' := keys_left_of_one hkeys allowlist denylist
  have hkept : kept payload.members allowlist loc :=
    ((survives_of_one hne hkeys allowlist denylist hloc).mp h).1
  have hhere : (obj payload.members).has loc →
      (obj (payload.left allowlist denylist).members).has loc :=
    fun hhas => (has_left_of_survives h).trans hhas
  rw [kept_of_one hne hkeys] at hkept
  rw [kept_of_one hne hkeys']
  split at hkept
  · next hempty =>
    rw [if_pos hempty]
    exact hhere hkept
  next hnonempty =>
  rw [if_neg hnonempty, List.any_eq_true]
  obtain ⟨t, ht, hkeeps⟩ := List.any_eq_true.mp hkept
  obtain ⟨hfound, hplace⟩ := Target.keeps_iff.mp hkeeps
  rcases at?_left payload allowlist denylist t.location with hrel | ⟨-, u, hu, hshared, hremoves⟩
  · refine ⟨t, ht, Target.keeps_iff.mpr ⟨(found_of_rel hrel).trans hfound, hplace.imp_right ?_⟩⟩
    exact fun hbelow => ⟨hbelow.1, hbelow.2.1, hhere hbelow.2.2⟩
  · -- the target is gone, and the location is above what was deleted
    obtain ⟨hsub, hremoved⟩ := Target.removes_iff.mp hremoves
    have hnot : ¬ u.location <+: loc := fun hprefix => by
      rw [survives, Bool.and_eq_true, List.all_eq_true] at h
      have hstays := h.2 u hu
      rw [Target.removes_iff.mpr ⟨hsub, hprefix⟩] at hstays
      cases hstays
    have habove : loc <+: t.location := by
      rcases hplace with habove | ⟨-, hbelow, -⟩
      · exact habove
      · exact absurd (hremoved.trans hbelow) hnot
    have hdropped : loc <+: u.location.dropLast := by
      have hprefix : loc <+: u.location :=
        (List.prefix_or_prefix_of_prefix habove hremoved).resolve_right hnot
      refine List.prefix_of_prefix_length_le hprefix (List.dropLast_prefix _) ?_
      have hlt : loc.length < u.location.length := by
        refine lt_of_le_of_ne hprefix.length_le fun hlength => hnot ?_
        have heq : loc = u.location := hprefix.eq_of_length hlength
        exact heq ▸ List.prefix_rfl
      rw [List.length_dropLast]
      omega
    rw [← sharedAt_left hne hkeys allowlist denylist, sharedAt_of_one hne hkeys',
      if_neg hnonempty, List.any_eq_true] at hshared
    obtain ⟨t', ht', hshares⟩ := hshared
    obtain ⟨hfound', hsub', hprefix'⟩ := Target.shares_iff.mp hshares
    refine ⟨t', ht', Target.keeps_iff.mpr ⟨hfound', ?_⟩⟩
    refine (List.prefix_or_prefix_of_prefix hdropped hprefix').imp_right fun hbelow => ?_
    refine ⟨hsub', hbelow, hhere ?_⟩
    obtain ⟨v, hv⟩ := Target.at?_of_found hfound
    obtain ⟨rest, hrest⟩ := habove
    obtain ⟨w, hw⟩ := at?_of_prefix (hrest.symm ▸ hv)
    rw [has, hw]
    rfl

/-- The same locations survive once more. -/
theorem survives_left {loc : List String} (hloc : loc ≠ []) :
    survives (payload.left allowlist denylist).members allowlist denylist loc =
      survives payload.members allowlist denylist loc := by
  have hkeys' := keys_left_of_one hkeys allowlist denylist
  have hone := survives_of_one hne hkeys allowlist denylist hloc
  have hone' := survives_of_one hne hkeys' allowlist denylist hloc
  rw [Bool.eq_iff_iff]
  constructor
  · intro h
    obtain ⟨hkept, hnot⟩ := hone'.mp h
    refine hone.mpr ⟨?_, hnot⟩
    rw [kept_of_one hne hkeys'] at hkept
    rw [kept_of_one hne hkeys]
    split at hkept
    · next hempty =>
      rw [if_pos hempty]
      exact has_of_left hkept
    · next hnonempty =>
      rw [if_neg hnonempty, List.any_eq_true]
      obtain ⟨t, ht, hkeeps⟩ := List.any_eq_true.mp hkept
      obtain ⟨hfound, hplace⟩ := Target.keeps_iff.mp hkeeps
      refine ⟨t, ht, Target.keeps_iff.mpr ⟨found_of_left hfound, hplace.imp_right ?_⟩⟩
      exact fun hbelow => ⟨hbelow.1, hbelow.2.1, has_of_left hbelow.2.2⟩
  · intro h
    exact hone'.mpr ⟨kept_left hne hkeys allowlist denylist hloc h, (hone.mp h).2⟩

/-- What an attempt has left is shaped to the same value again. -/
theorem reshaped_same {endpoint endpoint' : WebhookEndpoint}
    (hallow : endpoint.piiAllowlist = pathList allowlist)
    (hdeny : endpoint.piiDenylist = pathList denylist)
    (hallow' : endpoint'.piiAllowlist = pathList allowlist)
    (hdeny' : endpoint'.piiDenylist = pathList denylist) {shaped : Payload} {shouldSend : Bool}
    (hshape : shapeAndCheck payload endpoint = .ok (shaped, shouldSend)) :
    ∃ again shouldSend', shapeAndCheck (payload.left allowlist denylist) endpoint' =
        .ok (again, shouldSend') ∧ (obj again.members).Same (obj shaped.members) := by
  obtain ⟨first, hfirst, hspec, hcovered⟩ := shapeAndCheck_covered payload endpoint hallow hdeny
  obtain ⟨again, hagain, hspec', hcovered'⟩ :=
    shapeAndCheck_covered (payload.left allowlist denylist) endpoint' hallow' hdeny'
  obtain rfl : first = shaped := by
    rw [hshape] at hfirst
    exact (Prod.mk.inj (Except.ok.inj hfirst)).1.symm
  refine ⟨again, _, hagain, shaped_same hspec hspec' hcovered hcovered'
    (fun loc hloc => survives_left hne hkeys allowlist denylist hloc)
    (sharedAt_left hne hkeys allowlist denylist) fun loc v v' hsurvives _ hv hv' => ?_⟩
  have hrel := at?_left_of_survives hsurvives
  rw [hv, hv', Option.rel_some_some] at hrel
  exact hrel.akin

end OneDataKey

/-! ## Attempt after attempt -/

/-- `_shape_and_check` for the attempt with number `n + 1` of a chain, when every attempt is
handed the raw payload as the attempt before left it. -/
def shapeTimes (endpoint : Nat → WebhookEndpoint) (rawPayload : Members) :
    Nat → Except PyError (Json × Json)
  | 0 => shapeObjects rawPayload (endpoint 0)
  | n + 1 => do
    let (_, left) ← shapeTimes endpoint rawPayload n
    shapeObjects left.members (endpoint (n + 1))

/-- The shaped payloads of all attempts are the same value, and so are the bytes that are sent
and signed. Only their top-level keys may be in another order. -/
theorem every_attempt_same (lib : Primitives) (endpoint : Nat → WebhookEndpoint)
    {allowlist denylist : List String}
    (hallow : ∀ n, (endpoint n).piiAllowlist = pathList allowlist)
    (hdeny : ∀ n, (endpoint n).piiDenylist = pathList denylist) (payload : Payload)
    {dataKey : String} (hne : dataKey ≠ "event_metadata")
    (hkeys : ∀ key ∈ keys payload.members, key = dataKey ∨ key = "event_metadata") :
    ∃ first shouldSend, shapeAndCheck payload (endpoint 0) = .ok (first, shouldSend) ∧
      ∀ n, ∃ (shaped : Payload) (left : Json),
        shapeTimes endpoint payload.members n = .ok (obj shaped.members, left) ∧
        (obj shaped.members).Same (obj first.members) ∧
        serializePayload lib shaped = serializePayload lib first ∧
        payloadFingerprint lib shaped = payloadFingerprint lib first ∧
        ∀ secret, signPayload lib (serializePayload lib shaped) secret =
          signPayload lib (serializePayload lib first) secret := by
  obtain ⟨first, hfirst, -⟩ := shapeAndCheck_shaped payload (endpoint 0) (hallow 0) (hdeny 0)
  refine ⟨first, _, hfirst, fun n => ?_⟩
  -- the attempt before was handed a payload with one data key, too
  obtain ⟨raw, shaped, shouldSend, -, -, hraw, hsame⟩ :
      ∃ (raw shaped : Payload) (shouldSend : Bool),
      (∀ key ∈ keys raw.members, key = dataKey ∨ key = "event_metadata") ∧
      shapeAndCheck raw (endpoint n) = .ok (shaped, shouldSend) ∧
      shapeTimes endpoint payload.members n =
        .ok (obj shaped.members, obj (raw.left allowlist denylist).members) ∧
      (obj shaped.members).Same (obj first.members) := by
    induction n with
    | zero =>
      refine ⟨payload, first, _, hkeys, hfirst, ?_, .refl _⟩
      rw [shapeTimes, shapeObjects_eq payload (endpoint 0) (hallow 0) (hdeny 0), hfirst]
      rfl
    | succ n ih =>
      obtain ⟨raw, shaped, shouldSend, hone, hshape, htimes, hsame⟩ := ih
      obtain ⟨again, shouldSend', hagain, hsame'⟩ := reshaped_same hne hone allowlist denylist
        (hallow n) (hdeny n) (hallow (n + 1)) (hdeny (n + 1)) hshape
      refine ⟨raw.left allowlist denylist, again, shouldSend',
        keys_left_of_one hone allowlist denylist, hagain, ?_, hsame'.trans hsame⟩
      rw [shapeTimes, htimes]
      change shapeObjects (raw.left allowlist denylist).members (endpoint (n + 1)) = _
      rw [shapeObjects_eq _ (endpoint (n + 1)) (hallow (n + 1)) (hdeny (n + 1)), hagain]
      rfl
  have hbytes : serializePayload lib shaped = serializePayload lib first :=
    hsame.dumps_eq lib.floatRepr
  refine ⟨shaped, _, hraw, hsame, hbytes, ?_, fun secret => by rw [hbytes]⟩
  rw [payloadFingerprint, payloadFingerprint, hbytes]

/-- The enrolment of a learner with the given address. -/
def enrolled (email : String) : Payload where
  members := [("openedx_events.learning.data.CourseEnrollmentData",
      .obj [("user", .obj [("name", .str "Ada"), ("email", .str email)])]),
    ("event_metadata", .obj [])]
  wellFormed := by
    have hlearner : (obj [("name", .str "Ada"), ("email", .str email)]).WellFormed :=
      .obj (by simp [keys]) (by simp [WellFormed.str])
    have hdata : (obj [("user", obj [("name", .str "Ada"), ("email", .str email)])]).WellFormed :=
      .obj (by simp [keys]) (by simpa using hlearner)
    have hmetadata : (obj []).WellFormed := .obj (by simp [keys]) (by simp)
    refine .obj (by simp [keys]) ?_
    simpa using ⟨hdata, hmetadata⟩

/-- An endpoint that gets the address first and must not have it. -/
def contradictoryEndpoint : WebhookEndpoint :=
  { newEndpoint with
    piiAllowlist := pathList ["data.user.email", "event_metadata", "data.user"]
    piiDenylist := pathList ["data.user.email"] }

/-- The first attempt deletes the address from the raw payload of the second. -/
theorem every_attempt_same_enrolled :
    let payload := enrolled "ada@example.com"
    ∃ first shouldSend, shapeAndCheck payload contradictoryEndpoint = .ok (first, shouldSend) ∧
      ∀ n, ∃ (shaped : Payload) (left : Json),
        shapeTimes (fun _ => contradictoryEndpoint) payload.members n =
          .ok (obj shaped.members, left) ∧
        (obj shaped.members).Same (obj first.members) ∧
        serializePayload emptyLib shaped = serializePayload emptyLib first ∧
        payloadFingerprint emptyLib shaped = payloadFingerprint emptyLib first ∧
        ∀ secret, signPayload emptyLib (serializePayload emptyLib shaped) secret =
          signPayload emptyLib (serializePayload emptyLib first) secret :=
  every_attempt_same emptyLib (fun _ => contradictoryEndpoint) (fun _ => rfl) (fun _ => rfl)
    (enrolled "ada@example.com")
    (show "openedx_events.learning.data.CourseEnrollmentData" ≠ _ by decide) (by decide)

end WebhookRelay
