import WebhookRelay.Payload.Requeue

/-!
# Payloads that agree where the allowlist looks

Of a raw payload the allowlist reads the top-level keys and the values at the locations of its
targets, and the denylist reads only what the allowlist has kept. So payloads that agree there
are shaped alike, and they agree there again when an attempt has deleted from them. Values are
compared as they are, or up to the order of keys: the argument only needs a likeness that the
updates respect.

## Main results

* `shapeAndCheck_agree` — payloads that agree are shaped alike, with the same decision.
* `Agree.left` — what an attempt leaves of them agrees, too.
-/

namespace WebhookRelay

open Dictionary Json

/-- A comparison of values that the updates of both lists respect. -/
structure Likeness (alike : Json → Json → Prop) : Prop where
  same : ∀ {v w}, alike v w → v.Same w
  refl : ∀ v, alike v v
  at? : ∀ {v w}, v.WellFormed → w.WellFormed → alike v w →
    ∀ loc, Option.Rel alike (v.at? loc) (w.at? loc)
  prune : ∀ {v w}, v.WellFormed → w.WellFormed → alike v w →
    ∀ loc, alike (v.prune loc) (w.prune loc)
  assign : ∀ {ms ms' v w}, Json.WellFormed (.obj ms) → Json.WellFormed (.obj ms') →
    alike (obj ms) (obj ms') → v.WellFormed → w.WellFormed → alike v w →
    ∀ loc, alike (obj (assign ms loc v)) (obj (assign ms' loc w))

theorem likeness_same : Likeness Same where
  same h := h
  refl := .refl
  at? hv hw h := h.at? hv hw
  prune hv hw h := h.prune hv hw
  assign hms hms' h hv hw hvw := h.assign hms hms' hv hw hvw

theorem likeness_eq : Likeness Eq where
  same h := congrArg sorted h
  refl _ := rfl
  at? _ _ h loc := by
    subst h
    cases at? _ loc with
    | none => exact .none
    | some v => exact .some rfl
  prune _ _ h loc := congrArg (fun v => v.prune loc) h
  assign _ _ h _ _ hvw loc := by
    cases h
    cases hvw
    rfl

/-- The payloads have the same top-level keys, in the same order, and alike values wherever a
path of the allowlist leads; a value that is missing counts as `None`. -/
structure Agree (alike : Json → Json → Prop) (allowlist : List String)
    (payload payload' : Members) : Prop where
  keys : keys payload' = keys payload
  values : ∀ t ∈ allowTargets payload allowlist,
    alike ((obj payload).descend t.location) ((obj payload').descend t.location)

/-- Dictionaries with the same keys, in the same order, and alike values. -/
structure Level (alike : Json → Json → Prop) (ms ms' : Members) : Prop where
  wellFormed : Json.WellFormed (.obj ms)
  wellFormed' : Json.WellFormed (.obj ms')
  keys : keys ms' = keys ms
  alike : alike (obj ms) (obj ms')

section Agreement

variable {alike : Json → Json → Prop} (hlike : Likeness alike) {allowlist : List String}

/-! ## What is found -/

/-- A top-level key is found if it is there, a dotted path if it does not lead to `None`. -/
theorem Target.found_eq (payload : Members) (t : Target) : t.found payload =
    if t.sub.isNone then decide (t.key ∈ keys payload)
    else !((obj payload).descend t.location).isNull := by
  rw [found, descend_eq]
  cases hsub : t.sub with
  | none =>
    have hkey : (obj payload).has [t.key] ↔ t.key ∈ keys payload := has_key
    have hlocation : t.location = [t.key] := by simp [location, hsub]
    rw [hlocation]
    rw [has] at hkey
    cases hv : (obj payload).at? [t.key] <;> simpa [hv] using hkey
  | some sub => cases (obj payload).at? t.location <;> rfl

section Found

include hlike

theorem found_agree {payload payload' : Members} (h : Agree alike allowlist payload payload')
    {t : Target} (ht : t ∈ allowTargets payload allowlist) :
    t.found payload' = t.found payload := by
  rw [Target.found_eq, Target.found_eq, h.keys, (hlike.same (h.values t ht)).isNull_eq]

theorem sharedAt_agree {payload payload' : Members} (h : Agree alike allowlist payload payload') :
    sharedAt payload' allowlist = sharedAt payload allowlist := by
  funext loc
  rw [sharedAt, sharedAt, allowTargets_congr h.keys]
  split
  · rfl
  · rw [Bool.eq_iff_iff, List.any_eq_true, List.any_eq_true]
    refine exists_congr fun t => and_congr_right fun ht => ?_
    rw [Target.shares_iff, Target.shares_iff, found_agree hlike h ht]

end Found

/-! ## Copies -/

/-- Results of the allowlist for payloads that agree. -/
structure Paired (alike : Json → Json → Prop) (payload payload' result result' : Members) :
    Prop extends Level alike result result' where
  drawn : Drawn payload result
  drawn' : Drawn payload' result'

theorem keys_assign (ms : Members) {loc : List String} (hloc : loc ≠ []) (v : Json) :
    keys (assign ms loc v) = if loc.head hloc ∈ keys ms then keys ms
      else keys ms ++ [loc.head hloc] := by
  obtain ⟨k, rest, rfl⟩ := List.exists_cons_of_ne_nil hloc
  cases rest <;> exact keys_set ms k _

section Copies

include hlike

theorem Level.assign {ms ms' : Members} (h : Level alike ms ms') {v w : Json}
    (hv : v.WellFormed) (hw : w.WellFormed) (hvw : alike v w) {loc : List String}
    (hloc : loc ≠ []) : Level alike (assign ms loc v) (assign ms' loc w) where
  wellFormed := h.wellFormed.assign loc hv
  wellFormed' := h.wellFormed'.assign loc hw
  keys := by rw [keys_assign ms hloc, keys_assign ms' hloc, h.keys]
  alike := hlike.assign h.wellFormed h.wellFormed' h.alike hv hw hvw loc

/-- Copying what both find. -/
theorem Paired.copy {payload payload' : Payload} {result result' : Members}
    (hagree : Agree alike allowlist payload.members payload'.members)
    (h : Paired alike payload.members payload'.members result result') {t : Target}
    (ht : t ∈ allowTargets payload.members allowlist) :
    Paired alike payload.members payload'.members (t.copy payload.members result)
      (t.copy payload'.members result') where
  drawn := Target.drawn_copy h.drawn t
  drawn' := Target.drawn_copy h.drawn' t
  toLevel := by
    have hfound := found_agree hlike hagree ht
    rcases Target.copy_cases h.drawn t with
      ⟨hnot, hcopy⟩ | ⟨hyes, hsub, hcopy⟩ | ⟨hyes, hsub, v, hv, hcopy⟩ <;>
    rcases Target.copy_cases h.drawn' t with
      ⟨hnot', hcopy'⟩ | ⟨hyes', hsub', hcopy'⟩ | ⟨hyes', hsub', w, hw, hcopy'⟩ <;>
    rw [hcopy, hcopy']
    · exact h.toLevel
    · rw [hyes', hnot] at hfound; cases hfound
    · rw [hyes', hnot] at hfound; cases hfound
    · rw [hyes, hnot'] at hfound; cases hfound
    · -- an empty dotted path makes sure that its key is there
      have hisSome : (result'.lookup t.key).isSome = (result.lookup t.key).isSome := by
        rw [Bool.eq_iff_iff, Option.isSome_iff_exists, Option.isSome_iff_exists, ← mem_keys,
          ← mem_keys, h.keys]
      cases hkey : result.lookup t.key with
      | some a =>
        rw [hkey, Option.isSome_some] at hisSome
        obtain ⟨a', hkey'⟩ := Option.isSome_iff_exists.mp hisSome
        rw [hkey', Option.getD_some, Option.getD_some, set_self hkey, set_self hkey']
        exact h.toLevel
      | none =>
        rw [hkey, Option.isSome_none, Option.isSome_eq_false_iff,
          Option.isNone_iff_eq_none] at hisSome
        rw [hisSome]
        have hempty : Json.WellFormed (.obj []) := .obj (by simp [Dictionary.keys]) (by simp)
        exact h.toLevel.assign hlike hempty hempty (hlike.refl _) (List.cons_ne_nil t.key [])
    · exact absurd hsub hsub'
    · rw [hyes, hnot'] at hfound; cases hfound
    · exact absurd hsub' hsub
    · have hvalues := hagree.values t ht
      rw [descend_eq, descend_eq, hv, hw] at hvalues
      exact h.toLevel.assign hlike (payload.wellFormed.at? hv) (payload'.wellFormed.at? hw)
        hvalues t.location_ne_nil

theorem copies_agree {payload payload' : Payload}
    (hagree : Agree alike allowlist payload.members payload'.members) (targets : List Target)
    (htargets : ∀ t ∈ targets, t ∈ allowTargets payload.members allowlist)
    {result result' : Members}
    (h : Paired alike payload.members payload'.members result result') :
    Paired alike payload.members payload'.members
      (targets.foldl (Target.copy payload.members) result)
      (targets.foldl (Target.copy payload'.members) result') := by
  induction targets generalizing result result' with
  | nil => exact h
  | cons t targets ih =>
    exact ih (fun t ht => htargets t (List.mem_cons_of_mem _ ht))
      (h.copy hlike hagree (htargets t List.mem_cons_self))

/-- The results of a non-empty allowlist. -/
theorem allowed_agree {payload payload' : Payload} (hne : allowlist ≠ [])
    (hagree : Agree alike allowlist payload.members payload'.members) :
    Level alike (allowed payload.members allowlist) (allowed payload'.members allowlist) := by
  have hempty : Json.WellFormed (.obj []) := .obj (by simp [keys]) (by simp)
  rw [allowed, allowed, if_neg hne, if_neg hne, allowTargets_congr hagree.keys]
  exact (copies_agree hlike hagree _ (fun _ => id)
    ⟨⟨hempty, hempty, rfl, hlike.refl _⟩, drawn_nil, drawn_nil⟩).toLevel

end Copies

/-! ## Deletions -/

section Deletions

include hlike

theorem Level.has_eq {ms ms' : Members} (h : Level alike ms ms') (loc : List String) :
    (obj ms').has loc = (obj ms).has loc := by
  have hrel := hlike.at? h.wellFormed h.wellFormed' h.alike loc
  exact (isSome_eq_of_rel hrel).symm

theorem Level.remove {ms ms' : Members} (h : Level alike ms ms') (t : Target) :
    Level alike (t.remove ms) (t.remove ms') where
  wellFormed := by
    rw [t.remove_eq]
    split
    · exact h.wellFormed
    · rw [obj_members_prune]
      exact h.wellFormed.prune _
  wellFormed' := by
    rw [t.remove_eq]
    split
    · exact h.wellFormed'
    · rw [obj_members_prune]
      exact h.wellFormed'.prune _
  keys := by rw [t.keys_remove, t.keys_remove, h.keys]
  alike := by
    rw [t.remove_eq, t.remove_eq]
    split
    · exact h.alike
    · rw [obj_members_prune, obj_members_prune]
      exact hlike.prune h.wellFormed h.wellFormed' h.alike _

/-- A deletion from alike places of two values. -/
theorem descend_prune {v w : Json} (hv : v.WellFormed) (hw : w.WellFormed) {path : List String}
    (hpath : path ≠ []) {loc : List String} (h : alike (v.descend loc) (w.descend loc)) :
    alike ((v.prune path).descend loc) ((w.prune path).descend loc) := by
  by_cases hbelow : path <+: loc
  · obtain ⟨rest, rfl⟩ := hbelow
    rw [descend_eq, descend_eq, at?_prune_below v hpath, at?_prune_below w hpath]
    exact hlike.refl _
  by_cases habove : loc <+: path
  · obtain ⟨rest, rfl⟩ := habove
    have hrest : rest ≠ [] := by
      rintro rfl
      exact hbelow (by simp)
    have hprune : ∀ u : Json, (u.prune (loc ++ rest)).descend loc = (u.descend loc).prune rest := by
      intro u
      rw [descend_eq, descend_eq, at?_prune_above u loc hrest]
      cases u.at? loc with
      | none => cases rest <;> rfl
      | some w => rfl
    rw [hprune, hprune]
    exact hlike.prune (hv.descend loc) (hw.descend loc) h rest
  · rw [descend_eq, descend_eq] at h ⊢
    rwa [at?_prune_elsewhere v hbelow habove, at?_prune_elsewhere w hbelow habove]

/-- What a deletion of the target deletes from raw payloads that agree. -/
theorem Agree.spill {raw raw' remaining remaining' : Members} {shared : List String → Bool}
    (hnil : shared [] = false) (hraw : Json.WellFormed (.obj raw))
    (hraw' : Json.WellFormed (.obj raw')) (h : Agree alike allowlist raw raw')
    (hremaining : Level alike remaining remaining') (t : Target) :
    Agree alike allowlist (t.spill shared remaining raw) (t.spill shared remaining' raw') where
  keys := by rw [t.keys_spill hnil, t.keys_spill hnil, h.keys]
  values := by
    intro u hu
    rw [allowTargets_congr (t.keys_spill hnil remaining raw)] at hu
    rw [Target.spill, Target.spill, hremaining.has_eq hlike]
    split
    · rw [obj_members_prune, obj_members_prune]
      exact descend_prune hlike hraw hraw' t.location_ne_nil (h.values u hu)
    · exact h.values u hu

theorem denials_agree {shared : List String → Bool} (hnil : shared [] = false)
    (dataKey : Option String) (denylist : List String) {raw raw' remaining remaining' : Members}
    (hraw : Json.WellFormed (.obj raw)) (hraw' : Json.WellFormed (.obj raw'))
    (h : Agree alike allowlist raw raw') (hremaining : Level alike remaining remaining') :
    Level alike (denylist.foldl (denyPath dataKey) remaining)
        (denylist.foldl (denyPath dataKey) remaining') ∧
      Agree alike allowlist (leave shared dataKey denylist remaining raw)
        (leave shared dataKey denylist remaining' raw') := by
  induction denylist generalizing raw raw' remaining remaining' with
  | nil => exact ⟨hremaining, h⟩
  | cons path denylist ih =>
    rw [List.foldl_cons, List.foldl_cons, denyPath_eq, denyPath_eq, leave, leave, hremaining.keys]
    cases resolvePath dataKey (keys remaining) path with
    | none => exact ih hraw hraw' h hremaining
    | some t =>
      exact ih (Target.wellFormed_spill hraw shared remaining t)
        (Target.wellFormed_spill hraw' shared remaining' t)
        (h.spill hlike hnil hraw hraw' hremaining t) (hremaining.remove hlike t)

end Deletions

/-! ## The whole of it -/

/-- The filter does not tell the same values apart, given the order of the keys. -/
theorem shouldSend_same {ms ms' : Payload} (hsame : (obj ms.members).Same (obj ms'.members))
    (hkeys : keys ms'.members = keys ms.members) (onlyOnPassing : Bool) :
    shouldSendPassingEvent ms'.members onlyOnPassing =
      shouldSendPassingEvent ms.members onlyOnPassing := by
  have hpassing : (Option.map truthy ∘ isPassing ms'.members) =
      Option.map truthy ∘ isPassing ms.members :=
    funext fun key => (isPassing_same hsame key).symm
  rw [shouldSendPassingEvent, shouldSendPassingEvent,
    firstPassing_eq ms'.wellFormed.keys_nodup, firstPassing_eq ms.wellFormed.keys_nodup,
    List.map_findSome?, List.map_findSome?, hpassing, hkeys]

include hlike

/-- Payloads that agree are shaped alike, with the same decision. What is left of them agrees,
too. -/
theorem shapeAndCheck_agree (hne : allowlist ≠ []) {payload payload' : Payload}
    (hagree : Agree alike allowlist payload.members payload'.members)
    {endpoint : WebhookEndpoint} {denylist : List String}
    (hallow : endpoint.piiAllowlist = pathList allowlist)
    (hdeny : endpoint.piiDenylist = pathList denylist) :
    (∃ shaped shaped' shouldSend, shapeAndCheck payload endpoint = .ok (shaped, shouldSend) ∧
      shapeAndCheck payload' endpoint = .ok (shaped', shouldSend) ∧
      alike (obj shaped.members) (obj shaped'.members)) ∧
    Agree alike allowlist (payload.left allowlist denylist).members
      (payload'.left allowlist denylist).members := by
  obtain ⟨shaped, hshaped, hmembers⟩ := shapeAndCheck_members payload endpoint hallow hdeny
  obtain ⟨shaped', hshaped', hmembers'⟩ := shapeAndCheck_members payload' endpoint hallow hdeny
  have hallowed := allowed_agree hlike hne hagree
  have hkept : keptKeys payload'.members allowlist = keptKeys payload.members allowlist := by
    rw [← keys_allowed, ← keys_allowed, hallowed.keys]
  obtain ⟨hlevel, hleft⟩ := denials_agree hlike (sharedAt_nil payload.members allowlist)
    (dataKeyOf (keptKeys payload.members allowlist)) denylist payload.wellFormed
    payload'.wellFormed hagree hallowed
  rw [← hmembers] at hlevel
  rw [← hkept, ← hmembers'] at hlevel
  refine ⟨⟨shaped, shaped', _, hshaped, ?_, hlevel.alike⟩, ?_⟩
  · rw [hshaped', shouldSend_same (hlike.same hlevel.alike) hlevel.keys]
  · change Agree alike allowlist (leftRaw payload.members allowlist denylist)
      (leftRaw payload'.members allowlist denylist)
    rw [leftRaw, leftRaw, sharedAt_agree hlike hagree, hkept]
    exact hleft

end Agreement

end WebhookRelay
