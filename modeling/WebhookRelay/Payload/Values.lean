import Mathlib.Data.List.Induction
import WebhookRelay.Payload.InPlace
import WebhookRelay.Payload.Same

/-!
# The values of the shaped payload

Where a target of the allowlist shares with the raw payload, the shaped one has what the raw one
has, members of dictionaries aside. Everywhere else it has dictionaries that were made on the way
to a target. So the locations that survive, and the values at the shared ones among them,
determine the shaped payload up to the order of keys.

## Main results

* `covered_shaped` — the values of the shaped payload.
* `shaped_same` — payloads that lose the same and are alike where it is shared are shaped to the
  same value.
-/

namespace WebhookRelay

open Dictionary Json

/-- The result has the values of the payload in shared places, and dictionaries elsewhere. -/
structure Covered (payload : Members) (shared : List String → Bool) (result : Members) :
    Prop where
  inside : ∀ {loc v}, loc ≠ [] → shared loc → (obj result).at? loc = some v →
    ∃ w, (obj payload).at? loc = some w ∧ v.Resembles w
  outside : ∀ {loc v}, loc ≠ [] → shared loc = false → (obj result).at? loc = some v → v.isDict

namespace Target

variable {payload : Members} {t : Target} {loc : List String}

theorem shares_iff : t.shares payload loc ↔
    t.found payload ∧ t.sub ≠ some "" ∧ t.location <+: loc := by
  simp [shares, and_assoc]

theorem keeps_of_shares (h : t.shares payload loc) (hloc : (obj payload).has loc) :
    t.keeps payload loc := by
  obtain ⟨hfound, hsub, hprefix⟩ := shares_iff.mp h
  simp [keeps, hfound, hsub, hprefix, hloc]

/-- What there is at a location after a copy: what the copy shares, what was there before, or a
dictionary on the way. -/
theorem at?_copy {result : Members} (h : Drawn payload result) {v : Json} (hloc : loc ≠ [])
    (hv : (obj (t.copy payload result)).at? loc = some v) :
    t.shares payload loc ∧ (obj payload).at? loc = some v ∨
      t.shares payload loc = false ∧ ((obj result).at? loc = some v ∨
        v.isDict ∧ ((∃ w, (obj payload).at? loc = some w ∧ w.isDict) ∨
          (obj payload).has loc ∧ (obj result).has loc = false)) := by
  rcases copy_cases h t with
    ⟨hfound, hcopy⟩ | ⟨hfound, hsub, hcopy⟩ | ⟨hfound, hsub, u, hu, hcopy⟩ <;> rw [hcopy] at hv
  · exact .inr ⟨by simp [shares, hfound], .inl hv⟩
  · refine .inr ⟨by simp [shares, hsub], ?_⟩
    cases hkey : result.lookup t.key with
    | some a =>
      rw [hkey, Option.getD_some, set_self hkey] at hv
      exact .inl hv
    | none =>
      obtain ⟨x, rest, rfl⟩ := List.exists_cons_of_ne_nil hloc
      rw [hkey, Option.getD_none, at?_obj_cons, lookup_set] at hv
      by_cases hx : t.key = x
      · subst hx
        rw [if_pos rfl, Option.bind_some] at hv
        cases rest with
        | nil =>
          obtain rfl : obj [] = v := Option.some.inj hv
          refine .inr ⟨rfl, .inr ⟨?_, by simp [has, hkey]⟩⟩
          cases hw : (obj payload).at? [t.key] with
          | none => simp [found, location_of_sub_empty hsub, hw] at hfound
          | some w => simp [has, hw]
        | cons y rest => cases hv
      · rw [if_neg hx] at hv
        exact .inl hv
  · by_cases hbelow : t.location <+: loc
    · obtain ⟨rest, rfl⟩ := hbelow
      rw [at?_assign_below _ t.location_ne_nil] at hv
      exact .inl ⟨by simp [shares, hfound, hsub], by simp [at?_append, hu, hv]⟩
    refine .inr ⟨Bool.eq_false_iff.mpr fun hshares => hbelow (shares_iff.mp hshares).2.2, ?_⟩
    by_cases habove : loc <+: t.location
    · obtain ⟨rest, hrest⟩ := habove
      have hne : rest ≠ [] := by
        rintro rfl
        exact hbelow (by simp [← hrest])
      obtain ⟨x, rest, rfl⟩ := List.exists_cons_of_ne_nil hne
      obtain ⟨ms, hms⟩ := at?_assign_above result u loc hne
      rw [hrest, hv] at hms
      rw [← hrest, at?_append] at hu
      obtain ⟨w, hw, hbelow⟩ := Option.bind_eq_some_iff.mp hu
      exact .inr ⟨by cases hms; rfl, .inl ⟨w, hw, isDict_of_at? hbelow⟩⟩
    · rw [at?_assign_aside _ _ hbelow habove] at hv
      exact .inl hv

end Target

theorem covered_copies (payload : Members) (targets : List Target) :
    Covered payload (fun loc => targets.any fun t => t.shares payload loc)
      (targets.foldl (Target.copy payload) []) := by
  induction targets using List.reverseRecOn with
  | nil =>
    constructor
    · exact fun _ hshared => by cases hshared
    · intro loc v hloc _ hv
      obtain ⟨x, rest, rfl⟩ := List.exists_cons_of_ne_nil hloc
      cases hv
  | append_singleton targets t ih =>
    obtain ⟨hdrawn, -, hhas⟩ := copies_spec payload targets [] drawn_nil
    rw [List.foldl_append]
    change Covered payload _ (t.copy payload (targets.foldl (Target.copy payload) []))
    generalize targets.foldl (Target.copy payload) [] = result at ih hdrawn hhas
    simp only [List.any_append, List.any_cons, List.any_nil, Bool.or_false]
    constructor
    · intro loc v hloc hshared hv
      rcases Target.at?_copy hdrawn hloc hv with ⟨-, hpayload⟩ | ⟨hnot, hv | ⟨hdict, hw⟩⟩
      · exact ⟨v, hpayload, .refl v⟩
      · rw [hnot, Bool.or_false] at hshared
        exact ih.inside hloc hshared hv
      · rcases hw with ⟨w, hw, hdict'⟩ | ⟨hpayload, hresult⟩
        · exact ⟨w, hw, .inr ⟨hdict, hdict'⟩⟩
        · -- a shared location would be there already
          rw [hnot, Bool.or_false, List.any_eq_true] at hshared
          obtain ⟨t', ht', hshares⟩ := hshared
          have hkept : (targets.any fun t => t.keeps payload loc) = true :=
            List.any_eq_true.mpr ⟨t', ht', Target.keeps_of_shares hshares hpayload⟩
          rw [hhas loc hloc, hkept, Bool.or_true] at hresult
          cases hresult
    · intro loc v hloc hshared hv
      obtain ⟨hshared, hnot⟩ := Bool.or_eq_false_iff.mp hshared
      rcases Target.at?_copy hdrawn hloc hv with ⟨hshares, -⟩ | ⟨-, hv | ⟨hdict, -⟩⟩
      · rw [hnot] at hshares
        cases hshares
      · exact ih.outside hloc hshared hv
      · exact hdict

theorem covered_allowed (payload : Members) (allowlist : List String) :
    Covered payload (sharedAt payload allowlist) (allowed payload allowlist) := by
  by_cases h : allowlist = []
  · constructor
    · intro loc v _ _ hv
      rw [allowed, if_pos h] at hv
      exact ⟨v, hv, .refl v⟩
    · intro loc v hloc hshared
      simp [sharedAt, h, hloc] at hshared
  · have hcopies := covered_copies payload (allowTargets payload allowlist)
    have hshared : sharedAt payload allowlist =
        fun loc => (allowTargets payload allowlist).any fun t => t.shares payload loc :=
      funext fun loc => by rw [sharedAt, if_neg h]
    rwa [hshared, allowed, if_neg h]

/-- A deletion keeps the values that it leaves. -/
theorem Covered.remove {payload result : Members} {shared : List String → Bool}
    (h : Covered payload shared result) (t : Target) :
    Covered payload shared (t.remove result) := by
  have hleft : ∀ {loc v}, loc ≠ [] → (obj (t.remove result)).at? loc = some v →
      ∃ w, (obj result).at? loc = some w ∧ v.Resembles w := by
    intro loc v hloc hv
    have hremove := t.at?_remove result hloc
    rw [hv] at hremove
    split at hremove
    · cases hremove
    · exact exists_of_some_rel hremove
  constructor
  · intro loc v hloc hshared hv
    obtain ⟨w, hw, hlike⟩ := hleft hloc hv
    obtain ⟨u, hu, hlike'⟩ := h.inside hloc hshared hw
    exact ⟨u, hu, hlike.trans hlike'⟩
  · intro loc v hloc hshared hv
    obtain ⟨w, hw, hlike⟩ := hleft hloc hv
    exact hlike.isDict_eq.trans (h.outside hloc hshared hw)

theorem Covered.denials {payload result : Members} {shared : List String → Bool}
    (h : Covered payload shared result) (dataKey : Option String) (denylist : List String) :
    Covered payload shared (denylist.foldl (denyPath dataKey) result) := by
  induction denylist generalizing result with
  | nil => exact h
  | cons path denylist ih =>
    rw [List.foldl_cons, denyPath_eq]
    cases resolvePath dataKey (keys result) path with
    | none => exact ih h
    | some t => exact ih (h.remove t)

/-- What survives both lists, and with which values. -/
theorem shapeAndCheck_covered (payload : Payload) (endpoint : WebhookEndpoint)
    {allowlist denylist : List String} (hallow : endpoint.piiAllowlist = pathList allowlist)
    (hdeny : endpoint.piiDenylist = pathList denylist) :
    ∃ shaped : Payload, shapeAndCheck payload endpoint =
        .ok (shaped, shouldSendPassingEvent shaped.members endpoint.onlyOnPassing) ∧
      Shaped payload.members allowlist denylist shaped.members ∧
      Covered payload.members (sharedAt payload.members allowlist) shaped.members := by
  obtain ⟨shaped, hshaped, hspec⟩ := shapeAndCheck_shaped payload endpoint hallow hdeny
  obtain ⟨shaped', hshaped', hmembers⟩ := shapeAndCheck_members payload endpoint hallow hdeny
  obtain rfl : shaped = shaped' := by
    rw [hshaped] at hshaped'
    exact (Prod.mk.inj (Except.ok.inj hshaped')).1
  exact ⟨shaped, hshaped, hspec, hmembers ▸ (covered_allowed payload.members allowlist).denials _ _⟩

/-- Results that have something at the same locations are the same value if what they share is
alike. -/
theorem same_of_covered {payload payload' : Members} {result result' : Payload}
    {shared shared' : List String → Bool} (h : Covered payload shared result.members)
    (h' : Covered payload' shared' result'.members)
    (hhas : ∀ loc, loc ≠ [] → (obj result'.members).has loc = (obj result.members).has loc)
    (hshared : ∀ loc, shared' loc = shared loc)
    (hvalues : ∀ loc v v', loc ≠ [] → (obj result.members).has loc → shared loc →
      (obj payload).at? loc = some v → (obj payload').at? loc = some v' → v'.Akin v) :
    (obj result'.members).Same (obj result.members) := by
  refine same_of_at? result'.wellFormed result.wellFormed fun loc => ?_
  by_cases hloc : loc = []
  · subst hloc
    rw [at?_nil, at?_nil]
    exact .some (.inr ⟨rfl, rfl⟩)
  have hhas := hhas loc hloc
  cases hv : (obj result.members).at? loc with
  | none =>
    rw [has, has, hv, Option.isSome_none, Option.isSome_eq_false_iff,
      Option.isNone_iff_eq_none] at hhas
    rw [hhas]
    exact .none
  | some v =>
    rw [has, has, hv] at hhas
    obtain ⟨v', hv'⟩ := Option.isSome_iff_exists.mp hhas
    rw [hv']
    refine .some ?_
    cases hsharing : shared loc with
    | false =>
      exact .inr ⟨h'.outside hloc ((hshared loc).trans hsharing) hv',
        h.outside hloc hsharing hv⟩
    | true =>
      obtain ⟨w, hw, hlike⟩ := h.inside hloc hsharing hv
      obtain ⟨w', hw', hlike'⟩ := h'.inside hloc ((hshared loc).trans hsharing) hv'
      have hthere : (obj result.members).has loc := Option.isSome_of_eq_some hv
      exact hlike'.akin.trans ((hvalues loc w w' hloc hthere hsharing hw hw').trans
        hlike.akin.symm)

/-- Payloads of which the same survives are shaped to the same value if they are alike where it
is shared. -/
theorem shaped_same {payload payload' shaped shaped' : Payload}
    {allowlist denylist : List String}
    (h : Shaped payload.members allowlist denylist shaped.members)
    (h' : Shaped payload'.members allowlist denylist shaped'.members)
    (hcovered : Covered payload.members (sharedAt payload.members allowlist) shaped.members)
    (hcovered' : Covered payload'.members (sharedAt payload'.members allowlist) shaped'.members)
    (hsurvives : ∀ loc, loc ≠ [] → survives payload'.members allowlist denylist loc =
      survives payload.members allowlist denylist loc)
    (hshared : ∀ loc, sharedAt payload'.members allowlist loc =
      sharedAt payload.members allowlist loc)
    (hvalues : ∀ loc v v', survives payload.members allowlist denylist loc →
      sharedAt payload.members allowlist loc → (obj payload.members).at? loc = some v →
      (obj payload'.members).at? loc = some v' → v'.Akin v) :
    (obj shaped'.members).Same (obj shaped.members) := by
  refine same_of_covered hcovered hcovered' (fun loc hloc => ?_) hshared
    fun loc v v' hloc hhas => hvalues loc v v' (h.has loc hloc ▸ hhas)
  rw [h.has loc hloc, h'.has loc hloc, hsurvives loc hloc]

end WebhookRelay
