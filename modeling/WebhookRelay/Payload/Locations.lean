import WebhookRelay.Model.Security

/-!
# Locations in a payload

A location is a list of keys that leads through nested dictionaries. The lists of a
payload's endpoint copy and delete by location, so what they do is said by what there is at
each location afterwards.

## Main results

* `Json.at?_assign_below`, `Json.at?_assign_above`, `Json.at?_assign_aside` — a write is seen
  below its location, makes dictionaries on the way there and leaves the rest alone.
* `Json.at?_prune_below`, `Json.at?_prune_aside` — a deletion leaves nothing below its
  location and, up to members of dictionaries, the rest alone.
-/

namespace WebhookRelay

open Dictionary

namespace Json

/-- The value at a location. -/
def at? : Json → List String → Option Json
  | v, [] => some v
  | .obj ms, k :: loc => (ms.lookup k).bind fun v => v.at? loc
  | _, _ :: _ => none

/-- There is something at the location. -/
def has (v : Json) (loc : List String) : Bool := (v.at? loc).isSome

@[simp] theorem at?_nil (v : Json) : v.at? [] = some v := by
  cases v <;> rfl

@[simp] theorem at?_obj_cons (ms : Members) (k : String) (loc : List String) :
    (obj ms).at? (k :: loc) = (ms.lookup k).bind fun v => v.at? loc := rfl

/-- Only dictionaries have something below. -/
theorem at?_members (v : Json) (k : String) (loc : List String) :
    (obj v.members).at? (k :: loc) = v.at? (k :: loc) := by
  cases v <;> rfl

theorem isDict_of_at? {v w : Json} {k : String} {loc : List String}
    (h : v.at? (k :: loc) = some w) : v.isDict := by
  cases v with
  | obj ms => rfl
  | _ => cases h

theorem at?_append (v : Json) (loc rest : List String) :
    v.at? (loc ++ rest) = (v.at? loc).bind fun w => w.at? rest := by
  induction loc generalizing v with
  | nil => simp
  | cons k loc ih =>
    cases v with
    | obj ms => cases hk : ms.lookup k <;> simp [hk, ih]
    | _ => rfl

theorem at?_of_prefix {v w : Json} {loc rest : List String} (h : v.at? (loc ++ rest) = some w) :
    ∃ u, v.at? loc = some u := by
  rw [at?_append] at h
  obtain ⟨u, hu, -⟩ := Option.bind_eq_some_iff.mp h
  exact ⟨u, hu⟩

theorem has_above {v : Json} {loc rest : List String} (h : v.has (loc ++ rest)) :
    v.has loc := by
  obtain ⟨w, hw⟩ := Option.isSome_iff_exists.mp h
  obtain ⟨u, hu⟩ := at?_of_prefix hw
  exact Option.isSome_of_eq_some hu

/-- Reading along keys gives what is there, or `None`. -/
theorem descend_eq (v : Json) (loc : List String) : v.descend loc = (v.at? loc).getD .null := by
  induction loc generalizing v with
  | nil => simp [descend]
  | cons k loc ih =>
    cases v with
    | obj ms => cases hk : ms.lookup k <;> simp [descend, hk, ih]
    | _ => rfl

theorem WellFormed.at? {v u : Json} (h : v.WellFormed) {loc : List String}
    (hu : v.at? loc = some u) : u.WellFormed := by
  have hdescend := h.descend loc
  rwa [descend_eq, hu, Option.getD_some] at hdescend

/-! ## Writing -/

/-- At the location and below it there is what was written. -/
theorem at?_assign_below (ms : Members) {loc : List String} (h : loc ≠ []) (v : Json)
    (rest : List String) : (obj (assign ms loc v)).at? (loc ++ rest) = v.at? rest := by
  fun_induction Json.assign ms loc v with
  | case1 => exact absurd rfl h
  | case2 ms k v => simp
  | case3 ms k k' loc v ih => simpa using ih (by simp)

/-- On the way to the location there are dictionaries. -/
theorem at?_assign_above (ms : Members) (v : Json) (loc : List String) {rest : List String}
    (h : rest ≠ []) :
    ∃ ms', (obj (assign ms (loc ++ rest) v)).at? loc = some (obj ms') := by
  induction loc generalizing ms with
  | nil => exact ⟨_, at?_nil _⟩
  | cons k loc ih =>
    obtain ⟨k', tail, htail⟩ : ∃ k' tail, loc ++ rest = k' :: tail :=
      List.exists_cons_of_ne_nil (by simp [h])
    obtain ⟨ms', hms'⟩ := ih (((ms.lookup k).map members).getD [])
    rw [htail] at hms'
    exact ⟨ms', by simpa [htail, assign] using hms'⟩

/-- Nothing changes at any other location. -/
theorem at?_assign_aside (ms : Members) {loc other : List String} (v : Json)
    (hbelow : ¬ loc <+: other) (habove : ¬ other <+: loc) :
    (obj (assign ms loc v)).at? other = (obj ms).at? other := by
  fun_induction Json.assign ms loc v generalizing other with
  | case1 => exact absurd List.nil_prefix hbelow
  | case2 ms k v =>
    cases other with
    | nil => exact absurd List.nil_prefix habove
    | cons x other =>
      have hne : k ≠ x := by
        rintro rfl
        exact hbelow (by simp)
      simp [hne]
  | case3 ms k k' loc v ih =>
    cases other with
    | nil => exact absurd List.nil_prefix habove
    | cons x other =>
      rw [at?_obj_cons, at?_obj_cons, lookup_set]
      by_cases hx : k = x
      · subst hx
        rw [List.cons_prefix_cons, not_and] at hbelow habove
        rw [if_pos rfl, Option.bind_some, ih (hbelow rfl) (habove rfl)]
        obtain ⟨y, other, rfl⟩ : ∃ y tail, other = y :: tail :=
          List.exists_cons_of_ne_nil (by rintro rfl; exact habove rfl List.nil_prefix)
        cases hk : ms.lookup k with
        | none => simp
        | some w => simpa using at?_members w y other
      · rw [if_neg hx]

/-- What is at a location above, member by member. -/
theorem at?_assign_above_eq (ms : Members) (v : Json) (loc : List String) {rest : List String}
    (h : rest ≠ []) : (obj (assign ms (loc ++ rest) v)).at? loc =
      some (obj (assign ((((obj ms).at? loc).map members).getD []) rest v)) := by
  induction loc generalizing ms with
  | nil => simp [members]
  | cons k loc ih =>
    obtain ⟨k', tail, htail⟩ : ∃ k' tail, loc ++ rest = k' :: tail :=
      List.exists_cons_of_ne_nil (by simp [h])
    rw [List.cons_append, htail, assign, at?_obj_cons, lookup_set, if_pos rfl, Option.bind_some,
      ← htail, ih, at?_obj_cons]
    cases hk : ms.lookup k with
    | none =>
      cases loc with
      | nil => rfl
      | cons x loc => rfl
    | some w =>
      cases loc with
      | nil => rw [Option.map_some, Option.getD_some, at?_nil, Option.bind_some, at?_nil]; rfl
      | cons x loc => rw [Option.map_some, Option.getD_some, at?_members, Option.bind_some]

/-- Writing what is there already. -/
theorem assign_self {ms : Members} {loc : List String} {v : Json}
    (h : (obj ms).at? loc = some v) : assign ms loc v = ms := by
  fun_induction Json.assign ms loc v with
  | case1 => rfl
  | case2 ms k v =>
    refine set_self ?_
    cases hk : ms.lookup k <;> simp_all
  | case3 ms k k' loc v ih =>
    rw [at?_obj_cons] at h
    obtain ⟨w, hk, hw⟩ := Option.bind_eq_some_iff.mp h
    cases w with
    | obj ms' =>
      rw [hk] at ih ⊢
      rw [Option.map_some, Option.getD_some, members] at ih ⊢
      rw [ih hw]
      exact set_self hk
    | _ => cases hw

/-- Where there is no dictionary it makes no difference to make an empty one first. -/
theorem assign_assign_empty (ms : Members) (loc : List String) (k : String)
    {rest : List String} (h : rest ≠ []) (v : Json)
    (hnone : ∀ w, (obj ms).at? (loc ++ [k]) = some w → ¬ w.isDict) :
    assign (assign ms (loc ++ [k]) (obj [])) (loc ++ k :: rest) v =
      assign ms (loc ++ k :: rest) v := by
  induction loc generalizing ms with
  | nil =>
    obtain ⟨k', rest, rfl⟩ := List.exists_cons_of_ne_nil h
    have hempty : ((ms.lookup k).map members).getD [] = [] := by
      cases hk : ms.lookup k with
      | none => rfl
      | some w =>
        have hw := hnone w (by simp [hk])
        cases w with
        | obj _ => exact absurd rfl hw
        | _ => rfl
    simp [assign, set_set, hempty, members]
  | cons x loc ih =>
    obtain ⟨k', tail, htail⟩ : ∃ k' tail, loc ++ [k] = k' :: tail :=
      List.exists_cons_of_ne_nil (by simp)
    obtain ⟨k'', tail', htail'⟩ : ∃ k'' tail', loc ++ k :: rest = k'' :: tail' :=
      List.exists_cons_of_ne_nil (by simp)
    have ih := ih (((ms.lookup x).map members).getD []) fun w hw => by
      refine hnone w ?_
      rw [List.cons_append, at?_obj_cons]
      cases hx : ms.lookup x with
      | none => rw [hx, htail] at hw; cases hw
      | some u =>
        rw [hx, Option.map_some, Option.getD_some, htail, at?_members] at hw
        rw [Option.bind_some, htail, hw]
    rw [htail, htail'] at ih
    simp only [List.cons_append, htail, htail', assign, set_set, lookup_set, if_true,
      Option.map_some, Option.getD_some, members, ih]

/-! ## Deleting -/

/-- The same value, or two dictionaries. -/
def Resembles (v w : Json) : Prop := v = w ∨ v.isDict ∧ w.isDict

theorem Resembles.refl (v : Json) : v.Resembles v := .inl rfl

theorem Resembles.trans {u v w : Json} (h : u.Resembles v) (h' : v.Resembles w) :
    u.Resembles w := by
  rcases h with rfl | ⟨hu, hv⟩
  · exact h'
  · rcases h' with rfl | ⟨-, hw⟩
    · exact .inr ⟨hu, hv⟩
    · exact .inr ⟨hu, hw⟩

theorem rel_refl : ∀ v : Option Json, Option.Rel Resembles v v
  | none => .none
  | some v => .some (.refl v)

theorem Resembles.isDict_eq {v w : Json} (h : v.Resembles w) : v.isDict = w.isDict := by
  rcases h with rfl | ⟨hv, hw⟩
  · rfl
  · rw [hv, hw]

/-- A dictionary remains one. -/
@[simp] theorem obj_members_prune (ms : Members) (loc : List String) :
    obj ((obj ms).prune loc).members = (obj ms).prune loc := by
  cases loc with
  | nil => rfl
  | cons k loc => cases loc <;> rfl

/-- Below the location there is nothing left. -/
theorem at?_prune_below (v : Json) {loc : List String} (h : loc ≠ []) (rest : List String) :
    (v.prune loc).at? (loc ++ rest) = none := by
  fun_induction Json.prune v loc with
  | case1 ms k => simp
  | case2 ms k loc hloc ih =>
    cases hk : ms.lookup k with
    | none => simp [hk]
    | some w => simpa [hk] using ih w (by rintro rfl; exact hloc rfl)
  | case3 loc v hnil hobj =>
    obtain ⟨k, loc, rfl⟩ := List.exists_cons_of_ne_nil h
    cases v with
    | obj ms => exact absurd rfl (hobj ms k loc rfl)
    | _ => rfl

/-- What is at a location above has lost what is below. -/
theorem at?_prune_above (v : Json) (loc : List String) {rest : List String} (h : rest ≠ []) :
    (v.prune (loc ++ rest)).at? loc = (v.at? loc).map fun w => w.prune rest := by
  induction loc generalizing v with
  | nil => simp
  | cons k loc ih =>
    obtain ⟨k', tail, htail⟩ : ∃ k' tail, loc ++ rest = k' :: tail :=
      List.exists_cons_of_ne_nil (by simp [h])
    rw [List.cons_append]
    cases v with
    | obj ms =>
      have hprune : (obj ms).prune (k :: (loc ++ rest)) =
          obj (modify ms k fun v => v.prune (loc ++ rest)) := by
        rw [htail]
        rfl
      rw [hprune, at?_obj_cons, lookup_modify, if_pos rfl, at?_obj_cons]
      cases hk : ms.lookup k with
      | none => rfl
      | some w => exact ih w
    | _ => rw [htail]; rfl

/-- Where nothing is, nothing is deleted. -/
theorem prune_absent {v : Json} (hv : v.WellFormed) {loc : List String}
    (h : v.has loc = false) : v.prune loc = v := by
  fun_induction Json.prune v loc with
  | case1 ms k =>
    rw [erase_self]
    simpa [has] using h
  | case2 ms k loc hloc ih =>
    rw [modify_self]
    rintro ⟨x, w⟩ he rfl
    have hlookup := lookup_of_mem hv.keys_nodup he
    exact ih w (hv.member he) (by simpa [has, hlookup] using h)
  | case3 => rfl

/-- There is nothing to delete where there is no dictionary. -/
theorem prune_eq_self {v : Json} (hv : v.WellFormed) {loc : List String} (k : String)
    (h : ∀ w, v.at? loc = some w → w.isDict = false) : v.prune (loc ++ [k]) = v := by
  refine prune_absent hv (Bool.eq_false_iff.mpr fun hhas => ?_)
  obtain ⟨u, hu⟩ := Option.isSome_iff_exists.mp hhas
  rw [at?_append] at hu
  obtain ⟨w, hw, hbelow⟩ := Option.bind_eq_some_iff.mp hu
  have hdict := isDict_of_at? hbelow
  rw [h w hw] at hdict
  cases hdict

/-- Nothing changes at a location that is neither above nor below. -/
theorem at?_prune_elsewhere (v : Json) {loc other : List String} (hbelow : ¬ loc <+: other)
    (habove : ¬ other <+: loc) : (v.prune loc).at? other = v.at? other := by
  fun_induction Json.prune v loc generalizing other with
  | case1 ms k =>
    cases other with
    | nil => exact absurd List.nil_prefix habove
    | cons x other =>
      have hne : k ≠ x := by
        rintro rfl
        exact hbelow (by simp)
      simp [hne]
  | case2 ms k loc hloc ih =>
    cases other with
    | nil => exact absurd List.nil_prefix habove
    | cons x other =>
      rw [at?_obj_cons, at?_obj_cons, lookup_modify]
      by_cases hx : k = x
      · subst hx
        rw [List.cons_prefix_cons, not_and] at hbelow habove
        cases hk : ms.lookup k with
        | none => simp
        | some w => simpa using ih w (hbelow rfl) (habove rfl)
      · rw [if_neg hx]
  | case3 => rfl

/-- Anywhere else there is what was there, except for members deleted further below. -/
theorem at?_prune_aside (v : Json) {loc other : List String} (h : ¬ loc <+: other) :
    Option.Rel Resembles ((v.prune loc).at? other) (v.at? other) := by
  fun_induction Json.prune v loc generalizing other with
  | case1 ms k =>
    cases other with
    | nil => simpa using Option.Rel.some (.inr ⟨rfl, rfl⟩)
    | cons x other =>
      have hne : k ≠ x := by
        rintro rfl
        exact h (by simp)
      simpa [hne] using rel_refl _
  | case2 ms k loc hloc ih =>
    cases other with
    | nil => simpa using Option.Rel.some (.inr ⟨rfl, rfl⟩)
    | cons x other =>
      rw [at?_obj_cons, at?_obj_cons, lookup_modify]
      by_cases hx : k = x
      · subst hx
        rw [List.cons_prefix_cons, not_and] at h
        cases hk : ms.lookup k with
        | none => simp
        | some w => simpa using ih w (h rfl)
      · rw [if_neg hx]
        exact rel_refl _
  | case3 => exact rel_refl _

theorem has_of_has_prune {v : Json} {path loc : List String} (hpath : path ≠ [])
    (h : (v.prune path).has loc) : v.has loc := by
  by_cases hbelow : path <+: loc
  · obtain ⟨rest, rfl⟩ := hbelow
    simp [has, at?_prune_below v hpath] at h
  · have hrel := at?_prune_aside v hbelow
    exact (isSome_eq_of_rel hrel).symm.trans h

end Json

end WebhookRelay
