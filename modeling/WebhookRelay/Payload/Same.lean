import Mathlib.Data.String.Basic
import WebhookRelay.Library.SortKeys
import WebhookRelay.Payload.Locations

/-!
# The same value, key order aside

Two values are the same when they are equal once the keys of all dictionaries in them are
sorted. `json.dumps` with `sort_keys` does not tell them apart, and they have the same values
at every location.

## Main results

* `Same.dumps_eq` — the same value is serialised to the same text.
* `same_of_at?` — values are the same if they have dictionaries in the same places, and the
  same other values.
-/

namespace WebhookRelay

open Dictionary

namespace Json

mutual

/-- The value with the keys of every dictionary sorted. -/
def sorted : Json → Json
  | .arr items => .arr (sortedItems items)
  | .obj ms => .obj (sortKeys (sortedMembers ms))
  | v => v

def sortedItems : List Json → List Json
  | [] => []
  | v :: vs => v.sorted :: sortedItems vs

def sortedMembers : List (String × Json) → List (String × Json)
  | [] => []
  | e :: ms => (e.1, e.2.sorted) :: sortedMembers ms

end

/-- The same value, key order aside. -/
def Same (v w : Json) : Prop := v.sorted = w.sorted

@[refl] theorem Same.refl (v : Json) : v.Same v := rfl

theorem Same.symm {v w : Json} (h : v.Same w) : w.Same v := Eq.symm h

theorem Same.trans {u v w : Json} (h : u.Same v) (h' : v.Same w) : u.Same w := Eq.trans h h'

theorem sortedMembers_eq (ms : Members) :
    sortedMembers ms = ms.map fun e => (e.1, e.2.sorted) := by
  induction ms with
  | nil => rfl
  | cons e ms ih => rw [sortedMembers, ih, List.map_cons]

theorem keys_sortedMembers (ms : Members) : keys (sortedMembers ms) = keys ms := by
  rw [sortedMembers_eq, keys, List.map_map]
  rfl

theorem lookup_sortedMembers (ms : Members) (k : String) :
    (sortedMembers ms).lookup k = (ms.lookup k).map sorted := by
  rw [sortedMembers_eq]
  exact lookup_map_members ms (fun _ => sorted) k

/-! ## Serialisation -/

theorem dumpsMembers_eq (floatRepr : UInt64 → String) (ms : Members) :
    dumpsMembers floatRepr ms = ms.map fun e => (e.1, e.2.dumps floatRepr) := by
  induction ms with
  | nil => rfl
  | cons e ms ih => rw [dumpsMembers, ih, List.map_cons]

theorem dumps_obj (floatRepr : UInt64 → String) (ms : Members) :
    (obj ms).dumps floatRepr = "\x7b" ++ ",".intercalate
      ((sortKeys (dumpsMembers floatRepr ms)).map fun e => quote e.1 ++ ":" ++ e.2) ++ "\x7d" := by
  rw [dumps]
  rfl

mutual

theorem dumps_sorted (floatRepr : UInt64 → String) :
    ∀ v : Json, v.sorted.dumps floatRepr = v.dumps floatRepr
  | .null | .bool _ | .int _ | .float _ | .str _ | .other _ => rfl
  | .arr items => by
    rw [sorted, dumps, dumps, dumpsItems_sorted floatRepr items]
  | .obj ms => by
    have hsort : sortKeys (dumpsMembers floatRepr (sortKeys (sortedMembers ms))) =
        sortKeys (dumpsMembers floatRepr ms) := by
      rw [dumpsMembers_eq, ← sortKeys_map, sortKeys_sortKeys, ← dumpsMembers_eq,
        dumpsMembers_sorted floatRepr ms]
    rw [sorted, dumps_obj, dumps_obj, hsort]

theorem dumpsItems_sorted (floatRepr : UInt64 → String) :
    ∀ items : List Json, dumpsItems floatRepr (sortedItems items) = dumpsItems floatRepr items
  | [] => rfl
  | v :: vs => by
    rw [sortedItems, dumpsItems, dumpsItems, dumps_sorted floatRepr v,
      dumpsItems_sorted floatRepr vs]

theorem dumpsMembers_sorted (floatRepr : UInt64 → String) :
    ∀ ms : List (String × Json),
      dumpsMembers floatRepr (sortedMembers ms) = dumpsMembers floatRepr ms
  | [] => rfl
  | e :: ms => by
    rw [sortedMembers, dumpsMembers, dumpsMembers, dumps_sorted floatRepr e.2,
      dumpsMembers_sorted floatRepr ms]

end

/-- The same value is serialised to the same text. -/
theorem Same.dumps_eq {v w : Json} (h : v.Same w) (floatRepr : UInt64 → String) :
    v.dumps floatRepr = w.dumps floatRepr := by
  rw [← dumps_sorted floatRepr v, h, dumps_sorted]

/-! ## What a value contains -/

theorem hasLeafMembers_eq (p : Json → Bool) (ms : Members) :
    hasLeafMembers p ms = ms.any fun e => e.2.hasLeaf p := by
  induction ms with
  | nil => rfl
  | cons e ms ih => rw [hasLeafMembers, ih, List.any_cons]

mutual

theorem hasLeaf_sorted (p : Json → Bool) : ∀ v : Json, v.sorted.hasLeaf p = v.hasLeaf p
  | .null | .bool _ | .int _ | .float _ | .str _ | .other _ => rfl
  | .arr items => by
    rw [sorted, hasLeaf, hasLeaf, hasLeafItems_sorted p items]
  | .obj ms => by
    rw [sorted, hasLeaf, hasLeaf, hasLeafMembers_eq, (perm_sortKeys _).any_eq,
      ← hasLeafMembers_eq, hasLeafMembers_sorted p ms]

theorem hasLeafItems_sorted (p : Json → Bool) :
    ∀ items : List Json, hasLeafItems p (sortedItems items) = hasLeafItems p items
  | [] => rfl
  | v :: vs => by
    rw [sortedItems, hasLeafItems, hasLeafItems, hasLeaf_sorted p v, hasLeafItems_sorted p vs]

theorem hasLeafMembers_sorted (p : Json → Bool) :
    ∀ ms : List (String × Json), hasLeafMembers p (sortedMembers ms) = hasLeafMembers p ms
  | [] => rfl
  | e :: ms => by
    rw [sortedMembers, hasLeafMembers, hasLeafMembers, hasLeaf_sorted p e.2,
      hasLeafMembers_sorted p ms]

end

theorem Same.hasLeaf_eq {v w : Json} (h : v.Same w) (p : Json → Bool) :
    v.hasLeaf p = w.hasLeaf p := by
  rw [← hasLeaf_sorted p v, h, hasLeaf_sorted]

/-! ## Locations -/

theorem isDict_sorted (v : Json) : v.sorted.isDict = v.isDict := by
  cases v <;> rfl

theorem isNull_sorted (v : Json) : v.sorted.isNull = v.isNull := by
  cases v <;> rfl

theorem truthy_sorted (v : Json) : v.sorted.truthy = v.truthy := by
  cases v with
  | arr items => cases items <;> rfl
  | obj ms =>
    have hempty := (perm_sortKeys (sortedMembers ms)).isEmpty_eq
    rw [sorted, truthy, truthy, hempty, sortedMembers_eq, List.isEmpty_map]
  | _ => rfl

theorem Same.isDict_eq {v w : Json} (h : v.Same w) : v.isDict = w.isDict := by
  rw [← isDict_sorted, h, isDict_sorted]

theorem Same.isNull_eq {v w : Json} (h : v.Same w) : v.isNull = w.isNull := by
  rw [← isNull_sorted, h, isNull_sorted]

theorem Same.truthy_eq {v w : Json} (h : v.Same w) : v.truthy = w.truthy := by
  rw [← truthy_sorted, h, truthy_sorted]

theorem lookup_sorted {ms : Members} (h : (keys ms).Nodup) (k : String) :
    (sortKeys (sortedMembers ms)).lookup k = (ms.lookup k).map sorted := by
  rw [lookup_sortKeys (by rwa [keys_sortedMembers]), lookup_sortedMembers]

theorem at?_sorted {v : Json} (h : v.WellFormed) (loc : List String) :
    v.sorted.at? loc = (v.at? loc).map sorted := by
  induction loc generalizing v with
  | nil => rw [at?_nil, at?_nil, Option.map_some]
  | cons k loc ih =>
    cases v with
    | obj ms =>
      rw [sorted, at?_obj_cons, at?_obj_cons, lookup_sorted h.keys_nodup]
      cases hk : ms.lookup k with
      | none => rfl
      | some w => exact ih (h.lookup hk)
    | _ => rfl

/-- The same value has the same values at every location. -/
theorem Same.at? {v w : Json} (hv : v.WellFormed) (hw : w.WellFormed) (h : v.Same w)
    (loc : List String) : Option.Rel Same (v.at? loc) (w.at? loc) := by
  have hsorted : (v.at? loc).map sorted = (w.at? loc).map sorted := by
    rw [← at?_sorted hv, ← at?_sorted hw, h]
  generalize v.at? loc = x, w.at? loc = y at hsorted
  cases x with
  | none =>
    cases y with
    | none => exact .none
    | some _ => cases hsorted
  | some u =>
    cases y with
    | none => cases hsorted
    | some u' => exact .some (Option.some.inj hsorted)

/-- The same value, or two dictionaries with members of their own. -/
def Akin (v w : Json) : Prop := v.Same w ∨ v.isDict ∧ w.isDict

theorem Akin.isDict_eq {v w : Json} (h : v.Akin w) : v.isDict = w.isDict := by
  rcases h with hsame | ⟨hv, hw⟩
  · exact hsame.isDict_eq
  · rw [hv, hw]

theorem Akin.isNull_eq {v w : Json} (h : v.Akin w) : v.isNull = w.isNull := by
  rcases h with hsame | ⟨hv, hw⟩
  · exact hsame.isNull_eq
  · cases v with
    | obj _ => cases w with
      | obj _ => rfl
      | _ => cases hw
    | _ => cases hv

theorem Akin.symm {v w : Json} (h : v.Akin w) : w.Akin v :=
  h.imp Same.symm And.symm

theorem Akin.trans {u v w : Json} (h : u.Akin v) (h' : v.Akin w) : u.Akin w := by
  rcases h with huv | ⟨hu, hv⟩
  · rcases h' with hvw | ⟨hv, hw⟩
    · exact .inl (huv.trans hvw)
    · exact .inr ⟨huv.isDict_eq.trans hv, hw⟩
  · exact .inr ⟨hu, h'.isDict_eq.symm.trans hv⟩

theorem Resembles.akin {v w : Json} (h : v.Resembles w) : v.Akin w :=
  h.imp_left fun heq => congrArg sorted heq

/-- Values are the same if they have dictionaries in the same places, and the same other
values. -/
theorem same_of_at? {v w : Json} (hv : v.WellFormed) (hw : w.WellFormed)
    (h : ∀ loc, Option.Rel Akin (v.at? loc) (w.at? loc)) : v.Same w := by
  induction hv generalizing w with
  | @obj ms hnodup _ ih =>
    have hroot := h []
    rw [at?_nil, at?_nil, Option.rel_some_some] at hroot
    rcases hroot with hsame | ⟨-, hdict⟩
    · exact hsame
    cases w with
    | obj ms' =>
      have hmembers : ∀ k, (sortedMembers ms).lookup k = (sortedMembers ms').lookup k := by
        intro k
        rw [lookup_sortedMembers, lookup_sortedMembers]
        have hk := h [k]
        rw [at?_obj_cons, at?_obj_cons] at hk
        cases hu : ms.lookup k with
        | none =>
          cases hu' : ms'.lookup k with
          | none => rfl
          | some u' => simp [hu, hu'] at hk
        | some u =>
          cases hu' : ms'.lookup k with
          | none => simp [hu, hu'] at hk
          | some u' =>
            refine congrArg some (ih _ (mem_of_lookup hu) (hw.lookup hu') fun loc => ?_)
            simpa [hu, hu'] using h (k :: loc)
      have hsort := sortKeys_eq_of_lookup (by rwa [keys_sortedMembers])
        (by rw [keys_sortedMembers]; exact hw.keys_nodup) hmembers
      exact congrArg obj hsort
    | _ => cases hdict
  | _ =>
    have hroot := h []
    rw [at?_nil, at?_nil, Option.rel_some_some] at hroot
    rcases hroot with hsame | ⟨hdict, -⟩
    · exact hsame
    · cases hdict

/-! ## Updates -/

/-- Only dictionaries are changed, and they remain dictionaries. -/
theorem prune_cases (v : Json) (loc : List String) :
    v.isDict ∧ (v.prune loc).isDict ∨ v.prune loc = v := by
  cases v with
  | obj ms =>
    cases loc with
    | nil => exact .inr rfl
    | cons k loc => cases loc <;> exact .inl ⟨rfl, rfl⟩
  | _ => cases loc <;> exact .inr rfl

theorem Akin.prune {v w : Json} (h : v.Akin w) (loc : List String) :
    (v.prune loc).Akin (w.prune loc) := by
  have hdict := h.isDict_eq
  rcases v.prune_cases loc with ⟨hv, hv'⟩ | hv <;> rcases w.prune_cases loc with ⟨hw, hw'⟩ | hw
  · exact .inr ⟨hv', hw'⟩
  · exact .inr ⟨hv', by rw [hw, ← hdict, hv]⟩
  · exact .inr ⟨by rw [hv, hdict, hw], hw'⟩
  · rwa [hv, hw]

/-- A deletion from the same value. -/
theorem Same.prune {v w : Json} (hv : v.WellFormed) (hw : w.WellFormed) (h : v.Same w)
    (loc : List String) : (v.prune loc).Same (w.prune loc) := by
  by_cases hloc : loc = []
  · subst hloc
    cases v <;> cases w <;> exact h
  refine same_of_at? (hv.prune loc) (hw.prune loc) fun other => ?_
  have hother : Option.Rel Akin (v.at? other) (w.at? other) :=
    rel_mono (fun _ _ => .inl) (h.at? hv hw other)
  by_cases hbelow : loc <+: other
  · obtain ⟨rest, rfl⟩ := hbelow
    rw [at?_prune_below v hloc, at?_prune_below w hloc]
    exact .none
  by_cases habove : other <+: loc
  · obtain ⟨rest, rfl⟩ := habove
    have hrest : rest ≠ [] := by
      rintro rfl
      exact hbelow (by simp)
    rw [at?_prune_above v other hrest, at?_prune_above w other hrest]
    generalize v.at? other = x, w.at? other = y at hother
    cases hother with
    | none => exact .none
    | some hakin => exact .some (hakin.prune rest)
  · rwa [at?_prune_elsewhere v hbelow habove, at?_prune_elsewhere w hbelow habove]

/-- The same value written to the same dictionary. -/
theorem Same.assign {ms ms' : Members} (hms : WellFormed (.obj ms))
    (hms' : WellFormed (.obj ms')) (h : (obj ms).Same (obj ms')) {v w : Json}
    (hv : v.WellFormed) (hw : w.WellFormed) (hvw : v.Same w) (loc : List String) :
    (obj (assign ms loc v)).Same (obj (assign ms' loc w)) := by
  by_cases hloc : loc = []
  · subst hloc
    exact h
  refine same_of_at? (hms.assign loc hv) (hms'.assign loc hw) fun other => ?_
  by_cases hbelow : loc <+: other
  · obtain ⟨rest, rfl⟩ := hbelow
    rw [at?_assign_below ms hloc, at?_assign_below ms' hloc]
    exact rel_mono (fun _ _ => .inl) (hvw.at? hv hw rest)
  by_cases habove : other <+: loc
  · obtain ⟨rest, rfl⟩ := habove
    have hrest : rest ≠ [] := by
      rintro rfl
      exact hbelow (by simp)
    obtain ⟨us, hus⟩ := at?_assign_above ms v other hrest
    obtain ⟨us', hus'⟩ := at?_assign_above ms' w other hrest
    rw [hus, hus']
    exact .some (.inr ⟨rfl, rfl⟩)
  · rw [at?_assign_aside ms v hbelow habove, at?_assign_aside ms' w hbelow habove]
    exact rel_mono (fun _ _ => .inl) (h.at? hms hms' other)

end Json

end WebhookRelay
