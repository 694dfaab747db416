import WebhookRelay.Model.InPlace
import WebhookRelay.Payload.Locations

/-!
# Objects that stand for values

`StandsFor` says that an object in memory stands for a JSON value, with the order of the keys. A
change in place of a dictionary that the object reaches once is a change at one location of
the value.

## Main results

* `StandsFor.popItem`, `StandsFor.setItem` — what a value becomes when one of its dictionaries is
  changed in place.
* `read_of_reads` — an object is read back as the value that it stands for.
* `reads_load` — a payload that is loaded stands for itself.
-/

namespace WebhookRelay

open Objects Objects.Heap Dictionary Json

/-! ## Objects that stand for values -/

/-- The object looks like the value at its top. -/
def Alike (memory : Memory) : Object → Json → Prop
  | .leaf u, v => u = v ∧ v.isDict = false
  | .ref a, v => ∃ ms, v = obj ms ∧ keys ms = keys (memory.cells a)

/-- The object stands for the value, with the order of keys. -/
def StandsFor (memory : Memory) (o : Object) (v : Json) : Prop :=
  ∀ loc, Option.Rel (Alike memory) (memory.walk o loc) (v.at? loc)

section StandsFor

variable {memory : Memory} {o w : Object} {v u : Json} {a : Address String}
  {p loc : List String}

theorem StandsFor.to_at? (h : StandsFor memory o v) (ho : memory.walk o loc = some w) :
    ∃ u, v.at? loc = some u ∧ Alike memory w u := by
  have hrel := h loc
  rw [ho] at hrel
  exact exists_of_some_rel hrel

theorem StandsFor.of_at? (h : StandsFor memory o v) (hv : v.at? loc = some u) :
    ∃ w, memory.walk o loc = some w ∧ Alike memory w u := by
  have hrel := h loc
  rw [hv] at hrel
  exact exists_of_rel_some hrel

theorem StandsFor.at?_eq_none (h : StandsFor memory o v) (ho : memory.walk o loc = none) :
    v.at? loc = none := by
  have hrel := h loc
  rw [ho] at hrel
  exact eq_none_of_none_rel hrel

theorem StandsFor.isSome_eq (h : StandsFor memory o v) (loc : List String) :
    (memory.walk o loc).isSome = v.has loc := isSome_eq_of_rel (h loc)

/-- What is below stands for what is below. -/
theorem StandsFor.below (h : StandsFor memory o v) (ho : memory.walk o loc = some w)
    (hv : v.at? loc = some u) : StandsFor memory w u := by
  intro rest
  have hrel := h (loc ++ rest)
  rwa [walk_append, at?_append, ho, hv] at hrel

theorem StandsFor.keys_eq {ms : Members} (h : StandsFor memory (.ref a) (obj ms)) :
    keys ms = keys (memory.cells a) := by
  obtain ⟨u, hu, ms', hms, hkeys⟩ := h.to_at? (walk_nil memory (.ref a))
  rw [at?_nil] at hu
  obtain rfl := Option.some.inj hu
  obtain rfl := Json.obj.inj hms
  exact hkeys

/-- A member stands for the member. -/
theorem StandsFor.member {ms : Members} (h : StandsFor memory (.ref a) (obj ms)) (k : String) :
    Option.Rel (StandsFor memory) ((memory.cells a).lookup k) (ms.lookup k) := by
  have hrel := h [k]
  have hwalk : memory.walk (.ref a) [k] = (memory.cells a).lookup k := by
    rw [← walk_snoc (walk_nil memory (.ref a)), List.nil_append]
  have hat : (obj ms).at? [k] = ms.lookup k := by
    cases hk : ms.lookup k <;> simp [hk]
  rw [hwalk, hat] at hrel
  cases hw : (memory.cells a).lookup k with
  | none =>
    rw [hw] at hrel
    rw [eq_none_of_none_rel hrel]
    exact .none
  | some w =>
    rw [hw] at hrel
    obtain ⟨u, hu, -⟩ := exists_of_some_rel hrel
    rw [hu]
    exact .some (h.below (hwalk.trans hw) (hat.trans hu))

/-- Objects stand for the same in a memory that agrees on what they reach. -/
theorem StandsFor.congr {memory' : Memory} (h : StandsFor memory o v)
    (hcells : ∀ loc b, memory.walk o loc = some (.ref b) → memory'.cells b = memory.cells b) :
    StandsFor memory' o v := by
  intro loc
  rw [walk_congr loc hcells]
  cases hw : memory.walk o loc with
  | none =>
    rw [h.at?_eq_none hw]
    exact .none
  | some w =>
    obtain ⟨u, hu, halike⟩ := h.to_at? hw
    rw [hu]
    refine .some ?_
    cases w with
    | leaf x => exact halike
    | ref b => rwa [Alike, hcells loc b hw]

theorem StandsFor.edit_of_unreached (h : StandsFor memory o v)
    (ho : ∀ loc, memory.walk o loc ≠ some (.ref a))
    (f : List (String × Object) → List (String × Object)) : StandsFor (memory.edit a f) o v := by
  refine h.congr fun loc b hb => edit_cells_of_ne memory ?_ f
  rintro rfl
  exact ho loc hb

theorem StandsFor.make_of_unreached (h : StandsFor memory o v)
    (ho : ∀ loc, memory.walk o loc ≠ some (.ref (.made memory.next)))
    (members : List (String × Object)) : StandsFor (memory.make members) o v := by
  refine h.congr fun loc b hb => make_cells_of_ne memory members ?_
  rintro rfl
  exact ho loc hb

/-! ## Changes in place -/

/-- An object other than the one that is changed looks the same. -/
theorem Alike.edit (halike : Alike memory w u) (hw : w ≠ .ref a)
    (f : List (String × Object) → List (String × Object)) : Alike (memory.edit a f) w u := by
  cases w with
  | leaf x => exact halike
  | ref b =>
    have hb : b ≠ a := by
      rintro rfl
      exact hw rfl
    rwa [Alike, edit_cells_of_ne memory hb]

/-- A deletion further down does not show at the top. -/
theorem Alike.prune (halike : Alike memory w u) (k : String) {rest : List String}
    (hrest : rest ≠ []) : Alike memory w (u.prune (k :: rest)) := by
  obtain ⟨k', rest, rfl⟩ := List.exists_cons_of_ne_nil hrest
  cases w with
  | leaf x =>
    obtain ⟨rfl, hdict⟩ := halike
    have hsame : x.prune (k :: k' :: rest) = x := by
      cases x with
      | obj _ => cases hdict
      | _ => rfl
    rw [hsame]
    exact ⟨rfl, hdict⟩
  | ref b =>
    obtain ⟨ms, rfl, hkeys⟩ := halike
    exact ⟨_, rfl, by rw [keys_modify, hkeys]⟩

/-- Nor does a write further down, where there is something already. -/
theorem Alike.assign {ms : Members} {k : String} (halike : Alike memory (.ref a) (obj ms))
    (hk : ((memory.cells a).lookup k).isSome) {rest : List String} (hrest : rest ≠ []) (u : Json) :
    Alike memory (.ref a) (obj (assign ms (k :: rest) u)) := by
  obtain ⟨k', rest, rfl⟩ := List.exists_cons_of_ne_nil hrest
  obtain ⟨_, ⟨⟩, hkeys⟩ := halike
  have hmem : k ∈ keys ms := by
    rw [hkeys]
    exact mem_keys.mpr (Option.isSome_iff_exists.mp hk)
  exact ⟨_, rfl, by rw [Json.assign, keys_set, if_pos hmem, hkeys]⟩

/-- A location beside what is below `p ++ [k]` is `p`, above it, or beside it. -/
theorem eq_or_above_or_aside {k : String} (hbelow : ¬ p ++ [k] <+: loc) :
    loc = p ∨ (∃ k' rest, p = loc ++ k' :: rest) ∨ ¬ loc <+: p ++ [k] := by
  by_cases habove : loc <+: p ++ [k]
  · obtain ⟨rest, rfl⟩ := (List.prefix_concat_iff.mp habove).resolve_left fun heq =>
      hbelow (heq ▸ List.prefix_rfl)
    cases rest with
    | nil => simp
    | cons k' rest => exact .inr (.inl ⟨k', rest, rfl⟩)
  · exact .inr (.inr habove)

/-- Deleting a key of an object that is reached in one place. -/
theorem StandsFor.popItem (h : StandsFor memory o v)
    (hp : ∀ loc, memory.walk o loc = some (.ref a) → loc = p)
    (ha : memory.walk o p = some (.ref a)) (k : String) :
    StandsFor (popItem memory a k) o (v.prune (p ++ [k])) := by
  intro loc
  change Option.Rel (Alike (memory.edit a fun d => erase d k))
    ((memory.edit a fun d => erase d k).walk o loc) _
  rw [walk_erase hp ha k loc]
  split
  · next hbelow =>
    obtain ⟨rest, rfl⟩ := hbelow
    rw [at?_prune_below v (by simp)]
    exact .none
  · next hbelow =>
    cases hw : memory.walk o loc with
    | none =>
      have hrel := at?_prune_aside v hbelow
      rw [h.at?_eq_none hw] at hrel
      rw [eq_none_of_rel_none hrel]
      exact .none
    | some w =>
      obtain ⟨u, hu, halike⟩ := h.to_at? hw
      have hother : loc ≠ p → w ≠ .ref a := by
        rintro hne rfl
        exact hne (hp loc hw)
      rcases eq_or_above_or_aside hbelow with rfl | ⟨k', rest, rfl⟩ | haside
      · -- the object itself
        obtain rfl := Option.some.inj (hw.symm.trans ha)
        obtain ⟨ms, rfl, hkeys⟩ := halike
        rw [at?_prune_above v loc (by simp), hu]
        exact .some ⟨_, rfl, by rw [edit_cells_self, keys_erase, keys_erase, hkeys]⟩
      · -- a dictionary on the way to it
        rw [List.append_assoc, at?_prune_above v loc (by simp), hu]
        exact .some ((halike.prune k' (by simp)).edit (hother (by simp)) _)
      · rw [at?_prune_elsewhere v hbelow haside, hu]
        refine .some (halike.edit (hother ?_) _)
        rintro rfl
        exact haside (List.prefix_append loc [k])

/-- Writing a key of an object that is reached in one place. -/
theorem StandsFor.setItem {ms : Members} (h : StandsFor memory o (obj ms))
    (hp : ∀ loc, memory.walk o loc = some (.ref a) → loc = p)
    (ha : memory.walk o p = some (.ref a)) (hw : ∀ loc, memory.walk w loc ≠ some (.ref a))
    (hu : StandsFor memory w u) (k : String) :
    StandsFor (setItem memory a k w) o (obj (assign ms (p ++ [k]) u)) := by
  intro loc
  change Option.Rel (Alike (memory.edit a fun d => set d k w))
    ((memory.edit a fun d => set d k w).walk o loc) _
  rw [walk_set hp ha hw]
  split
  · next hbelow =>
    obtain ⟨rest, rfl⟩ := hbelow
    rw [at?_assign_below ms (by simp) u]
    have hdrop : (p ++ [k] ++ rest).drop (p.length + 1) = rest := by simp
    rw [hdrop, ← walk_edit_of_unreached (fun d => set d k w) hw]
    exact hu.edit_of_unreached hw _ rest
  · next hbelow =>
    rcases eq_or_above_or_aside hbelow with rfl | ⟨k', rest, rfl⟩ | haside
    · -- the object itself
      obtain ⟨_, hv, ms', rfl, hkeys⟩ := h.to_at? ha
      rw [at?_assign_above_eq ms u loc (by simp), ha, hv, Option.map_some, Option.getD_some,
        members, assign]
      exact .some ⟨_, rfl, by rw [edit_cells_self, keys_set, keys_set, hkeys]⟩
    · -- a dictionary on the way to it
      obtain ⟨b, hb, hk'⟩ := ref_of_walk_append ha
      obtain ⟨_, hv, halike⟩ := h.to_at? hb
      obtain ⟨ms', rfl, hkeys⟩ := halike
      have hother : Value.ref (α := Json) b ≠ .ref a := by
        intro heq
        simpa using hp loc (heq ▸ hb)
      have hkept : Alike memory (.ref b) (obj ms') := ⟨_, rfl, hkeys⟩
      rw [List.append_assoc, at?_assign_above_eq ms u loc (by simp), hb, hv, Option.map_some,
        Option.getD_some, members]
      exact .some ((hkept.assign hk' (by simp) u).edit hother _)
    · rw [at?_assign_aside ms u hbelow haside]
      cases hx : memory.walk o loc with
      | none =>
        rw [h.at?_eq_none hx]
        exact .none
      | some x =>
        obtain ⟨v', hv', halike⟩ := h.to_at? hx
        rw [hv']
        refine .some (halike.edit ?_ _)
        rintro rfl
        obtain rfl := hp loc hx
        exact haside (List.prefix_append loc [k])

/-- Writing a key with a new dictionary. -/
theorem StandsFor.setEmpty {ms : Members} (h : StandsFor memory o (obj ms))
    (hp : ∀ loc, memory.walk o loc = some (.ref a) → loc = p)
    (ha : memory.walk o p = some (.ref a)) (hne : a ≠ .made memory.next)
    (ho : ∀ loc, memory.walk o loc ≠ some (.ref (.made memory.next))) (k : String) :
    StandsFor (setEmpty memory a k) o (obj (assign ms (p ++ [k]) (obj []))) := by
  have hmake := walk_make_of_unreached [] ho
  refine (h.make_of_unreached ho []).setItem (fun loc hloc => ?_) ((hmake p).trans ha)
    (unreached_make_self hne) (fun loc => ?_) k
  · rw [hmake] at hloc
    exact hp loc hloc
  · rw [walk_make_self]
    cases loc with
    | nil => exact .some ⟨[], rfl, by rw [make_cells_self]; rfl⟩
    | cons x loc => exact .none

/-! ## Reading back -/

theorem depth_lookup {ms : Members} {k : String} {v : Json} (h : ms.lookup k = some v) :
    v.depth ≤ depthMembers ms := by
  induction ms with
  | nil => cases h
  | cons e ms ih =>
    rw [lookup_cons_ite] at h
    rw [depthMembers]
    split at h
    · obtain rfl := Option.some.inj h
      exact le_max_left ..
    · exact (ih h).trans (le_max_right ..)

theorem length_le_depth {v : Json} {loc : List String} (h : v.has loc) :
    loc.length ≤ v.depth := by
  induction loc generalizing v with
  | nil => exact Nat.zero_le _
  | cons k loc ih =>
    cases v with
    | obj ms =>
      cases hk : ms.lookup k with
      | none => simp [has, hk] at h
      | some w =>
        have hw := ih (v := w) (by simpa [has, hk] using h)
        have := depth_lookup hk
        rw [depth, List.length_cons]
        omega
    | _ => cases h

/-- An object is read as what it stands for, if that is deep enough. -/
theorem read_of_reads {n : Nat} (hv : v.WellFormed) (h : StandsFor memory o v)
    (hn : ∀ loc, v.has loc → loc.length < n) : read memory n o = v := by
  induction n generalizing o v with
  | zero => exact absurd (hn [] (by simp [has])) (Nat.not_lt_zero _)
  | succ n ih =>
    cases o with
    | leaf x =>
      obtain ⟨u, hu, rfl, -⟩ := h.to_at? (walk_nil ..)
      rw [at?_nil] at hu
      rw [read, Option.some.inj hu]
    | ref a =>
      obtain ⟨u, hu, ms, rfl, hkeys⟩ := h.to_at? (walk_nil ..)
      rw [at?_nil] at hu
      obtain rfl := Option.some.inj hu
      rw [read, map_eq_of_lookup hkeys (hkeys ▸ hv.keys_nodup) fun k => ?_]
      have hmember := h.member k
      cases hw : (memory.cells a).lookup k with
      | none =>
        rw [hw] at hmember
        rw [eq_none_of_none_rel hmember]
        rfl
      | some w =>
        rw [hw] at hmember
        obtain ⟨u, hu, hreads⟩ := exists_of_some_rel hmember
        rw [hu, Option.map_some, ih (hv.lookup hu) hreads fun loc hloc => ?_]
        have := hn (k :: loc) (by simpa [has, hu] using hloc)
        simpa using this

/-- An object stands for one value. -/
theorem StandsFor.eq (h : StandsFor memory o v) (h' : StandsFor memory o u) (hv : v.WellFormed)
    (hu : u.WellFormed) : v = u := by
  have hread := read_of_reads (n := max v.depth u.depth + 1) hv h fun loc hloc =>
    Nat.lt_succ_of_le ((length_le_depth hloc).trans (le_max_left ..))
  have hread' := read_of_reads (n := max v.depth u.depth + 1) hu h' fun loc hloc =>
    Nat.lt_succ_of_le ((length_le_depth hloc).trans (le_max_right ..))
  exact hread.symm.trans hread'

end StandsFor

/-! ## Loading -/

section Load

variable {payload : Members} {v : Json} {place loc : List String}

theorem load_cells (h : (obj payload).at? place = some v) :
    (load payload).cells (.loaded place) =
      v.members.map fun e => (e.1, loadedAt (place ++ [e.1]) e.2) := by
  change ((obj payload).descend place).members.map _ = _
  rw [descend_eq, h, Option.getD_some]

/-- Every dictionary is found where it was loaded. -/
theorem walk_load (h : (obj payload).at? place = some v) (loc : List String) :
    (load payload).walk (loadedAt place v) loc =
      (v.at? loc).map (loadedAt (place ++ loc)) := by
  induction loc generalizing place v with
  | nil => simp
  | cons k loc ih =>
    cases v with
    | obj ms =>
      rw [loadedAt, walk_ref_cons, load_cells h, members,
        lookup_map_members ms fun key => loadedAt (place ++ [key]), at?_obj_cons]
      cases hk : ms.lookup k with
      | none => rfl
      | some w =>
        have hw : (obj payload).at? (place ++ [k]) = some w := by
          rw [at?_append, h, Option.bind_some, at?_obj_cons, hk, Option.bind_some, at?_nil]
        rw [Option.map_some, Option.bind_some, Option.bind_some, ih hw]
        simp
    | _ => rfl

theorem reads_load (payload : Members) :
    StandsFor (load payload) (.ref (.loaded [])) (obj payload) := by
  intro loc
  have hwalk := walk_load (at?_nil (obj payload)) loc
  rw [loadedAt, List.nil_append] at hwalk
  rw [hwalk]
  cases hv : (obj payload).at? loc with
  | none => exact .none
  | some v =>
    refine .some ?_
    cases v with
    | obj ms => exact ⟨ms, rfl, by simp [load_cells hv, members, keys, Function.comp_def]⟩
    | _ => exact ⟨rfl, rfl⟩

theorem named_load {a : Address String}
    (h : (load payload).walk (.ref (.loaded [])) loc = some (.ref a)) : a = .loaded loc := by
  have hwalk := walk_load (at?_nil (obj payload)) loc
  rw [loadedAt, List.nil_append, h] at hwalk
  obtain ⟨v, -, hv⟩ := Option.map_eq_some_iff.mp hwalk.symm
  cases v with
  | obj ms =>
    obtain rfl := Value.ref.inj hv
    rfl
  | _ => cases hv

end Load

end WebhookRelay
