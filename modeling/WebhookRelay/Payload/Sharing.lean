import WebhookRelay.Payload.Reading

/-!
# What the lists share with the raw payload

The allowlist puts dictionaries of the raw payload into its result, always at the place where
they have been. So every dictionary in the result is either new, or the one that the raw
payload has in the same place, and which it is depends on the place alone. A deletion by the
denylist is seen in the raw payload exactly where the dictionary is shared.

## Main results

* `Sharing.popAt` — a deletion in the result, and what it deletes from the raw payload.
* `Filling.setAlong` — `_set_nested_value` while the result of the allowlist is filled.
-/

namespace WebhookRelay

open Objects Objects.Heap Dictionary Json

/-! ## What is shared -/

/-- A result that has the dictionaries of the raw payload in the shared places, and others of
its own, numbered from `base` on. -/
structure Sharing (memory : Memory) (base : Nat) (shared : List String → Prop)
    (raw result : Members) : Prop where
  raw_wellFormed : WellFormed (obj raw)
  raw_reads : StandsFor memory (.ref (.loaded [])) (obj raw)
  raw_named : ∀ loc a, memory.walk (.ref (.loaded [])) loc = some (.ref a) → a = .loaded loc
  wellFormed : WellFormed (obj result)
  reads : StandsFor memory (.ref (.made base)) (obj result)
  own : ∀ loc a, ¬ shared loc → memory.walk (.ref (.made base)) loc = some (.ref a) →
    ∃ n, base ≤ n ∧ n < memory.next ∧ a = .made n
  same : ∀ loc w, shared loc → memory.walk (.ref (.made base)) loc = some w →
    memory.walk (.ref (.loaded [])) loc = some w
  unique : ∀ loc loc' a, memory.walk (.ref (.made base)) loc = some (.ref a) →
    memory.walk (.ref (.made base)) loc' = some (.ref a) → loc = loc'

section Sharing

variable {memory : Memory} {base : Nat} {shared : List String → Prop} {raw result : Members}
  {a : Address String} {p : List String}

/-- In a shared place the dictionary is that of the raw payload. -/
theorem Sharing.loaded (h : Sharing memory base shared raw result) (hp : shared p)
    (ha : memory.walk (.ref (.made base)) p = some (.ref a)) : a = .loaded p :=
  h.raw_named p a (h.same p _ hp ha)

/-- A dictionary of the result's own is not reached from the raw payload. -/
theorem Sharing.raw_unreached (h : Sharing memory base shared raw result) (n : Nat)
    (loc : List String) : memory.walk (.ref (.loaded [])) loc ≠ some (.ref (.made n)) := by
  intro hloc
  cases h.raw_named loc _ hloc

/-- Delete a key of the dictionary in a place of the result, if there is one. -/
def popAt (memory : Memory) (o : Object) (p : List String) (k : String) : Memory :=
  match memory.walk o p with
  | some (.ref a) => popItem memory a k
  | _ => memory

/-- Where there is a dictionary, a key of it is deleted, in the raw payload too if the place is
shared. -/
theorem Sharing.pop [DecidablePred shared] (h : Sharing memory base shared raw result)
    (ha : memory.walk (.ref (.made base)) p = some (.ref a)) (k : String) :
    Sharing (popItem memory a k) base shared
      (if shared p ∧ (obj result).has p then ((obj raw).prune (p ++ [k])).members else raw)
      ((obj result).prune (p ++ [k])).members := by
  have hhas : (obj result).has p := by
    rw [← h.reads.isSome_eq, ha]
    rfl
  have hplace : ∀ loc, memory.walk (.ref (.made base)) loc = some (.ref a) → loc = p :=
    fun loc hloc => h.unique loc p a hloc ha
  have hwalk := walk_erase hplace ha k
  have hless : ∀ loc w, (popItem memory a k).walk (.ref (.made base)) loc = some w →
      ¬ p ++ [k] <+: loc ∧ memory.walk (.ref (.made base)) loc = some w := by
    intro loc w hw
    rw [popItem, hwalk] at hw
    split at hw
    · cases hw
    · next hnot => exact ⟨hnot, hw⟩
  have hwell : WellFormed (obj ((obj result).prune (p ++ [k])).members) := by
    rw [obj_members_prune]
    exact h.wellFormed.prune _
  have hreads : StandsFor (popItem memory a k) (.ref (.made base))
      (obj ((obj result).prune (p ++ [k])).members) := by
    rw [obj_members_prune]
    exact h.reads.popItem hplace ha k
  have hown : ∀ loc b, ¬ shared loc →
      (popItem memory a k).walk (.ref (.made base)) loc = some (.ref b) →
        ∃ n, base ≤ n ∧ n < memory.next ∧ b = .made n :=
    fun loc b hnot hloc => h.own loc b hnot (hless loc _ hloc).2
  have hunique : ∀ loc loc' b,
      (popItem memory a k).walk (.ref (.made base)) loc = some (.ref b) →
        (popItem memory a k).walk (.ref (.made base)) loc' = some (.ref b) → loc = loc' :=
    fun loc loc' b hloc hloc' => h.unique loc loc' b (hless loc _ hloc).2 (hless loc' _ hloc').2
  by_cases hp : shared p
  · -- the same dictionary is reached from the raw payload, in the same place
    obtain rfl := h.loaded hp ha
    have hrawPlace : ∀ loc, memory.walk (.ref (.loaded [])) loc = some (.ref (.loaded p)) →
        loc = p := fun loc hloc => by
      have hname := h.raw_named loc _ hloc
      injection hname with hname
      exact hname.symm
    have hraw := h.same p _ hp ha
    have hrawWalk := walk_erase hrawPlace hraw k
    rw [if_pos ⟨hp, hhas⟩]
    refine ⟨?_, ?_, ?_, hwell, hreads, hown, ?_, hunique⟩
    · rw [obj_members_prune]
      exact h.raw_wellFormed.prune _
    · rw [obj_members_prune]
      exact h.raw_reads.popItem hrawPlace hraw k
    · intro loc a hloc
      rw [popItem, hrawWalk] at hloc
      split at hloc
      · cases hloc
      · exact h.raw_named loc a hloc
    · intro loc w hshared hloc
      obtain ⟨hnot, hloc⟩ := hless loc w hloc
      rw [popItem, hrawWalk, if_neg hnot]
      exact h.same loc w hshared hloc
  · obtain ⟨n, -, -, rfl⟩ := h.own p a hp ha
    have hraw := walk_edit_of_unreached (fun d => erase d k) (h.raw_unreached n)
    rw [if_neg fun hand => hp hand.1]
    refine ⟨h.raw_wellFormed, ?_, ?_, hwell, hreads, hown, ?_, hunique⟩
    · exact h.raw_reads.edit_of_unreached (h.raw_unreached n) _
    · intro loc a hloc
      rw [popItem, hraw] at hloc
      exact h.raw_named loc a hloc
    · intro loc w hshared hloc
      rw [popItem, hraw]
      exact h.same loc w hshared (hless loc w hloc).2

/-- Where there is no dictionary nothing is deleted: if the place is shared, there is none in the
raw payload either. -/
theorem Sharing.prune_eq [DecidablePred shared] (h : Sharing memory base shared raw result)
    (ha : ¬ ∃ a, memory.walk (.ref (.made base)) p = some (.ref a)) (k : String) :
    ((obj result).prune (p ++ [k])).members = result ∧
      (if shared p ∧ (obj result).has p then ((obj raw).prune (p ++ [k])).members else raw) =
        raw := by
  have hnone : ∀ w, (obj result).at? p = some w → w.isDict = false := by
    intro w hw
    obtain ⟨o, ho, halike⟩ := h.reads.of_at? hw
    cases o with
    | leaf x => exact halike.1 ▸ halike.2
    | ref a => exact absurd ⟨a, ho⟩ ha
  constructor
  · rw [prune_eq_self h.wellFormed k hnone]
    rfl
  · split
    · next hand =>
      obtain ⟨w, hw⟩ := Option.isSome_iff_exists.mp hand.2
      obtain ⟨o, ho, halike⟩ := h.reads.of_at? hw
      obtain ⟨v, hv, hv'⟩ := h.raw_reads.to_at? (h.same p o hand.1 ho)
      rw [prune_eq_self h.raw_wellFormed k fun u hu => ?_]
      · rfl
      · rw [hv] at hu
        obtain rfl := Option.some.inj hu
        cases o with
        | leaf x => exact hv'.1 ▸ hv'.2
        | ref a => exact absurd ⟨a, ho⟩ ha
    · rfl

/-- A deletion in the result is one in the raw payload if the place is shared. -/
theorem Sharing.popAt [DecidablePred shared] (h : Sharing memory base shared raw result)
    (p : List String) (k : String) :
    Sharing (popAt memory (.ref (.made base)) p k) base shared
      (if shared p ∧ (obj result).has p then ((obj raw).prune (p ++ [k])).members else raw)
      ((obj result).prune (p ++ [k])).members := by
  by_cases ha : ∃ a, memory.walk (.ref (.made base)) p = some (.ref a)
  · obtain ⟨a, ha⟩ := ha
    simp only [WebhookRelay.popAt, ha]
    exact h.pop ha k
  · obtain ⟨hresult, hraw⟩ := h.prune_eq ha k
    have hself : WebhookRelay.popAt memory (.ref (.made base)) p k = memory := by
      unfold WebhookRelay.popAt
      split
      · next a hp => exact absurd ⟨a, hp⟩ ha
      · rfl
    rw [hself, hresult, hraw]
    exact h

end Sharing

/-! ## Filling the result of the allowlist -/

/-- While the result of the allowlist is filled, it has all there is in the shared places, and
the copy of the raw payload that it is filled from stays as it is. -/
structure Filling (memory : Memory) (shared : List String → Prop) (raw result : Members) : Prop
    extends Sharing memory 1 shared raw result where
  mono : ∀ loc rest, shared loc → shared (loc ++ rest)
  full : ∀ loc w, shared loc → memory.walk (.ref (.loaded [])) loc = some w →
    memory.walk (.ref (.made 1)) loc = some w
  copied : memory.cells (.made 0) = memory.cells (.loaded [])

namespace Filling

variable {memory : Memory} {shared shared' : List String → Prop} {raw result : Members}
  {a : Address String} {p ks : List String} {k : String} {w : Object} {u : Json}

theorem congr (h : Filling memory shared raw result) (hiff : ∀ loc, shared' loc ↔ shared loc) :
    Filling memory shared' raw result := by
  obtain rfl : shared' = shared := funext fun loc => propext (hiff loc)
  exact h

/-- What the result reaches is where it was loaded, or of its own. -/
theorem named (h : Filling memory shared raw result) {loc : List String}
    (ha : memory.walk (.ref (.made 1)) loc = some (.ref a)) :
    a = .loaded loc ∨ ∃ n, 1 ≤ n ∧ n < memory.next ∧ a = .made n := by
  by_cases hloc : shared loc
  · exact .inl (h.loaded hloc ha)
  · exact .inr (h.own loc a hloc ha)

theorem unreached_next (h : Filling memory shared raw result) (loc : List String) :
    memory.walk (.ref (.made 1)) loc ≠ some (.ref (.made memory.next)) := by
  intro ha
  obtain ⟨⟨⟩⟩ | ⟨n, -, hn, heq⟩ := h.named ha
  injection heq with heq
  omega

/-- Put a value of the raw payload into a dictionary of the result's own. -/
theorem setItem (h : Filling memory shared raw result) (hp : ¬ shared p)
    (ha : memory.walk (.ref (.made 1)) p = some (.ref a))
    (hw : memory.walk (.ref (.loaded [])) (p ++ [k]) = some w)
    (hu : (obj raw).at? (p ++ [k]) = some u) :
    Filling (setItem memory a k w) (fun loc => shared loc ∨ p ++ [k] <+: loc) raw
      (assign result (p ++ [k]) u) := by
  obtain ⟨n, hn, -, rfl⟩ := h.own p a hp ha
  have hplace : ∀ loc, memory.walk (.ref (.made 1)) loc = some (.ref (.made n)) → loc = p :=
    fun loc hloc => h.unique loc p _ hloc ha
  have hbelow : ∀ rest, memory.walk (.ref (.loaded [])) (p ++ [k] ++ rest) = memory.walk w rest :=
    fun rest => by rw [walk_append, hw, Option.bind_some]
  have hunreached : ∀ loc, memory.walk w loc ≠ some (.ref (.made n)) :=
    fun loc hloc => h.raw_unreached n _ ((hbelow loc).trans hloc)
  have hraw := walk_edit_of_unreached (fun d => set d k w) (h.raw_unreached n)
  have hwalk : ∀ loc, (WebhookRelay.setItem memory (.made n) k w).walk (.ref (.made 1)) loc =
      if p ++ [k] <+: loc then memory.walk (.ref (.loaded [])) loc
      else memory.walk (.ref (.made 1)) loc := by
    intro loc
    rw [WebhookRelay.setItem, walk_set hplace ha hunreached]
    split
    · next hprefix =>
      obtain ⟨rest, rfl⟩ := hprefix
      rw [hbelow]
      congr 1
      simp
    · rfl
  have hnamed : ∀ {loc b},
      (WebhookRelay.setItem memory (.made n) k w).walk (.ref (.made 1)) loc = some (.ref b) →
        b = .loaded loc ∨ (∃ n, b = .made n) ∧
          memory.walk (.ref (.made 1)) loc = some (.ref b) := by
    intro loc b hb
    rw [hwalk] at hb
    split at hb
    · exact .inl (h.raw_named loc b hb)
    · exact (h.named hb).imp_right fun ⟨n, _, _, hn⟩ => ⟨⟨n, hn⟩, hb⟩
  constructor
  · constructor
    · exact h.raw_wellFormed
    · exact h.raw_reads.edit_of_unreached (h.raw_unreached n) _
    · intro loc b hb
      rw [WebhookRelay.setItem, hraw] at hb
      exact h.raw_named loc b hb
    · exact h.wellFormed.assign _ (h.raw_wellFormed.at? hu)
    · exact h.reads.setItem hplace ha hunreached (h.raw_reads.below hw hu) k
    · intro loc b hloc hb
      rw [hwalk, if_neg fun hprefix => hloc (.inr hprefix)] at hb
      exact h.own loc b (fun hshared => hloc (.inl hshared)) hb
    · intro loc x hloc hx
      rw [WebhookRelay.setItem, hraw]
      rw [hwalk] at hx
      split at hx
      · exact hx
      · next hnot => exact h.same loc x (hloc.resolve_right hnot) hx
    · intro loc loc' b hb hb'
      obtain rfl | ⟨⟨n, rfl⟩, hb⟩ := hnamed hb
      · obtain heq | ⟨⟨n, ⟨⟩⟩, -⟩ := hnamed hb'
        injection heq
      · obtain ⟨⟨⟩⟩ | ⟨-, hb'⟩ := hnamed hb'
        exact h.unique loc loc' _ hb hb'
  · rintro loc rest (hloc | hloc)
    · exact .inl (h.mono loc rest hloc)
    · exact .inr (hloc.trans (List.prefix_append ..))
  · intro loc x hloc hx
    rw [WebhookRelay.setItem, hraw] at hx
    rw [hwalk]
    split
    · exact hx
    · next hnot => exact h.full loc x (hloc.resolve_right hnot) hx
  · rw [WebhookRelay.setItem, edit_cells_of_ne memory (Address.made_ne_made (by omega)),
      edit_cells_of_ne memory (Address.loaded_ne_made [] n)]
    exact h.copied

/-- Making a dictionary in the result is not seen from the raw payload. -/
theorem walk_raw_setEmpty (h : Filling memory shared raw result) (n : Nat) (k : String)
    (loc : List String) : (WebhookRelay.setEmpty memory (.made n) k).walk (.ref (.loaded [])) loc =
      memory.walk (.ref (.loaded [])) loc := by
  have hmake := walk_make_of_unreached [] (h.raw_unreached memory.next)
  rw [WebhookRelay.setEmpty, WebhookRelay.setItem, walk_edit_of_unreached _ fun loc hloc => ?_,
    hmake]
  rw [hmake] at hloc
  exact h.raw_unreached n loc hloc

/-- What the result is seen to have: the new dictionary, which is empty, and what it had. -/
theorem walk_setEmpty (h : Filling memory shared raw result) (hp : ¬ shared p)
    (ha : memory.walk (.ref (.made 1)) p = some (.ref a)) (k : String) (loc : List String) :
    (WebhookRelay.setEmpty memory a k).walk (.ref (.made 1)) loc =
      if loc = p ++ [k] then some (.ref (.made memory.next))
      else if p ++ [k] <+: loc then none else memory.walk (.ref (.made 1)) loc := by
  obtain ⟨n, -, hn, rfl⟩ := h.own p a hp ha
  exact walk_set_make (fun loc hloc => h.unique loc p _ hloc ha) ha
    (Address.made_ne_made (by omega)) h.unreached_next k loc

/-- Everything but the new dictionary was there before. -/
theorem walk_of_setEmpty (h : Filling memory shared raw result) (hp : ¬ shared p)
    (ha : memory.walk (.ref (.made 1)) p = some (.ref a)) {loc : List String}
    (hw : (WebhookRelay.setEmpty memory a k).walk (.ref (.made 1)) loc = some w) :
    loc = p ++ [k] ∧ w = .ref (.made memory.next) ∨
      loc ≠ p ++ [k] ∧ memory.walk (.ref (.made 1)) loc = some w := by
  rw [h.walk_setEmpty hp ha] at hw
  split at hw
  · next hloc => exact .inl ⟨hloc, (Option.some.inj hw).symm⟩
  · next hloc =>
    split at hw
    · cases hw
    · exact .inr ⟨hloc, hw⟩

/-- Make a dictionary where the result has none. -/
theorem setEmpty (h : Filling memory shared raw result) (hp : ¬ shared p)
    (ha : memory.walk (.ref (.made 1)) p = some (.ref a)) (hk : ¬ shared (p ++ [k]))
    (hno : ∀ b, memory.walk (.ref (.made 1)) (p ++ [k]) ≠ some (.ref b)) :
    Filling (setEmpty memory a k) shared raw (assign result (p ++ [k]) (obj [])) ∧
      (WebhookRelay.setEmpty memory a k).walk (.ref (.made 1)) (p ++ [k]) =
        some (.ref (.made memory.next)) ∧
      ∀ loc, (WebhookRelay.setEmpty memory a k).walk (.ref (.loaded [])) loc =
        memory.walk (.ref (.loaded [])) loc := by
  have hwalk := h.walk_setEmpty hp ha k
  have hkeeps : ∀ {loc w}, (WebhookRelay.setEmpty memory a k).walk (.ref (.made 1)) loc = some w →
      loc = p ++ [k] ∧ w = .ref (.made memory.next) ∨
        loc ≠ p ++ [k] ∧ memory.walk (.ref (.made 1)) loc = some w := h.walk_of_setEmpty hp ha
  obtain ⟨n, hn, hlt, rfl⟩ := h.own p a hp ha
  have hraw := h.walk_raw_setEmpty n k
  have hne : Address.made (κ := String) n ≠ .made memory.next := Address.made_ne_made (by omega)
  have hnext : (WebhookRelay.setEmpty memory (.made n) k).next = memory.next + 1 := rfl
  refine ⟨?_, by rw [hwalk, if_pos rfl], hraw⟩
  constructor
  · constructor
    · exact h.raw_wellFormed
    · rw [WebhookRelay.setEmpty, WebhookRelay.setItem]
      refine (h.raw_reads.make_of_unreached (h.raw_unreached _) []).edit_of_unreached ?_ _
      intro loc hloc
      rw [walk_make_of_unreached [] (h.raw_unreached _)] at hloc
      exact h.raw_unreached n loc hloc
    · intro loc b hb
      rw [hraw] at hb
      exact h.raw_named loc b hb
    · exact h.wellFormed.assign _ (.obj (by simp [keys]) (by simp))
    · exact h.reads.setEmpty (fun loc hloc => h.unique loc p _ hloc ha) ha hne h.unreached_next k
    · intro loc b hloc hb
      rcases hkeeps hb with ⟨-, heq⟩ | ⟨-, hb⟩
      · injection heq with heq
        exact ⟨memory.next, by omega, by omega, heq⟩
      · obtain ⟨n', hn', hlt', rfl⟩ := h.own loc b hloc hb
        exact ⟨n', hn', by omega, rfl⟩
    · intro loc x hloc hx
      rw [hraw]
      rcases hkeeps hx with ⟨rfl, -⟩ | ⟨-, hx⟩
      · exact absurd hloc hk
      · exact h.same loc x hloc hx
    · -- the result has not reached the new dictionary before
      intro loc loc' b hb hb'
      rcases hkeeps hb with ⟨rfl, heq⟩ | ⟨-, hb⟩
      · rcases hkeeps hb' with ⟨rfl, -⟩ | ⟨-, hb'⟩
        · rfl
        · exact absurd (heq ▸ hb') (h.unreached_next loc')
      · rcases hkeeps hb' with ⟨-, heq⟩ | ⟨-, hb'⟩
        · exact absurd (heq ▸ hb) (h.unreached_next loc)
        · exact h.unique loc loc' b hb hb'
  · exact h.mono
  · intro loc x hloc hx
    rw [hraw] at hx
    have hresult := h.full loc x hloc hx
    rw [hwalk, if_neg, if_neg]
    · exact hresult
    · rintro ⟨rest, rfl⟩
      cases rest with
      | nil =>
        rw [List.append_nil] at hloc
        exact hk hloc
      | cons y rest =>
        obtain ⟨b, hb, -⟩ := ref_of_walk_append hresult
        exact hno b hb
    · rintro rfl
      exact hk hloc
  · rw [WebhookRelay.setEmpty, WebhookRelay.setItem,
      edit_cells_of_ne _ (Address.made_ne_made (by omega)),
      edit_cells_of_ne _ (Address.loaded_ne_made [] n),
      make_cells_of_ne memory [] (Address.made_ne_made (by omega)),
      make_cells_of_ne memory [] (Address.loaded_ne_made [] _)]
    exact h.copied

end Filling

/-- Writing what is there already. -/
theorem setAlong_self {memory : Memory} {a : Address String} {ks : List String} {w : Object}
    (h : memory.walk (.ref a) ks = some w) : setAlong memory a ks w = memory := by
  fun_induction setAlong memory a ks w with
  | case1 => rfl
  | case2 memory a k w =>
    refine edit_eq_self (set_self ?_)
    rw [walk_ref_cons] at h
    cases hk : (memory.cells a).lookup k <;> simp_all
  | case3 memory a k k' ks w child hchild ih =>
    rw [walk_ref_cons, hchild, Option.bind_some] at h
    exact ih h
  | case4 memory a k k' ks w hnone ih =>
    rw [walk_ref_cons] at h
    obtain ⟨o, ho, hrest⟩ := Option.bind_eq_some_iff.mp h
    cases o with
    | leaf v => cases hrest
    | ref child => exact absurd ho (hnone child)

namespace Filling

variable {memory : Memory} {shared : List String → Prop} {raw result : Members}
  {a : Address String} {p ks : List String} {w : Object} {u : Json}

/-- In a shared dictionary the value is there already. -/
theorem setAlong_of_shared (h : Filling memory shared raw result)
    (ha : memory.walk (.ref (.made 1)) p = some (.ref a)) (hp : shared p)
    (hw : memory.walk (.ref (.loaded [])) (p ++ ks) = some w)
    (hu : (obj raw).at? (p ++ ks) = some u) :
    Filling (setAlong memory a ks w) (fun loc => shared loc ∨ p ++ ks <+: loc) raw
      (assign result (p ++ ks) u) := by
  have hshared : shared (p ++ ks) := h.mono p ks hp
  have hself := h.full _ w hshared hw
  have hresult : (obj result).at? (p ++ ks) = some u := by
    obtain ⟨u', hu', -⟩ := h.reads.to_at? hself
    rw [hu', (h.reads.below hself hu').eq (h.raw_reads.below hw hu) (h.wellFormed.at? hu')
      (h.raw_wellFormed.at? hu)]
  rw [walk_append, ha, Option.bind_some] at hself
  rw [setAlong_self hself, assign_self hresult]
  refine h.congr fun loc => or_iff_left_of_imp ?_
  rintro ⟨rest, rfl⟩
  exact h.mono _ rest hshared

/-- `_set_nested_value` puts a value of the raw payload into the result, where it has been. -/
theorem setAlong (h : Filling memory shared raw result)
    (ha : memory.walk (.ref (.made 1)) p = some (.ref a)) (hks : ks ≠ [])
    (hw : memory.walk (.ref (.loaded [])) (p ++ ks) = some w)
    (hu : (obj raw).at? (p ++ ks) = some u) :
    Filling (setAlong memory a ks w) (fun loc => shared loc ∨ p ++ ks <+: loc) raw
      (assign result (p ++ ks) u) := by
  induction ks generalizing memory result a p with
  | nil => exact absurd rfl hks
  | cons k ks ih =>
    by_cases hp : shared p
    · exact h.setAlong_of_shared ha hp hw hu
    cases ks with
    | nil => exact h.setItem hp ha hw hu
    | cons k' ks =>
      have hlookup : memory.walk (.ref (.made 1)) (p ++ [k]) = (memory.cells a).lookup k :=
        walk_snoc ha k
      have hpath : p ++ k :: k' :: ks = p ++ [k] ++ k' :: ks := by simp
      rw [hpath] at hw hu
      rw [WebhookRelay.setAlong]
      split
      · next child hchild =>
        rw [hpath]
        exact ih h (hlookup.trans hchild) (by simp) hw hu
      · next hnone =>
        have hno : ∀ b, memory.walk (.ref (.made 1)) (p ++ [k]) ≠ some (.ref b) :=
          fun b hb => hnone b (hlookup.symm.trans hb)
        have hk : ¬ shared (p ++ [k]) := fun hk => by
          obtain ⟨b, hb, -⟩ := ref_of_walk_append hw
          exact hno b (h.full _ _ hk hb)
        obtain ⟨hempty, hfresh, hraw⟩ := h.setEmpty hp ha hk hno
        have hfill := ih hempty hfresh (by simp) ((hraw _).trans hw) hu
        rw [← hpath, assign_assign_empty result p k (by simp) u fun v hv => ?_] at hfill
        · exact hfill
        · obtain ⟨o, ho, halike⟩ := h.reads.of_at? hv
          cases o with
          | leaf x => simp [halike.2]
          | ref b => exact absurd ho (hno b)

end Filling

end WebhookRelay
