import Mathlib.Logic.Function.Basic
import WebhookRelay.Library.Dictionary

/-!
# Dictionaries with identity

A heap of dictionaries that hold leaves and references to one another, so that one of them
may be reached in more than one place, and a change of it is seen in all of them.
`Heap.walk` follows a list of keys from a value.

## Main results

* `Heap.walk_edit_of_unreached` — a change is not seen from where the object is not reached.
* `Heap.walk_erase`, `Heap.walk_set` — a value that reaches the object in one place only
  sees the change there, if it reaches it at all.
-/

namespace Objects

open Dictionary

/-- The identity of a dictionary. Those that have been there from the start are named by the
place they had then, later ones are numbered. -/
inductive Address (κ : Type) where
  | loaded (loc : List κ)
  | made (n : Nat)
  deriving DecidableEq

inductive Value (κ α : Type) where
  | leaf (a : α)
  | ref (address : Address κ)

structure Heap (κ α : Type) where
  cells : Address κ → List (κ × Value κ α)
  /-- the number of the next dictionary -/
  next : Nat := 0

theorem Address.made_ne_made {κ : Type} {n m : Nat} (h : n ≠ m) :
    Address.made (κ := κ) n ≠ .made m := fun heq => h (Address.made.inj heq)

theorem Address.loaded_ne_made {κ : Type} (loc : List κ) (n : Nat) :
    Address.loaded loc ≠ .made n := fun heq => by cases heq

namespace Heap

variable {κ α : Type} [DecidableEq κ]

/-- A new dictionary. -/
def make (h : Heap κ α) (members : List (κ × Value κ α)) : Heap κ α where
  cells := Function.update h.cells (.made h.next) members
  next := h.next + 1

/-- Change a dictionary in place. -/
def edit (h : Heap κ α) (a : Address κ)
    (f : List (κ × Value κ α) → List (κ × Value κ α)) : Heap κ α :=
  { h with cells := Function.update h.cells a (f (h.cells a)) }

/-- What is found along a list of keys. -/
def walk (h : Heap κ α) : Value κ α → List κ → Option (Value κ α)
  | v, [] => some v
  | .ref a, k :: loc => ((h.cells a).lookup k).bind fun v => h.walk v loc
  | .leaf _, _ :: _ => none

variable {h : Heap κ α} {a : Address κ} {v w : Value κ α} {p : List κ}

@[simp] theorem walk_nil (h : Heap κ α) (v : Value κ α) : h.walk v [] = some v := by
  cases v <;> rfl

@[simp] theorem walk_ref_cons (h : Heap κ α) (a : Address κ) (k : κ) (loc : List κ) :
    h.walk (.ref a) (k :: loc) = ((h.cells a).lookup k).bind fun v => h.walk v loc := rfl

@[simp] theorem walk_leaf_cons (h : Heap κ α) (x : α) (k : κ) (loc : List κ) :
    h.walk (.leaf x) (k :: loc) = none := rfl

theorem walk_append (h : Heap κ α) (v : Value κ α) (loc rest : List κ) :
    h.walk v (loc ++ rest) = (h.walk v loc).bind fun w => h.walk w rest := by
  induction loc generalizing v with
  | nil => simp
  | cons k loc ih =>
    cases v with
    | leaf x => rfl
    | ref a => cases hk : (h.cells a).lookup k <;> simp [hk, ih]

/-- One key further from an object that is reached. -/
theorem walk_snoc (hp : h.walk v p = some (.ref a)) (k : κ) :
    h.walk v (p ++ [k]) = (h.cells a).lookup k := by
  rw [walk_append, hp, Option.bind_some, walk_ref_cons]
  cases (h.cells a).lookup k <;> simp

/-- What is found further on is found below a dictionary that is reached. -/
theorem ref_of_walk_append {k : κ} {rest : List κ} (hw : h.walk v (p ++ k :: rest) = some w) :
    ∃ a, h.walk v p = some (.ref a) ∧ ((h.cells a).lookup k).isSome := by
  rw [walk_append] at hw
  obtain ⟨u, hu, hrest⟩ := Option.bind_eq_some_iff.mp hw
  cases u with
  | leaf x => cases hrest
  | ref a =>
    rw [walk_ref_cons] at hrest
    obtain ⟨x, hx, -⟩ := Option.bind_eq_some_iff.mp hrest
    exact ⟨a, hu, by rw [hx]; rfl⟩

/-! ## Making -/

@[simp] theorem make_next (h : Heap κ α) (members : List (κ × Value κ α)) :
    (h.make members).next = h.next + 1 := rfl

@[simp] theorem make_cells_self (h : Heap κ α) (members : List (κ × Value κ α)) :
    (h.make members).cells (.made h.next) = members := Function.update_self ..

theorem make_cells_of_ne (h : Heap κ α) (members : List (κ × Value κ α))
    (ha : a ≠ .made h.next) : (h.make members).cells a = h.cells a :=
  Function.update_of_ne ha ..

@[simp] theorem edit_next (h : Heap κ α) (a : Address κ)
    (f : List (κ × Value κ α) → List (κ × Value κ α)) : (h.edit a f).next = h.next := rfl

@[simp] theorem edit_cells_self (h : Heap κ α) (a : Address κ)
    (f : List (κ × Value κ α) → List (κ × Value κ α)) :
    (h.edit a f).cells a = f (h.cells a) := Function.update_self ..

theorem edit_cells_of_ne (h : Heap κ α) {b : Address κ} (hb : b ≠ a)
    (f : List (κ × Value κ α) → List (κ × Value κ α)) : (h.edit a f).cells b = h.cells b :=
  Function.update_of_ne hb ..

/-- A change that changes nothing. -/
theorem edit_eq_self {f : List (κ × Value κ α) → List (κ × Value κ α)}
    (hf : f (h.cells a) = h.cells a) : h.edit a f = h := by
  rw [edit, hf, Function.update_eq_self]

/-! ## What is seen of a change -/

/-- Heaps that agree on what is reached look alike. -/
theorem walk_congr {h' : Heap κ α} (loc : List κ)
    (hcells : ∀ loc b, h.walk v loc = some (.ref b) → h'.cells b = h.cells b) :
    h'.walk v loc = h.walk v loc := by
  induction loc generalizing v with
  | nil => simp
  | cons k loc ih =>
    cases v with
    | leaf x => rfl
    | ref b =>
      rw [walk_ref_cons, walk_ref_cons, hcells [] b (walk_nil ..)]
      cases hk : (h.cells b).lookup k with
      | none => rfl
      | some w => exact ih fun rest b hb => hcells (k :: rest) b (by simpa [hk] using hb)

theorem walk_edit_of_unreached (f : List (κ × Value κ α) → List (κ × Value κ α))
    (hv : ∀ loc, h.walk v loc ≠ some (.ref a)) (loc : List κ) :
    (h.edit a f).walk v loc = h.walk v loc := by
  refine walk_congr loc fun rest b hb => edit_cells_of_ne h ?_ f
  rintro rfl
  exact hv rest hb

theorem walk_make_of_unreached (members : List (κ × Value κ α))
    (hv : ∀ loc, h.walk v loc ≠ some (.ref (.made h.next))) (loc : List κ) :
    (h.make members).walk v loc = h.walk v loc := by
  refine walk_congr loc fun rest b hb => make_cells_of_ne h members ?_
  rintro rfl
  exact hv rest hb

/-- A change of an object that is reached in one place is not seen elsewhere. -/
theorem walk_edit_aside (f : List (κ × Value κ α) → List (κ × Value κ α))
    (hp : ∀ loc, h.walk v loc = some (.ref a) → loc = p) {loc : List κ}
    (hloc : ∀ k rest, loc ≠ p ++ k :: rest) : (h.edit a f).walk v loc = h.walk v loc := by
  induction loc generalizing v p with
  | nil => simp
  | cons k loc ih =>
    cases v with
    | leaf x => rfl
    | ref b =>
      have hb : b ≠ a := by
        rintro rfl
        obtain rfl := hp [] (walk_nil ..)
        exact hloc k loc rfl
      rw [walk_ref_cons, walk_ref_cons, edit_cells_of_ne h hb]
      cases hk : (h.cells b).lookup k with
      | none => rfl
      | some w =>
        have hw : ∀ rest, h.walk w rest = some (.ref a) → k :: rest = p :=
          fun rest hrest => hp (k :: rest) (by simpa [hk] using hrest)
        rw [Option.bind_some, Option.bind_some]
        by_cases hhead : ∃ q, p = k :: q
        · obtain ⟨q, rfl⟩ := hhead
          exact ih (fun rest hrest => (List.cons.inj (hw rest hrest)).2)
            fun k' rest heq => hloc k' rest (by simp [heq])
        · exact walk_edit_of_unreached f
            (fun rest hrest => hhead ⟨rest, (hw rest hrest).symm⟩) loc

/-- Below the object the change is all there is. -/
theorem walk_edit_below (f : List (κ × Value κ α) → List (κ × Value κ α))
    (hp : ∀ loc, h.walk v loc = some (.ref a) → loc = p) (ha : h.walk v p = some (.ref a)) (k : κ)
    (rest : List κ) : (h.edit a f).walk v (p ++ k :: rest) =
      ((f (h.cells a)).lookup k).bind fun w => (h.edit a f).walk w rest := by
  have hself : (h.edit a f).walk v p = some (.ref a) := by
    rw [walk_edit_aside f hp fun k rest heq => by simp at heq, ha]
  rw [walk_append, hself, Option.bind_some, walk_ref_cons, edit_cells_self]

/-- What is found one key below an object that is reached in one place does not reach it. -/
theorem unreached_below (hp : ∀ loc, h.walk v loc = some (.ref a) → loc = p)
    (ha : h.walk v p = some (.ref a)) {k : κ} {w : Value κ α} (hw : (h.cells a).lookup k = some w)
    (loc : List κ) : h.walk w loc ≠ some (.ref a) := by
  intro hloc
  have hback : h.walk v (p ++ k :: loc) = some (.ref a) := by
    rw [walk_append, ha, Option.bind_some, walk_ref_cons, hw, Option.bind_some, hloc]
  simpa using hp _ hback

/-- A change at one key is not seen elsewhere. -/
theorem walk_edit_beside {f : List (κ × Value κ α) → List (κ × Value κ α)} {k : κ}
    (hf : ∀ x, k ≠ x → (f (h.cells a)).lookup x = (h.cells a).lookup x)
    (hp : ∀ loc, h.walk v loc = some (.ref a) → loc = p) (ha : h.walk v p = some (.ref a))
    {loc : List κ} (hloc : ¬ p ++ [k] <+: loc) : (h.edit a f).walk v loc = h.walk v loc := by
  by_cases hbelow : ∃ x rest, loc = p ++ x :: rest
  · obtain ⟨x, rest, rfl⟩ := hbelow
    have hx : k ≠ x := by
      rintro rfl
      exact hloc ⟨rest, by simp⟩
    rw [walk_edit_below f hp ha, hf x hx, walk_append, ha, Option.bind_some, walk_ref_cons]
    cases hk : (h.cells a).lookup x with
    | none => rfl
    | some w => exact walk_edit_of_unreached f (unreached_below hp ha hk) rest
  · exact walk_edit_aside f hp fun x rest heq => hbelow ⟨x, rest, heq⟩

/-- What is seen when a key is deleted. -/
theorem walk_erase (hp : ∀ loc, h.walk v loc = some (.ref a) → loc = p)
    (ha : h.walk v p = some (.ref a)) (k : κ) (loc : List κ) :
    (h.edit a fun d => erase d k).walk v loc =
      if p ++ [k] <+: loc then none else h.walk v loc := by
  split
  · next hbelow =>
    obtain ⟨rest, rfl⟩ := hbelow
    rw [List.append_assoc, List.singleton_append, walk_edit_below _ hp ha, lookup_erase, if_pos rfl,
      Option.bind_none]
  · next hloc =>
    refine walk_edit_beside (fun x hx => ?_) hp ha hloc
    rw [lookup_erase, if_neg hx]

/-- What is seen when a key is written with a value that does not reach the object. -/
theorem walk_set (hp : ∀ loc, h.walk v loc = some (.ref a) → loc = p)
    (ha : h.walk v p = some (.ref a)) (hw : ∀ loc, h.walk w loc ≠ some (.ref a)) (k : κ)
    (loc : List κ) : (h.edit a fun d => set d k w).walk v loc =
      if p ++ [k] <+: loc then h.walk w (loc.drop (p.length + 1)) else h.walk v loc := by
  split
  · next hbelow =>
    obtain ⟨rest, rfl⟩ := hbelow
    have hdrop : (p ++ [k] ++ rest).drop (p.length + 1) = rest := by simp
    rw [hdrop, List.append_assoc, List.singleton_append, walk_edit_below _ hp ha, lookup_set,
      if_pos rfl, Option.bind_some, walk_edit_of_unreached _ hw]
  · next hloc =>
    refine walk_edit_beside (fun x hx => ?_) hp ha hloc
    rw [lookup_set, if_neg hx]

/-- A new dictionary has nothing in it. -/
theorem walk_make_self (h : Heap κ α) (loc : List κ) :
    (h.make []).walk (.ref (.made h.next)) loc =
      if loc = [] then some (.ref (.made h.next)) else none := by
  cases loc <;> simp

theorem unreached_make_self (hne : a ≠ .made h.next) (loc : List κ) :
    (h.make []).walk (.ref (.made h.next)) loc ≠ some (.ref a) := by
  intro hloc
  rw [walk_make_self] at hloc
  split at hloc
  · injection hloc with hloc
    injection hloc with hloc
    exact hne hloc.symm
  · cases hloc

/-- What is seen when a key is written with a new dictionary. -/
theorem walk_set_make (hp : ∀ loc, h.walk v loc = some (.ref a) → loc = p)
    (ha : h.walk v p = some (.ref a)) (hne : a ≠ .made h.next)
    (hv : ∀ loc, h.walk v loc ≠ some (.ref (.made h.next))) (k : κ) (loc : List κ) :
    ((h.make []).edit a fun d => set d k (.ref (.made h.next))).walk v loc =
      if loc = p ++ [k] then some (.ref (.made h.next))
      else if p ++ [k] <+: loc then none else h.walk v loc := by
  have hmake := walk_make_of_unreached [] hv
  have hplace : ∀ loc, (h.make []).walk v loc = some (.ref a) → loc = p := by
    intro loc hloc
    rw [hmake] at hloc
    exact hp loc hloc
  rw [walk_set hplace ((hmake p).trans ha) (unreached_make_self hne), walk_make_self, hmake]
  by_cases hbelow : p ++ [k] <+: loc
  · obtain ⟨rest, rfl⟩ := hbelow
    cases rest <;> simp
  · have hloc : loc ≠ p ++ [k] := by
      rintro rfl
      exact hbelow List.prefix_rfl
    rw [if_neg hbelow, if_neg hloc, if_neg hbelow]

end Heap

end Objects
