import Mathlib.Data.List.Forall2
import Mathlib.Data.List.SplitBy
import Mathlib.Tactic.Common

/-!
# Texts that determine what they are written for

A code writes values as lists of symbols. Whoever reads a longer text can only tell the value
that it starts with if no other value is written as a beginning of the same text, or if what may
follow tells where it ends. `Determined` says this of one value; it passes from the parts of a
text to the text.

## Main results

* `append_cancel` — words over some symbols, followed by others.
* `determined_terminated` — words of which none is the beginning of another, and a terminator.
* `determined_separated` — a list between separators, up to the symbol that closes it.
-/

namespace Coding

variable {α β σ : Type}

/-- The text does not go on with such a symbol. -/
def Stops (inside : σ → Prop) (rest : List σ) : Prop := ∀ c ∈ rest.head?, ¬ inside c

@[simp] theorem stops_nil (inside : σ → Prop) : Stops inside ([] : List σ) := by simp [Stops]

@[simp] theorem stops_cons {inside : σ → Prop} {c : σ} {rest : List σ} :
    Stops inside (c :: rest) ↔ ¬ inside c := by simp [Stops]

/-- Only values that are the same as this one are written as a beginning of a text that starts
with it, and they end in the same place. -/
def Determined (after : List σ → Prop) (same : α → α → Prop) (write : α → List σ) (a : α) : Prop :=
  ∀ b r s, after r → after s → write a ++ r = write b ++ s → same a b ∧ r = s

variable {after : List σ → Prop} {same : α → α → Prop} {write : α → List σ} {a : α}

/-! ## Words -/

/-- Two words over the same symbols that are followed by others end in the same place. -/
theorem append_cancel {inside : σ → Prop} {x y r s : List σ} (hx : ∀ c ∈ x, inside c)
    (hy : ∀ c ∈ y, inside c) (hr : Stops inside r) (hs : Stops inside s) (h : x ++ r = y ++ s) :
    x = y ∧ r = s := by
  induction x generalizing y with
  | nil =>
    cases y with
    | nil => exact ⟨rfl, h⟩
    | cons c y =>
      obtain rfl : r = c :: (y ++ s) := h
      exact absurd (hy c List.mem_cons_self) (stops_cons.mp hr)
  | cons c x ih =>
    cases y with
    | nil =>
      obtain rfl : s = c :: (x ++ r) := h.symm
      exact absurd (hx c List.mem_cons_self) (stops_cons.mp hs)
    | cons d y =>
      obtain ⟨rfl, htail⟩ := List.cons_eq_cons.mp h
      obtain ⟨rfl, hrest⟩ := ih (fun c hc => hx c (List.mem_cons_of_mem _ hc))
        (fun c hc => hy c (List.mem_cons_of_mem _ hc)) htail
      exact ⟨rfl, hrest⟩

/-- A list of words is determined by the symbol that it ends with, if each word is determined by
itself and none starts with this symbol. -/
theorem determined_terminated {stop : σ} (hstart : ∀ a, ∃ c t, write a = c :: t ∧ c ≠ stop)
    (hwrite : ∀ a, Determined (fun _ => True) Eq write a) (xs : List α) :
    Determined (fun _ => True) Eq (fun xs => xs.flatMap write ++ [stop]) xs := by
  intro ys r s _ _ h
  simp only [List.append_assoc, List.singleton_append] at h
  induction xs generalizing ys with
  | nil =>
    cases ys with
    | nil => exact ⟨rfl, (List.cons_eq_cons.mp h).2⟩
    | cons y ys =>
      obtain ⟨c, t, hy, hne⟩ := hstart y
      simp only [List.flatMap_nil, List.flatMap_cons, hy, List.nil_append, List.cons_append] at h
      exact absurd (List.cons_eq_cons.mp h).1.symm hne
  | cons x xs ih =>
    cases ys with
    | nil =>
      obtain ⟨c, t, hx, hne⟩ := hstart x
      simp only [List.flatMap_nil, List.flatMap_cons, hx, List.nil_append, List.cons_append] at h
      exact absurd (List.cons_eq_cons.mp h).1 hne
    | cons y ys =>
      simp only [List.flatMap_cons, List.append_assoc] at h
      obtain ⟨rfl, hrest⟩ := hwrite x y _ _ trivial trivial h
      obtain ⟨rfl, hend⟩ := ih ys hrest
      exact ⟨rfl, hend⟩

/-! ## Lists -/

/-- The items after the first one, each after a separator, and the closing symbol. -/
def writeRest (separator close : σ) (write : α → List σ) : List α → List σ
  | [] => [close]
  | a :: as => separator :: (write a ++ writeRest separator close write as)

/-- The items with separators in between, and the closing symbol. -/
def writeList (separator close : σ) (write : α → List σ) : List α → List σ
  | [] => [close]
  | a :: as => write a ++ writeRest separator close write as

theorem intercalate_append (separator close : σ) (write : α → List σ) (items : List α) :
    [separator].intercalate (items.map write) ++ [close] =
      writeList separator close write items := by
  cases items with
  | nil => rfl
  | cons a as =>
    induction as generalizing a with
    | nil => simp [writeList, writeRest]
    | cons b as ih =>
      have hrest := ih b
      simp only [writeList, writeRest, List.map_cons, List.intercalate_cons_cons,
        List.append_assoc, List.cons_append, List.nil_append] at hrest ⊢
      rw [hrest]

section Separated

variable {separator close : σ} (hne : separator ≠ close)
  (hseparator : ∀ rest, after (separator :: rest)) (hclose : ∀ rest, after (close :: rest))

include hseparator hclose

theorem after_writeRest (write : α → List σ) (as : List α) (rest : List σ) :
    after (writeRest separator close write as ++ rest) := by
  cases as with
  | nil => exact hclose _
  | cons a as => exact hseparator _

include hne

theorem determined_rest {items : List α} (h : ∀ a ∈ items, Determined after same write a) :
    Determined (fun _ => True) (List.Forall₂ same) (writeRest separator close write) items := by
  have hafter := after_writeRest hseparator hclose write
  induction items with
  | nil =>
    intro items' r s _ _ hrest
    cases items' with
    | nil => exact ⟨.nil, (List.cons_eq_cons.mp hrest).2⟩
    | cons b bs => exact absurd (List.cons_eq_cons.mp hrest).1 hne.symm
  | cons a as ih =>
    intro items' r s _ _ hrest
    cases items' with
    | nil => exact absurd (List.cons_eq_cons.mp hrest).1 hne
    | cons b bs =>
      simp only [writeRest, List.cons_append, List.append_assoc, List.cons.injEq, true_and] at hrest
      obtain ⟨hsame, hremaining⟩ := h a List.mem_cons_self b _ _ (hafter as r) (hafter bs s) hrest
      obtain ⟨hall, hend⟩ := ih (fun a ha => h a (List.mem_cons_of_mem _ ha)) bs r s trivial
        trivial hremaining
      exact ⟨.cons hsame hall, hend⟩

/-- A list is determined by its separators and the symbol that closes it, if its items are
determined by what these are followed by and do not start with the closing symbol. -/
theorem determined_separated (hstart : ∀ a, ∃ c t, write a = c :: t ∧ c ≠ close)
    {items : List α} (h : ∀ a ∈ items, Determined after same write a) :
    Determined (fun _ => True) (List.Forall₂ same) (writeList separator close write) items := by
  have hafter := after_writeRest hseparator hclose write
  intro items' r s _ _ hlist
  cases items with
  | nil =>
    cases items' with
    | nil => exact ⟨.nil, (List.cons_eq_cons.mp hlist).2⟩
    | cons b bs =>
      obtain ⟨c, t, hb, hfirst⟩ := hstart b
      simp only [writeList, hb, List.cons_append, List.nil_append] at hlist
      exact absurd (List.cons_eq_cons.mp hlist).1.symm hfirst
  | cons a as =>
    cases items' with
    | nil =>
      obtain ⟨c, t, ha, hfirst⟩ := hstart a
      simp only [writeList, ha, List.cons_append, List.nil_append] at hlist
      exact absurd (List.cons_eq_cons.mp hlist).1 hfirst
    | cons b bs =>
      simp only [writeList, List.append_assoc] at hlist
      obtain ⟨hsame, hremaining⟩ := h a List.mem_cons_self b _ _ (hafter as r) (hafter bs s) hlist
      obtain ⟨hall, hend⟩ := determined_rest hne hseparator hclose
        (fun a ha => h a (List.mem_cons_of_mem _ ha)) bs r s trivial trivial hremaining
      exact ⟨.cons hsame hall, hend⟩

end Separated

end Coding
