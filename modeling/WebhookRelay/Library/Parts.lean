import Mathlib.Algebra.BigOperators.Group.Finset.Piecewise
import Mathlib.Algebra.Order.BigOperators.Group.Finset
import WebhookRelay.Library.Pool

/-!
# Counting along a log

The log of a pool is a shuffle of the parts of its workers, so what is counted in the log is
the sum of what is counted in the parts. A balance between two counts that each worker keeps by
following its discipline is therefore a balance of the whole log.

## Main results

* `System.Reaches.course`: what the permitted operations of a discipline keep of the auxiliary
  state and the part of a worker holds in every interleaving.
* `System.Reaches.balance`, `System.Reaches.budget`: the same for two counts and a weight of the
  auxiliary state, as an equation and as a bound.
* `total_le_of_parts`, `total_eq_of_parts`: from the parts to the log.
-/

namespace Interleaving

open Program

variable {S : Signature} {E A ι σ α L : Type} [DecidableEq ι]

/-- The events of a worker. -/
def part (i : ι) (log : List (ι × Event S)) : List (Event S) :=
  (log.filter fun entry => entry.1 = i).map Prod.snd

@[simp] theorem part_nil (i : ι) : part i ([] : List (ι × Event S)) = [] := rfl

@[simp] theorem part_snoc (i j : ι) (log : List (ι × Event S)) (ev : Event S) :
    part i (log ++ [(j, ev)]) = if j = i then part i log ++ [ev] else part i log := by
  by_cases h : j = i <;> simp [part, List.filter_append, h]

theorem part_append (i : ι) (left right : List (ι × Event S)) :
    part i (left ++ right) = part i left ++ part i right := by
  simp [part]

theorem part_cons_self (i : ι) (ev : Event S) (log : List (ι × Event S)) :
    part i ((i, ev) :: log) = ev :: part i log := by
  simp [part]

/-- An event of a part stands in the log after the events before it. -/
theorem part_eq_append_cons {i : ι} {log : List (ι × Event S)} {left right : List (Event S)}
    {ev : Event S} (h : part i log = left ++ ev :: right) :
    ∃ before later, log = before ++ (i, ev) :: later ∧ part i before = left := by
  obtain ⟨before, rest, hfilter, rfl, hrest⟩ := List.map_eq_append_iff.mp h
  obtain ⟨⟨j, ev'⟩, rest, rfl, rfl, -⟩ := List.map_eq_cons_iff.mp hrest
  obtain ⟨first, last, rfl, hfirst, hlast⟩ := List.filter_eq_append_iff.mp hfilter
  obtain ⟨skipped, last, rfl, hskipped, hentry, -⟩ := List.filter_eq_cons_iff.mp hlast
  obtain rfl : j = i := of_decide_eq_true hentry
  refine ⟨first ++ skipped, last, (List.append_assoc ..).symm, ?_⟩
  rw [part_append, part, hfirst, part, List.filter_eq_nil_iff.mpr fun entry hentry =>
    hskipped entry hentry]
  simp

theorem mem_part {i : ι} {log : List (ι × Event S)} {ev : Event S} :
    ev ∈ part i log ↔ (i, ev) ∈ log := by
  simp only [part, List.mem_map, List.mem_filter, decide_eq_true_eq]
  constructor
  · rintro ⟨entry, ⟨h, rfl⟩, rfl⟩
    exact h
  · exact fun h => ⟨(i, ev), ⟨h, rfl⟩, rfl⟩

/-! ## From the parts to the log -/

theorem countP_snoc {β : Type} (p : β → Bool) (xs : List β) (x : β) :
    (xs ++ [x]).countP p = xs.countP p + (p x).toNat := by
  cases h : p x <;> simp [h]

/-- How many events of a log have a property. -/
def total (p : Event S → Bool) (log : List (ι × Event S)) : Nat :=
  log.countP fun entry => p entry.2

omit [DecidableEq ι] in
@[simp] theorem total_nil (p : Event S → Bool) : total p ([] : List (ι × Event S)) = 0 := rfl

omit [DecidableEq ι] in
@[simp] theorem total_snoc (p : Event S → Bool) (log : List (ι × Event S)) (i : ι)
    (ev : Event S) : total p (log ++ [(i, ev)]) = total p log + (p ev).toNat :=
  countP_snoc ..

omit [DecidableEq ι] in
theorem total_pos_iff {p : Event S → Bool} {log : List (ι × Event S)} :
    0 < total p log ↔ ∃ entry ∈ log, p entry.2 := List.countP_pos_iff

/-- Any workers that include all of the log account for it. -/
theorem total_eq_sum (p : Event S → Bool) (log : List (ι × Event S)) {workers : Finset ι}
    (h : ∀ entry ∈ log, entry.1 ∈ workers) :
    total p log = ∑ i ∈ workers, (part i log).countP p := by
  induction log using List.reverseRecOn with
  | nil => simp
  | append_singleton log entry ih =>
    obtain ⟨j, ev⟩ := entry
    have hj : j ∈ workers := h (j, ev) (by simp)
    have hpart : ∀ i, (part i (log ++ [(j, ev)])).countP p =
        (part i log).countP p + if j = i then (p ev).toNat else 0 := by
      intro i
      rw [part_snoc]
      split
      · rw [countP_snoc]
      · rfl
    rw [total_snoc, ih fun entry hentry => h entry (by simp [hentry])]
    simp only [hpart, Finset.sum_add_distrib, Finset.sum_ite_eq, hj, if_true]

theorem total_le_of_parts {p q : Event S → Bool} {log : List (ι × Event S)}
    (h : ∀ i, (part i log).countP p ≤ (part i log).countP q) : total p log ≤ total q log := by
  have hall : ∀ entry ∈ log, entry.1 ∈ (log.map Prod.fst).toFinset := fun entry hentry =>
    List.mem_toFinset.mpr (List.mem_map_of_mem hentry)
  rw [total_eq_sum p log hall, total_eq_sum q log hall]
  exact Finset.sum_le_sum fun i _ => h i

theorem total_eq_of_parts {p q : Event S → Bool} {log : List (ι × Event S)}
    (h : ∀ i, (part i log).countP p = (part i log).countP q) : total p log = total q log :=
  Nat.le_antisymm (total_le_of_parts fun i => (h i).le) (total_le_of_parts fun i => (h i).ge)

omit [DecidableEq ι] in
/-- No event is counted twice by two counts that exclude each other. -/
theorem total_or {p q : Event S → Bool} (h : ∀ ev, q ev → p ev = false)
    (log : List (ι × Event S)) :
    total (fun ev => p ev || q ev) log = total p log + total q log := by
  induction log using List.reverseRecOn with
  | nil => rfl
  | append_singleton log entry ih =>
    have hev := h entry.2
    rw [total_snoc, total_snoc, total_snoc, ih]
    cases hq : q entry.2 with
    | false =>
      simp only [Bool.or_false, Bool.toNat_false]
      omega
    | true =>
      simp only [hev hq, Bool.false_or, Bool.toNat_true, Bool.toNat_false]
      omega

omit [DecidableEq ι] in
/-- What is counted on each of `n` levels at most `b` times is counted at most `n * b` times. -/
theorem total_levels {p : Event S → Bool} {level : Event S → Nat} {log : List (ι × Event S)}
    {b : Nat} (n : Nat) (h : ∀ k < n, total (fun ev => p ev && level ev = k) log ≤ b) :
    total (fun ev => p ev && level ev < n) log ≤ n * b := by
  induction n with
  | zero => simp [total]
  | succ n ih =>
    have hbefore := ih fun k hk => h k (by omega)
    have hlast := h n (by omega)
    have hsplit : (fun ev => p ev && decide (level ev < n + 1)) = fun ev =>
        (p ev && decide (level ev < n)) || (p ev && decide (level ev = n)) := by
      funext ev
      rw [← Bool.and_or_distrib_left, ← Bool.decide_or]
      congr 2
      exact propext Nat.lt_succ_iff_lt_or_eq
    rw [hsplit, total_or (fun ev hev => by simp_all), Nat.succ_mul]
    omega

/-! ## Causes -/

/-- Every entry of the log has its cause in what came before it. -/
def Justified (cause : List (ι × Event S) → ι × Event S → Prop) (log : List (ι × Event S)) :
    Prop :=
  ∀ before entry later, log = before ++ entry :: later → cause before entry

omit [DecidableEq ι] in
theorem justified_snoc {cause : List (ι × Event S) → ι × Event S → Prop}
    {log : List (ι × Event S)} {entry : ι × Event S} :
    Justified cause (log ++ [entry]) ↔ Justified cause log ∧ cause log entry := by
  constructor
  · intro h
    exact ⟨fun before entry' later hlog => h before entry' (later ++ [entry]) (by simp [hlog]),
      h log entry [] rfl⟩
  · rintro ⟨h, hlast⟩ before entry' later hlog
    induction later using List.reverseRecOn with
    | nil =>
      obtain ⟨rfl, hentry⟩ := List.append_inj' hlog rfl
      cases hentry
      exact hlast
    | append_singleton later last _ =>
      rw [← List.cons_append, ← List.append_assoc] at hlog
      exact h before entry' later (List.append_inj' hlog rfl).1

omit [DecidableEq ι] in
theorem Justified.left {cause : List (ι × Event S) → ι × Event S → Prop}
    {log rest : List (ι × Event S)} (h : Justified cause (log ++ rest)) : Justified cause log :=
  fun before entry later hlog => h before entry (later ++ rest) (by simp [hlog])

omit [DecidableEq ι] in
/-- An entry of the log stands after the part of the log that justifies it. -/
theorem Justified.of_mem {cause : List (ι × Event S) → ι × Event S → Prop}
    {log : List (ι × Event S)} (h : Justified cause log) {entry : ι × Event S}
    (hentry : entry ∈ log) :
    ∃ before later, log = before ++ entry :: later ∧ Justified cause before ∧
      cause before entry := by
  obtain ⟨before, later, rfl⟩ := List.append_of_mem hentry
  exact ⟨before, later, rfl, h.left, h before entry later rfl⟩

omit [DecidableEq ι] in
/-- The induction rule for causes: a property that passes on from what came before holds of every
entry. -/
theorem Justified.induct {cause : List (ι × Event S) → ι × Event S → Prop}
    {log : List (ι × Event S)} (h : Justified cause log) {P : ι × Event S → Prop}
    (step : ∀ before entry, before ⊆ log → (∀ e ∈ before, P e) → cause before entry → P entry) :
    ∀ entry ∈ log, P entry := by
  induction log using List.reverseRecOn with
  | nil => simp
  | append_singleton log last ih =>
    obtain ⟨hbefore, hlast⟩ := justified_snoc.mp h
    have hlog := ih hbefore fun before entry hsub => step before entry fun _ he =>
      List.mem_append_left _ (hsub he)
    intro entry hentry
    rcases List.mem_append.mp hentry with hentry | hentry
    · exact hlog entry hentry
    · obtain rfl := List.mem_singleton.mp hentry
      exact step log entry (List.subset_append_left ..) hlog hlast

/-! ## What the disciplines keep -/

namespace System

variable {sys : System S E A ι σ α} {G : Config S ι σ α → Label E A ι → Prop}
  {init c : Config S ι σ α} {D : ι → Discipline S L} {post : L → α → Prop} {l : ι → L}

/-- The induction rule for what the store and the log have to do with each other. -/
theorem Reaches.account {I : σ → List (ι × Event S) → Prop} (h : sys.Reaches G init c)
    (start : I init.store init.log)
    (performed : ∀ c i e op rest, sys.Reaches G init c → c.program i = .call op rest →
      I c.store c.log → I (sys.handle e op c.store).2
        (c.log ++ [(i, ⟨op, (sys.handle e op c.store).1⟩)]))
    (disturbed : ∀ s log a, I s log → I (sys.environment a s) log) : I c.store c.log := by
  induction h with
  | refl => exact start
  | @step c d label hr _ hs ih =>
    cases label with
    | run i e =>
      obtain ⟨op, rest, hp, rfl⟩ := step_run.mp hs
      exact performed c i e op rest hr hp ih
    | relaunch i =>
      obtain ⟨_, _, -, -, rfl⟩ := step_relaunch.mp hs
      exact ih
    | environment a =>
      obtain rfl := step_environment.mp hs
      exact disturbed _ _ a ih

/-- If every operation is justified where it is performed, so is the log. -/
theorem Reaches.justified {cause : List (ι × Event S) → ι × Event S → Prop}
    (h : sys.Reaches G init c) (hlog : init.log = [])
    (performed : ∀ c i e op rest, sys.Reaches G init c → c.program i = .call op rest →
      cause c.log (i, ⟨op, (sys.handle e op c.store).1⟩)) : Justified cause c.log := by
  refine h.account (I := fun _ log => Justified cause log) ?_ ?_ fun _ _ _ h => h
  · rw [hlog]
    intro before entry later hnil
    simp at hnil
  · intro c i e op rest hr hp ih
    exact justified_snoc.mpr ⟨ih, performed c i e op rest hr hp⟩

/-- What every permitted operation keeps of the auxiliary state and the part of a worker holds
of every worker in every interleaving. -/
theorem Reaches.course {I : ι → L → List (Event S) → Prop} (h : sys.Reaches G init c)
    (hlog : init.log = []) (start : ∀ i, (init.program i).Follows (D i) post (l i))
    (again : ∀ i l value p, post l value → sys.relaunch i value = some p →
      p.Follows (D i) post l)
    (initially : ∀ i, I i (l i) [])
    (kept : ∀ i l es op answer, I i l es → (D i).permits l op →
      I i ((D i).track l ⟨op, answer⟩) (es ++ [⟨op, answer⟩])) (i : ι) :
    I i (ghost (D i) (l i) i c.log) (part i c.log) := by
  induction h with
  | refl => simpa [hlog] using initially i
  | @step c d label hr _ hs ih =>
    cases label with
    | run j e =>
      obtain ⟨op, rest, hp, rfl⟩ := step_run.mp hs
      rw [advance, ghost_snoc, part_snoc]
      split
      · next hij =>
        subst hij
        have hfollows := hr.follows hlog start again j
        rw [hp] at hfollows
        exact kept j _ _ _ _ ih hfollows.1
      · exact ih
    | relaunch j =>
      obtain ⟨value, p, -, -, rfl⟩ := step_relaunch.mp hs
      exact ih
    | environment a =>
      obtain rfl := step_environment.mp hs
      exact ih

/-- If a permitted operation moves the weight of the auxiliary state by the difference of two
counts, then the weight is the difference of the counts. -/
theorem Reaches.balance {w : L → Nat} {p q : Event S → Bool} (h : sys.Reaches G init c)
    (hlog : init.log = []) (start : ∀ i, (init.program i).Follows (D i) post (l i))
    (again : ∀ i l value p, post l value → sys.relaunch i value = some p →
      p.Follows (D i) post l)
    (initially : ∀ i, w (l i) = 0)
    (kept : ∀ i l op answer, (D i).permits l op →
      w ((D i).track l ⟨op, answer⟩) + (p ⟨op, answer⟩).toNat = w l + (q ⟨op, answer⟩).toNat)
    (i : ι) :
    (part i c.log).countP p + w (ghost (D i) (l i) i c.log) = (part i c.log).countP q := by
  refine h.course (I := fun _ l es => es.countP p + w l = es.countP q) hlog start again
    (fun i => by simp [initially]) (fun i l es op answer ih hpermits => ?_) i
  have hkept := kept i l op answer hpermits
  rw [countP_snoc, countP_snoc]
  omega

/-- If a permitted operation adds no more to the weight of the auxiliary state and the first count
than it adds to the second, then the second count is the budget of the first. -/
theorem Reaches.budget {w : L → Nat} {p q : Event S → Bool} (h : sys.Reaches G init c)
    (hlog : init.log = []) (start : ∀ i, (init.program i).Follows (D i) post (l i))
    (again : ∀ i l value p, post l value → sys.relaunch i value = some p →
      p.Follows (D i) post l)
    (initially : ∀ i, w (l i) = 0)
    (kept : ∀ i l op answer, (D i).permits l op →
      w ((D i).track l ⟨op, answer⟩) + (p ⟨op, answer⟩).toNat ≤ w l + (q ⟨op, answer⟩).toNat)
    (i : ι) : (part i c.log).countP p ≤ (part i c.log).countP q := by
  have hweighed := h.course (I := fun _ l es => es.countP p + w l ≤ es.countP q) hlog start again
    (fun i => by simp [initially]) (fun i l es op answer ih hpermits => ?_) i
  · omega
  · have hkept := kept i l op answer hpermits
    rw [countP_snoc, countP_snoc]
    omega

/-- What a worker that does not start over has done is a path of its program. -/
theorem Reaches.trace (h : sys.Reaches G init c) (hlog : init.log = []) {i : ι}
    (honce : ∀ value, sys.relaunch i value = none) :
    (init.program i).Trace (part i c.log) (c.program i) := by
  induction h with
  | refl =>
    rw [hlog]
    exact .refl _
  | @step c d label hr _ hs ih =>
    cases label with
    | run j e =>
      obtain ⟨op, rest, hp, rfl⟩ := step_run.mp hs
      rw [advance, part_snoc]
      by_cases hij : j = i
      · subst hij
        rw [hp] at ih
        simpa using ih.snoc _
      · simpa [hij, Function.update_of_ne (Ne.symm hij)] using ih
    | relaunch j =>
      obtain ⟨value, p, -, hlaunch, rfl⟩ := step_relaunch.mp hs
      have hij : i ≠ j := by
        rintro rfl
        rw [honce value] at hlaunch
        cases hlaunch
      simpa [Function.update_of_ne hij] using ih
    | environment a =>
      obtain rfl := step_environment.mp hs
      exact ih

end System

end Interleaving
