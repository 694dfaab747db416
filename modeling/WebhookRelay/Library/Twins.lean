import Mathlib.Data.List.Forall2
import WebhookRelay.Library.Lockstep
import WebhookRelay.Library.Translation

/-!
# Two pools in lockstep

Two pools whose workers run in lockstep, on stores that respect the coupling, remain in lockstep
under the same scheduling: what one can do the other can do as well, and neither the workers nor
their stores tell the two apart by more than the coupling allows.

## Main results

* `Lockstep.translate`, `Lockstep.tracked` — programs in lockstep are carried over to programs in
  lockstep.
* `Twins.schedule` — a run of one pool is matched, step by step, by a run of the other.
-/

namespace Interleaving

variable {S T S' T' : Signature} {α β γ δ L L' : Type}

namespace Program.Lockstep

variable {C : Coupling S T} {post : α → β → Prop}

/-- A program is in lockstep with itself if its rule permits only what is coupled with itself. -/
theorem of_permits {C : Coupling S S} {D : Discipline S L} {Q : L → α → Prop} {p : Program S α}
    {l : L} (hC : ∀ l op, D.permits l op → C op op Eq) (h : p.Follows D Q l) :
    Lockstep C Eq p p := by
  induction p generalizing l with
  | ret value => exact .ret rfl
  | call op rest ih =>
    refine .call (hC l op h.1) fun a b hab => ?_
    subst hab
    exact ih a (h.2 a)

/-- Both sides branch on the same condition. -/
theorem ite {c : Prop} [Decidable c] {p p' : Program S α} {q q' : Program T β}
    (ht : c → Lockstep C post p q) (hf : ¬ c → Lockstep C post p' q') :
    Lockstep C post (if c then p else p') (if c then q else q') := by
  split
  · next hc => exact ht hc
  · next hc => exact hf hc

/-- The states that are kept along with the programs remain related. -/
theorem tracked {R : L → L' → Prop} {track : L → Event S → L} {track' : L' → Event T → L'}
    (htrack : ∀ {op op' answers a b l l'}, C op op' answers → answers a b → R l l' →
      R (track l ⟨op, a⟩) (track' l' ⟨op', b⟩)) {p : Program S α} {q : Program T β}
    (h : Lockstep C post p q) {l : L} {l' : L'} (hR : R l l') :
    Lockstep C (fun a b => post a.1 b.1 ∧ R a.2 b.2) (p.tracked track l)
      (q.tracked track' l') := by
  induction h generalizing l l' with
  | ret hpost => exact .ret ⟨hpost, hR⟩
  | call hop _ ih =>
    exact .call hop fun a b hab => ih a b hab (htrack hop hab hR)

/-- How the programs for two coupled calls end: both find related answers, or both end
everything with related values. -/
inductive Caught (post : γ → δ → Prop) (answers : α → β → Prop) :
    Except γ α → Except δ β → Prop where
  | ended {c : γ} {d : δ} : post c d → Caught post answers (.error c) (.error d)
  | answered {a : α} {b : β} : answers a b → Caught post answers (.ok a) (.ok b)

/-- Programs are carried over to programs in lockstep if their coupled calls are. -/
theorem translate {C' : Coupling S' T'} {post' : γ → δ → Prop}
    {f : (op : S.Op) → Program S' (Except γ (S.Answer op))}
    {f' : (op : T.Op) → Program T' (Except δ (T.Answer op))} {g : α → γ} {g' : β → δ}
    (hcall : ∀ {op op' answers}, C op op' answers →
      Lockstep C' (Caught post' answers) (f op) (f' op'))
    (hret : ∀ a b, post a b → post' (g a) (g' b)) {p : Program S α} {q : Program T β}
    (h : Lockstep C post p q) : Lockstep C' post' (p.translate f g) (q.translate f' g') := by
  induction h with
  | ret hpost => exact .ret (hret _ _ hpost)
  | call hop _ ih =>
    rw [translate_call, translate_call]
    refine (hcall hop).bind fun a b hab => ?_
    cases hab with
    | ended hpost => exact .ret hpost
    | answered hanswers => exact ih _ _ hanswers

end Program.Lockstep

/-! ## Pools -/

open Program

variable {E E' A A' ι σ τ : Type}

/-- The same scheduling, with choices of the surroundings that go together. -/
inductive LabelsAlike (choices : E → E' → Prop) (disturbances : A → A' → Prop) :
    Label E A ι → Label E' A' ι → Prop where
  | run {i : ι} {e : E} {e' : E'} :
      choices e e' → LabelsAlike choices disturbances (.run i e) (.run i e')
  | relaunch {i : ι} : LabelsAlike choices disturbances (.relaunch i) (.relaunch i)
  | environment {a : A} {a' : A'} :
      disturbances a a' → LabelsAlike choices disturbances (.environment a) (.environment a')

/-- Two pools that a coupling and a relation between their stores cannot tell apart. -/
structure Twins (C : Coupling S T) (post : α → β → Prop) (R : σ → τ → Prop)
    (choices : E → E' → Prop) (disturbances : A → A' → Prop) (sys : System S E A ι σ α)
    (sys' : System T E' A' ι τ β) : Prop where
  handle : ∀ e e', choices e e' → Lockstep.Respects C R sys.handle sys'.handle e e'
  environment : ∀ a a' s t, disturbances a a' → R s t →
    R (sys.environment a s) (sys'.environment a' t)
  relaunch : ∀ i a b, post a b →
    Option.Rel (Lockstep C post) (sys.relaunch i a) (sys'.relaunch i b)

/-- Configurations that have come about by the same scheduling. -/
structure Config.Alike (C : Coupling S T) (post : α → β → Prop) (R : σ → τ → Prop)
    (c : Config S ι σ α) (d : Config T ι τ β) : Prop where
  store : R c.store d.store
  program : ∀ i, Lockstep C post (c.program i) (d.program i)
  log : List.Forall₂ (fun x y => x.1 = y.1 ∧ Lockstep.Together C x.2 y.2) c.log d.log

namespace Twins

variable [DecidableEq ι] {C : Coupling S T} {post : α → β → Prop} {R : σ → τ → Prop}
  {choices : E → E' → Prop} {disturbances : A → A' → Prop} {sys : System S E A ι σ α}
  {sys' : System T E' A' ι τ β} {c c' : Config S ι σ α} {d : Config T ι τ β}

/-- The program of a worker is replaced on both sides. -/
theorem update_alike (h : ∀ i, Lockstep C post (c.program i) (d.program i)) {i : ι}
    {p : Program S α} {q : Program T β} (hpq : Lockstep C post p q) (j : ι) :
    Lockstep C post (Function.update c.program i p j) (Function.update d.program i q j) := by
  by_cases hij : j = i
  · subst hij
    rw [Function.update_self, Function.update_self]
    exact hpq
  · rw [Function.update_of_ne hij, Function.update_of_ne hij]
    exact h j

/-- What one pool does the other does as well. -/
theorem step (h : Twins C post R choices disturbances sys sys') (hcd : c.Alike C post R d)
    {label : Label E A ι} {label' : Label E' A' ι}
    (hlabel : LabelsAlike choices disturbances label label') (hstep : sys.step c label = some c') :
    ∃ d', sys'.step d label' = some d' ∧ c'.Alike C post R d' := by
  cases hlabel with
  | @run i e e' hchoice =>
    obtain ⟨op, rest, hp, rfl⟩ := System.step_run.mp hstep
    have hprogram := hcd.program i
    rw [hp] at hprogram
    generalize hq : d.program i = q at hprogram
    cases hprogram with
    | @call _ op' answers _ rest' hop hrest =>
      obtain ⟨hanswers, hstores⟩ := h.handle e e' hchoice hop hcd.store
      refine ⟨_, System.step_run.mpr ⟨op', rest', hq, rfl⟩, hstores,
        update_alike hcd.program (hrest _ _ hanswers), ?_⟩
      exact List.rel_append hcd.log (.cons ⟨rfl, answers, hop, hanswers⟩ .nil)
  | @relaunch i =>
    obtain ⟨value, p, hp, hlaunch, rfl⟩ := System.step_relaunch.mp hstep
    have hprogram := hcd.program i
    rw [hp] at hprogram
    generalize hq : d.program i = q at hprogram
    cases hprogram with
    | @ret _ value' hpost =>
      have hlaunched := h.relaunch i value value' hpost
      rw [hlaunch] at hlaunched
      generalize hlaunch' : sys'.relaunch i value' = launched at hlaunched
      cases hlaunched with
      | @some _ q' hpq =>
        exact ⟨_, System.step_relaunch.mpr ⟨value', q', hq, hlaunch', rfl⟩, hcd.store,
          update_alike hcd.program hpq, hcd.log⟩
  | environment hdisturbance =>
    obtain rfl := System.step_environment.mp hstep
    exact ⟨_, System.step_environment.mpr rfl,
      h.environment _ _ _ _ hdisturbance hcd.store, hcd.program, hcd.log⟩

/-- A run of one pool is matched by a run of the other. -/
theorem schedule (h : Twins C post R choices disturbances sys sys') (hcd : c.Alike C post R d)
    {labels : List (Label E A ι)} {labels' : List (Label E' A' ι)}
    (hlabels : List.Forall₂ (LabelsAlike choices disturbances) labels labels')
    (hc : sys.schedule c labels = some c') :
    ∃ d', sys'.schedule d labels' = some d' ∧ c'.Alike C post R d' := by
  induction hlabels generalizing c d with
  | nil =>
    obtain rfl : c = c' := by simpa using hc
    exact ⟨d, rfl, hcd⟩
  | cons hlabel _ ih =>
    obtain ⟨u, hu, hrest⟩ := Option.bind_eq_some_iff.mp hc
    obtain ⟨v, hv, huv⟩ := h.step hcd hlabel hu
    obtain ⟨d', hd', halike⟩ := ih huv hrest
    exact ⟨d', Option.bind_eq_some_iff.mpr ⟨v, hv, hd'⟩, halike⟩

end Twins

end Interleaving
