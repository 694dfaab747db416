import WebhookRelay.Library.Program

/-!
# Two programs in lockstep

A relational logic for programs: a coupling says which operations of the two sides go together
and how their answers are related, and two programs are in lockstep if they perform coupled
operations one after the other, whatever related answers they get, and return related values.
Runs against stores that respect the coupling then end in related stores.
-/

namespace Interleaving

variable {S T : Signature} {α β γ δ : Type}

/-- Which operations go together, and with what relation between their answers. -/
abbrev Coupling (S T : Signature) :=
  (op : S.Op) → (op' : T.Op) → (S.Answer op → T.Answer op' → Prop) → Prop

namespace Program

/-- The programs perform coupled operations and return values that `post` relates. -/
inductive Lockstep (C : Coupling S T) (post : α → β → Prop) :
    Program S α → Program T β → Prop where
  | ret {a : α} {b : β} : post a b → Lockstep C post (.ret a) (.ret b)
  | call {op : S.Op} {op' : T.Op} {answers : S.Answer op → T.Answer op' → Prop}
      {rest : S.Answer op → Program S α} {rest' : T.Answer op' → Program T β} :
      C op op' answers → (∀ a b, answers a b → Lockstep C post (rest a) (rest' b)) →
      Lockstep C post (.call op rest) (.call op' rest')

namespace Lockstep

variable {C : Coupling S T}

theorem bind {mid : α → β → Prop} {post : γ → δ → Prop} {p : Program S α} {q : Program T β}
    {f : α → Program S γ} {g : β → Program T δ} (h : Lockstep C mid p q)
    (hf : ∀ a b, mid a b → Lockstep C post (f a) (g b)) :
    Lockstep C post (p >>= f) (q >>= g) := by
  induction h with
  | ret hmid => exact hf _ _ hmid
  | call hop _ ih => exact .call hop ih

/-- A program is in lockstep with itself if all it performs is coupled with itself. -/
theorem of_follows {C : Coupling S S} {P : S.Op → Prop} {p : Program S α}
    (hC : ∀ op, P op → C op op Eq) (h : p.Follows (only P) (fun _ _ => True) ()) :
    Lockstep C Eq p p := by
  induction p with
  | ret value => exact .ret rfl
  | call op rest ih =>
    refine .call (hC op h.1) fun a b hab => ?_
    subst hab
    exact ih a (h.2 a)

/-! ## Runs -/

variable {E E' σ τ : Type} {H : Handler S E σ} {K : Handler T E' τ}

/-- The stores answer coupled operations with related answers, and remain related. -/
def Respects (C : Coupling S T) (R : σ → τ → Prop) (H : Handler S E σ) (K : Handler T E' τ)
    (e : E) (e' : E') : Prop :=
  ∀ {op op' answers s t}, C op op' answers → R s t →
    answers (H e op s).1 (K e' op' t).1 ∧ R (H e op s).2 (K e' op' t).2

/-- The events of coupled operations. -/
def Together (C : Coupling S T) (ev : Event S) (ev' : Event T) : Prop :=
  ∃ answers, C ev.op ev'.op answers ∧ answers ev.answer ev'.answer

/-- Programs in lockstep run to related values and stores. -/
theorem exec {post : α → β → Prop} {R : σ → τ → Prop} {e : E} {e' : E'}
    (hC : Respects C R H K e e') {p : Program S α} {q : Program T β}
    (h : Lockstep C post p q) {s : σ} {t : τ} (hst : R s t) :
    post (p.exec H e s).value (q.exec K e' t).value ∧
      R (p.exec H e s).store (q.exec K e' t).store ∧
      List.Forall₂ (Together C) (p.exec H e s).events (q.exec K e' t).events := by
  induction h generalizing s t with
  | ret hpost => exact ⟨hpost, hst, .nil⟩
  | call hop _ ih =>
    obtain ⟨hanswers, hstores⟩ := hC hop hst
    obtain ⟨hvalue, hstore, hevents⟩ := ih _ _ hanswers hstores
    exact ⟨hvalue, hstore, .cons ⟨_, hop, hanswers⟩ hevents⟩

end Lockstep

end Program

end Interleaving
