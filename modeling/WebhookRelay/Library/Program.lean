import Mathlib.Logic.Function.Basic
import Mathlib.Data.List.Basic

/-!
# Programs that perform one operation at a time

A `Program` is a finite tree of calls to the operations of a signature; every call
hands the operation's answer to the rest of the program. The tree is the whole
meaning of the code: `Program.exec` runs it alone against a store, and the pools of
`WebhookRelay.Library.Pool` run many of them against one store, one call at a time.

`Program.Follows` is a Hoare logic for such trees with an auxiliary state: the state
is computed from the calls and answers seen so far, never read by the program, and a
`Discipline` says which calls it permits.
-/

namespace Interleaving

/-- The operations a program may perform, each with the type of its answer. -/
structure Signature where
  Op : Type
  Answer : Op → Type

variable {S : Signature} {α β : Type}

/-- A program either returns or performs an operation and goes on with its answer. -/
inductive Program (S : Signature) (α : Type) where
  | ret (value : α)
  | call (op : S.Op) (rest : S.Answer op → Program S α)

/-- One performed operation together with its answer. -/
structure Event (S : Signature) where
  op : S.Op
  answer : S.Answer op

namespace Program

/-- Sequential composition grafts `f` onto every leaf. -/
def bind : Program S α → (α → Program S β) → Program S β
  | .ret value, f => f value
  | .call op rest, f => .call op fun answer => (rest answer).bind f

instance : Monad (Program S) where
  pure := .ret
  bind := bind

@[simp] theorem pure_def (value : α) : (pure value : Program S α) = .ret value := rfl

@[simp] theorem ret_bind (value : α) (f : α → Program S β) :
    (Program.ret value >>= f) = f value := rfl

@[simp] theorem call_bind (op : S.Op) (rest : S.Answer op → Program S α)
    (f : α → Program S β) :
    (Program.call op rest >>= f) = .call op fun answer => rest answer >>= f := rfl

theorem bind_ret (p : Program S α) : (p >>= .ret) = p := by
  induction p with
  | ret value => rfl
  | call op rest ih => rw [call_bind, funext ih]

theorem bind_assoc {γ : Type} (p : Program S α) (f : α → Program S β) (g : β → Program S γ) :
    (p >>= f >>= g) = (p >>= fun value => f value >>= g) := by
  induction p with
  | ret value => rfl
  | call op rest ih => rw [call_bind, call_bind, call_bind, funext ih]

/-! ## Running a program alone -/

/-- How the store answers each operation; `E` is what the surroundings choose. -/
abbrev Handler (S : Signature) (E σ : Type) := E → (op : S.Op) → σ → S.Answer op × σ

/-- The value a run returns, the store it leaves and the calls it made, in order. -/
structure Execution (S : Signature) (σ α : Type) where
  value : α
  store : σ
  events : List (Event S)

variable {E σ : Type}

/-- Run a program to its end with nothing in between its calls. -/
def exec (H : Handler S E σ) (e : E) : Program S α → σ → Execution S σ α
  | .ret value, s => ⟨value, s, []⟩
  | .call op rest, s =>
    let r := (rest (H e op s).1).exec H e (H e op s).2
    ⟨r.value, r.store, ⟨op, (H e op s).1⟩ :: r.events⟩

@[simp] theorem exec_ret (H : Handler S E σ) (e : E) (value : α) (s : σ) :
    (Program.ret value : Program S α).exec H e s = ⟨value, s, []⟩ := rfl

@[simp] theorem exec_call (H : Handler S E σ) (e : E) (op : S.Op)
    (rest : S.Answer op → Program S α) (s : σ) :
    (Program.call op rest).exec H e s =
      ⟨((rest (H e op s).1).exec H e (H e op s).2).value,
        ((rest (H e op s).1).exec H e (H e op s).2).store,
        ⟨op, (H e op s).1⟩ :: ((rest (H e op s).1).exec H e (H e op s).2).events⟩ := rfl

/-- What a run returns and the store it leaves. -/
def outcome (H : Handler S E σ) (e : E) (p : Program S α) (s : σ) : α × σ :=
  ((p.exec H e s).value, (p.exec H e s).store)

@[simp] theorem outcome_ret (H : Handler S E σ) (e : E) (value : α) (s : σ) :
    (Program.ret value : Program S α).outcome H e s = (value, s) := rfl

@[simp] theorem outcome_call (H : Handler S E σ) (e : E) (op : S.Op)
    (rest : S.Answer op → Program S α) (s : σ) :
    (Program.call op rest).outcome H e s =
      (rest (H e op s).1).outcome H e (H e op s).2 := rfl

/-- A run of a composition goes on where the run of its first part has ended. -/
theorem exec_bind (H : Handler S E σ) (e : E) (p : Program S α) (f : α → Program S β) (s : σ) :
    (p.bind f).exec H e s =
      ⟨((f (p.exec H e s).value).exec H e (p.exec H e s).store).value,
        ((f (p.exec H e s).value).exec H e (p.exec H e s).store).store,
        (p.exec H e s).events ++
          ((f (p.exec H e s).value).exec H e (p.exec H e s).store).events⟩ := by
  induction p generalizing s with
  | ret value => rfl
  | call op rest ih => rw [bind, exec_call, exec_call, ih]; rfl

theorem outcome_bind (H : Handler S E σ) (e : E) (p : Program S α) (f : α → Program S β)
    (s : σ) :
    (p.bind f).outcome H e s = (f (p.outcome H e s).1).outcome H e (p.outcome H e s).2 := by
  rw [outcome, exec_bind]
  rfl

/-- Run a program that is killed after a number of calls; only the store is left. -/
def halt (H : Handler S E σ) (e : E) : Nat → Program S α → σ → σ
  | 0, _, s => s
  | _ + 1, .ret _, s => s
  | n + 1, .call op rest, s => (rest (H e op s).1).halt H e n (H e op s).2

@[simp] theorem halt_zero (H : Handler S E σ) (e : E) (p : Program S α) (s : σ) :
    p.halt H e 0 s = s := rfl

@[simp] theorem halt_ret (H : Handler S E σ) (e : E) (n : Nat) (value : α) (s : σ) :
    (Program.ret value : Program S α).halt H e n s = s := by
  cases n <;> rfl

@[simp] theorem halt_call (H : Handler S E σ) (e : E) (n : Nat) (op : S.Op)
    (rest : S.Answer op → Program S α) (s : σ) :
    (Program.call op rest).halt H e (n + 1) s =
      (rest (H e op s).1).halt H e n (H e op s).2 := rfl

/-- What is only computed from the value of a program leaves its store as it is. -/
theorem outcome_map (H : Handler S E σ) (e : E) (p : Program S α) (f : α → β) (s : σ) :
    (p.bind fun value => .ret (f value)).outcome H e s =
      (f (p.outcome H e s).1, (p.outcome H e s).2) := by
  rw [outcome_bind, outcome_ret]

theorem halt_map (H : Handler S E σ) (e : E) (n : Nat) (p : Program S α) (f : α → β) (s : σ) :
    (p.bind fun value => .ret (f value)).halt H e n s = p.halt H e n s := by
  induction p generalizing n s with
  | ret value => rw [bind, halt_ret, halt_ret]
  | call op rest ih =>
    cases n with
    | zero => rfl
    | succ n => exact ih _ n _

/-- If a smaller store answers the operations as the projection of the store does, a run can
be followed in the smaller one. -/
theorem exec_project {τ : Type} {H : Handler S E σ} {K : Handler S E τ} {view : σ → τ} {e : E}
    (h : ∀ op s, K e op (view s) = ((H e op s).1, view (H e op s).2)) (p : Program S α) (s : σ) :
    p.exec K e (view s) =
      ⟨(p.exec H e s).value, view (p.exec H e s).store, (p.exec H e s).events⟩ := by
  induction p generalizing s with
  | ret value => rfl
  | call op rest ih => simp [h, ih]

/-! ## Disciplines: a Hoare logic with auxiliary state -/

/-- A rule for the calls of a program: `track` updates the auxiliary state with each
call and its answer, `permits` says which calls the state allows. -/
structure Discipline (S : Signature) (L : Type) where
  track : L → Event S → L
  permits : L → S.Op → Prop

variable {L : Type}

/-- Every call of the program is permitted where it is made, whatever the answers were,
and it returns only values that `post` accepts in the auxiliary state reached. -/
def Follows (D : Discipline S L) (post : L → α → Prop) : Program S α → L → Prop
  | .ret value, l => post l value
  | .call op rest, l =>
    D.permits l op ∧ ∀ answer, (rest answer).Follows D post (D.track l ⟨op, answer⟩)

variable {D : Discipline S L} {post : L → α → Prop}

@[simp] theorem follows_ret (value : α) (l : L) :
    (Program.ret value : Program S α).Follows D post l ↔ post l value := Iff.rfl

@[simp] theorem follows_call (op : S.Op) (rest : S.Answer op → Program S α) (l : L) :
    (Program.call op rest).Follows D post l ↔
      D.permits l op ∧ ∀ answer, (rest answer).Follows D post (D.track l ⟨op, answer⟩) :=
  Iff.rfl

/-- A program goes on under a discipline from wherever its first part may return. -/
theorem Follows.bind {mid : L → α → Prop} {post : L → β → Prop} {p : Program S α}
    {f : α → Program S β} {l : L} (h : p.Follows D mid l)
    (hf : ∀ l a, mid l a → (f a).Follows D post l) : (p >>= f).Follows D post l := by
  induction p generalizing l with
  | ret value => exact hf l value h
  | call op rest ih => exact ⟨h.1, fun answer => ih answer (h.2 answer)⟩

theorem Follows.mono {post' : L → α → Prop} {p : Program S α} {l : L} (h : p.Follows D post l)
    (himp : ∀ l value, post l value → post' l value) : p.Follows D post' l := by
  induction p generalizing l with
  | ret value => exact himp l value h
  | call op rest ih => exact ⟨h.1, fun answer => ih answer (h.2 answer)⟩

/-- The rule that permits the calls with a property, whatever came before. -/
def only (P : S.Op → Prop) : Discipline S Unit := ⟨fun _ _ => (), fun _ => P⟩

/-- A weaker rule permits more. -/
theorem Follows.mono_only {P P' : S.Op → Prop} {post : Unit → α → Prop} {p : Program S α}
    (himp : ∀ op, P op → P' op) (h : p.Follows (only P) post ()) :
    p.Follows (only P') post () := by
  induction p with
  | ret value => exact h
  | call op rest ih => exact ⟨himp op h.1, fun answer => ih answer (h.2 answer)⟩

/-- What a run of such a program performs and returns. -/
theorem Follows.exec_only {P : S.Op → Prop} {Q : α → Prop} {p : Program S α}
    (h : p.Follows (only P) (fun _ => Q) ()) (H : Handler S E σ) (e : E) (s : σ) :
    Q (p.exec H e s).value ∧ ∀ ev ∈ (p.exec H e s).events, P ev.op := by
  induction p generalizing s with
  | ret value => exact ⟨h, by simp⟩
  | call op rest ih =>
    obtain ⟨hvalue, hevents⟩ := ih _ (h.2 (H e op s).1) (H e op s).2
    rw [exec_call]
    refine ⟨hvalue, fun ev hev => ?_⟩
    rcases List.mem_cons.mp hev with rfl | hev
    · exact h.1
    · exact hevents ev hev

/-! ## Paths of a program -/

/-- The program performs these operations and then goes on as another. -/
inductive Trace {S : Signature} {α : Type} : Program S α → List (Event S) → Program S α → Prop
  | refl (p : Program S α) : Trace p [] p
  | step {op : S.Op} {rest : S.Answer op → Program S α} {answer : S.Answer op}
      {events : List (Event S)} {p : Program S α} (h : Trace (rest answer) events p) :
      Trace (.call op rest) (⟨op, answer⟩ :: events) p

theorem Trace.snoc {p : Program S α} {events : List (Event S)} {op : S.Op}
    {rest : S.Answer op → Program S α} (h : Trace p events (.call op rest))
    (answer : S.Answer op) : Trace p (events ++ [⟨op, answer⟩]) (rest answer) := by
  generalize hq : Program.call op rest = q at h
  induction h with
  | refl p =>
    subst hq
    exact .step (.refl _)
  | step _ ih => exact .step (ih hq)

theorem trace_ret {value : α} {events : List (Event S)} {p : Program S α} :
    Trace (.ret value) events p ↔ events = [] ∧ p = .ret value := by
  constructor
  · rintro ⟨⟩
    exact ⟨rfl, rfl⟩
  · rintro ⟨rfl, rfl⟩
    exact .refl _

/-- A program has performed nothing, or it has got an answer to its first operation. -/
theorem trace_call {op : S.Op} {rest : S.Answer op → Program S α} {events : List (Event S)}
    {p : Program S α} : Trace (.call op rest) events p ↔ events = [] ∧ p = .call op rest ∨
      ∃ answer later, events = ⟨op, answer⟩ :: later ∧ Trace (rest answer) later p := by
  constructor
  · rintro (_ | h)
    · exact .inl ⟨rfl, rfl⟩
    · exact .inr ⟨_, _, rfl, h⟩
  · rintro (⟨rfl, rfl⟩ | ⟨answer, later, rfl, h⟩)
    · exact .refl _
    · exact .step h

/-- The value that a program has returned. -/
def returned? : Program S α → Option α
  | .ret value => some value
  | .call _ _ => none

theorem returned?_eq_some {p : Program S α} {value : α} :
    p.returned? = some value ↔ p = .ret value := by
  cases p <;> simp [returned?]

end Program

end Interleaving
