import WebhookRelay.Library.Pool

/-!
# Programs over several signatures

The workers of one pool may speak to different parts of its store. `Signature.sum` joins two
signatures, and `Program.translate` carries a program over to another signature call by call;
a call may end the whole program there, as an exception does.
-/

namespace Interleaving

variable {S T : Signature} {α β L : Type}

/-- The operations of either signature. -/
abbrev Signature.sum (S T : Signature) : Signature where
  Op := S.Op ⊕ T.Op
  Answer := Sum.elim S.Answer T.Answer

namespace Program

/-- Each part of a store answers the operations of its signature. -/
def Handler.sum {E E' σ : Type} (H : Handler S E σ) (K : Handler T E' σ) :
    Handler (S.sum T) (E × E') σ
  | e, .inl op, s => H e.1 op s
  | e, .inr op, s => K e.2 op s

/-! ## Translation -/

/-- Perform every call by a program that finds the answer, or that ends everything with a
value. -/
def translate (f : (op : S.Op) → Program T (Except β (S.Answer op))) (g : α → β) :
    Program S α → Program T β
  | .ret value => .ret (g value)
  | .call op rest => (f op).bind fun
    | .error value => .ret value
    | .ok answer => (rest answer).translate f g

theorem translate_call (f : (op : S.Op) → Program T (Except β (S.Answer op))) (g : α → β)
    (op : S.Op) (rest : S.Answer op → Program S α) :
    (Program.call op rest).translate f g = f op >>= fun
      | .error value => .ret value
      | .ok answer => (rest answer).translate f g := by
  rw [translate]
  rfl

/-- A program follows a discipline if the programs that perform its calls do. -/
theorem follows_translate {D : Discipline T L}
    {f : (op : S.Op) → Program T (Except β (S.Answer op))}
    (h : ∀ op l, (f op).Follows D (fun _ _ => True) l) (g : α → β) (p : Program S α) (l : L) :
    (p.translate f g).Follows D (fun _ _ => True) l := by
  induction p generalizing l with
  | ret value => trivial
  | call op rest ih =>
    rw [translate_call]
    refine (h op l).bind fun l result _ => ?_
    cases result with
    | error value => trivial
    | ok answer => exact ih answer l

/-- What becomes of a call that another program performs: the answer is passed on, or the value
that ends everything is returned. -/
def caught (post : β → Prop) (next : α → Prop) : Except β α → Prop
  | .error value => post value
  | .ok answer => next answer

/-- A program that follows one discipline is carried over to a program that follows another, if
the program for every permitted call keeps their auxiliary states related. -/
theorem follows_translate_of {L' : Type} {D : Discipline S L} {D' : Discipline T L'}
    {post : L → α → Prop} {post' : L' → β → Prop} {R : L → L' → Prop}
    {f : (op : S.Op) → Program T (Except β (S.Answer op))} {g : α → β}
    (hcall : ∀ l l' op, R l l' → D.permits l op → (f op).Follows D'
      (fun l'' => caught (post' l'') fun answer => R (D.track l ⟨op, answer⟩) l'') l')
    (hret : ∀ l l' value, R l l' → post l value → post' l' (g value)) {p : Program S α} {l : L}
    {l' : L'} (h : p.Follows D post l) (hR : R l l') :
    (p.translate f g).Follows D' post' l' := by
  induction p generalizing l l' with
  | ret value => exact hret l l' value hR h
  | call op rest ih =>
    rw [translate_call]
    refine (hcall l l' op hR h.1).bind fun l'' result hresult => ?_
    cases result with
    | error value => exact hresult
    | ok answer => exact ih answer (h.2 answer) hresult

/-! ## Keeping track -/

/-- The program with a state that is computed from its calls, returned next to its value. -/
def tracked {L : Type} (track : L → Event S → L) : L → Program S α → Program S (α × L)
  | l, .ret value => .ret (value, l)
  | l, .call op rest => .call op fun answer => (rest answer).tracked track (track l ⟨op, answer⟩)

/-- A program that keeps track follows what it follows without, and the state that it keeps is
related to the auxiliary state if every permitted call keeps the relation. -/
theorem follows_tracked {L' : Type} {D : Discipline S L} {post : L → α → Prop}
    (track : L' → Event S → L') {R : L → L' → Prop}
    (hcall : ∀ l l' op answer, R l l' → D.permits l op →
      R (D.track l ⟨op, answer⟩) (track l' ⟨op, answer⟩)) {p : Program S α} {l : L} (l' : L')
    (h : p.Follows D post l) (hR : R l l') :
    (p.tracked track l').Follows D (fun l result => post l result.1 ∧ R l result.2) l := by
  induction p generalizing l l' with
  | ret value => exact ⟨h, hR⟩
  | call op rest ih =>
    exact ⟨h.1, fun answer => ih answer _ (h.2 answer) (hcall l l' op answer hR h.1)⟩

/-! ## One side of a sum -/

/-- A program that speaks to the second part only. -/
def right (g : α → β) : Program T α → Program (S.sum T) β :=
  translate (fun op => .call (.inr op) fun answer => .ret (.ok answer)) g

/-- The rule for the second part; the first is left alone. -/
def Discipline.onRight (D : Discipline T L) : Discipline (S.sum T) L where
  track
    | l, ⟨.inl _, _⟩ => l
    | l, ⟨.inr op, answer⟩ => D.track l ⟨op, answer⟩
  permits
    | _, .inl _ => True
    | l, .inr op => D.permits l op

theorem right_call (g : α → β) (op : T.Op) (rest : T.Answer op → Program T α) :
    ((Program.call op rest).right g : Program (S.sum T) β) =
      .call (.inr op) fun answer => (rest answer).right g := by
  rw [right, translate]
  rfl

@[simp] theorem onRight_track_inl (D : Discipline T L) (l : L) (op : S.Op)
    (answer : S.Answer op) :
    (D.onRight : Discipline (S.sum T) L).track l ⟨.inl op, answer⟩ = l := rfl

@[simp] theorem onRight_track_inr (D : Discipline T L) (l : L) (op : T.Op)
    (answer : T.Answer op) :
    (D.onRight : Discipline (S.sum T) L).track l ⟨.inr op, answer⟩ =
      D.track l ⟨op, answer⟩ := rfl

@[simp] theorem onRight_permits_inr (D : Discipline T L) (l : L) (op : T.Op) :
    (D.onRight : Discipline (S.sum T) L).permits l (.inr op) ↔ D.permits l op := Iff.rfl

theorem follows_right_of {D : Discipline T L} {post : L → α → Prop} {post' : L → β → Prop}
    {g : α → β} (hpost : ∀ l a, post l a → post' l (g a)) {p : Program T α} {l : L}
    (h : p.Follows D post l) : (p.right g : Program (S.sum T) β).Follows D.onRight post' l := by
  induction p generalizing l with
  | ret value => exact hpost l value h
  | call op rest ih =>
    rw [right_call]
    exact ⟨h.1, fun answer => ih answer (h.2 answer)⟩

theorem follows_right {D : Discipline T L} {post : L → α → Prop} (g : α → β) {p : Program T α}
    {l : L} (h : p.Follows D post l) :
    (p.right g : Program (S.sum T) β).Follows D.onRight (fun _ _ => True) l :=
  follows_right_of (fun _ _ _ => trivial) h

/-- A program that speaks to the first part only. -/
def left : Program S α → Program (S.sum T) α :=
  translate (fun op => .call (.inl op) fun answer => .ret (.ok answer)) id

theorem left_call (op : S.Op) (rest : S.Answer op → Program S α) :
    ((Program.call op rest).left : Program (S.sum T) α) =
      .call (.inl op) fun answer => (rest answer).left := by
  rw [left, translate]
  rfl

/-- The rule for the second part does not see the first: a program goes on from whatever its
first part may return there. -/
theorem follows_left_bind {D : Discipline T L} {Q : α → Prop} {post : L → β → Prop}
    {p : Program S α} {f : α → Program (S.sum T) β} {l : L}
    (hp : p.Follows (only fun _ => True) (fun _ => Q) ())
    (hf : ∀ a, Q a → (f a).Follows D.onRight post l) :
    (p.left >>= f).Follows D.onRight post l := by
  induction p with
  | ret value => exact hf value hp
  | call op rest ih =>
    rw [left_call, call_bind]
    exact ⟨trivial, fun answer => ih answer (hp.2 answer)⟩

end Program

end Interleaving
