import WebhookRelay.Library.Program

/-!
# Pools of programs interleaved over one store

A `System` says how a store answers operations, what its surroundings may do to it, and
which program a worker starts next after a program of its own has returned. A step lets
one worker perform one operation, so every interleaving of the workers' operations is a
schedule. The log of a configuration lists the performed operations with their answers.

## Main results

* `System.Reaches.follows`: programs that follow a discipline follow it in every
  interleaving, in the auxiliary state computed from their own part of the log.
* `System.Reaches.invariant`: the induction rule for reachable configurations.
* `System.always_iff_each`: when a step keeps an invariant exactly if it meets a
  condition, a run keeps the invariant throughout exactly if all its steps meet it.
-/

namespace Interleaving

open Program

variable {S : Signature} {E A ι σ α L : Type}

/-- A shared store with its surroundings and the rule for starting over. -/
structure System (S : Signature) (E A ι σ α : Type) where
  handle : Handler S E σ
  environment : A → σ → σ
  relaunch : ι → α → Option (Program S α)

/-- What is left of every worker's program, with the store and the log so far. -/
structure Config (S : Signature) (ι σ α : Type) where
  store : σ
  program : ι → Program S α
  log : List (ι × Event S)

/-- One scheduling decision. -/
inductive Label (E A ι : Type) where
  | run (i : ι) (e : E)
  | relaunch (i : ι)
  | environment (a : A)

namespace System

variable [DecidableEq ι] (sys : System S E A ι σ α)

/-- Worker `i` performs `op` and keeps `rest` for its later turns. -/
def advance (c : Config S ι σ α) (i : ι) (e : E) (op : S.Op)
    (rest : S.Answer op → Program S α) : Config S ι σ α where
  store := (sys.handle e op c.store).2
  program := Function.update c.program i (rest (sys.handle e op c.store).1)
  log := c.log ++ [(i, ⟨op, (sys.handle e op c.store).1⟩)]

/-- The configuration after a scheduling decision, if it was possible. -/
def step (c : Config S ι σ α) : Label E A ι → Option (Config S ι σ α)
  | .run i e => match c.program i with
    | .ret _ => none
    | .call op rest => some (sys.advance c i e op rest)
  | .relaunch i => match c.program i with
    | .ret value =>
      (sys.relaunch i value).map fun p => { c with program := Function.update c.program i p }
    | .call _ _ => none
  | .environment a => some { c with store := sys.environment a c.store }

/-- Follow a list of scheduling decisions. -/
def schedule (c : Config S ι σ α) (labels : List (Label E A ι)) : Option (Config S ι σ α) :=
  labels.foldlM sys.step c

@[simp] theorem schedule_nil (c : Config S ι σ α) : sys.schedule c [] = some c := rfl

/-- The operation that a scheduling decision performs, with its answer. -/
def performed (handle : Handler S E σ) (c : Config S ι σ α) :
    Label E A ι → Option (ι × Event S)
  | .run i e => match c.program i with
    | .ret _ => none
    | .call op _ => some (i, ⟨op, (handle e op c.store).1⟩)
  | _ => none

variable {sys} {c d : Config S ι σ α}

/-! ## What a step can do -/

theorem step_run {i : ι} {e : E} :
    sys.step c (.run i e) = some d ↔
      ∃ op rest, c.program i = .call op rest ∧ d = sys.advance c i e op rest := by
  cases h : c.program i with
  | ret value => simp [step, h]
  | call op rest =>
    simp only [step, h, Option.some.injEq]
    constructor
    · rintro rfl
      exact ⟨op, rest, rfl, rfl⟩
    · rintro ⟨_, _, ⟨⟩, rfl⟩
      rfl

omit [DecidableEq ι] in
theorem performed_run {i : ι} {op : S.Op} {rest : S.Answer op → Program S α}
    (hp : c.program i = .call op rest) (handle : Handler S E σ) (e : E) :
    performed handle c (.run i e : Label E A ι) = some (i, ⟨op, (handle e op c.store).1⟩) := by
  simp only [performed, hp]

omit [DecidableEq ι] in
theorem mem_performed {handle : Handler S E σ} {i : ι} {ev : Event S} {label : Label E A ι} :
    (i, ev) ∈ performed handle c label ↔ ∃ e op rest, label = .run i e ∧
      c.program i = .call op rest ∧ ev = ⟨op, (handle e op c.store).1⟩ := by
  cases label with
  | run j e =>
    cases hp : c.program j with
    | ret value =>
      simp only [performed, hp, Option.not_mem_none, false_iff]
      rintro ⟨_, op, rest, ⟨⟩, hcall, -⟩
      cases hp.symm.trans hcall
    | call op rest =>
      rw [performed_run hp, Option.mem_some_iff, Prod.mk.injEq]
      constructor
      · rintro ⟨rfl, rfl⟩
        exact ⟨e, op, rest, rfl, hp, rfl⟩
      · rintro ⟨_, _, _, ⟨⟩, hcall, rfl⟩
        cases hp.symm.trans hcall
        exact ⟨rfl, rfl⟩
  | _ => simp [performed]

theorem step_relaunch {i : ι} :
    sys.step c (.relaunch i) = some d ↔
      ∃ value p, c.program i = .ret value ∧ sys.relaunch i value = some p ∧
        d = { c with program := Function.update c.program i p } := by
  cases h : c.program i with
  | ret value =>
    simp only [step, h, Option.map_eq_some_iff]
    constructor
    · rintro ⟨p, hp, rfl⟩
      exact ⟨value, p, rfl, hp, rfl⟩
    · rintro ⟨_, p, ⟨⟩, hp, rfl⟩
      exact ⟨p, hp, rfl⟩
  | call op rest => simp [step, h]

theorem step_environment {a : A} :
    sys.step c (.environment a) = some d ↔
      d = { c with store := sys.environment a c.store } := by
  simp [step, eq_comm]

/-! ## Reachability under a condition on the steps -/

/-- Configurations reached from `init` by steps that all meet the condition `G`. -/
inductive Reaches (sys : System S E A ι σ α) (G : Config S ι σ α → Label E A ι → Prop)
    (init : Config S ι σ α) : Config S ι σ α → Prop where
  | refl : Reaches sys G init init
  | step {c d : Config S ι σ α} {l : Label E A ι} :
      Reaches sys G init c → G c l → sys.step c l = some d → Reaches sys G init d

variable {G : Config S ι σ α → Label E A ι → Prop} {init : Config S ι σ α}

/-- The induction rule: what holds at the start and survives every admitted step holds
in every reachable configuration. -/
theorem Reaches.invariant {I : Config S ι σ α → Prop} (h : sys.Reaches G init c)
    (start : I init)
    (preserved : ∀ c l d, sys.Reaches G init c → I c → G c l → sys.step c l = some d → I d) :
    I c := by
  induction h with
  | refl => exact start
  | step hr hg hs ih => exact preserved _ _ _ hr ih hg hs

/-- A run can be continued from where another has led. -/
theorem Reaches.trans {G' : Config S ι σ α → Label E A ι → Prop} (hc : sys.Reaches G init c)
    (hd : sys.Reaches G' c d) (himp : ∀ c l, G' c l → G c l) : sys.Reaches G init d := by
  induction hd with
  | refl => exact hc
  | step _ hg hs ih => exact ih.step (himp _ _ hg) hs

/-- A schedule that can be followed reaches its last configuration. -/
theorem reaches_of_schedule {labels : List (Label E A ι)}
    (h : sys.schedule c labels = some d) (hc : sys.Reaches (fun _ _ => True) init c) :
    sys.Reaches (fun _ _ => True) init d := by
  induction labels generalizing c with
  | nil =>
    obtain rfl : c = d := by simpa using h
    exact hc
  | cons l ls ih =>
    obtain ⟨u, hu, hrest⟩ := Option.bind_eq_some_iff.mp h
    exact ih hrest (hc.step trivial hu)

/-- The same under a condition that all its labels meet. -/
theorem reaches_of_labels {P : Label E A ι → Prop} {labels : List (Label E A ι)}
    (hlabels : ∀ l ∈ labels, P l) (h : sys.schedule c labels = some d)
    (hc : sys.Reaches (fun _ => P) init c) : sys.Reaches (fun _ => P) init d := by
  induction labels generalizing c with
  | nil =>
    obtain rfl : c = d := by simpa using h
    exact hc
  | cons l ls ih =>
    obtain ⟨u, hu, hrest⟩ := Option.bind_eq_some_iff.mp h
    exact ih (fun l hl => hlabels l (List.mem_cons_of_mem _ hl)) hrest
      (hc.step (hlabels l List.mem_cons_self) hu)

/-! ## Conditions along a run -/

/-- `P` holds in every configuration that the run through `labels` visits. -/
def Always (sys : System S E A ι σ α) (P : Config S ι σ α → Prop) :
    Config S ι σ α → List (Label E A ι) → Prop
  | c, [] => P c
  | c, l :: ls => P c ∧ ∀ d, sys.step c l = some d → sys.Always P d ls

/-- Every step that the run through `labels` takes meets `G`. -/
def Each (sys : System S E A ι σ α) (G : Config S ι σ α → Label E A ι → Prop) :
    Config S ι σ α → List (Label E A ι) → Prop
  | _, [] => True
  | c, l :: ls => ∀ d, sys.step c l = some d → G c l ∧ sys.Each G d ls

/-- An invariant that each reachable step keeps exactly when it meets `G` holds throughout
a run exactly when all steps of the run meet `G`. -/
theorem always_iff_each_of_reaches {I : Config S ι σ α → Prop} {labels : List (Label E A ι)}
    (hstep : ∀ c, sys.Reaches (fun _ _ => True) init c → ∀ l ∈ labels, ∀ d, I c →
      sys.step c l = some d → (I d ↔ G c l))
    (hr : sys.Reaches (fun _ _ => True) init c) (hc : I c) :
    sys.Always I c labels ↔ sys.Each G c labels := by
  induction labels generalizing c with
  | nil => simpa [Always, Each] using hc
  | cons l ls ih =>
    have hl := fun c hr => hstep c hr l List.mem_cons_self
    have ih := fun c hr hc =>
      @ih c (fun c hr l hmem => hstep c hr l (List.mem_cons_of_mem _ hmem)) hr hc
    have starts : ∀ d, sys.Always I d ls → I d := by
      intro d h
      cases ls with
      | nil => exact h
      | cons _ _ => exact h.1
    constructor
    · intro h d hd
      have hI := starts d (h.2 d hd)
      exact ⟨(hl c hr d hc hd).mp hI, (ih d (hr.step trivial hd) hI).mp (h.2 d hd)⟩
    · intro h
      refine ⟨hc, fun d hd => ?_⟩
      have hI := (hl c hr d hc hd).mpr (h d hd).1
      exact (ih d (hr.step trivial hd) hI).mpr (h d hd).2

/-- An invariant that each single step keeps exactly when it meets `G` holds throughout
a run exactly when all steps of the run meet `G`. -/
theorem always_iff_each {I : Config S ι σ α → Prop} {labels : List (Label E A ι)}
    (hstep : ∀ c, ∀ l ∈ labels, ∀ d, I c → sys.step c l = some d → (I d ↔ G c l)) (hc : I c) :
    sys.Always I c labels ↔ sys.Each G c labels :=
  always_iff_each_of_reaches (fun c _ => hstep c) .refl hc

/-- Conditions that follow from each other in the reachable configurations follow from
each other along a run. -/
theorem Each.mono {G' : Config S ι σ α → Label E A ι → Prop} {labels : List (Label E A ι)}
    (himp : ∀ c l d, sys.Reaches G init c → G c l → sys.step c l = some d → G' c l)
    (hc : sys.Reaches G init c) (h : sys.Each G c labels) : sys.Each G' c labels := by
  induction labels generalizing c with
  | nil => trivial
  | cons l ls ih =>
    intro d hd
    obtain ⟨hl, hrest⟩ := h d hd
    exact ⟨himp c l d hc hl hd, ih (hc.step hl hd) hrest⟩

/-- A schedule whose steps all meet a condition reaches its last configuration under it. -/
theorem Each.reaches {labels : List (Label E A ι)} (h : sys.Each G c labels)
    (hd : sys.schedule c labels = some d) (hc : sys.Reaches G init c) : sys.Reaches G init d := by
  induction labels generalizing c with
  | nil =>
    obtain rfl : c = d := by simpa using hd
    exact hc
  | cons l ls ih =>
    obtain ⟨u, hu, hrest⟩ := Option.bind_eq_some_iff.mp hd
    obtain ⟨hl, hls⟩ := h u hu
    exact ih hls hrest (hc.step hl hu)

/-- A condition on the labels alone joins the condition on the steps. -/
theorem Each.and_labels {F : Label E A ι → Prop} {labels : List (Label E A ι)}
    (hF : ∀ l ∈ labels, F l) (h : sys.Each G c labels) :
    sys.Each (fun c l => F l ∧ G c l) c labels := by
  induction labels generalizing c with
  | nil => trivial
  | cons l ls ih =>
    intro d hd
    obtain ⟨hl, hrest⟩ := h d hd
    exact ⟨⟨hF l List.mem_cons_self, hl⟩,
      ih (fun l' hl' => hF l' (List.mem_cons_of_mem _ hl')) hrest⟩

/-- What holds wherever steps meeting `G` lead holds throughout a run of such steps. -/
theorem Each.always {I : Config S ι σ α → Prop} {labels : List (Label E A ι)}
    (himp : ∀ c, sys.Reaches G init c → I c) (hc : sys.Reaches G init c)
    (h : sys.Each G c labels) : sys.Always I c labels := by
  induction labels generalizing c with
  | nil => exact himp c hc
  | cons l ls ih =>
    refine ⟨himp c hc, fun d hd => ?_⟩
    obtain ⟨hl, hrest⟩ := h d hd
    exact ih (hc.step hl hd) hrest

/-- Conditions along a run are checked by following it. -/
instance decidableAlways {P : Config S ι σ α → Prop} [∀ c, Decidable (P c)] :
    ∀ (labels : List (Label E A ι)) (c : Config S ι σ α), Decidable (sys.Always P c labels)
  | [], c => inferInstanceAs (Decidable (P c))
  | l :: ls, c =>
    have := decidableAlways (P := P) ls
    decidable_of_iff (P c ∧ ∀ d ∈ sys.step c l, sys.Always P d ls) Iff.rfl

instance decidableEach [∀ c l, Decidable (G c l)] :
    ∀ (labels : List (Label E A ι)) (c : Config S ι σ α), Decidable (sys.Each G c labels)
  | [], _ => inferInstanceAs (Decidable True)
  | l :: ls, c =>
    have := decidableEach ls
    decidable_of_iff (∀ d ∈ sys.step c l, G c l ∧ sys.Each G d ls) Iff.rfl

/-! ## Disciplines in a pool -/

/-- The auxiliary state of worker `i`, computed from its own entries in the log. -/
def ghost (D : Discipline S L) (l : L) (i : ι) (log : List (ι × Event S)) : L :=
  log.foldl (fun l entry => if entry.1 = i then D.track l entry.2 else l) l

@[simp] theorem ghost_nil (D : Discipline S L) (l : L) (i : ι) :
    ghost D l i ([] : List (ι × Event S)) = l := rfl

@[simp] theorem ghost_snoc (D : Discipline S L) (l : L) (i j : ι) (log : List (ι × Event S))
    (ev : Event S) :
    ghost D l i (log ++ [(j, ev)]) =
      if j = i then D.track (ghost D l i log) ev else ghost D l i log := by
  simp [ghost, List.foldl_append]

/-- Workers that follow their disciplines when they start follow them in every
interleaving, provided that the programs they launch afterwards do too. -/
theorem Reaches.follows {D : ι → Discipline S L} {post : L → α → Prop} {l : ι → L}
    (h : sys.Reaches G init c) (hlog : init.log = [])
    (start : ∀ i, (init.program i).Follows (D i) post (l i))
    (again : ∀ i l value p, post l value → sys.relaunch i value = some p →
      p.Follows (D i) post l) (i : ι) :
    (c.program i).Follows (D i) post (ghost (D i) (l i) i c.log) := by
  induction h generalizing i with
  | refl => simpa [hlog] using start i
  | @step c d label hr _ hs ih =>
    cases label with
    | run j e =>
      obtain ⟨op, rest, hp, rfl⟩ := step_run.mp hs
      by_cases hij : j = i
      · subst hij
        have hf := ih j
        rw [hp] at hf
        simpa [advance] using hf.2 _
      · simpa [advance, hij, Function.update_of_ne (Ne.symm hij)] using ih i
    | relaunch j =>
      obtain ⟨value, p, hp, hl, rfl⟩ := step_relaunch.mp hs
      by_cases hij : j = i
      · subst hij
        have hf := ih j
        rw [hp] at hf
        simpa using again j _ value p hf hl
      · simpa [Function.update_of_ne (Ne.symm hij)] using ih i
    | environment a =>
      obtain rfl := step_environment.mp hs
      exact ih i

end System

end Interleaving
