import WebhookRelay.Breaker.Edits

/-!
# The branch that fails open

`try_acquire_delivery_slot` lets a delivery through when the circuit is open and the time of its
opening is missing. No statement of the breaker leaves such a row, and an edit only writes back
columns that were stored before, so no copy of the row is ever in that state.

## Main results

* `dated_of_reaches` — in any pool that writes back only what it has loaded, every circuit that is
  not closed has the time of its opening.
* `failOpen_unreachable` — no worker takes the branch.
-/

namespace WebhookRelay

open Interleaving Program

/-- A circuit that is not closed has the time of its opening. -/
def CircuitColumns.Dated (circuit : CircuitColumns) : Prop :=
  circuit.circuitState ≠ .closed → circuit.circuitOpenedAt.isSome

theorem CircuitColumns.Dated.onCircuit {circuit : CircuitColumns} (h : circuit.Dated) (op : Op) :
    (op.onCircuit circuit).Dated := by
  cases op with
  | setHalfOpen =>
    by_cases hopen : circuit.circuitState = .open
    · rw [Op.onCircuit, if_pos hopen]
      exact fun _ => h (by rw [hopen]; decide)
    · rw [Op.onCircuit, if_neg hopen]
      exact h
  | resetCircuit => exact fun hne => absurd rfl hne
  | openCircuit openedAt => exact fun _ => rfl
  | _ => exact h

/-! ## The branch -/

namespace WebhookEndpoint

/-- The copy is in the state that `try_acquire_delivery_slot` calls inconsistent. -/
def failsOpen (self : WebhookEndpoint) : Bool :=
  self.circuitBreakerEnabled && self.circuitState = .open && self.circuitOpenedAt.isNone

variable {self : WebhookEndpoint}

theorem not_failsOpen (h : self.circuit.Dated) : self.failsOpen = false := by
  refine Bool.eq_false_iff.mpr fun hfails => ?_
  simp only [failsOpen, Bool.and_eq_true, decide_eq_true_eq, Option.isNone_iff_eq_none] at hfails
  obtain ⟨⟨-, hopen⟩, hnone⟩ := hfails
  have hdated : self.circuitOpenedAt.isSome := h fun hclosed => by cases hopen.symm.trans hclosed
  rw [hnone] at hdated
  cases hdated

/-- A slot is given without looking at the row if the breaker is off, if the circuit is closed,
and on the branch that fails open. -/
theorem tryAcquireDeliverySlot_at_once : self.tryAcquireDeliverySlot = .ret (true, self) ↔
    self.circuitBreakerEnabled = false ∨ self.circuitState = .closed ∨ self.failsOpen := by
  have hbind := self.tryAcquireDeliverySlot_bind .ret
  rw [bind_ret] at hbind
  rw [hbind]
  unfold failsOpen
  cases henabled : self.circuitBreakerEnabled with
  | false => simp
  | true =>
    cases hstate : self.circuitState with
    | closed => simp
    | halfOpen => simp
    | «open» => cases hopenedAt : self.circuitOpenedAt <;> simp

/-! ## The copy that a method leaves -/

/-- Whatever is answered, the copy that the method returns meets the condition. -/
abbrev Leaves {α : Type} (method : Delivery α) (Q : α → Prop) : Prop :=
  method.Follows (only fun _ => True) (fun _ => Q) ()

variable {P : Prop}

theorem leaves_tryAcquireDeliverySlot (h : P → self.circuit.Dated) :
    Leaves self.tryAcquireDeliverySlot fun r => P → r.2.circuit.Dated := by
  have hbind := self.tryAcquireDeliverySlot_bind .ret
  rw [bind_ret] at hbind
  rw [hbind]
  split
  · exact h
  · split
    · exact h
    · split
      · exact h
      · next hopenedAt =>
        refine ⟨trivial, fun time => ?_⟩
        dsimp only
        split
        · exact h
        · refine ⟨trivial, fun won => ?_⟩
          dsimp only
          split
          · intro _ _
            exact Option.isSome_iff_exists.mpr ⟨_, hopenedAt⟩
          · exact h

theorem leaves_recordCircuitSuccess :
    Leaves self.recordCircuitSuccess fun copy => P → copy.circuit.Dated :=
  ⟨trivial, fun _ _ hne => absurd rfl hne⟩

theorem leaves_recordCircuitFailure (h : P → self.circuit.Dated) :
    Leaves self.recordCircuitFailure fun copy => P → copy.circuit.Dated := by
  have hbind := self.recordCircuitFailure_bind .ret
  rw [bind_ret] at hbind
  rw [hbind]
  refine ⟨trivial, fun _ => ⟨trivial, fun failures => ?_⟩⟩
  dsimp only
  split
  · exact ⟨trivial, fun openedAt => ⟨trivial, fun _ _ _ => rfl⟩⟩
  · exact h

end WebhookEndpoint

/-! ## Workers and edits -/

/-- What a worker does with the breaker: it loads the row and calls methods on the copy that it
has, in any order, each chosen after what the calls before it returned. -/
inductive BreakerScript where
  | done
  | load (next : Option WebhookEndpoint → BreakerScript)
  | tryAcquireDeliverySlot (next : Bool × WebhookEndpoint → BreakerScript)
  | recordCircuitSuccess (next : WebhookEndpoint → BreakerScript)
  | recordCircuitFailure (next : WebhookEndpoint → BreakerScript)

/-- How a worker ends. -/
inductive WorkerEnd where
  | done
  | raised (error : PyError)
  /-- on the branch of `try_acquire_delivery_slot` that fails open -/
  | failedOpen

/-- How a worker or an edit ends. -/
abbrev Ending := WorkerEnd ⊕ Except EditError Unit

section Actors

variable (F : Fernet) (key : Option String) (pk : Nat)

/-- The statements of a worker with the copy that it has. -/
def BreakerScript.run : BreakerScript → Option WebhookEndpoint → Program together Ending
  | .done, _ => .ret (.inl .done)
  | .load next, _ => .call (.inr (.getRow pk)) fun
    | none => (next none).run none
    | some row => match loadRow F key row with
      | .error e => .ret (.inl (.raised e))
      | .ok copy => (next (some copy)).run (some copy)
  | .tryAcquireDeliverySlot next, some self =>
    -- the source goes on with True here, but then the branch would not show
    if self.failsOpen then .ret (.inl .failedOpen)
    else self.tryAcquireDeliverySlot.left >>= fun r => (next r).run (some r.2)
  | .recordCircuitSuccess next, some self =>
    self.recordCircuitSuccess.left >>= fun copy => (next copy).run (some copy)
  | .recordCircuitFailure next, some self =>
    self.recordCircuitFailure.left >>= fun copy => (next copy).run (some copy)
  | _, none => .ret (.inl .done) -- nothing to call a method on

/-- A worker, or an edit that loads the whole row and saves it. -/
inductive Actor where
  | works (script : BreakerScript)
  | edits (edit : SecretEdit F)

def Actor.program (settings : Settings) : Actor F → Program together Ending
  | .works script => script.run F key pk none
  | .edits edit => (edit.run settings key pk).right .inr

variable {F} {ι : Type} (settings : Settings) (actors : ι → Actor F)
  (again : ι → Ending → Option (Actor F))

/-- Any number of workers and edits, each of which may be followed by others, while time passes. -/
def acting : System together (Outside × EditOutside) Nat ι Store Ending where
  handle := Handler.sum database editEndpoint
  environment duration s := { s with clock := s.clock + duration }
  relaunch i value := (again i value).map (Actor.program F key pk settings)

/-- Everyone is about to start. -/
def beginActing (s : Store) : Config together ι Store Ending where
  store := s
  program i := (actors i).program F key pk settings
  log := []

end Actors

/-! ## What the copies come from -/

/-- The row that was loaded last has the time of its opening. -/
def LoadedDated (loaded : Option EndpointRow) : Prop := ∀ row ∈ loaded, row.circuit.Dated

/-- The branch is not where it ends, as far as it depends on what was loaded. -/
def NotFailedOpen (loaded : Option EndpointRow) (value : Ending) : Prop :=
  LoadedDated loaded → value ≠ .inl .failedOpen

section Follows

variable {F : Fernet} {key : Option String} {pk : Nat}

/-- A worker takes the branch only on a copy that was stored without the time of its opening. -/
theorem BreakerScript.follows_run (script : BreakerScript) {copy : Option WebhookEndpoint}
    {loaded : Option EndpointRow}
    (hcopy : LoadedDated loaded → ∀ self ∈ copy, self.circuit.Dated) :
    (script.run F key pk copy).Follows writingBack.onRight NotFailedOpen loaded := by
  induction script generalizing copy loaded with
  | done => exact fun _ => nofun
  | load next ih =>
    rw [run]
    refine ⟨permits_of_ne (by simp), fun answer => ?_⟩
    cases answer with
    | none => exact ih none fun _ _ hself => by cases hself
    | some row =>
      dsimp only
      split
      · exact fun _ => nofun
      · next self hload =>
        refine ih (some self) fun hloaded => ?_
        rintro _ ⟨⟩
        have hrow := (loadRow_inv hload).2.2
        rw [hrow]
        exact hloaded row rfl
  | tryAcquireDeliverySlot next ih =>
    cases copy with
    | none => exact fun _ => nofun
    | some self =>
      rw [run]
      split
      · next hfails =>
        intro hloaded
        rw [WebhookEndpoint.not_failsOpen (hcopy hloaded self rfl)] at hfails
        cases hfails
      · refine follows_left_bind (WebhookEndpoint.leaves_tryAcquireDeliverySlot
          fun hloaded => hcopy hloaded self rfl) fun r hr => ih r fun hloaded => ?_
        rintro _ ⟨⟩
        exact hr hloaded
  | recordCircuitSuccess next ih =>
    cases copy with
    | none => exact fun _ => nofun
    | some self =>
      refine follows_left_bind (WebhookEndpoint.leaves_recordCircuitSuccess
        (P := LoadedDated loaded)) fun copy hr => ih copy fun hloaded => ?_
      rintro _ ⟨⟩
      exact hr hloaded
  | recordCircuitFailure next ih =>
    cases copy with
    | none => exact fun _ => nofun
    | some self =>
      refine follows_left_bind (WebhookEndpoint.leaves_recordCircuitFailure
        fun hloaded => hcopy hloaded self rfl) fun copy hr => ih copy fun hloaded => ?_
      rintro _ ⟨⟩
      exact hr hloaded

theorem Actor.follows_program (actor : Actor F) (settings : Settings)
    (loaded : Option EndpointRow) : (actor.program F key pk settings).Follows
      writingBack.onRight NotFailedOpen loaded := by
  cases actor with
  | works script => exact script.follows_run fun _ _ hself => by cases hself
  | edits edit => exact follows_right_of (fun _ _ _ _ => nofun) (edit.follows_run pk loaded)

end Follows

/-! ## The pool -/

section Pool

variable {ι A α : Type} [DecidableEq ι]

/-- What is stored and what was loaded last have the time of their opening. -/
structure DatedThroughout (c : Config together ι Store α) : Prop where
  stored : c.store.endpoint.circuit.Dated
  loaded : ∀ i, LoadedDated (loadedBy i c.log)

variable {sys : System together (Outside × EditOutside) A ι Store α}
  {G : Config together ι Store α → Label (Outside × EditOutside) A ι → Prop}
  {init c : Config together ι Store α}

theorem lasting_dated : Lasting fun row => row.circuit.Dated where
  respond outside op s hs := by
    rw [(circuit_respond outside op s).1]
    exact hs.onCircuit op
  saveRow _ _ hrow hunmoved := hunmoved.2 ▸ hrow
  saveSecrets _ _ hrow := hrow

/-- In a pool that writes back only what it has loaded, a circuit that is not closed always has
the time of its opening. -/
theorem dated_of_reaches {post : Option EndpointRow → α → Prop}
    (hhandle : sys.handle = Handler.sum database editEndpoint)
    (henvironment : ∀ a s, (sys.environment a s).endpoint = s.endpoint) (hlog : init.log = [])
    (hinit : init.store.endpoint.circuit.Dated)
    (hfollows : ∀ c, sys.Reaches G init c → ∀ i,
      (c.program i).Follows writingBack.onRight post (loadedBy i c.log))
    (h : sys.Reaches G init c) : DatedThroughout c := by
  obtain ⟨hstored, hloaded⟩ :=
    lasting_dated.reaches hhandle henvironment hlog hinit hfollows h
  exact ⟨hstored, hloaded⟩

end Pool

section Acting

variable {ι : Type} [DecidableEq ι] {F : Fernet} {key : Option String} {pk : Nat}
  {settings : Settings} {actors : ι → Actor F} {again : ι → Ending → Option (Actor F)} {s : Store}
  {c : Config together ι Store Ending}

/-- In every interleaving a worker takes the branch only on what it has loaded, and an edit saves
only what it has loaded. -/
theorem acting_follows {G : Config together ι Store Ending →
      Label (Outside × EditOutside) Nat ι → Prop}
    (h : (acting key pk settings again).Reaches G (beginActing key pk settings actors s) c)
    (i : ι) : (c.program i).Follows writingBack.onRight NotFailedOpen (loadedBy i c.log) := by
  refine h.follows (D := fun _ => writingBack.onRight) (l := fun _ => none) rfl
    (fun i => (actors i).follows_program settings none) (fun i loaded value p _ hagain => ?_) i
  obtain ⟨actor, -, rfl⟩ := Option.map_eq_some_iff.mp hagain
  exact actor.follows_program settings loaded

/-- The attempts of deliveries write back nothing, so beside secret edits they keep the circuit
dated as well. -/
theorem dated_sharing {lib : Primitives} {roles : ι → Role F}
    (hinit : s.endpoint.circuit.Dated) {c : Config together ι Store Finish}
    (h : (sharing key pk lib settings roles).Reaches (fun _ _ => True)
      (beginTogether key pk lib settings roles s) c) : DatedThroughout c :=
  dated_of_reaches rfl (fun _ _ => rfl) rfl hinit (fun _ hr => loadedBy_follows hr) h

/-- From a fresh circuit, in every interleaving of workers that call the breaker and edits that
write back the row, the stored circuit is closed or has the time of its opening, and no worker
takes the branch that fails open. -/
theorem failOpen_unreachable (key : Option String) (pk : Nat) (settings : Settings)
    (actors : ι → Actor F) (again : ι → Ending → Option (Actor F)) {s : Store}
    (hfresh : s.endpoint.circuit = ⟨.closed, 0, none⟩) {c : Config together ι Store Ending}
    (h : (acting key pk settings again).Reaches (fun _ _ => True)
      (beginActing key pk settings actors s) c) :
    (c.store.endpoint.circuitState ≠ .closed → c.store.endpoint.circuitOpenedAt ≠ none) ∧
      ∀ i, c.program i ≠ .ret (.inl .failedOpen) := by
  have hinit : s.endpoint.circuit.Dated := by
    rw [hfresh]
    exact fun hne => absurd rfl hne
  have hdated : DatedThroughout c :=
    dated_of_reaches rfl (fun _ _ => rfl) rfl hinit (fun c hr => acting_follows hr) h
  constructor
  · intro hne
    exact Option.isSome_iff_ne_none.mp (hdated.stored hne)
  · intro i hprogram
    have hfollows := acting_follows h i
    rw [hprogram] at hfollows
    exact hfollows (hdated.loaded i) rfl

end Acting

/-- A worker that opens the circuit and asks for a slot, beside the end of a rotation. -/
def openerAndRotation : Bool → Actor Fernet.padded
  | true => .works (.load fun _ => .recordCircuitFailure fun _ =>
      .tryAcquireDeliverySlot fun _ => .done)
  | false => .edits (.command exampleSaving { endpointId := 1, clearPrevious := true })

/-- The command loads and saves the row that the worker has opened, then the worker asks. -/
theorem failOpen_unreachable_opened : ∃ c,
    (acting (F := Fernet.padded) exampleKey newEndpoint.pk {} fun _ _ => none).schedule
        (beginActing exampleKey newEndpoint.pk {} openerAndRotation brittle)
        ([true, true, true, true, true, false, false, true].map fun i =>
          .run i (acceptance, {})) = some c ∧
      c.store.endpoint.circuitState = .open ∧ c.store.endpoint.circuitOpenedAt ≠ none ∧
        ∀ i, c.program i ≠ .ret (.inl .failedOpen) := by
  have hrun : ((acting (F := Fernet.padded) exampleKey newEndpoint.pk {} fun _ _ => none).schedule
        (beginActing exampleKey newEndpoint.pk {} openerAndRotation brittle)
        ([true, true, true, true, true, false, false, true].map fun i =>
          .run i (acceptance, {}))).map (fun c => c.store.endpoint.circuitState) =
      some .open := by
    decide +kernel
  obtain ⟨c, hc, hopen⟩ := Option.map_eq_some_iff.mp hrun
  obtain ⟨hdated, hnever⟩ := failOpen_unreachable exampleKey newEndpoint.pk {} openerAndRotation
    (fun _ _ => none) (s := brittle) rfl (System.reaches_of_schedule hc .refl)
  exact ⟨c, hc, hopen, hdated (by rw [hopen]; exact nofun), hnever⟩

end WebhookRelay
