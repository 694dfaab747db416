import WebhookRelay.Library.Translation
import WebhookRelay.Model.Celery
import WebhookRelay.Model.Editing

/-!
# Secret edits beside deliveries

A delivery writes the circuit columns by targeted updates. The command
`rotate_signing_secret` and the admin load the whole row and write it back with `save()`, so
what deliveries have written to the circuit in between is undone.

`circuit_undisturbed_iff` says exactly when this does not happen: every `save()` finds the
circuit columns as they were when its run loaded the row.
-/

namespace WebhookRelay

open Interleaving Program

/-! ## The circuit columns -/

/-- The three columns that belong to the breaker. -/
structure CircuitColumns where
  circuitState : CircuitState
  consecutiveFailures : Nat
  circuitOpenedAt : Option Time
  deriving DecidableEq

def WebhookEndpoint.circuit (self : WebhookEndpoint) : CircuitColumns :=
  ⟨self.circuitState, self.consecutiveFailures, self.circuitOpenedAt⟩

/-- What an operation of a delivery makes of the circuit. -/
def Op.onCircuit : Op → CircuitColumns → CircuitColumns
  | .setHalfOpen, circuit =>
    if circuit.circuitState = .open then { circuit with circuitState := .halfOpen } else circuit
  | .resetCircuit, _ => ⟨.closed, 0, none⟩
  | .incrementFailures, circuit =>
    { circuit with consecutiveFailures := circuit.consecutiveFailures + 1 }
  | .openCircuit openedAt, circuit =>
    { circuit with circuitState := .open, circuitOpenedAt := some openedAt }
  | _, circuit => circuit

theorem circuit_respond (outside : Outside) (op : Op) (s : Store) :
    (respond outside op s).2.endpoint.circuit = op.onCircuit s.endpoint.circuit ∧
      (respond outside op s).2.endpoint.pk = s.endpoint.pk := by
  cases op with
  | setHalfOpen =>
    by_cases h : s.endpoint.circuitState = .open <;>
      simp [respond, Op.onCircuit, WebhookEndpoint.circuit, WebhookEndpoint.halfOpened, h]
  | _ => exact ⟨rfl, rfl⟩

/-! ## Deliveries and edits over one stored row -/

/-- The operations of deliveries beside those of edits. -/
abbrev together : Signature := relay.sum editing

/-- How a delivery or an edit ends. -/
abbrev Finish := TaskEnd ⊕ Except EditError Unit

section Together

variable (F : Fernet) (key : Option String) (pk : Nat)

/-- `objects.get(pk=…, enabled=True)` on the stored row. -/
def loadEnabled : Program together (Except Finish (Except PyError (Option WebhookEndpoint))) :=
  .call (.inr (.getRow pk)) fun row => .ret (.ok (enabledOf F key row))

/-- An operation of a delivery, where the row holds encrypted columns. -/
def performDelivery : (op : Op) → Program together (Except Finish op.Answer)
  | .getEnabled => loadEnabled F key pk
  | op => .call (.inl op) fun answer => .ret (.ok answer)

/-- What a worker does to the endpoint. -/
inductive Role where
  | delivers (job : Job)
  | edits (edit : SecretEdit F)

/-- The attempt of a delivery with a given number of retries. -/
def delivery (lib : Primitives) (settings : Settings) (job : Job) (retries : Nat) :
    Program together Finish :=
  (deliverWebhook lib settings job retries).translate (performDelivery F key pk) .inl

/-- What a worker starts with. -/
def Role.program (lib : Primitives) (settings : Settings) : Role F → Program together Finish
  | .delivers job => delivery F key pk lib settings job 0
  | .edits edit => (edit.run settings key pk).right .inr

/-- A delivery that ends in a retry goes on; an edit is over when it has returned. -/
def Role.again (lib : Primitives) (settings : Settings) :
    Role F → Finish → Option (Program together Finish)
  | .delivers job, .inl (.retry retries _) => some (delivery F key pk lib settings job retries)
  | _, _ => none

/-- How the table answers an edit, as far as the row of the endpoint is concerned. -/
def editEndpoint : Handler editing EditOutside Store := fun outside op s =>
  let r := respondEdit outside op [s.endpoint]
  (r.1, { s with
    endpoint := (r.2.find? fun row => row.pk = s.endpoint.pk).getD s.endpoint })

/-- Only a delivery that is to be retried goes on. -/
theorem Role.again_eq_some {lib : Primitives} {settings : Settings} {role : Role F} {value : Finish}
    {p : Program together Finish} (h : role.again F key pk lib settings value = some p) :
    ∃ job retries, role = .delivers job ∧ p = delivery F key pk lib settings job retries := by
  unfold Role.again at h
  split at h
  · obtain rfl := Option.some.inj h
    exact ⟨_, _, rfl, rfl⟩
  · cases h

variable {F} {ι : Type} (lib : Primitives) (settings : Settings) (roles : ι → Role F)

/-- Any number of deliveries to the endpoint and edits of it, while time passes. -/
def sharing : System together (Outside × EditOutside) Nat ι Store Finish where
  handle := Handler.sum database editEndpoint
  environment duration s := { s with clock := s.clock + duration }
  relaunch i := (roles i).again F key pk lib settings

/-- Everyone is about to start. -/
def beginTogether (s : Store) : Config together ι Store Finish where
  store := s
  program i := (roles i).program F key pk lib settings
  log := []

end Together

/-! ## What an edit writes back -/

/-- The row that an operation saves. -/
def rowOf : together.Op → Option EndpointRow
  | .inr (.saveRow row) => some row
  | _ => none

/-- The copy has the primary key and the circuit columns of the row. -/
def Unmoved (row copy : WebhookEndpoint) : Prop :=
  copy.pk = row.pk ∧ copy.circuit = row.circuit

/-- The row that a run has loaded last. -/
def trackLoad : Option EndpointRow → Event editing → Option EndpointRow
  | _, ⟨.getRow _, some row⟩ => some row
  | loaded, _ => loaded

/-- A run saves as a whole only what it has loaded, with the circuit columns as they were. -/
def writingBack : Discipline editing (Option EndpointRow) where
  track := trackLoad
  permits loaded op := ∀ saved, op = .saveRow saved → ∃ row ∈ loaded, Unmoved row saved

/-- Everything but a save is permitted. -/
theorem permits_of_ne {loaded : Option EndpointRow} {op : EditOp}
    (h : ∀ saved, op ≠ .saveRow saved) : writingBack.permits loaded op :=
  fun saved hsave => absurd hsave (h saved)

section WritingBack

variable {F : Fernet} {key : Option String} {settings : Settings} {row : EndpointRow}
  {endpoint : WebhookEndpoint}

/-- An edit of the instance that goes on with a copy that is as unmoved. -/
def Returns (row : EndpointRow) (loaded : Option EndpointRow)
    (result : Except EditError WebhookEndpoint) : Prop :=
  loaded = some row ∧ ∀ copy, result = .ok copy → Unmoved row copy

theorem returns_ok (h : Unmoved row endpoint) : Returns row (some row) (.ok endpoint) :=
  ⟨rfl, by rintro _ ⟨⟩; exact h⟩

theorem returns_error (e : EditError) : Returns row (some row) (.error e) :=
  ⟨rfl, fun _ hcopy => by cases hcopy⟩

theorem unmoved_keepPrevious (h : Unmoved row endpoint) (keep : Bool) (oldSecret : String) :
    Unmoved row (keepPrevious keep oldSecret endpoint) := by
  unfold keepPrevious
  split <;> exact h

theorem unmoved_clearPrevious (h : Unmoved row endpoint) (clear : Bool) :
    Unmoved row (clearPrevious clear endpoint) := by
  unfold clearPrevious
  split <;> exact h

theorem follows_setSecret (backend : SecretBackend) (h : Unmoved row endpoint)
    (plaintext : String) : (backend.setSecret settings endpoint plaintext).Follows writingBack
      (Returns row) (some row) := by
  cases backend with
  | database => exact returns_ok h
  | awsSecretsManager =>
    simp only [SecretBackend.setSecret, awsSetSecret]
    split
    · exact returns_error _
    · split
      · refine ⟨permits_of_ne (by simp), fun answer => ?_⟩
        cases answer with
        | failed => exact returns_error _
        | _ => exact returns_ok h
      · refine ⟨permits_of_ne (by simp), fun answer => ?_⟩
        cases answer with
        | done => exact returns_ok h
        | failed => exact returns_error _
        | resourceNotFound =>
          refine ⟨permits_of_ne (by simp), fun answer => ?_⟩
          cases answer with
          | done => exact returns_ok h
          | _ => exact returns_error _

theorem follows_andThen {edit : Edit WebhookEndpoint} {next : WebhookEndpoint → Edit Unit}
    (hedit : edit.Follows writingBack (Returns row) (some row))
    (hnext : ∀ copy, Unmoved row copy →
      (next copy).Follows writingBack (fun _ _ => True) (some row)) :
    (andThen edit next).Follows writingBack (fun _ _ => True) (some row) := by
  refine Follows.bind hedit fun loaded result h => ?_
  obtain ⟨rfl, hcopy⟩ := h
  cases result with
  | error e => trivial
  | ok copy => exact hnext copy (hcopy copy rfl)

theorem follows_loadThen {pk : Nat} {missing : EditError}
    {next : WebhookEndpoint → Edit Unit} {loaded : Option EndpointRow}
    (hnext : ∀ row endpoint, Unmoved row endpoint →
      (next endpoint).Follows writingBack (fun _ _ => True) (some row)) :
    (loadThen F key pk missing next).Follows writingBack (fun _ _ => True) loaded := by
  refine ⟨permits_of_ne (by simp), fun answer => ?_⟩
  cases answer with
  | none => trivial
  | some row =>
    dsimp only
    split
    · trivial
    · next endpoint hload =>
      have hrow := (loadRow_inv hload).2.2
      exact hnext row endpoint ⟨by rw [hrow], by rw [hrow]; rfl⟩

theorem follows_saveEndpoint (h : Unmoved row endpoint) (saving : Saving F) :
    (saveEndpoint F key saving endpoint).Follows writingBack (fun _ _ => True) (some row) := by
  unfold saveEndpoint
  split
  · trivial
  · next saved hsaved =>
    refine ⟨?_, fun _ => trivial⟩
    rintro _ ⟨⟩
    obtain ⟨-, -, hrow⟩ := prepareRow_inv (acceptedRow_inv hsaved).1
    exact ⟨row, rfl, by rw [hrow]; exact h.1, by rw [hrow]; exact h.2⟩

theorem follows_setNewSecret (backend : SecretBackend) (noKeepPrevious : Bool)
    (file : SecretFile) (h : Unmoved row endpoint) :
    (setNewSecret settings backend noKeepPrevious file endpoint).Follows writingBack
      (Returns row) (some row) := by
  unfold setNewSecret
  split
  · exact returns_error _
  · split
    · exact returns_error _
    · split
      · exact returns_error _
      · exact follows_setSecret backend (unmoved_keepPrevious h _ _) _

theorem follows_rotateSigningSecret (saving : Saving F) (options : RotateOptions)
    (loaded : Option EndpointRow) : (rotateSigningSecret F settings key saving options).Follows
      writingBack (fun _ _ => True) loaded := by
  refine follows_loadThen fun row endpoint h => ?_
  split
  · trivial
  · split
    · trivial
    · refine follows_andThen ?_ fun copy hcopy =>
        follows_saveEndpoint (unmoved_clearPrevious hcopy _) saving
      split
      · exact returns_ok h
      · exact follows_setNewSecret _ _ _ h

/-- The edit has a name of its own here, because it is slow to evaluate. -/
theorem follows_saveModelSecrets {backend : SecretBackend} {form : AdminForm}
    {oldSecret : String} {edit : Edit WebhookEndpoint} (h : Unmoved row endpoint)
    (hedit : saveModelSecrets settings backend form oldSecret endpoint = edit) :
    edit.Follows writingBack (Returns row) (some row) := by
  unfold saveModelSecrets at hedit
  split at hedit
  · subst hedit
    exact follows_setSecret backend (unmoved_keepPrevious h _ _) _
  · split at hedit
    · subst hedit
      exact follows_setSecret backend h ""
    · subst hedit
      exact returns_ok h

theorem follows_adminSave (saving : Saving F) (pk : Nat) (form : AdminForm)
    (loaded : Option EndpointRow) :
    (adminSave F settings key saving pk form).Follows writingBack (fun _ _ => True) loaded := by
  refine follows_loadThen fun row endpoint h => ?_
  have hobj : Unmoved row (form.construct endpoint) := h
  dsimp only
  split
  · trivial
  · split
    · trivial
    · next backend _ =>
      generalize hedit : saveModelSecrets settings backend form endpoint.signingSecret
        (form.construct endpoint) = edit
      exact follows_andThen (follows_saveModelSecrets hobj hedit) fun copy hcopy =>
        follows_saveEndpoint (unmoved_clearPrevious hcopy _) saving

/-- An edit loads the row, and saves it with the circuit columns as they were then. -/
theorem SecretEdit.follows_run (edit : SecretEdit F) (pk : Nat) (loaded : Option EndpointRow) :
    (edit.run settings key pk).Follows writingBack (fun _ _ => True) loaded := by
  cases edit with
  | command saving options => exact follows_rotateSigningSecret saving _ loaded
  | admin saving form => exact follows_adminSave saving pk form loaded

/-- A delivery saves no row as a whole. -/
theorem follows_delivery (F : Fernet) (key : Option String) (pk : Nat) (lib : Primitives)
    (settings : Settings) (job : Job) (retries : Nat) (loaded : Option EndpointRow) :
    (delivery F key pk lib settings job retries).Follows writingBack.onRight
      (fun _ _ => True) loaded := by
  refine follows_translate (fun op loaded => ?_) _ _ loaded
  cases op with
  | getEnabled => exact ⟨permits_of_ne (by simp), fun _ => trivial⟩
  | _ => exact ⟨trivial, fun _ => trivial⟩

end WritingBack

/-! ## The circuit in a pool of deliveries and edits -/

section Replay

variable {ι : Type}

/-- What the operations of the deliveries in a log make of a circuit on their own. -/
def replay (start : CircuitColumns) (log : List (ι × Event together)) : CircuitColumns :=
  log.foldl (fun circuit entry => match entry.2.op with
    | .inl op => op.onCircuit circuit
    | .inr _ => circuit) start

theorem replay_snoc (start : CircuitColumns) (log : List (ι × Event together)) (i : ι)
    (ev : Event together) :
    replay start (log ++ [(i, ev)]) = match ev.op with
      | .inl op => op.onCircuit (replay start log)
      | .inr _ => replay start log := by
  simp only [replay, List.foldl_append, List.foldl_cons, List.foldl_nil]

end Replay

section Sharing

variable {ι : Type} [DecidableEq ι] {F : Fernet} {key : Option String} {pk : Nat}
  {lib : Primitives} {settings : Settings} {roles : ι → Role F} {s : Store}
  {c d : Config together ι Store Finish}

/-- The row that a worker has loaded last. -/
def loadedBy (i : ι) (log : List (ι × Event together)) : Option EndpointRow :=
  System.ghost (Discipline.onRight writingBack) none i log

/-- A `save()` finds the circuit columns as they were when its run loaded the row. -/
def SavesCurrent (c : Config together ι Store Finish)
    (label : Label (Outside × EditOutside) Nat ι) : Prop :=
  ∀ entry ∈ System.performed (Handler.sum database editEndpoint) c label,
    ∀ saved, entry.2.op = .inr (.saveRow saved) →
      ∀ row ∈ loadedBy entry.1 c.log, row.circuit = c.store.endpoint.circuit

/-- In every interleaving a worker saves only what it has loaded. -/
theorem loadedBy_follows {G : Config together ι Store Finish →
      Label (Outside × EditOutside) Nat ι → Prop}
    (h : (sharing key pk lib settings roles).Reaches G
      (beginTogether key pk lib settings roles s) c) (i : ι) :
    (c.program i).Follows (Discipline.onRight writingBack) (fun _ _ => True)
      (loadedBy i c.log) := by
  refine h.follows (D := fun _ => Discipline.onRight writingBack) (l := fun _ => none) rfl
    (fun i => ?_) (fun i loaded value p _ hagain => ?_) i
  · change ((roles i).program F key pk lib settings).Follows _ _ _
    cases roles i with
    | delivers job => exact follows_delivery F key pk lib settings job 0 none
    | edits edit => exact follows_right _ (edit.follows_run pk none)
  · obtain ⟨job, retries, -, rfl⟩ := Role.again_eq_some F key pk hagain
    exact follows_delivery F key pk lib settings job retries loaded

/-- How an edit leaves the row. -/
theorem editEndpoint_endpoint (outside : EditOutside) (op : EditOp) (s : Store) :
    (editEndpoint outside op s).2.endpoint = match op with
      | .saveRow saved => if saved.pk = s.endpoint.pk then saved else s.endpoint
      | .saveSecrets saved =>
        if saved.pk = s.endpoint.pk then withSecretsOf saved s.endpoint else s.endpoint
      | _ => s.endpoint := by
  cases op with
  | saveRow saved =>
    by_cases h : saved.pk = s.endpoint.pk
    · simp [editEndpoint, respondEdit, updateRow, h]
    · simp [editEndpoint, respondEdit, h, Ne.symm h]
  | saveSecrets saved =>
    by_cases h : saved.pk = s.endpoint.pk
    · simp [editEndpoint, respondEdit, updateRow, h, withSecretsOf]
    · simp [editEndpoint, respondEdit, updateRow, h, Ne.symm h]
  | _ => simp [editEndpoint, respondEdit]

/-- Only a `save()` can move the circuit. -/
theorem circuit_editEndpoint {op : EditOp} (h : ∀ saved, op ≠ .saveRow saved)
    (outside : EditOutside) (s : Store) :
    (editEndpoint outside op s).2.endpoint.circuit = s.endpoint.circuit ∧
      (editEndpoint outside op s).2.endpoint.pk = s.endpoint.pk := by
  rw [editEndpoint_endpoint]
  cases op with
  | saveRow saved => exact absurd rfl (h saved)
  | saveSecrets saved =>
    dsimp only
    split <;> exact ⟨rfl, rfl⟩
  | _ => exact ⟨rfl, rfl⟩

/-- The primary key never changes, and what a worker has loaded is a version of the row. -/
structure Placed (pk : Nat) (c : Config together ι Store Finish) : Prop where
  stored : c.store.endpoint.pk = pk
  loaded : ∀ i, ∀ row ∈ loadedBy i c.log, row.pk = pk

theorem loadedBy_snoc (i j : ι) (log : List (ι × Event together)) (ev : Event together) :
    loadedBy i (log ++ [(j, ev)]) =
      if j = i then (Discipline.onRight writingBack).track (loadedBy i log) ev
      else loadedBy i log := System.ghost_snoc _ _ _ _ _ _

/-- What an operation of an edit adds to what is known to be loaded. -/
theorem mem_trackLoad {outside : EditOutside} {op : EditOp} {s : Store}
    {loaded : Option EndpointRow} {row : EndpointRow}
    (h : row ∈ trackLoad loaded ⟨op, (editEndpoint outside op s).1⟩) :
    row ∈ loaded ∨ row = s.endpoint := by
  cases op with
  | getRow pk =>
    by_cases hpk : s.endpoint.pk = pk
    · simp [editEndpoint, respondEdit, hpk, trackLoad] at h
      exact .inr h.symm
    · simp [editEndpoint, respondEdit, hpk, trackLoad] at h
      exact .inl h
  | _ => exact .inl h

/-- A property of a row that the statements of deliveries keep, and edits that save what was
loaded with it. -/
structure Lasting (P : EndpointRow → Prop) : Prop where
  respond : ∀ (outside : Outside) (op : Op) (s : Store), P s.endpoint →
    P (respond outside op s).2.endpoint
  saveRow : ∀ row saved, P row → Unmoved row saved → P saved
  saveSecrets : ∀ saved row, P row → P (withSecretsOf saved row)

section Lasting

variable {A α : Type} {P : EndpointRow → Prop} {c : Config together ι Store α}

/-- What is stored has the property, and so has what was loaded last. -/
def Throughout (P : EndpointRow → Prop) (c : Config together ι Store α) : Prop :=
  P c.store.endpoint ∧ ∀ i, ∀ row ∈ loadedBy i c.log, P row

theorem Lasting.edited (hP : Lasting P) {op : EditOp} {loaded : Option EndpointRow}
    {s : Store} (hpermits : writingBack.permits loaded op) (hs : P s.endpoint)
    (hloaded : ∀ row ∈ loaded, P row) (outside : EditOutside) :
    P (editEndpoint outside op s).2.endpoint := by
  rw [editEndpoint_endpoint]
  cases op with
  | saveRow saved =>
    obtain ⟨row, hrow, hunmoved⟩ := hpermits saved rfl
    dsimp only
    split
    · exact hP.saveRow row saved (hloaded row hrow) hunmoved
    · exact hs
  | saveSecrets saved =>
    dsimp only
    split
    · exact hP.saveSecrets saved _ hs
    · exact hs
  | _ => exact hs

variable {sys : System together (Outside × EditOutside) A ι Store α}
  {G : Config together ι Store α → Label (Outside × EditOutside) A ι → Prop}
  {init : Config together ι Store α}

/-- One operation of a worker that saves only what it has loaded. -/
theorem Lasting.advance (hP : Lasting P) {i : ι} {outside : Outside × EditOutside}
    {op : together.Op} {rest : together.Answer op → Program together α}
    {post : Option EndpointRow → α → Prop} (h : Throughout P c)
    (hhandle : sys.handle = Handler.sum database editEndpoint)
    (hfollows : (Program.call op rest).Follows writingBack.onRight post (loadedBy i c.log)) :
    Throughout P (sys.advance c i outside op rest) := by
  obtain ⟨hstored, hloaded⟩ := h
  cases op with
  | inl op =>
    constructor
    · simp only [System.advance, hhandle]
      exact hP.respond outside.1 op c.store hstored
    · intro j row hrow
      refine hloaded j row ?_
      simp only [System.advance, loadedBy_snoc] at hrow
      split at hrow <;> exact hrow
  | inr op =>
    constructor
    · simp only [System.advance, hhandle]
      exact hP.edited hfollows.1 hstored (hloaded i) outside.2
    · intro j row hrow
      simp only [System.advance, hhandle, loadedBy_snoc] at hrow
      split at hrow
      · next hij =>
        subst hij
        rcases mem_trackLoad hrow with hrow | rfl
        · exact hloaded i row hrow
        · exact hstored
      · exact hloaded j row hrow

/-- In a pool whose workers save only what they have loaded, the property lasts. -/
theorem Lasting.reaches (hP : Lasting P) {post : Option EndpointRow → α → Prop}
    (hhandle : sys.handle = Handler.sum database editEndpoint)
    (henvironment : ∀ a s, (sys.environment a s).endpoint = s.endpoint) (hlog : init.log = [])
    (hinit : P init.store.endpoint)
    (hfollows : ∀ c, sys.Reaches G init c → ∀ i,
      (c.program i).Follows writingBack.onRight post (loadedBy i c.log))
    (h : sys.Reaches G init c) : Throughout P c := by
  refine h.invariant (I := Throughout P) ⟨hinit, ?_⟩ fun c label d hr hthroughout _ hs => ?_
  · intro i row hrow
    rw [hlog] at hrow
    cases hrow
  · cases label with
    | run i outside =>
      obtain ⟨op, rest, hp, rfl⟩ := System.step_run.mp hs
      exact hP.advance hthroughout hhandle (hp ▸ hfollows c hr i)
    | relaunch i =>
      obtain ⟨_, _, -, -, rfl⟩ := System.step_relaunch.mp hs
      exact hthroughout
    | environment a =>
      obtain rfl := System.step_environment.mp hs
      refine ⟨?_, hthroughout.2⟩
      dsimp only
      rw [henvironment]
      exact hthroughout.1

end Lasting

theorem placed_of_reaches {G : Config together ι Store Finish →
      Label (Outside × EditOutside) Nat ι → Prop}
    (h : (sharing key pk lib settings roles).Reaches G
      (beginTogether key pk lib settings roles s) c) : Placed s.endpoint.pk c := by
  have hlasting : Lasting fun row => row.pk = s.endpoint.pk :=
    ⟨fun outside op s hs => (circuit_respond outside op s).2.trans hs,
      fun _ _ hrow hunmoved => hunmoved.1.trans hrow, fun _ _ hrow => hrow⟩
  obtain ⟨hstored, hloaded⟩ := hlasting.reaches rfl (fun _ _ => rfl) rfl rfl
    (fun _ hr => loadedBy_follows hr) h
  exact ⟨hstored, hloaded⟩

/-- The stored circuit is what the deliveries alone would have made of the first one. -/
def CircuitFromDeliveries (start : CircuitColumns) (c : Config together ι Store Finish) : Prop :=
  c.store.endpoint.circuit = replay start c.log

/-- A step leaves the circuit undisturbed exactly if it saves no outdated columns. -/
theorem circuitFromDeliveries_step {start : CircuitColumns}
    (hr : (sharing key pk lib settings roles).Reaches (fun _ _ => True)
      (beginTogether key pk lib settings roles s) c) (h : CircuitFromDeliveries start c)
    {label : Label (Outside × EditOutside) Nat ι}
    (hs : (sharing key pk lib settings roles).step c label = some d) :
    CircuitFromDeliveries start d ↔ SavesCurrent c label := by
  cases label with
  | run i outside =>
    obtain ⟨op, rest, hp, rfl⟩ := System.step_run.mp hs
    have hfollows := loadedBy_follows hr i
    rw [hp] at hfollows
    simp only [SavesCurrent, System.performed_run hp, Option.mem_some_iff, forall_eq']
    cases op with
    | inl op =>
      refine iff_of_true ?_ fun saved hop => by cases hop
      rw [CircuitFromDeliveries, System.advance, replay_snoc]
      exact h ▸ (circuit_respond outside.1 op c.store).1
    | inr op =>
      rw [CircuitFromDeliveries, System.advance, replay_snoc]
      change (editEndpoint outside.2 op c.store).2.endpoint.circuit = replay start c.log ↔ _
      rw [← h]
      by_cases hsave : ∃ saved, op = .saveRow saved
      · obtain ⟨saved, rfl⟩ := hsave
        obtain ⟨row, hrow, hunmoved⟩ := hfollows.1 saved rfl
        have hplaced := placed_of_reaches hr
        have hpk : saved.pk = c.store.endpoint.pk :=
          hunmoved.1.trans ((hplaced.loaded i row hrow).trans hplaced.stored.symm)
        have hstore : (editEndpoint outside.2 (.saveRow saved) c.store).2.endpoint = saved := by
          rw [editEndpoint_endpoint]
          exact if_pos hpk
        rw [hstore, hunmoved.2]
        constructor
        · rintro heq _ - row' hrow'
          rw [Option.mem_unique hrow' hrow, heq]
        · exact fun hcurrent => hcurrent saved rfl row hrow
      · refine iff_of_true (circuit_editEndpoint (not_exists.mp hsave) outside.2 c.store).1 ?_
        rintro saved ⟨⟩
        exact absurd ⟨saved, rfl⟩ hsave
  | relaunch i =>
    obtain ⟨_, _, -, -, rfl⟩ := System.step_relaunch.mp hs
    exact iff_of_true h (by rintro _ ⟨⟩)
  | environment duration =>
    obtain rfl := System.step_environment.mp hs
    exact iff_of_true h (by rintro _ ⟨⟩)

/-- In every run of deliveries to an endpoint beside secret edits of it, the stored circuit is
throughout what the statements of the deliveries alone would have made of it, exactly if every
`save()` of an edit finds the circuit columns as its run had loaded them. -/
theorem circuit_undisturbed_iff (key : Option String) (lib : Primitives) (settings : Settings)
    (roles : ι → Role F) (s : Store) (labels : List (Label (Outside × EditOutside) Nat ι)) :
    (sharing key s.endpoint.pk lib settings roles).Always (CircuitFromDeliveries s.endpoint.circuit)
        (beginTogether key s.endpoint.pk lib settings roles s) labels ↔
      (sharing key s.endpoint.pk lib settings roles).Each SavesCurrent
        (beginTogether key s.endpoint.pk lib settings roles s) labels :=
  System.always_iff_each_of_reaches (fun _ hr _ _ _ h hs => circuitFromDeliveries_step hr h hs)
    .refl rfl

end Sharing

/-! ## A rotation across an opening -/

/-- A delivery, and the end of a rotation by `rotate_signing_secret --clear-previous`. -/
def deliveryAndRotation : Bool → Role Fernet.padded
  | true => .delivers emptyJob
  | false => .edits (.command exampleSaving { endpointId := 1, clearPrevious := true })

/-- The command loads the row, the delivery fails and opens the circuit, the command saves. -/
def staleSave : List (Label (Outside × EditOutside) Nat Bool) :=
  let turn i := .run i ({ outcome := .response 400 "" }, {})
  turn false :: List.replicate 10 (turn true) ++ [turn false]

/-- The circuit that the delivery has opened is closed again. -/
theorem opened_circuit_lost : ∃ d,
    (sharing exampleKey newEndpoint.pk emptyLib {} deliveryAndRotation).schedule
        (beginTogether exampleKey newEndpoint.pk emptyLib {} deliveryAndRotation brittle)
        staleSave = some d ∧
      replay brittle.endpoint.circuit d.log = ⟨.open, 1, some 0⟩ ∧
      d.store.endpoint.circuit = ⟨.closed, 0, none⟩ := by
  have hrun : ((sharing exampleKey newEndpoint.pk emptyLib {} deliveryAndRotation).schedule
        (beginTogether exampleKey newEndpoint.pk emptyLib {} deliveryAndRotation brittle)
        staleSave).map (fun d => (replay brittle.endpoint.circuit d.log,
          d.store.endpoint.circuit)) = some (⟨.open, 1, some 0⟩, ⟨.closed, 0, none⟩) := by
    decide +kernel
  obtain ⟨d, hd, heq⟩ := Option.map_eq_some_iff.mp hrun
  obtain ⟨hreplay, hstored⟩ := Prod.mk.inj heq
  exact ⟨d, hd, hreplay, hstored⟩

end WebhookRelay
