import WebhookRelay.Breaker.Edits
import WebhookRelay.Breaker.Transitions
import WebhookRelay.Breaker.View

/-!
# No half-open circuit without a trial

The circuit should be half-open only while the delivery that was let through as the trial is
unfinished; a half-open circuit without a trial skips every delivery for ever. The deliveries run
beside edits that write back the whole row, the circuit included, and that may change what the
next attempt of the trial finds.

## Main results

* `halfOpen_under_trial` — the circuit is half-open only while its last winner is unfinished,
  throughout a run in which no trial is spoiled and no edit puts a half-open circuit back.
-/

namespace WebhookRelay

open Interleaving Program

variable {F : Fernet}

/-! ## What the log tells about a delivery -/

section Watch

variable (key : Option String) (settings : Settings)

/-- The event of the delivery that an event beside edits stands for. -/
def asDelivery : Event together → Option (Event relay)
  | ⟨.inl op, answer⟩ => some ⟨op, answer⟩
  | ⟨.inr (.getRow _), row⟩ => some ⟨.getEnabled, enabledOf F key row⟩
  | _ => none

/-- The view of a delivery, and the rule that it follows; edits have none. -/
def Role.watch : Role F → Discipline together View
  | .delivers job =>
    { track view ev := ((asDelivery (F := F) key ev).map (view.track settings job)).getD view
      permits
        | view, .inl op => view.permits settings op
        | view, .inr (.getRow _) => view.permits settings .getEnabled
        | _, .inr _ => False }
  | .edits _ =>
    { track view _ := view
      permits _ op := op.isRight }

/-- The view in which a worker ends; an edit has never owed a settlement. -/
def View.EndedTogether (view : View) : Finish → Prop
  | .inl finish => view.Ended finish
  | .inr _ => view.owes = false

variable {key settings}

theorem follows_delivery_watch (F : Fernet) (pk : Nat) (lib : Primitives) (job : Job)
    {retries : Nat} {view : View} (h : view.Ready retries) :
    (delivery F key pk lib settings job retries).Follows
      ((Role.delivers job : Role F).watch key settings) View.EndedTogether view := by
  refine follows_translate_of (R := fun l l' => l = l') (fun view _ op hview hpermits => ?_)
    (fun _ _ _ hview hended => hview ▸ hended) (View.follows_deliverWebhook lib h) rfl
  subst hview
  cases op with
  | getEnabled => exact ⟨hpermits, fun _ => rfl⟩
  | _ => exact ⟨hpermits, fun _ => rfl⟩

theorem follows_edit_watch (edit : SecretEdit F) (pk : Nat) {view : View}
    (h : view.owes = false) :
    ((edit.run settings key pk).right .inr : Program together Finish).Follows
      ((Role.edits edit).watch key settings) View.EndedTogether view := by
  generalize edit.run settings key pk = p
  induction p with
  | ret value => exact h
  | call op rest ih =>
    rw [right_call]
    exact ⟨rfl, fun answer => ih answer⟩

/-- A trial is owed and unspoiled after an event that neither settles nor spoils it. -/
theorem owes_track {job : Job} {view : View} (howes : view.owes) (hunspoiled : view.spoiled = false)
    {ev : Event together} (hspares : ∀ ev' ∈ asDelivery (F := F) key ev,
      view.spoils settings job ev' = false ∧ ev'.op ≠ .resetCircuit ∧
        ∀ openedAt, ev'.op ≠ .openCircuit openedAt) :
    (((Role.delivers job : Role F).watch key settings).track view ev).owes ∧
      (((Role.delivers job : Role F).watch key settings).track view ev).spoiled = false := by
  simp only [Role.watch]
  cases hev : asDelivery (F := F) key ev with
  | none => exact ⟨howes, hunspoiled⟩
  | some ev' =>
    obtain ⟨hspoils, hreset, hopening⟩ := hspares ev' hev
    refine ⟨View.track_owes hreset hopening ev'.answer howes, ?_⟩
    rw [Option.map_some, Option.getD_some, View.track_spoiled, hunspoiled, hspoils]
    rfl

end Watch

/-! ## Runs -/

section Pool

variable {ι : Type}

/-- The event is the update by which a trial is won. -/
def winsTrial : Event together → Bool
  | ⟨.inl op, answer⟩ => isTrial ⟨op, answer⟩
  | ⟨.inr _, _⟩ => false

/-- The delivery that has won the last trial. -/
def lastWinner (log : List (ι × Event together)) : Option ι :=
  log.foldl (fun winner entry => if winsTrial entry.2 then some entry.1 else winner) none

@[simp] theorem lastWinner_snoc (log : List (ι × Event together)) (i : ι) (ev : Event together) :
    lastWinner (log ++ [(i, ev)]) = if winsTrial ev then some i else lastWinner log := by
  simp [lastWinner]

/-- An attempt is running, or one is scheduled. -/
def unfinished : Program together Finish → Bool
  | .call _ _ | .ret (.inl (.retry _ _)) => true
  | .ret _ => false

/-- While the circuit is half-open, the delivery let through as the trial is unfinished. -/
def HalfOpenUnderTrial (c : Config together ι Store Finish) : Prop :=
  c.store.endpoint.circuitState = .halfOpen →
    ∃ i ∈ lastWinner c.log, unfinished (c.program i)

/-- An event of a delivery spares a trial if it is not the trial's own, or does not spoil it; and
a trial is won only with a row from which the request can be built. An edit does not put back
a half-open circuit that it has loaded. -/
def Role.Spares (key : Option String) (settings : Settings) (state : CircuitState) (view : View)
    (loaded : Option EndpointRow) (onTrial : Prop) (ev : Event together) : Role F → Prop
  | .delivers job =>
    (state = .halfOpen → onTrial →
      ∀ ev' ∈ asDelivery (F := F) key ev, view.spoils settings job ev' = false) ∧
    (winsTrial ev → ∀ copy ∈ view.copy, builds settings copy)
  | .edits _ => (rowOf ev.op).isSome →
      ∀ row ∈ loaded, row.circuitState = .halfOpen → state = .halfOpen

instance {key : Option String} {settings : Settings} {state : CircuitState} {view : View}
    {loaded : Option EndpointRow} {onTrial : Prop} [Decidable onTrial] {ev : Event together}
    (role : Role F) : Decidable (role.Spares key settings state view loaded onTrial ev) :=
  match role with
  | .delivers _ => inferInstanceAs (Decidable (_ ∧ (_ → ∀ copy ∈ view.copy, builds settings copy)))
  | .edits _ => inferInstanceAs (Decidable (_ → ∀ row ∈ loaded, _ → _))

instance (c : Config together ι Store Finish) : Decidable (HalfOpenUnderTrial c) :=
  inferInstanceAs (Decidable (_ → ∃ i ∈ lastWinner c.log, unfinished (c.program i)))

variable [DecidableEq ι]

/-- The view of a worker in a log. -/
def viewIn (key : Option String) (settings : Settings) (roles : ι → Role F) (i : ι)
    (log : List (ι × Event together)) : View :=
  System.ghost ((roles i).watch key settings) {} i log

/-- The step spares the trial of a half-open circuit. -/
def SparesTrial (key : Option String) (settings : Settings) (roles : ι → Role F)
    (c : Config together ι Store Finish) (label : Label (Outside × EditOutside) Nat ι) : Prop :=
  ∀ entry ∈ System.performed (Handler.sum database editEndpoint) c label,
    (roles entry.1).Spares key settings c.store.endpoint.circuitState
      (viewIn key settings roles entry.1 c.log) (loadedBy entry.1 c.log)
      (lastWinner c.log = some entry.1) entry.2

variable {key : Option String} {pk : Nat} {lib : Primitives} {settings : Settings}
  {roles : ι → Role F} {s : Store} {c d : Config together ι Store Finish}

instance (label : Label (Outside × EditOutside) Nat ι) :
    Decidable (SparesTrial key settings roles c label) :=
  inferInstanceAs (Decidable (∀ entry ∈ System.performed _ c label,
    (roles entry.1).Spares key settings _ _ _ _ entry.2))

theorem viewIn_snoc (i j : ι) (log : List (ι × Event together)) (ev : Event together) :
    viewIn key settings roles i (log ++ [(j, ev)]) =
      if j = i then ((roles i).watch key settings).track (viewIn key settings roles i log) ev
      else viewIn key settings roles i log := System.ghost_snoc _ _ _ _ _ _

/-- Every delivery keeps to the rule in every interleaving. -/
theorem sharing_follows {G : Config together ι Store Finish →
      Label (Outside × EditOutside) Nat ι → Prop}
    (h : (sharing key pk lib settings roles).Reaches G
      (beginTogether key pk lib settings roles s) c) (i : ι) :
    (c.program i).Follows ((roles i).watch key settings) View.EndedTogether
      (viewIn key settings roles i c.log) := by
  refine h.follows (D := fun i => (roles i).watch key settings) (l := fun _ => {}) rfl
    (fun i => ?_) (fun i view value p hended hagain => ?_) i
  · change ((roles i).program F key pk lib settings).Follows _ _ _
    cases roles i with
    | delivers job => exact follows_delivery_watch F pk lib job View.ready_zero
    | edits edit => exact follows_edit_watch edit pk rfl
  · change (roles i).again F key pk lib settings value = some p at hagain
    unfold Role.again at hagain
    split at hagain
    · next job retries countdown hrole =>
      obtain rfl := Option.some.inj hagain
      rw [hrole]
      exact follows_delivery_watch F pk lib job (View.Ended.again hended retries countdown rfl)
    · cases hagain

/-- The winner of the last trial is a delivery that owes its settlement and is not spoiled. -/
def Owed (key : Option String) (settings : Settings) (roles : ι → Role F)
    (log : List (ι × Event together)) : Prop :=
  ∃ i job, lastWinner log = some i ∧ roles i = .delivers job ∧
    (viewIn key settings roles i log).owes ∧ (viewIn key settings roles i log).spoiled = false

/-- A step that wins no trial keeps the settlement owed, if it comes from an edit, or if it
neither settles nor spoils a trial. -/
theorem Owed.kept {log : List (ι × Event together)} (h : Owed key settings roles log) {i : ι}
    {ev : Event together} (hwins : winsTrial ev = false)
    (hspares : ∀ job, roles i = .delivers job → lastWinner log = some i →
      ∀ ev' ∈ asDelivery (F := F) key ev,
        (viewIn key settings roles i log).spoils settings job ev' = false ∧
          ev'.op ≠ .resetCircuit ∧ ∀ openedAt, ev'.op ≠ .openCircuit openedAt) :
    Owed key settings roles (log ++ [(i, ev)]) := by
  obtain ⟨j, job, hwinner, hrole, howes, hunspoiled⟩ := h
  refine ⟨j, job, by rwa [lastWinner_snoc, hwins], hrole, ?_⟩
  rw [viewIn_snoc]
  by_cases hij : i = j
  · subst hij
    rw [if_pos rfl, hrole]
    exact owes_track howes hunspoiled (hspares job hrole hwinner)
  · rw [if_neg hij]
    exact ⟨howes, hunspoiled⟩

/-- One operation of a delivery. -/
theorem Owed.delivered
    (h : c.store.endpoint.circuitState = .halfOpen → Owed key settings roles c.log) {i : ι}
    {job : Job} (hrole : roles i = .delivers job) {op : Op} {outside : Outside}
    (hpermits : (viewIn key settings roles i c.log).permits settings op)
    (hspares : (roles i).Spares key settings c.store.endpoint.circuitState
      (viewIn key settings roles i c.log) (loadedBy i c.log) (lastWinner c.log = some i)
      ⟨.inl op, (respond outside op c.store).1⟩)
    (hstate : (respond outside op c.store).2.endpoint.circuitState = .halfOpen) :
    Owed key settings roles (c.log ++ [(i, ⟨.inl op, (respond outside op c.store).1⟩)]) := by
  rw [hrole] at hspares
  obtain ⟨hspares, hbuilds⟩ := hspares
  rcases halfOpen_respond hstate with htrial | ⟨hstate', hreset, hopening⟩
  · -- the step has won the trial itself
    obtain ⟨rfl, hopen⟩ := isTrial_respond.mp htrial
    obtain ⟨-, copy, _, _, hcopy, -, -, -, hunspoiled⟩ := hpermits
    have hwon : (respond outside .setHalfOpen c.store).1 = true := by simp [respond, hopen]
    refine ⟨i, job, by simp [winsTrial, htrial], hrole, ?_⟩
    rw [viewIn_snoc, if_pos rfl, hrole, hwon]
    exact ⟨by simp [Role.watch, asDelivery], hunspoiled (hbuilds htrial copy hcopy)⟩
  · have hwins : isTrial ⟨op, (respond outside op c.store).1⟩ = false := by
      rw [Bool.eq_false_iff, ne_eq, isTrial_respond]
      rintro ⟨-, hopen⟩
      exact absurd (hopen.symm.trans hstate') (by simp)
    refine (h hstate').kept hwins fun job' hrole' hwinner ev' hev => ?_
    obtain rfl := Role.delivers.inj (hrole.symm.trans hrole')
    refine ⟨hspares hstate' hwinner ev' hev, ?_⟩
    obtain rfl := Option.some.inj hev
    exact ⟨hreset, hopening⟩

/-- Loading the row settles nothing. -/
theorem Owed.loaded (h : Owed key settings roles c.log) {i : ι} {pk : Nat}
    {row : Option EndpointRow}
    (hspares : (roles i).Spares key settings c.store.endpoint.circuitState
      (viewIn key settings roles i c.log) (loadedBy i c.log) (lastWinner c.log = some i)
      ⟨.inr (.getRow pk), row⟩)
    (hstate : c.store.endpoint.circuitState = .halfOpen) :
    Owed key settings roles (c.log ++ [(i, ⟨.inr (.getRow pk), row⟩)]) := by
  refine h.kept rfl fun job hrole hwinner ev' hev => ?_
  rw [hrole] at hspares
  refine ⟨hspares.1 hstate hwinner ev' hev, ?_⟩
  obtain rfl := Option.some.inj hev
  exact ⟨nofun, fun _ => nofun⟩

/-- One operation of an edit, or a load. -/
theorem Owed.edited
    (h : c.store.endpoint.circuitState = .halfOpen → Owed key settings roles c.log) {i : ι}
    {op : EditOp} {outside : EditOutside}
    (hpermits : ((roles i).watch key settings).permits (viewIn key settings roles i c.log)
      (.inr op))
    (hwrites : writingBack.permits (loadedBy i c.log) op)
    (hspares : (roles i).Spares key settings c.store.endpoint.circuitState
      (viewIn key settings roles i c.log) (loadedBy i c.log) (lastWinner c.log = some i)
      ⟨.inr op, (editEndpoint outside op c.store).1⟩)
    (hstate : (editEndpoint outside op c.store).2.endpoint.circuitState = .halfOpen) :
    Owed key settings roles (c.log ++ [(i, ⟨.inr op, (editEndpoint outside op c.store).1⟩)]) := by
  have hbefore : c.store.endpoint.circuitState = .halfOpen := by
    by_cases hsave : ∃ saved, op = .saveRow saved
    · obtain ⟨saved, rfl⟩ := hsave
      obtain ⟨row, hrow, -, hcircuit⟩ := hwrites saved rfl
      rw [editEndpoint_endpoint] at hstate
      dsimp only at hstate
      split at hstate
      · cases hrole : roles i with
        | delivers job =>
          rw [hrole] at hpermits
          exact hpermits.elim
        | edits edit =>
          rw [hrole] at hspares
          refine hspares rfl row hrow ?_
          exact (congrArg CircuitColumns.circuitState hcircuit).symm.trans hstate
      · exact hstate
    · have hsame := (circuit_editEndpoint (not_exists.mp hsave) outside c.store).1
      exact (congrArg CircuitColumns.circuitState hsame).symm.trans hstate
  cases op with
  | getRow pk => exact (h hbefore).loaded hspares hbefore
  | _ =>
    refine (h hbefore).kept rfl fun job hrole => ?_
    rw [hrole] at hpermits
    exact hpermits.elim

/-- The settlement of a half-open circuit stays owed. -/
theorem owed_of_reaches (hs : s.endpoint.circuitState ≠ .halfOpen)
    (h : (sharing key pk lib settings roles).Reaches (SparesTrial key settings roles)
      (beginTogether key pk lib settings roles s) c)
    (hstate : c.store.endpoint.circuitState = .halfOpen) : Owed key settings roles c.log := by
  refine h.invariant (I := fun c => c.store.endpoint.circuitState = .halfOpen →
    Owed key settings roles c.log) (fun hstate => absurd hstate hs) ?_ hstate
  rintro c label d hc ih hG hs hstate
  cases label with
  | run i outside =>
    obtain ⟨op, rest, hp, rfl⟩ := System.step_run.mp hs
    have hspares := hG _ (System.performed_run hp _ outside)
    have hfollows := sharing_follows hc i
    have hwrites := loadedBy_follows hc i
    rw [hp] at hfollows hwrites
    cases op with
    | inl op =>
      cases hrole : roles i with
      | delivers job =>
        have hpermits := hfollows.1
        rw [hrole] at hpermits
        exact Owed.delivered ih hrole hpermits hspares hstate
      | edits edit =>
        have hpermits := hfollows.1
        rw [hrole] at hpermits
        cases hpermits
    | inr op => exact Owed.edited ih hfollows.1 hwrites.1 hspares hstate
  | relaunch i =>
    obtain ⟨_, _, -, -, rfl⟩ := System.step_relaunch.mp hs
    exact ih hstate
  | environment a =>
    obtain rfl := System.step_environment.mp hs
    exact ih hstate

/-- The circuit is half-open only while its last winner is unfinished, throughout a run of
deliveries and edits in which no step spoils a trial. -/
theorem halfOpen_under_trial (key : Option String) (pk : Nat) (lib : Primitives)
    (settings : Settings) (roles : ι → Role F) (s : Store)
    (hs : s.endpoint.circuitState ≠ .halfOpen)
    (labels : List (Label (Outside × EditOutside) Nat ι))
    (h : (sharing key pk lib settings roles).Each (SparesTrial key settings roles)
      (beginTogether key pk lib settings roles s) labels) :
    (sharing key pk lib settings roles).Always HalfOpenUnderTrial
      (beginTogether key pk lib settings roles s) labels := by
  refine h.always (fun c hc hstate => ?_) .refl
  obtain ⟨i, job, hwinner, -, howes, hunspoiled⟩ := owed_of_reaches hs hc hstate
  refine ⟨i, hwinner, ?_⟩
  have hended := sharing_follows hc i
  cases hp : c.program i with
  | call op rest => rfl
  | ret finish =>
    rw [hp] at hended
    cases finish with
    | inl finish =>
      obtain ⟨retries, countdown, rfl⟩ := View.Ended.settled hended howes hunspoiled
      rfl
    | inr result => exact absurd (howes.symm.trans hended) (by simp)

end Pool

/-! ## Runs that go wrong and runs that do not -/

/-- A delivery, and a save of the change form with another number of retries. -/
def deliveryAndForm : Bool → Role Fernet.padded
  | true => .delivers emptyJob
  | false => .edits (.admin exampleSaving { cooledDown.endpoint.shown with maxRetries := 7 })

/-- The next operation of the delivery or of the edit. -/
def takesTurn (outcome : PostOutcome) (i : Bool) : Label (Outside × EditOutside) Nat Bool :=
  .run i ({ outcome }, {})

/-- A trial that meets an exception the task does not handle. -/
def unhandledTrial : List (Label (Outside × EditOutside) Nat Bool) :=
  List.replicate 5 (takesTurn (.otherException "Exceeded 30 redirects.") true)

/-- The form is loaded while the circuit is half-open, and saved when the trial has succeeded. -/
def formAcrossTrial : List (Label (Outside × EditOutside) Nat Bool) :=
  List.replicate 3 (takesTurn (.response 200 "") true) ++ takesTurn (.response 200 "") false ::
    List.replicate 6 (takesTurn (.response 200 "") true) ++ [takesTurn (.response 200 "") false]

/-- The form is loaded and saved while the trial waits to be attempted again. -/
def formWithinTrial : List (Label (Outside × EditOutside) Nat Bool) :=
  List.replicate 8 (takesTurn (.response 503 "") true) ++
    List.replicate 2 (takesTurn (.response 503 "") false) ++ .relaunch true ::
      List.replicate 10 (takesTurn (.response 400 "") true)

/-- The trial is over, and the circuit stays half-open. -/
theorem halfOpen_after_unhandled_exception :
    ¬ (sharing exampleKey 1 emptyLib {} deliveryAndForm).Always HalfOpenUnderTrial
      (beginTogether exampleKey 1 emptyLib {} deliveryAndForm cooledDown) unhandledTrial := by
  decide +kernel

/-- The trial has closed the circuit, and the edit puts the half-open one back. -/
example : ¬ (sharing exampleKey 1 emptyLib {} deliveryAndForm).Always HalfOpenUnderTrial
    (beginTogether exampleKey 1 emptyLib {} deliveryAndForm cooledDown) formAcrossTrial := by
  decide +kernel

theorem halfOpen_under_trial_edited :
    (sharing exampleKey 1 emptyLib {} deliveryAndForm).Always HalfOpenUnderTrial
      (beginTogether exampleKey 1 emptyLib {} deliveryAndForm cooledDown) formWithinTrial :=
  halfOpen_under_trial _ _ _ _ _ _ (by decide) _ (by decide +kernel)

end WebhookRelay
