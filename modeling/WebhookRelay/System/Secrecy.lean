import WebhookRelay.Delivery.Secrecy
import WebhookRelay.System.Conduct

/-!
# Secrets do not spread

Two runs of the deployment under the same scheduling, on tables, with answers of the secrets
manager and with default secrets that differ in the secrets only: whatever the processes do, they
do in both, and apart from the secrets in the table and the signatures of the requests everything
that there is afterwards is the same. So no secret gets into an audit row, a message, a metric or
the result of a task.

## Main results

* `secrets_confined` — the two runs are the same but for the secrets and the signatures.
-/

namespace WebhookRelay

open Interleaving Program Dictionary Messaging

/-! ## The deployment without its secrets -/

def Subscription.withoutSecrets (row : Subscription) : Subscription :=
  { row with endpoint := row.endpoint.withoutSecrets }

def EndpointTable.withoutSecrets (table : EndpointTable) : EndpointTable where
  rows := mapValues Subscription.withoutSecrets table.rows
  keys_nodup := by simpa using table.keys_nodup
  pk_eq row h := by
    obtain ⟨old, hold, rfl⟩ := List.mem_map.mp h
    exact table.pk_eq old hold

/-- The deployment as it is seen by somebody who cannot read the secrets in the table and cannot
check the signatures of the requests. -/
def Deployment.withoutSecrets (settings : Settings) (s : Deployment) : Deployment :=
  { s with
    endpoints := s.endpoints.withoutSecrets
    sent := s.sent.map (Request.withoutSignatures settings) }

def Circumstances.withoutSecrets (e : Circumstances) : Circumstances :=
  { e with secret := e.secret.withoutSecret }

def Intervention.withoutSecrets : Intervention → Intervention
  | .saveEndpoint pk row => .saveEndpoint pk row.withoutSecrets
  | a => a

/-- What a process has done and got, apart from the secrets. -/
def withoutSecrets (settings : Settings) : Event deployment → Event deployment
  | ⟨.statement message .getEnabled, found⟩ =>
    ⟨.statement message .getEnabled, hidingSecrets found⟩
  | ⟨.statement message (.getSecretValue secretId), answer⟩ =>
    ⟨.statement message (.getSecretValue secretId), SecretsAnswer.withoutSecret answer⟩
  | ⟨.statement message (.post request), outcome⟩ =>
    ⟨.statement message (.post (request.withoutSignatures settings)), outcome⟩
  | ev => ev

/-! ### The table -/

namespace EndpointTable

variable (table : EndpointTable) (pk : Nat)

theorem eq_of_rows {table table' : EndpointTable} (h : table.rows = table'.rows) :
    table = table' := by
  cases table
  cases table'
  cases h
  rfl

theorem get?_withoutSecrets :
    table.withoutSecrets.get? pk = (table.get? pk).map WebhookEndpoint.withoutSecrets := by
  rw [get?, get?, withoutSecrets, lookup_mapValues, Option.map_map, Option.map_map]
  rfl

theorem enabledFor_withoutSecrets (event : String) :
    table.withoutSecrets.enabledFor event = table.enabledFor event := by
  simp only [enabledFor, withoutSecrets, mapValues, keys, List.filter_map, List.map_map]
  rfl

theorem withoutSecrets_update (f : WebhookEndpoint → WebhookEndpoint)
    (hf : ∀ endpoint, (f endpoint).pk = endpoint.pk)
    (hsecrets : ∀ endpoint, (f endpoint).withoutSecrets = f endpoint.withoutSecrets) :
    (table.update pk f hf).withoutSecrets = table.withoutSecrets.update pk f hf := by
  refine eq_of_rows (mapValues_modify table.rows pk Subscription.withoutSecrets
    (fun row => { row with endpoint := f row.endpoint })
    (fun row => { row with endpoint := f row.endpoint }) fun row => ?_)
  exact congrArg (Subscription.mk row.event) (hsecrets row.endpoint)

theorem withoutSecrets_save (row : Subscription) :
    (table.save pk row).withoutSecrets = table.withoutSecrets.save pk row.withoutSecrets :=
  eq_of_rows (mapValues_set table.rows pk _ _)

theorem withoutSecrets_delete :
    (table.delete pk).withoutSecrets = table.withoutSecrets.delete pk :=
  eq_of_rows (mapValues_erase table.rows pk _)

end EndpointTable

/-! ### The operations -/

/-- The operations that neither give nor take a secret or what is made of one. -/
def SystemOp.blind : SystemOp → Bool
  | .statement _ op => op.blind
  | _ => true

section Operations

variable {settings : Settings} (e : Circumstances) (s : Deployment)

theorem updateEndpoint_withoutSecrets (pk : Nat) (f : WebhookEndpoint → WebhookEndpoint)
    (hf : ∀ endpoint, (f endpoint).pk = endpoint.pk)
    (hsecrets : ∀ endpoint, (f endpoint).withoutSecrets = f endpoint.withoutSecrets) :
    (s.updateEndpoint pk f hf).withoutSecrets settings =
      (s.withoutSecrets settings).updateEndpoint pk f hf := by
  simp only [Deployment.updateEndpoint, Deployment.withoutSecrets,
    s.endpoints.withoutSecrets_update pk f hf hsecrets]

/-- A statement that is blind is answered as it is without the secrets. -/
theorem execute_withoutSecrets (pk : Nat) {op : Op} (hop : op.blind) :
    execute e.withoutSecrets.toOutside pk op (s.withoutSecrets settings) =
      ((execute e.toOutside pk op s).1,
        (execute e.toOutside pk op s).2.withoutSecrets settings) := by
  cases op with
  | getEnabled | getSecretValue | post => cases hop
  | now | monotonic | sendSignal | incr => rfl
  | setHalfOpen =>
    have hstate : ((s.withoutSecrets settings).endpoints.get? pk).any
        (fun row => decide (row.circuitState = .open)) =
          (s.endpoints.get? pk).any fun row => decide (row.circuitState = .open) := by
      change ((s.endpoints.withoutSecrets).get? pk).any _ = _
      rw [EndpointTable.get?_withoutSecrets, Option.any_map]
      rfl
    simp only [execute]
    rw [hstate]
    split
    · exact congrArg (Prod.mk true) (updateEndpoint_withoutSecrets s pk
        WebhookEndpoint.halfOpened (fun _ => rfl) fun _ => rfl).symm
    · rfl
  | resetCircuit =>
    exact congrArg (Prod.mk ()) (updateEndpoint_withoutSecrets s pk
      WebhookEndpoint.reset (fun _ => rfl) fun _ => rfl).symm
  | incrementFailures =>
    exact congrArg (Prod.mk ()) (updateEndpoint_withoutSecrets s pk
      (fun row => row.counting (row.consecutiveFailures + 1)) (fun _ => rfl) fun _ => rfl).symm
  | openCircuit openedAt =>
    exact congrArg (Prod.mk ()) (updateEndpoint_withoutSecrets s pk
      (fun row => row.opened openedAt) (fun _ => rfl) fun _ => rfl).symm
  | refreshFailures =>
    simp only [execute, Deployment.withoutSecrets, EndpointTable.get?_withoutSecrets,
      Option.map_map]
    rfl
  | createAttempt attempt =>
    simp only [execute, Deployment.withoutSecrets, EndpointTable.get?_withoutSecrets]
    cases s.endpoints.get? attempt.endpointId <;> rfl

theorem serve_withoutSecrets {op : SystemOp} (hop : op.blind) :
    serve e.withoutSecrets op (s.withoutSecrets settings) =
      ((serve e op s).1, (serve e op s).2.withoutSecrets settings) := by
  cases op with
  | statement message op => exact execute_withoutSecrets e s message.endpointId hop
  | endpointIds event =>
    exact congrArg (·, s.withoutSecrets settings) (s.endpoints.enabledFor_withoutSecrets event)
  | publish message =>
    cases harrives : e.publication.arrives <;>
      simp [serve, harrives, Circumstances.withoutSecrets, Deployment.withoutSecrets]
  | _ => rfl

theorem intervene_withoutSecrets (a : Intervention) :
    (intervene a s).withoutSecrets settings =
      intervene a.withoutSecrets (s.withoutSecrets settings) := by
  cases a with
  | tick duration => rfl
  | saveEndpoint pk row =>
    exact congrArg (fun table => { s.withoutSecrets settings with endpoints := table })
      (s.endpoints.withoutSecrets_save pk row)
  | deleteEndpoint pk =>
    exact congrArg (fun table =>
      { s.withoutSecrets settings with
        endpoints := table
        attempts := s.attempts.filter fun row => row.attempt.endpointId ≠ pk })
      (s.endpoints.withoutSecrets_delete pk)

end Operations

/-! ## Processes in lockstep -/

/-- Operations of the deployment go together as those of a delivery do. -/
inductive Discreetly (settings : Settings) : Coupling deployment deployment where
  | blind {op : SystemOp} : op.blind → Discreetly settings op op Eq
  | load {message : Message} :
      Discreetly settings (.statement message .getEnabled) (.statement message .getEnabled)
        fun a b => hidingSecrets a = hidingSecrets b
  | secret {message : Message} {secretId : String} :
      Discreetly settings (.statement message (.getSecretValue secretId))
        (.statement message (.getSecretValue secretId))
        fun (a b : SecretsAnswer) => a.withoutSecret = b.withoutSecret
  | request {message : Message} {request request' : Request} :
      request.withoutSignatures settings = request'.withoutSignatures settings →
      Discreetly settings (.statement message (.post request)) (.statement message (.post request'))
        Eq

/-- The site with another default secret. -/
def Site.defaulting (site : Site) (defaultSecret : String) : Site :=
  { site with settings := site.settings.defaulting defaultSecret }

section Processes

variable {settings : Settings}

/-- The statements for operations that go together do so as well. -/
theorem discreet_perform (message : Message) {op op' : Op}
    {answers : op.Answer → op'.Answer → Prop} (h : Secretly settings op op' answers) :
    Lockstep (Discreetly settings) (Lockstep.Caught Eq answers)
      (perform (α := TaskEnd × Payload) message op) (perform message op') := by
  cases h with
  | blind hop =>
    refine .call (.blind hop) fun reply _ hreply => ?_
    subst hreply
    cases op.read reply with
    | error e => exact .ret (.ended rfl)
    | ok answer => exact .ret (.answered rfl)
  | load => exact .call .load fun _ _ halike => .ret (.answered halike)
  | secret => exact .call .secret fun _ _ halike => .ret (.answered halike)
  | request hrequest => exact .call (.request hrequest) fun _ _ halike => .ret (.answered halike)

/-- What is left of the raw payload does not depend on the secrets. -/
theorem leaveBehind_alike {op op' : Op} {answers : op.Answer → op'.Answer → Prop}
    {a : op.Answer} {b : op'.Answer} {raw raw' : Payload} (h : Secretly settings op op' answers)
    (hanswers : answers a b) (hraw : raw = raw') :
    leaveBehind raw ⟨op, a⟩ = leaveBehind raw' ⟨op', b⟩ := by
  subst hraw
  cases h with
  | blind => rw [hanswers]
  | load =>
    match a, b with
    | .error _, .error _ | .ok none, .ok none => rfl
    | .error _, .ok _ | .ok _, .error _ => cases hanswers
    | .ok none, .ok (some _) | .ok (some _), .ok none => cases hanswers
    | .ok (some endpoint), .ok (some endpoint') =>
      have hrow := Option.some.inj (Except.ok.inj hanswers)
      rw [WebhookEndpoint.eq_of_withoutSecrets hrow]
      rfl
  | secret | request => rfl

variable (lib : Primitives) (settings) (defaultSecret : String)

theorem discreet_runAttempt (message : Message) :
    Lockstep (Discreetly settings) Eq (runAttempt lib settings message)
      (runAttempt lib (settings.defaulting defaultSecret) message) := by
  have htracked := (secrecy_deliverWebhook lib settings defaultSecret message.job
    message.retries).tracked (R := Eq) leaveBehind_alike (rfl : message.rawPayload = _)
  refine htracked.translate (discreet_perform message) ?_
  rintro ⟨finish, left⟩ ⟨finish', left'⟩ ⟨hfinish, hleft⟩
  rw [show finish = finish' from hfinish, show left = left' from hleft]

theorem discreet_concludeTask (tag : Nat) (message : Message)
    (result : Except DatabaseError (TaskEnd × Payload)) :
    Lockstep (Discreetly settings) Eq (concludeTask tag message result)
      (concludeTask tag message result) := by
  match result with
  | .error _ | .ok (.raised _, _) | .ok (.returned, _) =>
    exact .call (.blind rfl) fun _ _ _ => .ret rfl
  | .ok (.retry _ _, _) =>
    refine .call (.blind rfl) fun (publication : Publication) _ hpublication => ?_
    subst hpublication
    cases publication with
    | confirmed => exact .call (.blind rfl) fun _ _ _ => .ret rfl
    | _ => exact .call (.blind rfl) fun _ _ _ => .ret rfl

theorem discreet_work :
    Lockstep (Discreetly settings) Eq (work lib settings)
      (work lib (settings.defaulting defaultSecret)) := by
  refine .call (.blind rfl) fun (delivery : Option (Nat × Message)) _ hdelivery => ?_
  subst hdelivery
  match delivery with
  | none => exact .ret rfl
  | some (tag, message) =>
    refine (discreet_runAttempt settings lib defaultSecret message).bind fun result _ hresult => ?_
    subst hresult
    exact discreet_concludeTask settings tag message result

end Processes

/-- Who runs no attempts has nothing to do with secrets. -/
theorem blind_of_bystanding {progress : WorkerProgress} {op : SystemOp}
    (h : bystanding.permits progress op) : op.blind := by
  cases op with
  | statement message op => cases h
  | _ => rfl

theorem discreet_program (site : Site) (defaultSecret : String) (duty : Duty) :
    Lockstep (Discreetly site.settings) Eq (duty.program site)
      (duty.program (site.defaulting defaultSecret)) := by
  have hfollows := duty.follows_program site
  cases duty with
  | worker => exact discreet_work site.settings site.lib defaultSecret
  | _ => exact .of_permits (fun _ _ hop => .blind (blind_of_bystanding hop)) hfollows

/-! ## Two deployments -/

section Deployments

variable {settings : Settings} {e e' : Circumstances} {s t : Deployment}

/-- The row that an attempt loads. -/
theorem enabled_alike (h : s.withoutSecrets settings = t.withoutSecrets settings) (pk : Nat) :
    ((s.endpoints.get? pk).filter (·.enabled)).map WebhookEndpoint.withoutSecrets =
      ((t.endpoints.get? pk).filter (·.enabled)).map WebhookEndpoint.withoutSecrets := by
  have hfilter : ∀ found : Option WebhookEndpoint,
      (found.filter (·.enabled)).map WebhookEndpoint.withoutSecrets =
        (found.map WebhookEndpoint.withoutSecrets).filter (·.enabled) := by
    intro found
    cases found with
    | none => rfl
    | some endpoint => cases henabled : endpoint.enabled <;>
        simp [Option.filter, WebhookEndpoint.withoutSecrets, WebhookEndpoint.keeping, henabled]
  have htable : s.endpoints.withoutSecrets = t.endpoints.withoutSecrets :=
    congrArg Deployment.endpoints h
  rw [hfilter, hfilter, ← EndpointTable.get?_withoutSecrets, htable,
    EndpointTable.get?_withoutSecrets]

/-- An attempt finds the same but for the secrets, unless the load raises. -/
theorem execute_load (outside : Outside) (pk : Nat) (s : Deployment) :
    (execute outside pk .getEnabled s).2 = s ∧
      hidingSecrets (execute outside pk .getEnabled s).1 =
        match ((s.endpoints.get? pk).filter (·.enabled)).map WebhookEndpoint.withoutSecrets with
        | none => .ok none
        | some row => outside.load row := by
  rw [execute]
  cases (s.endpoints.get? pk).filter (·.enabled) with
  | none => exact ⟨rfl, rfl⟩
  | some row =>
    refine ⟨rfl, ?_⟩
    simp only [Outside.load, Option.map_some]
    cases outside.keyError <;> rfl

theorem load_alike (outside outside' : Outside) (hkey : outside.keyError = outside'.keyError)
    (h : s.withoutSecrets settings = t.withoutSecrets settings) (pk : Nat) :
    hidingSecrets (execute outside pk .getEnabled s).1 =
      hidingSecrets (execute outside' pk .getEnabled t).1 := by
  rw [(execute_load outside pk s).2, (execute_load outside' pk t).2, enabled_alike h]
  simp only [Outside.load, hkey]

theorem serve_post (e : Circumstances) (s : Deployment) (message : Message) (request : Request) :
    (serve e (.statement message (.post request)) s).2.withoutSecrets settings =
      { s.withoutSecrets settings with
        sent := (s.withoutSecrets settings).sent ++ [request.withoutSignatures settings]
        clock := (s.withoutSecrets settings).clock + e.elapsed } := by
  simp [serve, execute, Deployment.withoutSecrets]

/-- Deployments that are the same but for the secrets remain so under every operation. -/
theorem serve_alike (he : e.withoutSecrets = e'.withoutSecrets) :
    Lockstep.Respects (Discreetly settings)
      (fun s t => s.withoutSecrets settings = t.withoutSecrets settings) serve serve e e' := by
  intro op op' answers s t hop hst
  cases hop with
  | blind hblind =>
    have hs : serve e.withoutSecrets op (s.withoutSecrets settings) =
        ((serve e op s).1, (serve e op s).2.withoutSecrets settings) :=
      serve_withoutSecrets e s hblind
    rw [he, hst, serve_withoutSecrets e' t hblind, Prod.mk.injEq] at hs
    exact ⟨hs.1.symm, hs.2.symm⟩
  | @load message =>
    have hkey : e.withoutSecrets.keyError = e'.withoutSecrets.keyError := by rw [he]
    refine ⟨load_alike e.toOutside e'.toOutside hkey hst _, ?_⟩
    exact (congrArg _ (execute_load e.toOutside message.endpointId s).1).trans
      (hst.trans (congrArg _ (execute_load e'.toOutside message.endpointId t).1).symm)
  | secret => exact ⟨congrArg (fun e : Circumstances => e.secret) he, hst⟩
  | @request message request request' hrequest =>
    have houtcome : e.withoutSecrets.outcome = e'.withoutSecrets.outcome := by rw [he]
    have helapsed : e.withoutSecrets.elapsed = e'.withoutSecrets.elapsed := by rw [he]
    refine ⟨houtcome, ?_⟩
    beta_reduce
    rw [serve_post, serve_post, hst, hrequest, show e.elapsed = e'.elapsed from helapsed]

variable {ι : Type} [DecidableEq ι]

omit [DecidableEq ι] in
/-- The two deployments cannot be told apart but by the secrets. -/
theorem deployed_twins (site : Site) (defaultSecret : String) (duties : ι → Duty) :
    Twins (Discreetly site.settings) Eq
      (fun s t => s.withoutSecrets site.settings = t.withoutSecrets site.settings)
      (fun e e' => e.withoutSecrets = e'.withoutSecrets)
      (fun a a' => a.withoutSecrets = a'.withoutSecrets) (deployed site duties)
      (deployed (site.defaulting defaultSecret) duties) where
  handle e e' he := serve_alike he
  environment a a' s t ha hst := by
    change (intervene a s).withoutSecrets _ = (intervene a' t).withoutSecrets _
    rw [intervene_withoutSecrets, intervene_withoutSecrets, ha, hst]
  relaunch i _ _ _ := by
    change Option.Rel _ (if _ then _ else _) (if _ then _ else _)
    split
    · exact .some (discreet_program site defaultSecret (duties i))
    · exact .none

/-- What the processes have done together is the same apart from the secrets. -/
theorem together_withoutSecrets {ev ev' : Event deployment}
    (h : Lockstep.Together (Discreetly settings) ev ev') :
    withoutSecrets settings ev = withoutSecrets settings ev' := by
  obtain ⟨op, answer⟩ := ev
  obtain ⟨op', answer'⟩ := ev'
  obtain ⟨answers, hop, hanswers⟩ := h
  cases hop with
  | blind => rw [show answer = answer' from hanswers]
  | load => exact congrArg (Event.mk (S := deployment) (.statement _ .getEnabled)) hanswers
  | secret =>
    exact congrArg (Event.mk (S := deployment) (.statement _ (.getSecretValue _))) hanswers
  | request hrequest =>
    rw [show answer = answer' from hanswers]
    exact congrArg (fun request => (⟨.statement _ (.post request), answer'⟩ : Event deployment))
      hrequest

/-- The log without the secrets. -/
def logWithoutSecrets (settings : Settings) (log : List (ι × Event deployment)) :
    List (ι × Event deployment) :=
  log.map fun entry => (entry.1, withoutSecrets settings entry.2)

omit [DecidableEq ι] in
theorem log_alike {log log' : List (ι × Event deployment)}
    (h : List.Forall₂ (fun x y => x.1 = y.1 ∧
      Lockstep.Together (Discreetly settings) x.2 y.2) log log') :
    logWithoutSecrets settings log = logWithoutSecrets settings log' := by
  induction h with
  | nil => rfl
  | cons hentry _ ih =>
    exact congrArg₂ List.cons (Prod.ext hentry.1 (together_withoutSecrets hentry.2)) ih

/-- Let two deployments be the same but for the secrets in the table and the default secret, and
let the same happen to them, except that an administrator may save other secrets and the secrets
manager may answer with others; the key of the settings raises in both or in neither. Then every
process can do in one what it does in the other, with the same answers; and apart from the
secrets in the table and the signatures of the requests the messages, rows, metrics, requests
and states of tasks are the same. -/
theorem secrets_confined {site : Site} (defaultSecret : String) {duties : ι → Duty}
    {labels labels' : List (Label Circumstances Intervention ι)}
    {c : Config deployment ι Deployment Unit}
    (hstore : s.withoutSecrets site.settings = t.withoutSecrets site.settings)
    (hlabels : List.Forall₂ (LabelsAlike (fun e e' => e.withoutSecrets = e'.withoutSecrets)
      fun a a' => a.withoutSecrets = a'.withoutSecrets) labels labels')
    (hc : (deployed site duties).schedule (boot site duties s) labels = some c) :
    ∃ d, (deployed (site.defaulting defaultSecret) duties).schedule
        (boot (site.defaulting defaultSecret) duties t) labels' = some d ∧
      c.store.withoutSecrets site.settings = d.store.withoutSecrets site.settings ∧
      logWithoutSecrets site.settings c.log = logWithoutSecrets site.settings d.log := by
  have hstart : (boot site duties s).Alike (Discreetly site.settings) Eq
      (fun s t => s.withoutSecrets site.settings = t.withoutSecrets site.settings)
      (boot (site.defaulting defaultSecret) duties t) :=
    ⟨hstore, fun i => discreet_program site defaultSecret (duties i), .nil⟩
  obtain ⟨d, hd, halike⟩ :=
    (deployed_twins site defaultSecret duties).schedule hstart hlabels hc
  exact ⟨d, hd, halike.store, log_alike halike.log⟩

/-- The endpoint of `oneSubscriber` with a secret. -/
def signedSubscriber : Deployment where
  endpoints := EndpointTable.empty.save 1
    { event := "COURSE_PASSING_STATUS_UPDATED"
      endpoint := { newEndpoint with onlyOnPassing := false, signingSecret := "hunter2" } }

/-- A delivery that is signed, and one that is not. -/
theorem secrets_confined_signed :
    ∃ c d, (deployed emptySite receiverAndWorker).schedule
        (boot emptySite receiverAndWorker signedSubscriber) (servedOnce 200 9) = some c ∧
      (deployed (emptySite.defaulting "") receiverAndWorker).schedule
        (boot (emptySite.defaulting "") receiverAndWorker oneSubscriber) (servedOnce 200 9) =
          some d ∧
      c.store.sent.map (fun request => request.headers.length) = [4] ∧
      d.store.sent.map (fun request => request.headers.length) = [3] ∧
      c.store.withoutSecrets emptySite.settings = d.store.withoutSecrets emptySite.settings := by
  have hsigned : ((deployed emptySite receiverAndWorker).schedule
      (boot emptySite receiverAndWorker signedSubscriber) (servedOnce 200 9)).map
        (fun c => c.store.sent.map fun request => request.headers.length) = some [4] := by
    decide +kernel
  have hplain : ((deployed (emptySite.defaulting "") receiverAndWorker).schedule
      (boot (emptySite.defaulting "") receiverAndWorker oneSubscriber) (servedOnce 200 9)).map
        (fun c => c.store.sent.map fun request => request.headers.length) = some [3] := by
    decide +kernel
  obtain ⟨c, hc, hcount⟩ := Option.map_eq_some_iff.mp hsigned
  have hsame : List.Forall₂ (LabelsAlike (fun e e' => e.withoutSecrets = e'.withoutSecrets)
      fun a a' => a.withoutSecrets = a'.withoutSecrets)
      (servedOnce 200 9 : List (Label Circumstances Intervention (Fin 2))) (servedOnce 200 9) := by
    refine List.forall₂_same.mpr fun label _ => ?_
    cases label with
    | run i e => exact .run rfl
    | relaunch i => exact .relaunch
    | environment a => exact .environment rfl
  obtain ⟨d, hd, hstore, -⟩ :=
    secrets_confined "" (s := signedSubscriber) (t := oneSubscriber) rfl hsame hc
  rw [hd, Option.map_some, Option.some.injEq] at hplain
  exact ⟨c, d, hc, hd, hcount, hplain, hstore⟩

end Deployments

end WebhookRelay
